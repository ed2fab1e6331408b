/-
# What a receiver keeps of a stream

`src/ssrc_context.hpp`: the numbers behind a receiver report.  `track_packet` takes
the 16-bit number of every packet, keeps the highest one and counts the times it
wrapped; `advance_prior` closes a report interval, and `fraction_lost` is the share
of it that is missing.  Counters are the source's own unsigned types.

The clock is nanoseconds; `arrivalTs` is a reading in units of the 90 kHz video
clock, at millisecond steps.
-/

import AsioRtc.Nack.Generator

namespace AsioRtc

open Lib

/-- `ssrc_context`. -/
structure SsrcContext where
  ssrc : U32
  maxSeq : U32 := 0
  cycles : U64 := 0
  baseSeq : U32 := 0
  baseSeqSet : Bool := false
  packetsExpected : U64 := 0
  packetsReceived : U64 := 0
  expectedPrior : U64 := 0
  receivedPrior : U64 := 0
  jitterQ4 : ℤ := 0
  lastArrivalTs : U32 := 0
  lastRtpTs : U32 := 0
  lsr : U64 := 0
  lsrTime : ℤ := 0
  consecutiveLost : ℤ := 0
  nackGen : NackGenerator := { historySize := 1024, maxRetries := 10, rttMs := 100, nackDelayMs := 10 }

namespace SsrcContext

/-- The arrival time of `track_packet`. -/
def arrivalTs (now : ℤ) : U32 := BitVec.ofInt 32 ((now.tdiv 1000).tdiv 1000 * 90)

/-- The part of `track_packet` on sequence numbers. -/
def trackSeq (c : SsrcContext) (seq : U16) : SsrcContext :=
  let s := seq.setWidth 32
  let c := if !c.baseSeqSet then { c with baseSeq := s, baseSeqSet := true } else c
  let c :=
    if s < c.maxSeq then
      if 0x8000 < c.maxSeq - s then { c with cycles := c.cycles + 0x10000, maxSeq := s } else c
    else { c with maxSeq := s }
  { c with
    packetsExpected := c.cycles + c.maxSeq.setWidth 64 - c.baseSeq.setWidth 64 + 1
    packetsReceived := c.packetsReceived + 1 }

/-- The part of `track_packet` on the jitter. -/
def trackJitter (c : SsrcContext) (rtpTs : U32) (now : ℤ) : SsrcContext :=
  let arrTs := arrivalTs now
  let jitter :=
    if c.lastArrivalTs ≠ 0 then
      let transit := (arrTs - c.lastArrivalTs).toInt - (rtpTs - c.lastRtpTs).toInt
      c.jitterQ4 + (transit.natAbs - (c.jitterQ4 + 8) / 16)
    else c.jitterQ4
  { c with jitterQ4 := jitter, lastArrivalTs := arrTs, lastRtpTs := rtpTs }

/-- `ssrc_context::track_packet`. -/
def trackPacket (c : SsrcContext) (seq : U16) (rtpTs : U32) (now : ℤ) : SsrcContext :=
  (c.trackSeq seq).trackJitter rtpTs now

/-- `ssrc_context::check_gap`. -/
def checkGap (c : SsrcContext) (prevExpected : U64) : Bool :=
  c.baseSeqSet && prevExpected + 1 < c.packetsExpected

/-- `ssrc_context::record_sr`. -/
def recordSr (c : SsrcContext) (ntpTs : U64) (now : ℤ) : SsrcContext :=
  { c with lsr := ntpTs, lsrTime := now }

/-- `ssrc_context::extended_max`. -/
def extendedMax (c : SsrcContext) : U32 := (c.cycles + c.maxSeq.setWidth 64).setWidth 32

/-- `ssrc_context::packets_expected_count`. -/
def packetsExpectedCount (c : SsrcContext) : U64 := c.packetsExpected

/-- `ssrc_context::advance_prior`. -/
def advancePrior (c : SsrcContext) : SsrcContext :=
  { c with expectedPrior := c.packetsExpected, receivedPrior := c.packetsReceived }

/-- `ssrc_context::fraction_lost`. -/
def fractionLost (c : SsrcContext) : U8 :=
  let ei := c.packetsExpected - c.expectedPrior
  let ri := c.packetsReceived - c.receivedPrior
  let li := ei.toInt - ri.toInt
  if ei = 0 ∨ li ≤ 0 then 0 else ((BitVec.ofInt 64 li <<< 8) / ei).setWidth 8

end SsrcContext
end AsioRtc
