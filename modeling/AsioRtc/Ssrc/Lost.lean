/-
# What a receiver report says is lost

`fraction_lost` of `src/ssrc_context.hpp` and the report block of `_receiver_rtcp_loop`
in `src/connection_impl.cpp`.  A total loss would be 256 of 256 and wrap to none in the
eight bits of the fraction.  It does not come up: the expected count only changes where
a packet is received (`Tally.expected`), so an interval in which packets are expected has
at least one that was received, and the quotient stays below 256 (`quotient_le`).

The counters have 64 bits and are compared as signed ones.  Below `2^63` the report is
right (`lost_reported`), and up to `2^47` packets no difference of counts underflows
(`counted_of_run`).  A stream that wraps with every second packet expects more than `2^63`
after some `2^48` of them (`long_runs_misreported`).

The delay since the last sender report is computed in floating point; it is a parameter
of the block here.
-/

import AsioRtc.Rtcp.Compound
import AsioRtc.Rtcp.Messages
import AsioRtc.Ssrc.Extended

namespace AsioRtc

open Lib

namespace SsrcContext

/-- `ei` of `fraction_lost`. -/
def expectedInterval (c : SsrcContext) : U64 := c.packetsExpected - c.expectedPrior

/-- `ri` of `fraction_lost`. -/
def receivedInterval (c : SsrcContext) : U64 := c.packetsReceived - c.receivedPrior

/-- `li` of `fraction_lost`. -/
def lostInterval (c : SsrcContext) : ℤ := c.expectedInterval.toInt - c.receivedInterval.toInt

/-- The quotient of `fraction_lost`, before it is cast to eight bits. -/
def lostQuotient (c : SsrcContext) : U64 :=
  (BitVec.ofInt 64 c.lostInterval <<< 8) / c.expectedInterval

/-- `cumulative_lost` of `_receiver_rtcp_loop`. -/
def cumulativeLost (c : SsrcContext) : ℤ :=
  let lost := c.packetsExpected.toInt - c.packetsReceived.toInt
  let lost := if lost < 0 then 0 else lost
  if 0x7FFFFF < lost then 0x7FFFFF else lost

/-- The report block of `_receiver_rtcp_loop`. -/
def reportBlock (c : SsrcContext) (dlsr : U32) : ReportBlock :=
  { ssrc := c.ssrc
    fractionLost := c.fractionLost
    cumulativeLost := BitVec.ofInt 32 c.cumulativeLost
    extHighestSeq := c.extendedMax
    jitter := BitVec.ofInt 32 (c.jitterQ4 / 16)
    lsr := (c.lsr >>> 16).setWidth 32
    dlsr := dlsr }

/-- `fraction_lost` divides by a non-zero interval, and its quotient fits eight bits. -/
def FractionFits (c : SsrcContext) : Prop :=
  ¬ (c.expectedInterval = 0 ∨ c.lostInterval ≤ 0) →
    c.expectedInterval ≠ 0 ∧ c.lostQuotient.toNat ≤ 255 ∧
      c.fractionLost.toNat = c.lostQuotient.toNat

/-- `fraction_lost` is zero where as many packets were received as expected. -/
def NoneLost (c : SsrcContext) : Prop :=
  c.expectedInterval ≤ c.receivedInterval → c.fractionLost = 0

/-- The cumulative number is the difference of the counts, within its range. -/
def CumulativeRight (c : SsrcContext) : Prop :=
  c.cumulativeLost =
    max 0 (min ((c.packetsExpected.toNat : ℤ) - c.packetsReceived.toNat) 0x7FFFFF)

/-- The report of the block is read back as it was, with the cumulative number in it. -/
def ReadBack (c : SsrcContext) : Prop :=
  ∀ dlsr, RtcpPacket.parse (c.reportBlock dlsr).report.bytes =
      .ok (some (c.reportBlock dlsr).report) ∧
    ((c.reportBlock dlsr).cumulativeLost.toNat : ℤ) = c.cumulativeLost

/-- The packets of a history. -/
def packets : List (SsrcContext × Call) → ℕ
  | [] => 0
  | (_, .trackPacket _ _ _) :: h => packets h + 1
  | _ :: h => packets h

/-- The packets since the last `advance_prior`. -/
def interval : List (SsrcContext × Call) → ℕ
  | [] => 0
  | (_, .trackPacket _ _ _) :: h => interval h + 1
  | (_, .advancePrior) :: _ => 0
  | _ :: h => interval h

variable {c : SsrcContext} {h : List (SsrcContext × Call)}

theorem interval_le_packets (h : List (SsrcContext × Call)) : interval h ≤ packets h := by
  induction h with
  | nil => exact le_rfl
  | cons p h ih =>
    obtain ⟨c, e⟩ := p
    cases e with
    | trackPacket n rtpTs now => exact Nat.succ_le_succ ih
    | recordSr ntpTs now => exact ih
    | advancePrior => exact Nat.zero_le _

/-- The counters hold the counts, and where no packet has come since the last report, none is
expected. -/
structure Tally (h : List (SsrcContext × Call)) (c : SsrcContext) : Prop where
  total : c.packetsReceived = BitVec.ofNat 64 (packets h)
  received : c.receivedInterval = BitVec.ofNat 64 (interval h)
  expected : interval h = 0 → c.expectedInterval = 0

theorem trackPacket_received (c : SsrcContext) (seq : U16) (rtpTs : U32) (now : ℤ) :
    (c.trackPacket seq rtpTs now).packetsReceived = c.packetsReceived + 1 ∧
      (c.trackPacket seq rtpTs now).receivedPrior = c.receivedPrior ∧
      (c.trackPacket seq rtpTs now).expectedPrior = c.expectedPrior := by
  simp only [trackPacket, trackJitter, trackSeq]
  split_ifs <;> exact ⟨rfl, rfl, rfl⟩

/-- Every call keeps the tally. -/
theorem Tally.call (ht : Tally h c) (e : Call) : Tally ((c, e) :: h) (c.call e) := by
  cases e with
  | trackPacket n rtpTs now =>
    obtain ⟨hrec, hprior, -⟩ := trackPacket_received c (BitVec.ofInt 16 n) rtpTs now
    have hone : ∀ k, BitVec.ofNat 64 k + 1 = BitVec.ofNat 64 (k + 1) := fun k =>
      (BitVec.ofNat_add k 1).symm
    refine ⟨?_, ?_, fun h0 => absurd h0 (Nat.succ_ne_zero _)⟩
    · rw [SsrcContext.call, hrec, ht.total]
      exact hone _
    · have := ht.received
      rw [SsrcContext.call, receivedInterval, hrec, hprior]
      rw [receivedInterval] at this
      rw [add_sub_right_comm, this]
      exact hone _
  | recordSr ntpTs now => exact ⟨ht.total, ht.received, ht.expected⟩
  | advancePrior =>
    exact ⟨ht.total, sub_self c.packetsReceived, fun _ => sub_self c.packetsExpected⟩

/-- Wherever a run gets to, the counters hold the counts. -/
theorem tally_of_run {ssrc : U32} (hr : Run (machine ssrc) (fun _ _ _ => True) h c) :
    Tally h c :=
  hr.invariant (M := machine ssrc) ⟨rfl, sub_self (0 : U64), fun _ => sub_self (0 : U64)⟩
    fun _ _ e _ ht _ => ht.call e

/-- A number below half the range is itself as a signed one. -/
theorem toInt_of_lt {x : U64} (hx : x.toNat < 2 ^ 63) : x.toInt = x.toNat :=
  BitVec.toInt_eq_toNat_of_lt (by omega)

/-- **The quotient fits.**  Where one packet was received, less than all are lost. -/
theorem quotient_le {ei ri : U64} (hri : 1 ≤ ri.toInt) (hlost : 0 < ei.toInt - ri.toInt) :
    ((BitVec.ofInt 64 (ei.toInt - ri.toInt) <<< 8) / ei).toNat ≤ 255 := by
  have hei : ei.toInt = ei.toNat := by
    have hcond := BitVec.toInt_eq_toNat_cond ei
    have := ei.isLt
    split at hcond <;> omega
  obtain ⟨lost, hl⟩ := Int.eq_ofNat_of_zero_le hlost.le
  rw [hl, BitVec.toNat_udiv, BitVec.toNat_shiftLeft, BitVec.toNat_ofInt, Nat.shiftLeft_eq]
  have hlt : lost < ei.toNat := by omega
  have hword : lost * 2 ^ 8 % 2 ^ 64 < ei.toNat * 256 := by
    have := Nat.mod_le (lost * 2 ^ 8) (2 ^ 64)
    omega
  have hsame : ((lost : ℤ) % ((2 ^ 64 : ℕ) : ℤ)).toNat = lost := by
    have := ei.isLt
    omega
  rw [hsame]
  exact Nat.le_of_lt_succ (Nat.div_lt_of_lt_mul hword)

theorem fractionLost_eq (c : SsrcContext) :
    c.fractionLost =
      if c.expectedInterval = 0 ∨ c.lostInterval ≤ 0 then 0 else c.lostQuotient.setWidth 8 := rfl

/-- The fraction of an interval of fewer than `2^63` packets. -/
theorem Tally.fraction (ht : Tally h c) (hn : interval h < 2 ^ 63) :
    FractionFits c ∧ NoneLost c := by
  have hri : c.receivedInterval.toNat = interval h := by
    rw [ht.received, BitVec.toNat_ofNat]
    omega
  have hri' : c.receivedInterval.toInt = interval h := by rw [toInt_of_lt (by omega), hri]
  constructor
  · intro hdiv
    obtain ⟨hei, hlost⟩ := not_or.1 hdiv
    have hone : interval h ≠ 0 := mt ht.expected hei
    have hle : c.lostQuotient.toNat ≤ 255 :=
      quotient_le (by omega) (by rw [lostInterval] at hlost; omega)
    refine ⟨hei, hle, ?_⟩
    rw [fractionLost_eq, if_neg hdiv, BitVec.toNat_setWidth]
    omega
  · intro hle
    have hle' := BitVec.le_def.1 hle
    refine (fractionLost_eq c).trans (if_pos (.inr ?_))
    rw [lostInterval, toInt_of_lt (by omega), hri']
    omega

theorem cumulativeLost_range (c : SsrcContext) :
    0 ≤ c.cumulativeLost ∧ c.cumulativeLost ≤ 0x7FFFFF := by
  simp only [cumulativeLost]
  split_ifs <;> omega

/-- The cumulative number, as long as the counts are below `2^63`. -/
theorem cumulative_right (he : c.packetsExpected.toNat < 2 ^ 63)
    (hr : c.packetsReceived.toNat < 2 ^ 63) : CumulativeRight c := by
  rw [CumulativeRight, cumulativeLost, toInt_of_lt he, toInt_of_lt hr]
  split_ifs <;> omega

/-- A receiver report with one block is one that `write_to` and `parse` agree on. -/
theorem report_wellFormed {b : ReportBlock} (hb : b.cumulativeLost.toNat < 2 ^ 24) :
    b.report.WellFormed where
  version := show (2 : U8).toNat < 4 by decide
  type := .inr (.inl rfl)
  reportCount := by simp [ReportBlock.report]
  report _ := rfl
  noReport hno := absurd (.inr rfl) hno
  cumulativeLost b' hb' := List.mem_singleton.1 hb' ▸ hb
  noSenderInfo _ := ⟨rfl, rfl, rfl, rfl⟩
  mediaSsrc := rfl
  padding := .inr ⟨rfl, dvd_zero 4⟩
  size := show 32 ≤ 65536 * 4 by decide

/-- **The block survives.**  Its cumulative number fits the 24 bits of its field. -/
theorem readBack (c : SsrcContext) : ReadBack c := by
  intro dlsr
  obtain ⟨hlow, hhigh⟩ := cumulativeLost_range c
  have hcum : ((c.reportBlock dlsr).cumulativeLost.toNat : ℤ) = c.cumulativeLost := by
    change ((BitVec.ofInt 32 c.cumulativeLost).toNat : ℤ) = _
    rw [BitVec.toNat_ofInt]
    omega
  exact ⟨RtcpPacket.parse_bytes (report_wellFormed (by omega)), hcum⟩

/-- **What a report says is lost.**  In every run of fewer than `2^63` packets, whatever their
numbers: `fraction_lost` divides by a non-zero interval, its quotient fits eight bits, and it
is zero where as many packets were received as expected; the cumulative number, as long as
fewer than `2^63` packets are expected, is the difference of the counts within its range, and
it survives `write_to` and `parse`. -/
theorem lost_reported (ssrc : U32) (h : List (SsrcContext × Call)) (c : SsrcContext)
    (hr : Run (machine ssrc) (fun _ _ _ => True) h c) (hn : packets h < 2 ^ 63) :
    FractionFits c ∧ NoneLost c ∧
      (c.packetsExpected.toNat < 2 ^ 63 → CumulativeRight c) ∧ ReadBack c := by
  have ht := tally_of_run hr
  obtain ⟨hfits, hnone⟩ := ht.fraction (lt_of_le_of_lt (interval_le_packets h) hn)
  refine ⟨hfits, hnone, fun he => cumulative_right he ?_, readBack c⟩
  rw [ht.total, BitVec.toNat_ofNat]
  omega

/-- Packets 0 and 3 have been received: two of four are lost, 128 of 256. -/
theorem lost_reported_half :
    let c := (machine 7).exec (machine 7).init [.trackPacket 0 0 0, .trackPacket 3 0 0]
    c.fractionLost = 128 ∧ FractionFits c ∧ CumulativeRight c := by
  obtain ⟨hfits, -, hcum, -⟩ := lost_reported 7 _ _
    ((machine 7).run_play [.trackPacket 0 0 0, .trackPacket 3 0 0] .init) (by decide)
  exact ⟨by decide, hfits, hcum (by decide)⟩

/-! ### The counts only grow -/

/-- What the fields are after `n` packets, as long as the cycles fit: nothing is expected before
the first packet, and from then on the number of the highest one, counted from the first. -/
structure Grown (n : ℕ) (c : SsrcContext) : Prop where
  base_lt : c.baseSeq.toNat < 65536
  max_lt : c.maxSeq.toNat < 65536
  cycles_le : c.cycles.toNat ≤ 65536 * n
  start : c.baseSeqSet = false → c.cycles = 0 ∧ c.maxSeq = 0 ∧ c.packetsExpected = 0
  expected : c.baseSeqSet = true → c.baseSeq.toNat ≤ c.cycles.toNat + c.maxSeq.toNat ∧
    c.packetsExpected.toNat + c.baseSeq.toNat = c.cycles.toNat + c.maxSeq.toNat + 1

/-- `_packets_expected`, in naturals. -/
theorem expected_toNat (cycles : U64) (top base : U32)
    (hbase : base.toNat ≤ cycles.toNat + top.toNat) (hcycles : cycles.toNat < 2 ^ 63) :
    (cycles + top.setWidth 64 - base.setWidth 64 + 1).toNat + base.toNat =
      cycles.toNat + top.toNat + 1 := by
  have htop := top.isLt
  rw [BitVec.toNat_add, BitVec.toNat_sub, BitVec.toNat_add, BitVec.toNat_setWidth,
    BitVec.toNat_setWidth, show (1 : U64).toNat = 1 from rfl]
  omega

/-- What `track_packet` makes of the cycles and the highest number: together they do not fall,
and the number that comes is the highest one where nothing was before. -/
theorem trackSeq_fields (hmax : c.maxSeq.toNat < 65536) (hcyc : c.cycles.toNat < 2 ^ 63)
    (seq : U16) :
    ∃ cycles top, c.trackSeq seq =
        { c with
          baseSeqSet := true
          baseSeq := if c.baseSeqSet then c.baseSeq else seq.setWidth 32
          cycles := cycles
          maxSeq := top
          packetsExpected := cycles + top.setWidth 64 -
            (if c.baseSeqSet then c.baseSeq else seq.setWidth 32).setWidth 64 + 1
          packetsReceived := c.packetsReceived + 1 } ∧
      top.toNat < 65536 ∧ cycles.toNat ≤ c.cycles.toNat + 65536 ∧
      c.cycles.toNat + c.maxSeq.toNat ≤ cycles.toNat + top.toNat ∧
      (c.maxSeq = 0 → cycles = c.cycles ∧ top = seq.setWidth 32) := by
  have hs : (seq.setWidth 32).toNat < 65536 := by
    have := seq.isLt
    rw [BitVec.toNat_setWidth]
    omega
  have hnext : (c.cycles + 0x10000).toNat = c.cycles.toNat + 65536 := by
    rw [BitVec.toNat_add, show (0x10000 : U64).toNat = 65536 from rfl]
    omega
  have hzero : c.maxSeq = 0 → ¬ seq.setWidth 32 < c.maxSeq := fun h0 => h0 ▸ BitVec.not_lt_zero
  by_cases hlt : seq.setWidth 32 < c.maxSeq
  · by_cases hfar : 0x8000 < c.maxSeq - seq.setWidth 32
    · refine ⟨c.cycles + 0x10000, seq.setWidth 32, ?_, hs, hnext.le, by omega,
        fun h0 => absurd hlt (hzero h0)⟩
      cases hset : c.baseSeqSet <;>
        simp only [trackSeq, hset, hlt, hfar, Bool.not_true, Bool.not_false, Bool.false_eq_true,
          if_true, if_false]
    · refine ⟨c.cycles, c.maxSeq, ?_, hmax, by omega, le_rfl, fun h0 => absurd hlt (hzero h0)⟩
      cases hset : c.baseSeqSet <;>
        simp only [trackSeq, hset, hlt, hfar, Bool.not_true, Bool.not_false, Bool.false_eq_true,
          if_true, if_false]
  · have hle := BitVec.le_def.1 (BitVec.not_lt.1 hlt)
    refine ⟨c.cycles, seq.setWidth 32, ?_, hs, by omega, by omega, fun _ => ⟨rfl, rfl⟩⟩
    cases hset : c.baseSeqSet <;>
      simp only [trackSeq, hset, hlt, Bool.not_true, Bool.not_false, Bool.false_eq_true,
        if_true, if_false]

/-- **The expected count does not fall.**  A packet moves the highest number up, or leaves it. -/
theorem Grown.trackSeq {n : ℕ} (hn : n + 1 < 2 ^ 47) (hc : Grown n c) (seq : U16) :
    Grown (n + 1) (c.trackSeq seq) ∧ c.packetsExpected ≤ (c.trackSeq seq).packetsExpected := by
  have hcycles := hc.cycles_le
  obtain ⟨cycles, top, heq, htop, hcyc, hle, hfirst⟩ :=
    trackSeq_fields hc.max_lt (by omega) seq
  rw [heq]
  cases hset : c.baseSeqSet with
  | false =>
    obtain ⟨hcyc0, hmax0, hexp0⟩ := hc.start hset
    obtain ⟨rfl, rfl⟩ := hfirst hmax0
    have hexp := expected_toNat c.cycles (seq.setWidth 32) (seq.setWidth 32) (by omega) (by omega)
    exact ⟨⟨htop, htop, by simpa using hcyc.trans (by omega), by simp,
      fun _ => ⟨Nat.le_add_left .., hexp⟩⟩, hexp0 ▸ BitVec.le_def.2 (Nat.zero_le _)⟩
  | true =>
    obtain ⟨hold, hcount⟩ := hc.expected hset
    have hexp := expected_toNat cycles top c.baseSeq (by omega) (by omega)
    exact ⟨⟨hc.base_lt, htop, by simpa using hcyc.trans (by omega), by simp,
      fun _ => ⟨hold.trans hle, hexp⟩⟩,
      BitVec.le_def.2 (by simp only [if_true]; omega)⟩

/-- The counts after a history, and that they are not below those of the last report. -/
structure Counted (h : List (SsrcContext × Call)) (c : SsrcContext) : Prop where
  grown : Grown (packets h) c
  expected_le : c.expectedPrior ≤ c.packetsExpected
  received_le : c.receivedPrior ≤ c.packetsReceived

/-- Every call of a run of fewer than `2^47` packets keeps the counts in order. -/
theorem Counted.call (hc : Counted h c) (ht : Tally h c) (e : Call)
    (hn : packets ((c, e) :: h) < 2 ^ 47) : Counted ((c, e) :: h) (c.call e) := by
  obtain ⟨hg, he, hrec⟩ := hc
  cases e with
  | recordSr ntpTs now =>
    exact ⟨⟨hg.base_lt, hg.max_lt, hg.cycles_le, hg.start, hg.expected⟩, he, hrec⟩
  | advancePrior =>
    exact ⟨⟨hg.base_lt, hg.max_lt, hg.cycles_le, hg.start, hg.expected⟩, BitVec.le_refl _,
      BitVec.le_refl _⟩
  | trackPacket n rtpTs now =>
    obtain ⟨hg', hle⟩ := hg.trackSeq hn (BitVec.ofInt 16 n)
    obtain ⟨hrec', hprior, hprior'⟩ := trackPacket_received c (BitVec.ofInt 16 n) rtpTs now
    have htotal : c.packetsReceived.toNat < 2 ^ 63 := by
      rw [ht.total, BitVec.toNat_ofNat]
      have : packets h + 1 < 2 ^ 47 := hn
      omega
    refine ⟨⟨hg'.base_lt, hg'.max_lt, hg'.cycles_le, hg'.start, hg'.expected⟩,
      BitVec.le_trans (hprior'.symm ▸ he) hle, ?_⟩
    change (c.trackPacket _ _ _).receivedPrior ≤ (c.trackPacket _ _ _).packetsReceived
    rw [hprior, hrec']
    refine BitVec.le_trans hrec (BitVec.le_def.2 ?_)
    rw [BitVec.toNat_add, show (1 : U64).toNat = 1 from rfl]
    omega

theorem packets_le_cons (p : SsrcContext × Call) (h : List (SsrcContext × Call)) :
    packets h ≤ packets (p :: h) := by
  obtain ⟨c, e⟩ := p
  cases e with
  | trackPacket n rtpTs now => exact Nat.le_succ _
  | recordSr ntpTs now => exact le_rfl
  | advancePrior => exact le_rfl

/-- **The intervals do not underflow.**  In every run of fewer than `2^47` packets, whatever
their numbers, the counts of the last report are at most those of now. -/
theorem counted_of_run {ssrc : U32} (hr : Run (machine ssrc) (fun _ _ _ => True) h c) :
    packets h < 2 ^ 47 → Counted h c := by
  refine hr.invariant (M := machine ssrc) (P := fun h c => packets h < 2 ^ 47 → Counted h c)
    (fun _ => ⟨⟨Nat.zero_lt_succ _, Nat.zero_lt_succ _, Nat.zero_le _, ?_, ?_⟩, BitVec.le_refl _,
      BitVec.le_refl _⟩) fun h c e hr ih _ hn => ?_
  · exact fun _ => ⟨rfl, rfl, rfl⟩
  · exact fun hset => by cases hset
  · exact (ih (lt_of_le_of_lt (packets_le_cons _ h) hn)).call (tally_of_run hr) e hn

/-! ### Counts beyond the signed range -/

/-- A stream that began with number 0 and is there again after `k` wraps, with no report. -/
structure Wrapped (k : ℕ) (c : SsrcContext) : Prop where
  started : c.baseSeqSet = true
  base : c.baseSeq = 0
  max : c.maxSeq = 0
  cycles : c.cycles = BitVec.ofNat 64 (65536 * k)
  expected : c.packetsExpected = BitVec.ofNat 64 (65536 * k + 1)
  prior : c.expectedPrior = 0

theorem ofInt_zero_seq : BitVec.ofInt 16 0 = 0 := by decide

/-- Numbers 65535 and 0 make one more wrap. -/
theorem Wrapped.turn {k : ℕ} (hc : Wrapped k c) :
    Wrapped (k + 1) ((c.call (.trackPacket 65535 0 0)).call (.trackPacket 0 0 0)) := by
  have hnext : BitVec.ofNat 64 (65536 * k) + 0x10000 = BitVec.ofNat 64 (65536 * (k + 1)) := by
    rw [Nat.mul_add, BitVec.ofNat_add]
    rfl
  have hlast : BitVec.ofInt 16 65535 = 65535 := by decide
  have hlow : ¬ (BitVec.setWidth 32 (65535 : U16) < 0) := by decide
  have hwrap : BitVec.setWidth 32 (0 : U16) < BitVec.setWidth 32 (65535 : U16) := by decide
  have hfar : (0x8000 : U32) < BitVec.setWidth 32 (65535 : U16) - BitVec.setWidth 32 (0 : U16) := by
    decide
  simp only [call, hlast, ofInt_zero_seq, trackPacket, trackJitter, trackSeq, hc.started, hc.base,
    hc.max, hc.cycles, Bool.not_true, Bool.false_eq_true, if_false, hlow, if_pos hwrap,
    if_pos hfar, hnext]
  refine ⟨rfl, rfl, rfl, rfl, ?_, hc.prior⟩
  rw [BitVec.ofNat_add (65536 * (k + 1)) 1]
  simp

/-- Number 0 once more changes nothing. -/
theorem Wrapped.again {k : ℕ} (hc : Wrapped k c) : Wrapped k (c.call (.trackPacket 0 0 0)) := by
  have hlow : ¬ (BitVec.setWidth 32 (0 : U16) < 0) := by decide
  simp only [call, ofInt_zero_seq, trackPacket, trackJitter, trackSeq, hc.started, hc.base, hc.max,
    hc.cycles, Bool.not_true, Bool.false_eq_true, if_false, hlow]
  refine ⟨rfl, rfl, rfl, rfl, ?_, hc.prior⟩
  rw [BitVec.ofNat_add (65536 * k) 1]
  simp

/-- A stream can wrap any number of times, with two packets a turn, and repeat itself after it. -/
theorem run_wrapped (k r : ℕ) : ∃ h c, Run (machine 7) (fun _ _ _ => True) h c ∧
    packets h = 2 * k + 1 + r ∧ interval h = packets h ∧ Wrapped k c := by
  induction r with
  | zero =>
    induction k with
    | zero =>
      refine ⟨_, _, .step (e := .trackPacket 0 0 0) .init trivial, rfl, rfl, ?_⟩
      constructor <;> decide
    | succ k ih =>
      obtain ⟨h, c, hr, hp, hi, hc⟩ := ih
      have hr' := (hr.step (e := .trackPacket 65535 0 0) trivial).step
        (e := .trackPacket 0 0 0) trivial
      refine ⟨_, _, hr', ?_, ?_, hc.turn⟩
      · simp only [packets, hp]
        omega
      · simp only [packets, interval, hi]
  | succ r ih =>
    obtain ⟨h, c, hr, hp, hi, hc⟩ := ih
    have hr' := hr.step (e := .trackPacket 0 0 0) trivial
    refine ⟨_, _, hr', ?_, ?_, hc.again⟩
    · simp only [packets, hp]
      omega
    · simp only [packets, interval, hi]

/-- **Very long streams are misreported.**  After `2^47 + 2^34` wraps the expected count is above
`2^63`, and the cumulative number comes out as zero.  After the same packet has come
`2^63 + 5` times in one interval, the quotient of the fraction does not fit. -/
theorem long_runs_misreported :
    (∃ h c, Run (machine 7) (fun _ _ _ => True) h c ∧ ¬ CumulativeRight c) ∧
      ∃ h c, Run (machine 7) (fun _ _ _ => True) h c ∧ ¬ FractionFits c := by
  constructor
  · obtain ⟨h, c, hr, hp, -, hc⟩ := run_wrapped (2 ^ 47 + 2 ^ 34) 0
    have hrec := (tally_of_run hr).total
    refine ⟨h, c, hr, fun hright => ?_⟩
    rw [CumulativeRight, cumulativeLost, hc.expected, hrec, hp] at hright
    exact absurd hright (by decide)
  · obtain ⟨h, c, hr, hp, hi, hc⟩ := run_wrapped 0 (2 ^ 63 + 4)
    have hri := (tally_of_run hr).received
    have hei : c.expectedInterval = 1 := by rw [expectedInterval, hc.expected, hc.prior]; rfl
    refine ⟨h, c, hr, fun hfits => ?_⟩
    rw [FractionFits, lostQuotient, lostInterval, hei, hri, hi, hp] at hfits
    exact absurd (hfits (by decide)).2.1 (by decide)

end SsrcContext
end AsioRtc
