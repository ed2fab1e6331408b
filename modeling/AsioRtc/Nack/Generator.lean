/-
# The NACK generator

`src/nack_generator.hpp` and `src/nack_generator.cpp`.  A window of at most
`_history_size` sequence numbers up to the highest one received; each number has a
slot of a ring buffer, which it shares with every number of the same residue.
`receive_packet` moves the window and marks what arrives, `get_nacks` puts out the
numbers of the window that have not arrived, each at most `_max_retries` times and
again only after the backoff time.

Times are milliseconds.  `get_nacks` visits each slot with `NackInfo.visit`.
-/

import AsioRtc.Lib.Machine
import AsioRtc.Lib.Serial
import AsioRtc.Lib.Slots
import AsioRtc.Bytes

namespace AsioRtc

open Lib

/-- `nack_info`. -/
structure NackInfo where
  received : Bool := false
  nacked : Bool := false
  retryCount : U8 := 0
  lastNackTime : ℤ := 0
  deriving DecidableEq, Repr

/-- `nack_generator`. -/
structure NackGenerator where
  historySize : U16 := 1024
  maxRetries : U8 := 10
  rttMs : ℤ := 100
  nackDelayMs : ℤ := 10
  initialized : Bool := false
  highestSeq : U16 := 0
  lowestSeq : U16 := 0
  buffer : ℕ → NackInfo := fun _ => {}

/-- The visit of `get_nacks` to one slot: what it leaves there, and whether it puts the
number out. -/
def NackInfo.visit (maxRetries : U8) (now backoff : ℤ) (info : NackInfo) : NackInfo × Bool :=
  if info.received then (info, false)
  else if maxRetries ≤ info.retryCount then
    -- Given up on, and not looked at again.
    ({ info with received := true }, false)
  else if !info.nacked then
    ({ info with nacked := true, retryCount := info.retryCount + 1, lastNackTime := now }, true)
  else if backoff ≤ now - info.lastNackTime then
    ({ info with retryCount := info.retryCount + 1, lastNackTime := now }, true)
  else (info, false)

namespace NackGenerator

/-- `seq_distance`. -/
def seqDistance (a b : U16) : ℤ := (b - a).toInt

/-- `get_index`. -/
def getIndex (g : NackGenerator) (seq : U16) : ℕ := seq.toNat % g.historySize.toNat

/-- `_buffer[get_index(seq)].received = true`. -/
def mark (g : NackGenerator) (seq : U16) : NackGenerator :=
  { g with
    buffer := Function.update g.buffer (g.getIndex seq)
      { g.buffer (g.getIndex seq) with received := true } }

/-- The window behind a move of the highest number by `diff`: a jump empties it, a step
resets the slots of the numbers it skips. -/
def skipTo (g : NackGenerator) (seq : U16) (diff : ℤ) : NackGenerator :=
  if (g.historySize.toNat : ℤ) ≤ diff then
    { g with buffer := fun _ => {}, lowestSeq := seq - (g.historySize - 1) }
  else
    { g with
      buffer := setAll {}
        ((List.range (diff.toNat - 1)).map fun i =>
          g.getIndex (g.highestSeq + BitVec.ofNat 16 (i + 1))) g.buffer }

/-- `nack_generator::receive_packet`. -/
def receivePacket (g : NackGenerator) (seq : U16) : NackGenerator :=
  if !g.initialized then
    { g with highestSeq := seq, lowestSeq := seq, initialized := true }.mark seq
  else
    let diff := seqDistance g.highestSeq seq
    if diff ≤ 0 then
      if -(g.historySize.toNat : ℤ) < diff then g.mark seq else g
    else
      let g := { (g.skipTo seq diff).mark seq with highestSeq := seq }
      if (g.historySize.toNat : ℤ) ≤ seqDistance g.lowestSeq g.highestSeq then
        { g with lowestSeq := g.highestSeq - (g.historySize - 1) }
      else g

/-- The numbers `get_nacks` looks at, newest first: those between the ends of the window. -/
def scanned (g : NackGenerator) : List U16 :=
  let d := seqDistance g.lowestSeq g.highestSeq
  let span := min (if d < 0 then d + 0x10000 else d) g.historySize.toNat
  (List.range (span.toNat - 1)).map fun i => g.highestSeq - BitVec.ofNat 16 (i + 1)

/-- `nack_generator::get_nacks`. -/
def getNacks (g : NackGenerator) (now : ℤ) : NackGenerator × List U16 :=
  if !g.initialized then (g, [])
  else
    let r := sweep g.getIndex (NackInfo.visit g.maxRetries now (g.rttMs + 20)) g.scanned g.buffer
    ({ g with buffer := r.1 }, r.2)

/-- `nack_generator::update_rtt`. -/
def updateRtt (g : NackGenerator) (rttMs : ℤ) : NackGenerator :=
  { g with rttMs := (g.rttMs * 7 + rttMs).tdiv 8 }

/-- A call to the component. -/
inductive Call where
  | receivePacket (seq : U16)
  | getNacks (now : ℤ)
  | updateRtt (rttMs : ℤ)
  deriving DecidableEq, Repr

/-- One call: the next state, and the numbers it puts out. -/
def call (g : NackGenerator) : Call → NackGenerator × List U16
  | .receivePacket seq => (g.receivePacket seq, [])
  | .getNacks now => g.getNacks now
  | .updateRtt rttMs => (g.updateRtt rttMs, [])

/-- A fresh generator with the history of 1024 numbers that the streams use. -/
def machine (maxRetries : U8) (rttMs nackDelayMs : ℤ) : Machine NackGenerator Call (List U16) :=
  ⟨{ historySize := 1024, maxRetries := maxRetries, rttMs := rttMs, nackDelayMs := nackDelayMs },
    call⟩

end NackGenerator
end AsioRtc
