/-
# The jitter buffer

`src/jitter_buffer.hpp` and `src/jitter_buffer.cpp`.  Packets wait in a map keyed
by their sequence number extended to 32 bits (`extendSeq`), and leave one frame at
a time: the packets from `_next_extended_seq` on, without a gap and with one
timestamp.  A gap in front is waited for (`waitGap`), and a video frame that
reaches the end of the buffer is waited for once more (`waitVideo`).

Keys and `_next_extended_seq` are 32-bit, kept as naturals with the wrap written
out.  Times are nanoseconds of the steady clock; `max_delay` is milliseconds.  A
pass of `pop_frame` reads the clock at most twice, at the gap and at the video
wait; a pass that discards starts again with later readings.

`popEntries` returns a frame with the keys its packets had in the buffer, and
`popFrame` the packets alone.  What one call does is `push_cases`, `popEntries_pass`
and `takeFrame_cases`; later modules use these.
-/

import AsioRtc.Lib.Machine
import AsioRtc.Lib.OrdMap
import AsioRtc.Rtp.Packet

namespace AsioRtc

open Lib

/-- `jitter_buffer`. -/
structure JitterBuffer where
  sorted : OrdMap ℕ RtpPacket := .empty
  nextExtendedSeq : ℕ := 0
  firstPacket : Bool := true
  maxDelay : ℤ := 500
  gapStart : Option ℤ := none
  videoWaitStart : Option ℤ := none
  isVideo : Bool := false

/-- `_extend_seq`: the cycle of `last`, or the next one where that lies half a cycle back. -/
def extendSeq (seq : U16) (last : ℕ) : ℕ :=
  let extended := last / 0x10000 * 0x10000 + seq.toNat
  if (extended + 0x8000) % 2 ^ 32 < last then (extended + 0x10000) % 2 ^ 32 else extended

/-- The packets that follow each other from `next` on with timestamp `ts`: the number
after them, and how many they are. -/
def scanFrame (ts : U32) (next : ℕ) : List (ℕ × RtpPacket) → ℕ × ℕ
  | [] => (next, 0)
  | (k, p) :: es =>
      if k = next ∧ p.timestamp = ts then
        let (next', n) := scanFrame ts ((next + 1) % 2 ^ 32) es
        (next', n + 1)
      else (next, 0)

/-- **What the scan finds.**  Over keys in order, none before `next`: a block of keys that
follow each other with timestamp `ts`, after which the next entry breaks one of the two. -/
theorem scanFrame_spec (ts : U32) {es : List (ℕ × RtpPacket)} {next : ℕ}
    (hs : es.Pairwise fun a b => a.1 < b.1) (hle : ∀ e ∈ es, next ≤ e.1)
    (hlt : ∀ e ∈ es, e.1 < 2 ^ 32) (hn : next < 2 ^ 32) :
    (es.take (scanFrame ts next es).2).map Prod.fst = List.range' next (scanFrame ts next es).2 ∧
      (∀ e ∈ es.take (scanFrame ts next es).2, e.2.timestamp = ts) ∧
      (scanFrame ts next es).1 = (next + (scanFrame ts next es).2) % 2 ^ 32 ∧
      ∀ e ∈ (es.drop (scanFrame ts next es).2).head?,
        ¬ (e.1 = (scanFrame ts next es).1 ∧ e.2.timestamp = ts) := by
  induction es generalizing next with
  | nil => exact ⟨rfl, by simp [scanFrame], (Nat.mod_eq_of_lt hn).symm, by simp⟩
  | cons e es ih =>
    obtain ⟨k, p⟩ := e
    obtain ⟨hfirst, hs⟩ := List.pairwise_cons.1 hs
    rw [scanFrame]
    split
    · rename_i h
      obtain ⟨rfl, hts⟩ := h
      have hlt' : ∀ e ∈ es, e.1 < 2 ^ 32 := fun e he => hlt e (List.mem_cons_of_mem _ he)
      rcases Nat.lt_or_ge (k + 1) (2 ^ 32) with hk | hk
      · obtain ⟨h₁, h₂, h₃, h₄⟩ := ih hs (fun e he => hfirst e he) hlt' hk
        rw [Nat.mod_eq_of_lt hk]
        refine ⟨?_, ?_, ?_, h₄⟩
        · simp only [List.take_succ_cons, List.map_cons, h₁, List.range'_succ]
        · simp only [List.take_succ_cons, List.forall_mem_cons]
          exact ⟨hts, h₂⟩
        · simp only [h₃]
          rw [Nat.succ_add, Nat.add_succ]
      · -- The key before the wrap is the last one there can be.
        have hnil : es = [] := List.eq_nil_iff_forall_not_mem.2 fun e he => by
          have := hfirst e he
          have := hlt' e he
          omega
        subst hnil
        simp [scanFrame, hts]
    · rename_i h
      refine ⟨rfl, by simp, (Nat.mod_eq_of_lt hn).symm, fun e he => ?_⟩
      simp only [List.drop_zero, List.head?_cons, Option.mem_def, Option.some.injEq] at he
      exact he ▸ h

theorem extendSeq_lt (seq : U16) {last : ℕ} (h : last < 2 ^ 32) : extendSeq seq last < 2 ^ 32 := by
  have hs := seq.isLt
  unfold extendSeq
  dsimp only
  split
  · exact Nat.mod_lt _ (by decide)
  · omega

namespace JitterBuffer

/-- `jitter_buffer::jitter_buffer`. -/
def create (maxDelay : ℤ) (isVideo : Bool) : JitterBuffer :=
  { maxDelay := maxDelay, isVideo := isVideo }

/-- `jitter_buffer::push`. -/
def push (b : JitterBuffer) (pkt : RtpPacket) : JitterBuffer :=
  let extended := extendSeq pkt.sequenceNumber b.nextExtendedSeq
  if b.firstPacket ∧ pkt.payload = [] then b
  else
    let b := if b.firstPacket then
        { b with firstPacket := false, nextExtendedSeq := extended }
      else b
    if extended < b.nextExtendedSeq then b
    else if b.sorted.contains extended then b
    else { b with sorted := b.sorted.emplace extended pkt }

/-- Nanoseconds in a millisecond. -/
def ms : ℤ := 1000000

/-- The gap before key `extended`: whether to go on waiting. -/
def waitGap (now : ℤ) (extended : ℕ) (b : JitterBuffer) : Bool × JitterBuffer :=
  if b.nextExtendedSeq < extended then
    let start := b.gapStart.getD now
    if b.maxDelay * ms ≤ now - start then
      (false, { b with nextExtendedSeq := extended, gapStart := none })
    else (true, { b with gapStart := some start })
  else (false, b)

/-- The wait for more fragments at the end of the buffer: whether to go on waiting. -/
def waitVideo (now : ℤ) (atEnd : Bool) (b : JitterBuffer) : Bool × JitterBuffer :=
  if b.isVideo ∧ atEnd then
    let start := b.videoWaitStart.getD now
    (decide (now - start < b.maxDelay.tdiv 2 * ms), { b with videoWaitStart := some start })
  else (false, { b with videoWaitStart := none })

/-- `pop_frame` from the first entry on, with timestamp `ts`, once it is the expected one. -/
def takeFrame (now : ℤ) (ts : U32) (b : JitterBuffer) : JitterBuffer × List (ℕ × RtpPacket) :=
  let b := { b with gapStart := none }
  let (nextExpected, n) := scanFrame ts b.nextExtendedSeq b.sorted.entries
  let rest := b.sorted.entries.drop n
  -- The test for an incomplete frame, the same one the scan has just stopped at.
  if rest.head?.any fun e => e.1 = nextExpected ∧ e.2.timestamp = ts then (b, [])
  else
    match b.waitVideo now rest.isEmpty with
    | (true, b) => (b, [])
    | (false, b) =>
        ({ b with nextExtendedSeq := nextExpected, sorted := b.sorted.erasePrefix n },
          b.sorted.entries.take n)

/-- `jitter_buffer::pop_frame`, returning the packets with their keys.  Each pass
takes the next two readings of the clock. -/
def popEntries (now : ℕ → ℤ) (b : JitterBuffer) : JitterBuffer × List (ℕ × RtpPacket) :=
  match _h : b.sorted.entries with
  | [] => (b, [])
  | (extended, first) :: _ =>
      match b.waitGap (now 0) extended with
      | (true, b') => (b', [])
      | (false, b') =>
          if extended < b'.nextExtendedSeq then
            popEntries (fun i => now (i + 2)) { b' with sorted := b.sorted.eraseBegin }
          else takeFrame (now 1) first.timestamp b'
termination_by b.sorted.size
decreasing_by simp [OrdMap.eraseBegin, OrdMap.size, _h]

/-- `jitter_buffer::pop_frame`. -/
def popFrame (now : ℕ → ℤ) (b : JitterBuffer) : JitterBuffer × List RtpPacket :=
  ((b.popEntries now).1, (b.popEntries now).2.map Prod.snd)

/-- `jitter_buffer::reset`. -/
def reset (b : JitterBuffer) : JitterBuffer :=
  { b with
    sorted := .empty
    nextExtendedSeq := 0
    firstPacket := true
    gapStart := none
    videoWaitStart := none }

/-- A call to the component. -/
inductive Call where
  | push (pkt : RtpPacket)
  | popFrame (now : ℕ → ℤ)
  | reset

/-- One call: the next state, and the frame it returns, with the keys. -/
def call (b : JitterBuffer) : Call → JitterBuffer × List (ℕ × RtpPacket)
  | .push pkt => (b.push pkt, [])
  | .popFrame now => b.popEntries now
  | .reset => (b.reset, [])

/-- `jitter_buffer` as a machine. -/
def machine (maxDelay : ℤ) (isVideo : Bool) : Machine JitterBuffer Call (List (ℕ × RtpPacket)) :=
  ⟨create maxDelay isVideo, call⟩

/-! ### What one call does -/

/-- What every buffer in use satisfies: no key is behind the cursor, everything fits in
32 bits, and before the first packet there is nothing. -/
structure Wf (b : JitterBuffer) : Prop where
  ahead : ∀ e ∈ b.sorted.entries, b.nextExtendedSeq ≤ e.1
  keys_lt : ∀ e ∈ b.sorted.entries, e.1 < 2 ^ 32
  next_lt : b.nextExtendedSeq < 2 ^ 32
  fresh : b.firstPacket = true → b.sorted.entries = [] ∧ b.nextExtendedSeq = 0

variable {b : JitterBuffer}

/-- **`push`.**  It does nothing, or stores the packet under its extended number, with the
cursor at that number when it is the first one. -/
theorem push_cases (hb : b.Wf) (pkt : RtpPacket) :
    b.push pkt = b ∨
      ∃ c, (b.nextExtendedSeq = c ∨
          b.firstPacket = true ∧ c = extendSeq pkt.sequenceNumber b.nextExtendedSeq) ∧
        c ≤ extendSeq pkt.sequenceNumber b.nextExtendedSeq ∧
        b.sorted.contains (extendSeq pkt.sequenceNumber b.nextExtendedSeq) = false ∧
        b.push pkt = { b with
          firstPacket := false
          nextExtendedSeq := c
          sorted := b.sorted.emplace (extendSeq pkt.sequenceNumber b.nextExtendedSeq) pkt } := by
  simp only [push]
  split
  · exact .inl rfl
  by_cases hf : b.firstPacket = true
  · right
    have hempty : b.sorted.contains (extendSeq pkt.sequenceNumber b.nextExtendedSeq) = false := by
      simp [OrdMap.contains, (hb.fresh hf).1]
    refine ⟨_, .inr ⟨hf, rfl⟩, le_rfl, hempty, ?_⟩
    simp [hf, hempty]
  · rw [if_neg hf]
    split
    · exact .inl rfl
    · rename_i hge
      split
      · exact .inl rfl
      · rename_i hc
        have hf' : b.firstPacket = false := Bool.eq_false_iff.2 hf
        exact .inr ⟨_, .inl rfl, not_lt.1 hge, Bool.eq_false_iff.2 hc, by rw [← hf']⟩

/-- What is kept where `pop_frame` only waits: everything but the two wait starts. -/
structure SameQueue (b b' : JitterBuffer) : Prop where
  sorted : b'.sorted = b.sorted
  next : b'.nextExtendedSeq = b.nextExtendedSeq
  first : b'.firstPacket = b.firstPacket

theorem waitVideo_same (now : ℤ) (atEnd : Bool) (b : JitterBuffer) :
    SameQueue b (b.waitVideo now atEnd).2 := by
  simp only [waitVideo]
  split <;> exact ⟨rfl, rfl, rfl⟩

/-- **`takeFrame`.**  It waits, or takes what the scan found; the test after the scan
never makes it wait. -/
theorem takeFrame_cases (hb : b.Wf) (now : ℤ) (ts : U32) :
    let r := scanFrame ts b.nextExtendedSeq b.sorted.entries
    let w := { b with gapStart := none }.waitVideo now (b.sorted.entries.drop r.2).isEmpty
    b.takeFrame now ts =
      if w.1 then (w.2, [])
      else ({ w.2 with nextExtendedSeq := r.1, sorted := b.sorted.erasePrefix r.2 },
        b.sorted.entries.take r.2) := by
  intro r w
  have hstop := (scanFrame_spec ts b.sorted.sorted hb.ahead hb.keys_lt hb.next_lt).2.2.2
  have hsame := waitVideo_same now (b.sorted.entries.drop r.2).isEmpty { b with gapStart := none }
  have hdead : ((b.sorted.entries.drop r.2).head?.any fun e =>
      e.1 = r.1 ∧ e.2.timestamp = ts) = false := by
    rw [Bool.eq_false_iff]
    intro hany
    obtain ⟨e, he, h⟩ := (Option.any_eq_true ..).1 hany
    exact hstop e he (by simpa using h)
  have hw : { b with gapStart := none }.waitVideo now (b.sorted.entries.drop r.2).isEmpty = w := rfl
  rw [takeFrame]
  simp only [r] at hdead hw
  simp only [hdead, hw, Bool.false_eq_true, if_false]
  rcases hw' : w with ⟨wait, b'⟩
  cases wait with
  | true => rfl
  | false =>
    have hsorted : b'.sorted = b.sorted := by simpa [w, hw'] using hsame.sorted
    simp [hsorted, r]

/-- What `waitGap` can do to a buffer whose first key is `k`: it leaves the queue as it is,
and where it does not wait, the cursor is at `k`. -/
theorem waitGap_cases {k : ℕ} (hk : b.nextExtendedSeq ≤ k) (now : ℤ) :
    ((b.waitGap now k).1 = true ∧ SameQueue b (b.waitGap now k).2) ∨
      ((b.waitGap now k).1 = false ∧ (b.waitGap now k).2.sorted = b.sorted ∧
        (b.waitGap now k).2.nextExtendedSeq = k ∧
        (b.waitGap now k).2.firstPacket = b.firstPacket) := by
  simp only [waitGap]
  split
  · split
    · exact .inr ⟨rfl, rfl, rfl, rfl⟩
    · exact .inl ⟨rfl, rfl, rfl, rfl⟩
  · rename_i hge
    exact .inr ⟨rfl, rfl, le_antisymm hk (not_lt.1 hge), rfl⟩

/-- **The discarding branch is dead.**  Where no key is behind the cursor, `pop_frame` is
one pass that waits at the gap or takes a frame from the first key on. -/
theorem popEntries_pass (hb : b.Wf) (now : ℕ → ℤ) :
    b.popEntries now =
      match b.sorted.entries with
      | [] => (b, [])
      | (extended, first) :: _ =>
          if (b.waitGap (now 0) extended).1 then ((b.waitGap (now 0) extended).2, [])
          else (b.waitGap (now 0) extended).2.takeFrame (now 1) first.timestamp := by
  rw [popEntries]
  split
  · rename_i h
    rw [h]
  · rename_i k p es h
    rw [h]
    have hk := hb.ahead _ (h ▸ List.mem_cons_self ..)
    have hg := waitGap_cases hk (now 0)
    simp only at hg ⊢
    generalize b.waitGap (now 0) k = g at hg ⊢
    obtain ⟨wait, b'⟩ := g
    rcases hg with ⟨rfl, -⟩ | ⟨rfl, -, hnext, -⟩
    · rfl
    · simp only at hnext
      simp [hnext]

/-- What a `pop_frame` that moves the cursor up to `c` and takes `n` packets makes of `b`. -/
structure Pops (b : JitterBuffer) (c n : ℕ) (r : JitterBuffer × List (ℕ × RtpPacket)) : Prop where
  next_le : b.nextExtendedSeq ≤ c
  cursor_lt : c < 2 ^ 32
  ahead : ∀ e ∈ b.sorted.entries, c ≤ e.1
  frame : r.2 = b.sorted.entries.take n
  sorted : r.1.sorted = b.sorted.erasePrefix n
  next : r.1.nextExtendedSeq = (c + n) % 2 ^ 32
  first : r.1.firstPacket = b.firstPacket
  keys : r.2.map Prod.fst = List.range' c n
  stamp : ∃ ts, ∀ e ∈ r.2, e.2.timestamp = ts

theorem SameQueue.pops {b' : JitterBuffer} (hb : b.Wf) (h : SameQueue b b') :
    Pops b b.nextExtendedSeq 0 (b', []) :=
  ⟨le_rfl, hb.next_lt, hb.ahead, rfl, h.sorted.trans (OrdMap.ext rfl),
    h.next.trans (Nat.mod_eq_of_lt hb.next_lt).symm, h.first, rfl, 0, by simp⟩

/-- What `takeFrame` makes of the queue. -/
theorem takeFrame_pops (hb : b.Wf) (now : ℤ) (ts : U32) :
    ∃ n, Pops b b.nextExtendedSeq n (b.takeFrame now ts) := by
  obtain ⟨hkeys, hts, hnext, -⟩ :=
    scanFrame_spec ts b.sorted.sorted hb.ahead hb.keys_lt hb.next_lt
  have hcases := takeFrame_cases hb now ts
  simp only at hcases
  rw [hcases]
  have hsame := waitVideo_same now (b.sorted.entries.drop
    (scanFrame ts b.nextExtendedSeq b.sorted.entries).2).isEmpty { b with gapStart := none }
  split
  · exact ⟨0, SameQueue.pops hb ⟨hsame.sorted, hsame.next, hsame.first⟩⟩
  · exact ⟨_, le_rfl, hb.next_lt, hb.ahead, rfl, rfl, hnext, hsame.first, hkeys, ts, hts⟩

/-- The first key is before all others. -/
theorem le_of_entries {k : ℕ} {p : RtpPacket} {es : List (ℕ × RtpPacket)}
    (hes : b.sorted.entries = (k, p) :: es) : ∀ e ∈ b.sorted.entries, k ≤ e.1 := by
  intro e he
  have hs := b.sorted.sorted
  rw [hes] at he hs
  rcases List.mem_cons.1 he with rfl | he
  · exact le_rfl
  · exact ((List.pairwise_cons.1 hs).1 e he).le

/-- Where `pop_frame` does not wait at the gap, it goes on with a well-formed buffer. -/
theorem Wf.waitGap (hb : b.Wf) {k : ℕ} {p : RtpPacket} {es : List (ℕ × RtpPacket)}
    (hes : b.sorted.entries = (k, p) :: es) {now : ℤ} (hw : (b.waitGap now k).1 = false) :
    (b.waitGap now k).2.Wf := by
  have hmem : (k, p) ∈ b.sorted.entries := hes ▸ List.mem_cons_self ..
  rcases waitGap_cases (hb.ahead _ hmem) now with ⟨hw', -⟩ | ⟨-, hsorted, hnext, hfirst⟩
  · rw [hw] at hw'
    exact absurd hw' (by simp)
  refine ⟨?_, hsorted ▸ hb.keys_lt, hnext ▸ hb.keys_lt _ hmem, fun hf => ?_⟩
  · rw [hsorted, hnext]
    exact le_of_entries hes
  · rw [(hb.fresh (hfirst ▸ hf)).1] at hmem
    exact absurd hmem List.not_mem_nil

/-- **`pop_frame`.**  The cursor moves up to some `c` that no key is before, a block of `n`
keys from `c` on with one timestamp leaves, and the cursor moves past it. -/
theorem popEntries_pops (hb : b.Wf) (now : ℕ → ℤ) : ∃ c n, Pops b c n (b.popEntries now) := by
  have hpass := popEntries_pass hb now
  split at hpass
  · exact ⟨_, 0, hpass ▸ SameQueue.pops hb ⟨rfl, rfl, rfl⟩⟩
  · rename_i k p es hes
    have hmem : (k, p) ∈ b.sorted.entries := hes ▸ List.mem_cons_self ..
    rw [hpass]
    rcases waitGap_cases (hb.ahead _ hmem) (now 0) with ⟨hw, hsame⟩ | ⟨hw, hsorted, hnext, hfirst⟩
    · rw [if_pos hw]
      exact ⟨_, 0, hsame.pops hb⟩
    · rw [if_neg (by simp [hw])]
      obtain ⟨n, h⟩ := takeFrame_pops (hb.waitGap hes hw) (now 1) p.timestamp
      exact ⟨k, n, hb.ahead _ hmem, hb.keys_lt _ hmem, le_of_entries hes, hsorted ▸ h.frame,
        hsorted ▸ h.sorted, h.next.trans (by rw [hnext]), h.first.trans hfirst,
        h.keys.trans (by rw [hnext]), h.stamp⟩

/-- What stays after a block has left lies at or after its end. -/
theorem Pops.le_of_mem_drop {c n : ℕ} {r : JitterBuffer × List (ℕ × RtpPacket)} (h : Pops b c n r)
    {e : ℕ × RtpPacket} (he : e ∈ b.sorted.entries.drop n) : c + n ≤ e.1 := by
  cases n with
  | zero => exact h.ahead e (List.mem_of_mem_drop he)
  | succ n =>
    have hlast : c + n ∈ (b.sorted.entries.take (n + 1)).map Prod.fst := by
      rw [← h.frame, h.keys]
      exact List.mem_range'_1.2 ⟨by omega, by omega⟩
    obtain ⟨a, ha, hac⟩ := List.mem_map.1 hlast
    have := OrdMap.lt_of_mem_drop ha he
    omega

theorem wf_create (maxDelay : ℤ) (isVideo : Bool) : (create maxDelay isVideo).Wf := by
  constructor <;> simp [create]

theorem Wf.push (hb : b.Wf) (pkt : RtpPacket) : (b.push pkt).Wf := by
  rcases push_cases hb pkt with h | ⟨c, hc, hle, hfree, h⟩
  · rwa [h]
  · have hlt := extendSeq_lt pkt.sequenceNumber hb.next_lt
    rw [h]
    refine ⟨fun e he => ?_, fun e he => ?_, lt_of_le_of_lt hle hlt, by simp⟩
    · rcases (OrdMap.mem_emplace hfree).1 he with rfl | hold
      · exact hle
      · rcases hc with hc | ⟨hf, -⟩
        · exact hc ▸ hb.ahead e hold
        · rw [(hb.fresh hf).1] at hold
          exact absurd hold List.not_mem_nil
    · rcases (OrdMap.mem_emplace hfree).1 he with rfl | hold
      · exact hlt
      · exact hb.keys_lt e hold

theorem Wf.popEntries (hb : b.Wf) (now : ℕ → ℤ) : (b.popEntries now).1.Wf := by
  obtain ⟨c, n, h⟩ := popEntries_pops hb now
  refine ⟨fun e he => ?_, fun e he => ?_, ?_, fun hf => ?_⟩
  · rw [h.sorted] at he
    rw [h.next]
    exact (Nat.mod_le ..).trans (h.le_of_mem_drop he)
  · rw [h.sorted] at he
    exact hb.keys_lt e (List.mem_of_mem_drop he)
  · rw [h.next]
    exact Nat.mod_lt _ (by decide)
  · obtain ⟨hnil, h0⟩ := hb.fresh (h.first ▸ hf)
    have hpass := popEntries_pass hb now
    rw [hnil] at hpass
    rw [hpass]
    exact ⟨hnil, h0⟩

theorem Wf.reset (b : JitterBuffer) : b.reset.Wf := by
  constructor <;> simp [JitterBuffer.reset]

/-- Every call keeps the buffer well formed. -/
theorem Wf.call (hb : b.Wf) (c : Call) : (b.call c).1.Wf := by
  cases c with
  | push pkt => exact hb.push pkt
  | popFrame now => exact hb.popEntries now
  | reset => exact Wf.reset b

/-- Wherever a run gets to, the buffer is well formed. -/
theorem wf_of_run {maxDelay : ℤ} {isVideo : Bool}
    {G : List (JitterBuffer × Call) → JitterBuffer → Call → Prop} {h : List (JitterBuffer × Call)}
    (hr : Run (machine maxDelay isVideo) G h b) : b.Wf :=
  hr.invariant (M := machine maxDelay isVideo) (P := fun _ b => b.Wf) (wf_create maxDelay isVideo)
    fun _ _ c _ hb _ => hb.call c

section Runs

variable {maxDelay : ℤ} {isVideo : Bool} {h : List (JitterBuffer × Call)}
  {G : List (JitterBuffer × Call) → JitterBuffer → Call → Prop}

theorem run_push (hr : Run (machine maxDelay isVideo) G h b) (pkt : RtpPacket)
    (hg : G h b (.push pkt)) :
    Run (machine maxDelay isVideo) G ((b, .push pkt) :: h) (b.push pkt) :=
  hr.step hg

theorem run_popFrame (hr : Run (machine maxDelay isVideo) G h b) (now : ℕ → ℤ)
    (hg : G h b (.popFrame now)) :
    Run (machine maxDelay isVideo) G ((b, .popFrame now) :: h) (b.popEntries now).1 :=
  hr.step hg

end Runs

end JitterBuffer
end AsioRtc
