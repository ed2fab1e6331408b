/-
# The jitter buffer delivers in order, each packet once

While extended numbers stay clear of the 32-bit wrap and nobody resets the buffer,
a run of `push` and `pop_frame` is a run of the delivery queue of
`AsioRtc.Lib.DeliveryQueue` (`refines`): a `push` that stores is an accept, a
`pop_frame` moves the cursor and lets a block leave.  What holds of every such
queue then holds of the buffer: packets are neither lost nor doubled, and leave in
the order of their extended numbers (`delivered_once_in_order`).
-/

import AsioRtc.Lib.DeliveryQueue
import AsioRtc.Jitter.Buffer

namespace AsioRtc

open Lib

namespace JitterBuffer

/-- The frames that the calls of a history returned, oldest first. -/
def frames : List (JitterBuffer × Call) → List (List (ℕ × RtpPacket))
  | [] => []
  | (b, .popFrame now) :: h => frames h ++ [(b.popEntries now).2]
  | _ :: h => frames h

/-- What `push` stores: nothing, or the packet under a key that was free. -/
def stores (b : JitterBuffer) (pkt : RtpPacket) : List (ℕ × RtpPacket) :=
  let k := extendSeq pkt.sequenceNumber b.nextExtendedSeq
  if !b.sorted.contains k && (b.push pkt).sorted.contains k then [(k, pkt)] else []

/-- The packets that the calls of a history stored, newest first, with their keys. -/
def stored : List (JitterBuffer × Call) → List (ℕ × RtpPacket)
  | [] => []
  | (b, .push pkt) :: h => b.stores pkt ++ stored h
  | _ :: h => stored h

/-- The extended number stays a cycle below the 32-bit wrap, and nobody resets. -/
def BelowWrap (_ : List (JitterBuffer × Call)) (b : JitterBuffer) : Call → Prop
  | .push pkt => extendSeq pkt.sequenceNumber b.nextExtendedSeq < 2 ^ 32 - 2 ^ 16
  | .popFrame _ => True
  | .reset => False

/-- `pop_frame` would discard its first entry. -/
def Discards (b : JitterBuffer) (now : ℕ → ℤ) : Prop :=
  ∃ k ∈ b.sorted.keys.head?, (b.waitGap (now 0) k).1 = false ∧
    k < (b.waitGap (now 0) k).2.nextExtendedSeq

theorem stores_of_push {b : JitterBuffer} {pkt : RtpPacket} (h : b.push pkt = b) :
    b.stores pkt = [] := by
  cases hc : b.sorted.contains (extendSeq pkt.sequenceNumber b.nextExtendedSeq) <;>
    simp [stores, h, hc]

/-- The delivery queue a buffer stands for after a history. -/
structure Refines (h : List (JitterBuffer × Call)) (b : JitterBuffer)
    (q : DeliveryQueue ℕ RtpPacket) : Prop where
  wf : b.Wf
  keys_lt : ∀ e ∈ b.sorted.entries, e.1 < 2 ^ 32 - 2 ^ 16
  cursor : q.cursor = b.nextExtendedSeq
  waiting : q.waiting.Perm b.sorted.entries
  accepted : q.accepted = stored h
  delivered : q.delivered = frames h

variable {h : List (JitterBuffer × Call)} {b : JitterBuffer} {q : DeliveryQueue ℕ RtpPacket}

/-- A `push` is an accept, after the first packet has put the cursor at its number. -/
theorem Refines.push (hq : Refines h b q) {pkt : RtpPacket}
    (hg : extendSeq pkt.sequenceNumber b.nextExtendedSeq < 2 ^ 32 - 2 ^ 16) :
    ∃ q', Relation.ReflTransGen DeliveryQueue.Step q q' ∧
      Refines ((b, .push pkt) :: h) (b.push pkt) q' := by
  rcases push_cases hq.wf pkt with heq | ⟨c, hc, hle, hfree, heq⟩
  · refine ⟨q, .refl, ?_⟩
    rw [heq]
    refine ⟨hq.wf, hq.keys_lt, hq.cursor, hq.waiting, ?_, hq.delivered⟩
    rw [stored, stores_of_push heq]
    exact hq.accepted
  · have hstores : b.stores pkt = [(extendSeq pkt.sequenceNumber b.nextExtendedSeq, pkt)] := by
      have hin : (b.push pkt).sorted.contains
          (extendSeq pkt.sequenceNumber b.nextExtendedSeq) = true := by
        rw [heq]
        exact OrdMap.contains_iff.2 ⟨pkt, (OrdMap.mem_emplace hfree).2 (.inl rfl)⟩
      simp [stores, hfree, hin]
    have hwaits : ∀ e ∈ q.waiting, c ≤ e.1 ∧
        e.1 ≠ extendSeq pkt.sequenceNumber b.nextExtendedSeq := by
      intro e he
      have he' := hq.waiting.mem_iff.1 he
      refine ⟨?_, fun hk => ?_⟩
      · rcases hc with rfl | ⟨hf, -⟩
        · exact hq.wf.ahead e he'
        · rw [(hq.wf.fresh hf).1] at he'
          exact absurd he' List.not_mem_nil
      · rw [OrdMap.contains_iff.2 ⟨e.2, hk ▸ he'⟩] at hfree
        exact absurd hfree (by simp)
    have hcur : q.cursor ≤ c := by
      rw [hq.cursor]
      rcases hc with rfl | ⟨hf, -⟩
      · exact le_rfl
      · exact (hq.wf.fresh hf).2 ▸ Nat.zero_le c
    refine ⟨_, .tail (.single (.advance c hcur fun e he => (hwaits e he).1))
      (.accept (extendSeq pkt.sequenceNumber b.nextExtendedSeq) pkt hle fun e he => (hwaits e he).2),
      hq.wf.push pkt, fun e he => ?_, ?_, ?_, ?_, hq.delivered⟩
    · rw [heq] at he
      rcases (OrdMap.mem_emplace hfree).1 he with rfl | he
      · exact hg
      · exact hq.keys_lt e he
    · rw [heq]
    · rw [heq]
      exact (hq.waiting.cons _).trans (OrdMap.perm_emplace pkt hfree).symm
    · rw [stored, hstores, ← hq.accepted]
      rfl

/-- A `pop_frame` moves the cursor, and lets a block leave. -/
theorem Refines.popFrame (hq : Refines h b q) (now : ℕ → ℤ) :
    ∃ q', Relation.ReflTransGen DeliveryQueue.Step q q' ∧
      Refines ((b, .popFrame now) :: h) (b.popEntries now).1 q' := by
  obtain ⟨c, n, hp⟩ := popEntries_pops hq.wf now
  have hsplit := List.take_append_drop n b.sorted.entries
  have hblock : ∀ e ∈ b.sorted.entries.take n, e.1 < c + n := fun e he => by
    have hmem : e.1 ∈ List.range' c n := by
      rw [← hp.keys, hp.frame]
      exact List.mem_map_of_mem he
    exact (List.mem_range'_1.1 hmem).2
  have hend : c + n < 2 ^ 32 := by
    rcases Nat.eq_zero_or_pos n with rfl | hn
    · exact hp.cursor_lt
    · have hlast : c + (n - 1) ∈ (b.popEntries now).2.map Prod.fst := by
        rw [hp.keys]
        exact List.mem_range'_1.2 ⟨by omega, by omega⟩
      obtain ⟨e, he, hec⟩ := List.mem_map.1 hlast
      have := hq.keys_lt e (List.mem_of_mem_take (hp.frame ▸ he))
      omega
  refine ⟨_, .tail (.single (.advance c (hq.cursor ▸ hp.next_le) fun e he =>
      hp.ahead e (hq.waiting.mem_iff.1 he)))
    (.deliver (b.sorted.entries.take n) (b.sorted.entries.drop n) (c + n) (Nat.le_add_right ..)
      (hsplit.symm ▸ hq.waiting) (b.sorted.sorted.sublist (List.take_sublist ..)) hblock
      fun e he => hp.le_of_mem_drop he),
    hq.wf.popEntries now, fun e he => ?_, ?_, ?_, hq.accepted, ?_⟩
  · rw [hp.sorted] at he
    exact hq.keys_lt e (List.mem_of_mem_drop he)
  · rw [hp.next, Nat.mod_eq_of_lt hend]
  · rw [hp.sorted]
    rfl
  · rw [frames, ← hq.delivered, hp.frame]

/-- **The buffer refines the delivery queue.** -/
theorem refines {maxDelay : ℤ} {isVideo : Bool} (hr : Run (machine maxDelay isVideo) BelowWrap h b) :
    ∃ q, Relation.ReflTransGen DeliveryQueue.Step (.start 0) q ∧ Refines h b q := by
  refine hr.simulates (M := machine maxDelay isVideo)
    ⟨wf_create .., by simp [machine, create], rfl, .refl _, rfl, rfl⟩ fun h b c q _ hq hg => ?_
  cases c with
  | push pkt => exact hq.push hg
  | popFrame now => exact hq.popFrame now
  | reset => exact hg.elim

/-- A frame that `pop_frame` returned holds consecutive numbers and one timestamp. -/
theorem frame_of_run {maxDelay : ℤ} {isVideo : Bool}
    (hr : Run (machine maxDelay isVideo) BelowWrap h b) :
    ∀ f ∈ frames h, (∃ c n, f.map Prod.fst = List.range' c n) ∧
      ∃ ts, ∀ e ∈ f, e.2.timestamp = ts := by
  refine hr.invariant (M := machine maxDelay isVideo)
    (P := fun h _ => ∀ f ∈ frames h, (∃ c n, f.map Prod.fst = List.range' c n) ∧
      ∃ ts, ∀ e ∈ f, e.2.timestamp = ts) (by simp [frames]) fun h b c hr ih hg f hf => ?_
  cases c with
  | push pkt => exact ih f hf
  | reset => exact ih f hf
  | popFrame now =>
    rcases List.mem_append.1 hf with hf | hf
    · exact ih f hf
    · obtain ⟨c, n, hp⟩ := popEntries_pops (wf_of_run hr) now
      rw [List.mem_singleton.1 hf]
      exact ⟨⟨c, n, hp.keys⟩, hp.stamp⟩

/-- Where no key is behind the cursor, nothing is discarded. -/
theorem Wf.not_discards (hb : b.Wf) (now : ℕ → ℤ) : ¬ b.Discards now := by
  rintro ⟨k, hk, hw, hlt⟩
  obtain ⟨e, he, rfl⟩ := List.mem_map.1 (List.mem_of_mem_head? hk)
  rcases waitGap_cases (hb.ahead e he) (now 0) with ⟨hw', -⟩ | ⟨-, -, hnext, -⟩
  · rw [hw] at hw'
    exact absurd hw' (by simp)
  · omega

/-- **Delivery.**  In every run without a reset whose extended numbers stay a cycle below
the 32-bit wrap: what was stored is what waits and what has left, every stored packet is in
exactly one of the two and has left in exactly one frame; what has left increases in extended
number; a frame is consecutive, with one timestamp; and no key is behind the cursor, so that
nothing is ever discarded. -/
theorem delivered_once_in_order (maxDelay : ℤ) (isVideo : Bool) (h : List (JitterBuffer × Call))
    (b : JitterBuffer) (hr : Run (machine maxDelay isVideo) BelowWrap h b) :
    (stored h).Perm ((frames h).flatten ++ b.sorted.entries) ∧
      (∀ e ∈ stored h,
        (e ∈ b.sorted.entries ∧ ∀ f ∈ frames h, e ∉ f) ∨
          (e ∉ b.sorted.entries ∧ ∃ pre f post, frames h = pre ++ f :: post ∧ e ∈ f ∧
            ∀ g ∈ pre ++ post, e ∉ g)) ∧
      (frames h).flatten.Pairwise (fun x y => x.1 < y.1) ∧
      (∀ f ∈ frames h, (∃ c n, f.map Prod.fst = List.range' c n) ∧
        ∃ ts, ∀ e ∈ f, e.2.timestamp = ts) ∧
      (∀ e ∈ b.sorted.entries, b.nextExtendedSeq ≤ e.1) ∧
      ∀ now, ¬ b.Discards now := by
  obtain ⟨q, hq, hR⟩ := refines hr
  have hord := DeliveryQueue.Ordered.of_steps hq
  refine ⟨?_, fun e he => ?_, ?_, frame_of_run hr, hR.wf.ahead, hR.wf.not_discards⟩
  · rw [← hR.accepted, ← hR.delivered]
    exact hord.conserved.trans (hR.waiting.append_left _)
  · have honce := hord.exactly_once (hR.accepted ▸ he)
    simp only [hR.waiting.mem_iff, hR.delivered] at honce
    exact honce
  · rw [← hR.delivered]
    exact hord.increasing

/-- The packets 5, 7 and 6 arrive, and two frames are asked for: 5 and 6 leave, and 7 waits. -/
theorem delivered_once_in_order_three :
    ∃ (h : List (JitterBuffer × Call)) (b : JitterBuffer),
      (stored h).map Prod.fst = [6, 7, 5] ∧ (frames h).map (List.map Prod.fst) = [[5], [6]] ∧
      b.sorted.keys = [7] ∧ (stored h).Perm ((frames h).flatten ++ b.sorted.entries) := by
  have r₁ := run_push (G := BelowWrap) (.init (M := machine 500 false))
    { sequenceNumber := 5, timestamp := 10, payload := [1] } (show extendSeq _ _ < _ by decide)
  have r₂ := run_push r₁ { sequenceNumber := 7, timestamp := 30, payload := [3] }
    (show extendSeq _ _ < _ by decide)
  have r₃ := run_push r₂ { sequenceNumber := 6, timestamp := 20, payload := [2] }
    (show extendSeq _ _ < _ by decide)
  have r₄ := run_popFrame (run_popFrame r₃ (fun _ => 0) trivial) (fun _ => 0) trivial
  exact ⟨_, _, by decide +kernel, by decide +kernel, by decide +kernel,
    (delivered_once_in_order 500 false _ _ r₄).1⟩

end JitterBuffer
end AsioRtc
