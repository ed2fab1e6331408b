/-
# A queue that delivers in order, each entry once

What a reorder buffer is for, said without its clock and its timers: entries
arrive under keys in any order, wait, and leave in blocks.  The queue keeps a
cursor that only moves forward.  An entry is accepted at or after the cursor and
under a key nothing waits under (`Step.accept`); the cursor may skip keys no
waiting entry has (`Step.advance`); and a block of the smallest waiting keys may
leave, with the cursor moved past it (`Step.deliver`).

Whatever order these steps come in, every accepted entry is waiting or has left
in exactly one block (`Ordered.exactly_once`), and the keys of everything that
has left, in the order it left, increase (`Ordered.increasing`).
-/

import Mathlib.Data.List.Sort
import Mathlib.Logic.Relation

namespace AsioRtc
namespace Lib

/-- The queue, with everything accepted and everything delivered so far. -/
structure DeliveryQueue (κ ν : Type*) [LinearOrder κ] where
  cursor : κ
  waiting : List (κ × ν)
  accepted : List (κ × ν)
  delivered : List (List (κ × ν))

namespace DeliveryQueue

variable {κ ν : Type*} [LinearOrder κ]

/-- A queue nothing has been put in. -/
def start (c : κ) : DeliveryQueue κ ν := ⟨c, [], [], []⟩

/-- What may happen to the queue. -/
inductive Step : DeliveryQueue κ ν → DeliveryQueue κ ν → Prop
  | accept {q : DeliveryQueue κ ν} (k : κ) (v : ν) (hc : q.cursor ≤ k)
      (hk : ∀ e ∈ q.waiting, e.1 ≠ k) :
      Step q { q with waiting := (k, v) :: q.waiting, accepted := (k, v) :: q.accepted }
  | advance {q : DeliveryQueue κ ν} (c : κ) (hc : q.cursor ≤ c) (hw : ∀ e ∈ q.waiting, c ≤ e.1) :
      Step q { q with cursor := c }
  | deliver {q : DeliveryQueue κ ν} (block rest : List (κ × ν)) (c : κ) (hc : q.cursor ≤ c)
      (hp : q.waiting.Perm (block ++ rest)) (hb : block.Pairwise fun a b => a.1 < b.1)
      (hlt : ∀ e ∈ block, e.1 < c) (hle : ∀ e ∈ rest, c ≤ e.1) :
      Step q { q with cursor := c, waiting := rest, delivered := q.delivered ++ [block] }

/-- What every queue reached from an empty one satisfies. -/
structure Ordered (q : DeliveryQueue κ ν) : Prop where
  ahead : ∀ e ∈ q.waiting, q.cursor ≤ e.1
  distinct : q.waiting.Pairwise fun a b => a.1 ≠ b.1
  behind : ∀ e ∈ q.delivered.flatten, e.1 < q.cursor
  increasing : q.delivered.flatten.Pairwise fun a b => a.1 < b.1
  conserved : q.accepted.Perm (q.delivered.flatten ++ q.waiting)

theorem ordered_start (c : κ) : Ordered (start c : DeliveryQueue κ ν) := by
  constructor <;> simp [start]

/-- One step keeps the order. -/
theorem Ordered.step {q q' : DeliveryQueue κ ν} (hs : Step q q') (h : Ordered q) : Ordered q' := by
  cases hs with
  | accept k v hc hk =>
    refine ⟨fun e he => ?_, ?_, h.behind, h.increasing, ?_⟩
    · rcases List.mem_cons.1 he with rfl | he
      · exact hc
      · exact h.ahead e he
    · exact List.pairwise_cons.2 ⟨fun e he => (hk e he).symm, h.distinct⟩
    · exact (h.conserved.cons (k, v)).trans List.perm_middle.symm
  | advance c hc hw =>
    exact ⟨hw, h.distinct, fun e he => (h.behind e he).trans_le hc, h.increasing, h.conserved⟩
  | deliver block rest c hc hp hb hlt hle =>
    have hflat : (q.delivered ++ [block]).flatten = q.delivered.flatten ++ block := by simp
    have hdist := (hp.pairwise_iff (fun hxy => Ne.symm hxy)).1 h.distinct
    refine ⟨hle, (List.pairwise_append.1 hdist).2.1, fun e he => ?_, ?_, ?_⟩
    · rw [hflat] at he
      rcases List.mem_append.1 he with he | he
      · exact (h.behind e he).trans_le hc
      · exact hlt e he
    · -- What left before is behind the old cursor, and the block starts there.
      rw [hflat]
      refine List.pairwise_append.2 ⟨h.increasing, hb, fun a ha b hb' => ?_⟩
      have hbw : b ∈ q.waiting := hp.mem_iff.2 (List.mem_append_left _ hb')
      exact (h.behind a ha).trans_le (h.ahead b hbw)
    · rw [hflat, List.append_assoc]
      exact h.conserved.trans (hp.append_left _)

/-- **Every reachable queue is ordered.** -/
theorem Ordered.of_steps {c : κ} {q : DeliveryQueue κ ν}
    (hr : Relation.ReflTransGen Step (start c) q) : Ordered q := by
  induction hr with
  | refl => exact ordered_start c
  | tail _ hs ih => exact ih.step hs

/-- A key that has left in one block is in no other block. -/
theorem Ordered.block_unique {q : DeliveryQueue κ ν} (h : Ordered q) {e : κ × ν}
    (he : e ∈ q.delivered.flatten) :
    ∃ pre block post, q.delivered = pre ++ block :: post ∧ e ∈ block ∧
      ∀ b ∈ pre ++ post, e ∉ b := by
  obtain ⟨block, hmem, heb⟩ := List.mem_flatten.1 he
  obtain ⟨pre, post, hsplit⟩ := List.append_of_mem hmem
  refine ⟨pre, block, post, hsplit, heb, fun b hb hin => ?_⟩
  have hinc := h.increasing
  rw [hsplit, List.flatten_append, List.flatten_cons] at hinc
  obtain ⟨-, hright, hcross⟩ := List.pairwise_append.1 hinc
  rcases List.mem_append.1 hb with hb | hb
  · exact lt_irrefl _ (hcross e (List.mem_flatten.2 ⟨b, hb, hin⟩) e (List.mem_append_left _ heb))
  · exact lt_irrefl _ ((List.pairwise_append.1 hright).2.2 e heb e (List.mem_flatten.2 ⟨b, hb, hin⟩))

/-- **Exactly once.**  An accepted entry waits and has not left, or has left in
exactly one block and waits no more. -/
theorem Ordered.exactly_once {q : DeliveryQueue κ ν} (h : Ordered q) {e : κ × ν}
    (he : e ∈ q.accepted) :
    (e ∈ q.waiting ∧ ∀ b ∈ q.delivered, e ∉ b) ∨
      (e ∉ q.waiting ∧ ∃ pre block post, q.delivered = pre ++ block :: post ∧ e ∈ block ∧
        ∀ b ∈ pre ++ post, e ∉ b) := by
  have hnot : ∀ b ∈ q.delivered, e ∈ b → e ∉ q.waiting := fun b hb hin hw =>
    absurd (h.ahead e hw) (not_le.2 (h.behind e (List.mem_flatten.2 ⟨b, hb, hin⟩)))
  rcases List.mem_append.1 (h.conserved.mem_iff.1 he) with hd | hw
  · obtain ⟨b, hb, hin⟩ := List.mem_flatten.1 hd
    exact Or.inr ⟨hnot b hb hin, h.block_unique hd⟩
  · exact Or.inl ⟨hw, fun b hb hin => hnot b hb hin hw⟩

end DeliveryQueue

end Lib
end AsioRtc
