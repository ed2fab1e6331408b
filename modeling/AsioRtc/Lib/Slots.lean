/-
# Ring buffers of slots

A buffer that a key shares with every key of the same residue: a function from the
slot number to what the slot holds.  `setAll` overwrites slots, and `sweep` visits
the slots of a list of keys one after the other, each visit changing its slot and
saying whether to report the key.  As long as the keys have different slots, the
visits do not see each other (`sweep_fst`, `sweep_snd`).
-/

import Mathlib.Data.List.Basic
import Mathlib.Data.List.Nodup
import Mathlib.Logic.Function.Basic

namespace AsioRtc
namespace Lib

variable {α κ : Type*}

/-- Put `v` into the slots `is`. -/
def setAll (v : α) : List ℕ → (ℕ → α) → ℕ → α
  | [], b => b
  | i :: is, b => setAll v is (Function.update b i v)

theorem setAll_apply (v : α) (is : List ℕ) (b : ℕ → α) (k : ℕ) :
    setAll v is b k = if k ∈ is then v else b k := by
  induction is generalizing b with
  | nil => rfl
  | cons i is ih =>
    rw [setAll, ih]
    by_cases hk : k = i
    · simp [hk]
    · simp [hk]

/-- Visit the slots of the keys in order; the buffer after it, and the keys reported. -/
def sweep (slot : κ → ℕ) (visit : α → α × Bool) : List κ → (ℕ → α) → (ℕ → α) × List κ
  | [], b => (b, [])
  | x :: xs, b =>
      let v := visit (b (slot x))
      let r := sweep slot visit xs (Function.update b (slot x) v.1)
      (r.1, if v.2 then x :: r.2 else r.2)

variable {slot : κ → ℕ} {visit : α → α × Bool} {xs : List κ} {b : ℕ → α}

/-- Each slot is visited as it was before the sweep. -/
theorem sweep_fst (hn : (xs.map slot).Nodup) (k : ℕ) :
    (sweep slot visit xs b).1 k = if k ∈ xs.map slot then (visit (b k)).1 else b k := by
  induction xs generalizing b with
  | nil => rfl
  | cons x xs ih =>
    obtain ⟨hx, hn⟩ := List.nodup_cons.1 hn
    simp only [sweep, ih hn, List.map_cons, List.mem_cons]
    by_cases hk : k = slot x
    · rw [hk, if_neg hx, if_pos (Or.inl rfl), Function.update_self]
    · simp only [hk, false_or, Function.update_of_ne hk]

/-- The keys reported are those whose slot, as it was before the sweep, says so. -/
theorem sweep_snd (hn : (xs.map slot).Nodup) :
    (sweep slot visit xs b).2 = xs.filter fun x => (visit (b (slot x))).2 := by
  induction xs generalizing b with
  | nil => rfl
  | cons x xs ih =>
    obtain ⟨hx, hn⟩ := List.nodup_cons.1 hn
    have hsame : ∀ y ∈ xs, (visit (Function.update b (slot x) (visit (b (slot x))).1 (slot y))).2 =
        (visit (b (slot y))).2 := fun y hy => by
      have hne : slot y ≠ slot x := fun heq => hx (heq ▸ List.mem_map_of_mem hy)
      rw [Function.update_of_ne hne]
    simp only [sweep, ih hn, List.filter_cons, List.filter_congr hsame]

end Lib
end AsioRtc
