/-
# The search of a sorted range

`lowerBound p l` is `std::lower_bound`: it looks at the element in the middle of the range, goes
on behind it where the element satisfies `p` ("is less than the value"), and in front of it where
it does not.  Most elements are never looked at.  Where those with `p` stand in front
(`Partitioned`), the search finds the place where they end (`lowerBound_spec`); in any other list
it finds some place, which `lowerBound_halve` computes and which need not be the first one
without `p`.
-/

import Mathlib.Data.List.Basic

namespace AsioRtc
namespace Lib

variable {α : Type*} {p : α → Bool} {l front behind : List α} {mid : α}

/-! ### The search -/

/-- The search of the range `l`, with fuel for so many looks. -/
def lowerBoundIn (p : α → Bool) : ℕ → List α → ℕ
  | 0, _ => 0
  | fuel + 1, l =>
      match l.drop (l.length / 2) with
      | [] => 0
      | mid :: behind =>
          if p mid then l.length / 2 + 1 + lowerBoundIn p fuel behind
          else lowerBoundIn p fuel (l.take (l.length / 2))

/-- `std::lower_bound`, the place it returns as a number of elements in front of it. -/
def lowerBound (p : α → Bool) (l : List α) : ℕ := lowerBoundIn p l.length l

/-- What holds of no elements, and of a range when it holds of its halves, holds of every range. -/
theorem halving_induction {motive : List α → Prop} (l : List α) (nil : motive [])
    (halve : ∀ front mid behind, front.length = (front ++ mid :: behind).length / 2 →
      motive front → motive behind → motive (front ++ mid :: behind)) : motive l := by
  induction hn : l.length using Nat.strongRecOn generalizing l with
  | ind n ih =>
    cases hdrop : l.drop (l.length / 2) with
    | nil =>
      have hzero : l.length = 0 := by
        have := List.drop_eq_nil_iff.1 hdrop
        omega
      rwa [List.length_eq_zero_iff.1 hzero]
    | cons mid behind =>
      have hl : l.take (l.length / 2) ++ mid :: behind = l := by
        rw [← hdrop, List.take_append_drop]
      have hlen := congrArg List.length hl
      rw [List.length_append, List.length_take, List.length_cons] at hlen
      rw [← hl]
      refine halve _ _ _ ?_ (ih _ ?_ _ rfl) (ih _ ?_ _ rfl)
      · rw [hl, List.length_take]
        omega
      · rw [List.length_take]
        omega
      · omega

/-- One look, with the fuel it takes. -/
theorem lowerBoundIn_halve (hfront : front.length = (front ++ mid :: behind).length / 2)
    (fuel : ℕ) :
    lowerBoundIn p (fuel + 1) (front ++ mid :: behind) =
      if p mid then front.length + 1 + lowerBoundIn p fuel behind
      else lowerBoundIn p fuel front := by
  rw [lowerBoundIn, ← hfront, List.drop_left, List.take_left]

/-- As much fuel as there are elements is enough: more changes nothing. -/
theorem lowerBoundIn_of_le (l : List α) :
    ∀ fuel, l.length ≤ fuel → lowerBoundIn p fuel l = lowerBound p l := by
  induction l using halving_induction with
  | nil =>
    intro fuel _
    cases fuel <;> simp [lowerBound, lowerBoundIn]
  | halve front mid behind hfront ihfront ihbehind =>
    have hlen : (front ++ mid :: behind).length = front.length + behind.length + 1 := by
      rw [List.length_append, List.length_cons, Nat.add_assoc]
    rintro (_ | fuel) hfuel
    · omega
    · rw [lowerBound, hlen, lowerBoundIn_halve hfront, lowerBoundIn_halve hfront,
        ihfront fuel (by omega), ihbehind fuel (by omega), ihfront _ (Nat.le_add_right _ _),
        ihbehind _ (Nat.le_add_left _ _)]

/-- **One look** at the middle of a range halves it. -/
theorem lowerBound_halve (hfront : front.length = (front ++ mid :: behind).length / 2) :
    lowerBound p (front ++ mid :: behind) =
      if p mid then front.length + 1 + lowerBound p behind else lowerBound p front := by
  have hlen : (front ++ mid :: behind).length = front.length + behind.length + 1 := by
    rw [List.length_append, List.length_cons, Nat.add_assoc]
  rw [lowerBound, hlen, lowerBoundIn_halve hfront, lowerBoundIn_of_le _ _ (Nat.le_add_left _ _),
    lowerBoundIn_of_le _ _ (Nat.le_add_right _ _)]

/-- The place is in the range, or is its end. -/
theorem lowerBound_le (p : α → Bool) (l : List α) : lowerBound p l ≤ l.length := by
  induction l using halving_induction with
  | nil => exact Nat.le_refl 0
  | halve front mid behind hfront ihfront ihbehind =>
    rw [lowerBound_halve hfront, List.length_append, List.length_cons]
    split <;> omega

/-! ### Where the range is partitioned -/

/-- The elements with `p` stand in front of those without. -/
def Partitioned (p : α → Bool) (l : List α) : Prop := l.Pairwise fun a b => p b → p a

/-- **In a partitioned range** the search finds the place where the elements with `p` end. -/
theorem lowerBound_spec (h : Partitioned p l) :
    (∀ a ∈ l.take (lowerBound p l), p a) ∧ ∀ a ∈ l.drop (lowerBound p l), ¬ p a := by
  induction l using halving_induction with
  | nil => simp
  | halve front mid behind hfront ihfront ihbehind =>
    obtain ⟨hinfront, hrest, hacross⟩ := List.pairwise_append.1 h
    obtain ⟨hmid, hinbehind⟩ := List.pairwise_cons.1 hrest
    rw [lowerBound_halve hfront]
    by_cases hp : p mid
    · -- The elements in front of the middle have `p` as well.
      obtain ⟨htake, hdrop⟩ := ihbehind hinbehind
      rw [if_pos hp, Nat.add_assoc, List.take_length_add_append, List.drop_length_add_append,
        Nat.add_comm 1, List.take_succ_cons, List.drop_succ_cons]
      refine ⟨fun a ha => ?_, hdrop⟩
      rcases List.mem_append.1 ha with ha | ha
      · exact hacross a ha mid List.mem_cons_self hp
      · rcases List.mem_cons.1 ha with rfl | ha
        · exact hp
        · exact htake a ha
    · -- The elements behind the middle do not have `p` either.
      obtain ⟨htake, hdrop⟩ := ihfront hinfront
      rw [if_neg hp, List.take_append_of_le_length (lowerBound_le p front),
        List.drop_append_of_le_length (lowerBound_le p front)]
      refine ⟨htake, fun a ha => ?_⟩
      rcases List.mem_append.1 ha with ha | ha
      · exact hdrop a ha
      · rcases List.mem_cons.1 ha with rfl | ha
        · exact hp
        · exact fun hpa => hp (hmid a ha hpa)

end Lib
end AsioRtc
