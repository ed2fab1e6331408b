/-
# Places in a list

Things that are put at places: sorted by the place they are meant for, they come to
stand there exactly if the places are the numbers `0, 1, 2, …`, each once
(`mergeSort_places_iff`).  And the last place of a list where something holds
(`lastIdx?`), which is what a map from keys to places ends up with if later places
overwrite earlier ones.  At the end, what is at the same place in two lists.
-/

import Mathlib.Data.List.Forall2
import Mathlib.Data.List.Induction
import Mathlib.Data.List.Sort
import Mathlib.Data.List.Nodup

namespace AsioRtc
namespace Lib

variable {α : Type*}

/-! ### Sorting by place -/

/-- **Sorted by place, everything is at its place** exactly if the places are a permutation of
`0, 1, 2, …`. -/
theorem mergeSort_places_iff (place : α → ℕ) (l : List α) :
    (l.mergeSort fun a b => place a ≤ place b).map place = List.range l.length ↔
      (l.map place).Perm (List.range l.length) := by
  have hperm : ((l.mergeSort fun a b => place a ≤ place b).map place).Perm (l.map place) :=
    (List.mergeSort_perm l _).map place
  have hsorted : ((l.mergeSort fun a b => place a ≤ place b).map place).Pairwise (· ≤ ·) := by
    refine List.pairwise_map.2 ((List.pairwise_mergeSort ?_ ?_ l).imp fun h => of_decide_eq_true h)
    · intro a b c hab hbc
      exact decide_eq_true (Nat.le_trans (of_decide_eq_true hab) (of_decide_eq_true hbc))
    · intro a b
      simpa using Nat.le_total (place a) (place b)
  constructor
  · intro h
    exact h ▸ hperm.symm
  · intro h
    refine (hperm.trans h).eq_of_pairwise (fun a b _ _ => Nat.le_antisymm) hsorted ?_
    exact List.pairwise_le_range

/-- The numbers below `n`, each once. -/
theorem perm_range_iff {l : List ℕ} {n : ℕ} (hlt : ∀ i ∈ l, i < n) :
    l.Perm (List.range n) ↔ l.Nodup ∧ ∀ i < n, i ∈ l := by
  constructor
  · intro h
    exact ⟨h.nodup_iff.2 List.nodup_range, fun i hi => h.mem_iff.2 (List.mem_range.2 hi)⟩
  · rintro ⟨hnodup, hmem⟩
    refine (List.perm_ext_iff_of_nodup hnodup List.nodup_range).2 fun i => ?_
    exact ⟨fun hi => List.mem_range.2 (hlt i hi), fun hi => hmem i (List.mem_range.1 hi)⟩

/-- Numbers below `n`, and the next ones behind them. -/
theorem perm_range_append_iff {l : List ℕ} {n k : ℕ} (hlt : ∀ i ∈ l, i < n) :
    ((l ++ List.range' n k).Perm (List.range (l ++ List.range' n k).length) ∧
        n ≤ (l ++ List.range' n k).length) ↔ l.Nodup ∧ ∀ i < n, i ∈ l := by
  rw [← perm_range_iff hlt]
  constructor
  · rintro ⟨h, hn⟩
    refine (perm_range_iff hlt).2 ⟨?_, fun i hi => ?_⟩
    · exact (h.nodup_iff.2 List.nodup_range).sublist (List.sublist_append_left ..)
    · have hin := h.mem_iff.2 (List.mem_range.2 (Nat.lt_of_lt_of_le hi hn))
      rcases List.mem_append.1 hin with hin | hin
      · exact hin
      · have := List.mem_range'_1.1 hin
        omega
  · intro h
    have hlen : l.length = n := by rw [h.length_eq, List.length_range]
    have hrange : List.range (n + k) = List.range n ++ List.range' n k := by
      rw [List.range_eq_range', List.range_eq_range', ← List.range'_append_1, Nat.zero_add]
    rw [List.length_append, List.length_range', hlen, hrange]
    exact ⟨h.append_right _, Nat.le_add_right ..⟩

/-! ### The last place -/

/-- The last place where `p` holds. -/
def lastIdx? (p : α → Bool) : List α → Option ℕ
  | [] => none
  | a :: l =>
      match lastIdx? p l with
      | some i => some (i + 1)
      | none => if p a then some 0 else none

variable {p : α → Bool} {l : List α} {a : α} {i : ℕ}

@[simp] theorem lastIdx?_nil : lastIdx? p [] = none := rfl

theorem lastIdx?_concat : lastIdx? p (l ++ [a]) = if p a then some l.length else lastIdx? p l := by
  induction l with
  | nil => rfl
  | cons b l ih =>
    rw [List.cons_append, lastIdx?, ih, lastIdx?]
    by_cases hp : p a = true
    · simp [hp]
    · simp [hp]

theorem lastIdx?_eq_none : lastIdx? p l = none ↔ ∀ a ∈ l, p a = false := by
  induction l using List.reverseRecOn with
  | nil => simp
  | append_singleton l a ih =>
    rw [lastIdx?_concat]
    cases hp : p a <;> simp [hp, ih, or_imp, forall_and]

/-- It holds at the last place, and nowhere behind it. -/
theorem lastIdx?_eq_some :
    lastIdx? p l = some i ↔
      (∃ a, l[i]? = some a ∧ p a = true) ∧ ∀ j a, i < j → l[j]? = some a → p a = false := by
  induction l using List.reverseRecOn generalizing i with
  | nil => simp
  | append_singleton l b ih =>
    have hb : (l ++ [b])[l.length]? = some b := List.getElem?_concat_length
    have hold {j : ℕ} (hj : j < l.length) : (l ++ [b])[j]? = l[j]? := List.getElem?_append_left hj
    have hlt {j : ℕ} {a : α} (h : (l ++ [b])[j]? = some a) : j ≤ l.length := by
      have := (List.getElem?_eq_some_iff.1 h).1
      rw [List.length_append, List.length_singleton] at this
      omega
    rw [lastIdx?_concat]
    cases hp : p b with
    | true =>
      rw [if_pos rfl, Option.some.injEq]
      constructor
      · rintro rfl
        exact ⟨⟨b, hb, hp⟩, fun j a hj ha => absurd (hlt ha) (by omega)⟩
      · rintro ⟨⟨a, ha, -⟩, hlast⟩
        rcases Nat.lt_or_ge i l.length with hi | hi
        · exact absurd (hlast _ _ hi hb) (by simp [hp])
        · exact Nat.le_antisymm hi (hlt ha)
    | false =>
      rw [if_neg Bool.false_ne_true, ih]
      constructor
      · rintro ⟨⟨a, ha, hpa⟩, hlast⟩
        have hi := (List.getElem?_eq_some_iff.1 ha).1
        refine ⟨⟨a, (hold hi).trans ha, hpa⟩, fun j c hj hc => ?_⟩
        rcases Nat.lt_or_ge j l.length with hjl | hjl
        · exact hlast j c hj ((hold hjl).symm.trans hc)
        · obtain rfl : j = l.length := Nat.le_antisymm (hlt hc) hjl
          rwa [← Option.some.inj (hb.symm.trans hc)]
      · rintro ⟨⟨a, ha, hpa⟩, hlast⟩
        have hi : i < l.length := by
          rcases Nat.lt_or_ge i l.length with hi | hi
          · exact hi
          · obtain rfl : i = l.length := Nat.le_antisymm (hlt ha) hi
            obtain rfl := Option.some.inj (hb.symm.trans ha)
            exact absurd (hp.symm.trans hpa) (by simp)
        refine ⟨⟨a, (hold hi).symm.trans ha, hpa⟩, fun j c hj hc => ?_⟩
        exact hlast j c hj ((hold (List.getElem?_eq_some_iff.1 hc).1).trans hc)

/-! ### Place by place -/

section Pairs

variable {β : Type*} {R : α → β → Prop} {l : List α} {l' : List β}

theorem exists_left_of_mem (h : List.Forall₂ R l l') {b : β} (hb : b ∈ l') : ∃ a ∈ l, R a b := by
  induction h with
  | nil => cases hb
  | cons hab _ ih =>
    rcases List.mem_cons.1 hb with rfl | hb
    · exact ⟨_, List.mem_cons_self .., hab⟩
    · obtain ⟨a, ha, hr⟩ := ih hb
      exact ⟨a, List.mem_cons_of_mem _ ha, hr⟩

theorem exists_right_of_getElem? (h : List.Forall₂ R l l') {i : ℕ} {a : α} (ha : l[i]? = some a) :
    ∃ b, l'[i]? = some b ∧ R a b := by
  obtain ⟨hlen, hget⟩ := List.forall₂_iff_get.1 h
  obtain ⟨hi, rfl⟩ := List.getElem?_eq_some_iff.1 ha
  exact ⟨l'[i], List.getElem?_eq_getElem (hlen ▸ hi), hget i hi (hlen ▸ hi)⟩

theorem forall₂_comp {γ : Type*} {S : β → γ → Prop} {l'' : List γ} (h : List.Forall₂ R l l')
    (h' : List.Forall₂ S l' l'') : List.Forall₂ (fun a c => ∃ b, R a b ∧ S b c) l l'' := by
  induction h generalizing l'' with
  | nil =>
    cases h'
    exact .nil
  | cons hab _ ih =>
    cases h' with
    | cons hbc h' => exact .cons ⟨_, hab, hbc⟩ (ih h')

end Pairs

end Lib
end AsioRtc
