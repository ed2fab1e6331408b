/-
# Cutting a list at separators

`pieces p s` are the non-empty parts of `s` between the elements that satisfy `p`:
the words of a text for a blank, the numbers in it for "no digit".  A list is cut
from the front (`pieces_append_cons`), and putting separators between pieces and
cutting again gives the pieces back (`pieces_flatMap_cons`, `pieces_intercalate`).
A piece is a part of the list without a separator (`mem_pieces`); the first one is
in front where the list does not begin with a separator, and likewise the last one
(`head?_pieces`, `getLast?_pieces`).
-/

import Mathlib.Data.List.Infix

namespace AsioRtc
namespace Lib

variable {α : Type*} {p : α → Bool} {s t w : List α} {c : α} {ws : List (List α)}

/-- The non-empty parts between separators. -/
def pieces [DecidableEq α] (p : α → Bool) (s : List α) : List (List α) :=
  (s.splitOnP p).filter (· ≠ [])

/-- No element is a separator. -/
def Whole (p : α → Bool) (w : List α) : Prop := ∀ c ∈ w, p c = false

/-- A list is whole, or a whole part, a separator and the rest. -/
theorem split_induction {motive : List α → Prop} (s : List α)
    (whole : ∀ w, Whole p w → motive w)
    (cons : ∀ w c s, Whole p w → p c = true → motive s → motive (w ++ c :: s)) : motive s := by
  suffices h : ∀ w, Whole p w → motive (w ++ s) by simpa using h [] (by simp [Whole])
  induction s with
  | nil => exact fun w hw => by simpa using whole w hw
  | cons c s ih =>
    intro w hw
    cases hc : p c with
    | true => exact cons w c s hw hc (by simpa using ih [] (by simp [Whole]))
    | false =>
      have hwc : Whole p (w ++ [c]) := by
        intro x hx
        rcases List.mem_append.1 hx with hx | hx
        · exact hw x hx
        · rwa [List.mem_singleton.1 hx]
      simpa using ih (w ++ [c]) hwc

/-- A part of a list that has no separator is on one side of it. -/
theorem infix_append_cons {n a b : List α} (h : n <:+: a ++ c :: b) (hc : c ∉ n) :
    n <:+: a ∨ n <:+: b := by
  obtain ⟨x, y, hxy⟩ := h
  rcases List.append_eq_append_iff.1 hxy with ⟨z, ha, hy⟩ | ⟨z, hxn, hb⟩
  · exact Or.inl ⟨x, z, ha.symm⟩
  · cases z with
    | nil => exact Or.inl ⟨x, [], by simpa using hxn⟩
    | cons d z =>
      obtain ⟨rfl, rfl⟩ := List.cons.inj hb
      rcases List.append_eq_append_iff.1 hxn with ⟨u, -, hn⟩ | ⟨u, -, hz⟩
      · exact absurd (hn ▸ List.mem_append_right u (List.mem_cons_self ..)) hc
      · cases u with
        | nil =>
          rw [List.nil_append] at hz
          exact absurd (hz ▸ List.mem_cons_self ..) hc
        | cons e u =>
          obtain ⟨-, rfl⟩ := List.cons.inj hz
          exact Or.inr ⟨u, y, rfl⟩

/-- A prefix that has no separator is in front of it. -/
theorem prefix_of_prefix_append_cons {n a b : List α} (h : n <+: a ++ c :: b) (hc : c ∉ n) :
    n <+: a := by
  obtain ⟨y, hy⟩ := h
  rcases List.append_eq_append_iff.1 hy with ⟨z, ha, -⟩ | ⟨z, hn, hz⟩
  · exact ⟨z, ha.symm⟩
  · cases z with
    | nil => exact ⟨[], by simpa using hn⟩
    | cons d z =>
      obtain ⟨rfl, -⟩ := List.cons.inj hz
      exact absurd (hn ▸ List.mem_append_right a (List.mem_cons_self ..)) hc

theorem intercalate_cons_eq (w : List α) (ws : List (List α)) :
    [c].intercalate (w :: ws) = w ++ ws.flatMap (c :: ·) := by
  induction ws generalizing w with
  | nil => simp
  | cons v ws ih => rw [List.intercalate_cons_cons, ih, List.flatMap_cons]; simp

/-- One of the lists that are joined. -/
theorem intercalate_split (us : List (List α)) (w : List α) (ws : List (List α)) :
    [c].intercalate (us ++ w :: ws) = us.flatMap (· ++ [c]) ++ (w ++ ws.flatMap (c :: ·)) := by
  induction us with
  | nil => exact intercalate_cons_eq w ws
  | cons u us ih =>
    have hcons : [c].intercalate (u :: (us ++ w :: ws)) =
        u ++ c :: [c].intercalate (us ++ w :: ws) := by
      obtain ⟨v, vs, hv⟩ := List.exists_cons_of_ne_nil (l := us ++ w :: ws) (by simp)
      rw [hv, List.intercalate_cons_cons]
      simp
    rw [List.cons_append, hcons, ih]
    simp

/-- Lists with a separator behind each of them: the last one is taken off. -/
theorem dropLast_flatMap_concat (c : α) (ws : List (List α)) :
    (ws.flatMap (· ++ [c])).dropLast = [c].intercalate ws := by
  induction ws with
  | nil => rfl
  | cons w ws ih =>
    cases ws with
    | nil => simp
    | cons v ws =>
      rw [List.intercalate_cons_cons, ← ih, List.flatMap_cons,
        List.dropLast_append_of_ne_nil (by simp)]

/-- **A part of joined lists** that has no separator is a part of one of them. -/
theorem infix_intercalate {n : List α} (h : n <:+: [c].intercalate ws) (hc : c ∉ n)
    (hne : n ≠ []) : ∃ w ∈ ws, n <:+: w := by
  induction ws with
  | nil =>
    rw [List.intercalate_nil, List.infix_nil] at h
    exact absurd h hne
  | cons w ws ih =>
    cases ws with
    | nil => exact ⟨w, by simp, by simpa using h⟩
    | cons v ws =>
      rw [List.intercalate_cons_cons, List.append_assoc] at h
      rcases infix_append_cons h hc with h | h
      · exact ⟨w, List.mem_cons_self .., h⟩
      · obtain ⟨u, hu, h⟩ := ih h
        exact ⟨u, List.mem_cons_of_mem _ hu, h⟩

variable [DecidableEq α]

@[simp] theorem pieces_nil : pieces p [] = [] := rfl

theorem pieces_whole (hw : Whole p w) (hne : w ≠ []) : pieces p w = [w] := by
  rw [pieces, List.splitOnP_eq_singleton hw]
  simp [hne]

/-- A list is cut at its first separator. -/
theorem pieces_append_cons (hw : Whole p w) (hc : p c = true) :
    pieces p (w ++ c :: s) = (if w = [] then [] else [w]) ++ pieces p s := by
  rw [pieces, List.splitOnP_append_cons_of_forall_mem hw c hc]
  split <;> simp_all [pieces]

theorem pieces_cons (hc : p c = true) : pieces p (c :: s) = pieces p s :=
  pieces_append_cons (w := []) (by simp [Whole]) hc

/-- **A piece** is a part of the list, not empty and without a separator. -/
theorem mem_pieces : ∀ w ∈ pieces p s, w ≠ [] ∧ Whole p w ∧ w <:+: s := by
  induction s using split_induction (p := p) with
  | whole v hv =>
    by_cases hne : v = []
    · simp [hne]
    · simp [pieces_whole hv hne, hne, hv]
  | cons v c s hv hc ih =>
    have hrest : ∀ w ∈ pieces p s, w ≠ [] ∧ Whole p w ∧ w <:+: v ++ c :: s := fun w hw =>
      ⟨(ih w hw).1, (ih w hw).2.1,
        (ih w hw).2.2.trans ((List.suffix_cons c s).trans (List.suffix_append v _)).isInfix⟩
    rw [pieces_append_cons hv hc]
    split
    · simpa using hrest
    · rename_i hne
      rw [List.singleton_append]
      exact List.forall_mem_cons.2 ⟨⟨hne, hv, (List.prefix_append v _).isInfix⟩, hrest⟩

/-- A list with an element that is no separator has a piece. -/
theorem pieces_eq_nil_iff : pieces p s = [] ↔ ∀ c ∈ s, p c = true := by
  induction s using split_induction (p := p) with
  | whole v hv =>
    by_cases hne : v = []
    · simp [hne]
    · rw [pieces_whole hv hne]
      obtain ⟨c, v, rfl⟩ := List.exists_cons_of_ne_nil hne
      simp [hv c (List.mem_cons_self ..)]
  | cons v c s hv hc ih =>
    rw [pieces_append_cons hv hc]
    by_cases hne : v = []
    · simp [hne, ih, hc]
    · obtain ⟨x, v, rfl⟩ := List.exists_cons_of_ne_nil hne
      simp [hv x (List.mem_cons_self ..)]

/-- The first piece is in front of a list that does not begin with a separator. -/
theorem head?_pieces (hs : ∀ c ∈ s.head?, p c = false) (h : w ∈ (pieces p s).head?) : w <+: s := by
  induction s using split_induction (p := p) with
  | whole v hv =>
    by_cases hne : v = []
    · simp [hne] at h
    · rw [pieces_whole hv hne, List.head?_cons, Option.mem_some_iff] at h
      exact h ▸ List.prefix_rfl
  | cons v c s hv hc ih =>
    by_cases hne : v = []
    · rw [hne] at hs
      exact absurd (hs c rfl) (by simp [hc])
    · rw [pieces_append_cons hv hc, if_neg hne] at h
      obtain rfl := Option.some.inj h
      exact List.prefix_append ..

/-- The last piece is at the end of a list that does not end with a separator. -/
theorem getLast?_pieces (hs : ∀ c ∈ s.getLast?, p c = false) (h : w ∈ (pieces p s).getLast?) :
    w <:+ s := by
  induction s using split_induction (p := p) with
  | whole v hv =>
    by_cases hne : v = []
    · simp [hne] at h
    · rw [pieces_whole hv hne] at h
      obtain rfl := Option.some.inj h
      exact List.suffix_rfl
  | cons v c s hv hc ih =>
    have hne : s ≠ [] := by
      rintro rfl
      exact absurd (hs c (by simp)) (by simp [hc])
    obtain ⟨x, s, rfl⟩ := List.exists_cons_of_ne_nil hne
    have hlast : ∀ c ∈ (x :: s).getLast?, p c = false := by
      intro y hy
      refine hs y ?_
      rw [List.getLast?_append_cons, List.getLast?_cons_cons]
      exact hy
    have hpieces : pieces p (x :: s) ≠ [] := fun h0 =>
      absurd (pieces_eq_nil_iff.1 h0 _ (List.getLast_mem hne))
        (by simp [hlast _ (List.getLast?_eq_some_getLast hne)])
    rw [pieces_append_cons hv hc, List.getLast?_append_of_ne_nil _ hpieces] at h
    exact (ih hlast h).trans ((List.suffix_cons c _).trans (List.suffix_append v _))

/-- **Pieces behind separators** are cut off again. -/
theorem pieces_flatMap_cons (hc : p c = true) (hws : ∀ w ∈ ws, w ≠ [] ∧ Whole p w) :
    pieces p (ws.flatMap (c :: ·)) = ws := by
  induction ws with
  | nil => rfl
  | cons w ws ih =>
    obtain ⟨⟨hne, hw⟩, hws⟩ := List.forall_mem_cons.1 hws
    rw [List.flatMap_cons, List.cons_append, pieces_cons hc]
    cases ws with
    | nil => simp [pieces_whole hw hne]
    | cons v vs =>
      have ih := ih hws
      rw [List.flatMap_cons, List.cons_append, pieces_cons hc] at ih
      rw [List.flatMap_cons, List.cons_append, pieces_append_cons hw hc, if_neg hne, ih]
      rfl

theorem pieces_append_flatMap (hc : p c = true) (hw : w ≠ [] ∧ Whole p w)
    (hws : ∀ w ∈ ws, w ≠ [] ∧ Whole p w) : pieces p (w ++ ws.flatMap (c :: ·)) = w :: ws := by
  have h := pieces_flatMap_cons hc (List.forall_mem_cons.2 ⟨hw, hws⟩)
  rwa [List.flatMap_cons, List.cons_append, pieces_cons hc] at h

/-- **Pieces with separators between them** are cut apart again. -/
theorem pieces_intercalate (hc : p c = true) (hws : ∀ w ∈ ws, w ≠ [] ∧ Whole p w) :
    pieces p ([c].intercalate ws) = ws := by
  cases ws with
  | nil => rfl
  | cons w ws =>
    obtain ⟨hw, hws⟩ := List.forall_mem_cons.1 hws
    rw [intercalate_cons_eq, pieces_append_flatMap hc hw hws]

end Lib
end AsioRtc
