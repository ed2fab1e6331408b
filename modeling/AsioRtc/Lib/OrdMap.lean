/-
# Ordered maps

A finite map kept as its entries in key order, each key once: what a reader sees
of a `std::map`.  The order is a field of the type (`OrdMap.sorted`), so a map out
of order cannot be built.  `emplace` leaves the map alone where the key is taken,
`update` makes a new value there, `find?` is the value of a key, `erase` takes it out, and
`eraseBegin` and `erasePrefix` take entries off the front.
-/

import Mathlib.Data.List.Sort

namespace AsioRtc
namespace Lib

/-- Entries in strictly increasing key order. -/
structure OrdMap (κ ν : Type*) [LinearOrder κ] where
  entries : List (κ × ν)
  sorted : entries.Pairwise fun a b => a.1 < b.1

namespace OrdMap

variable {κ ν : Type*} [LinearOrder κ]

/-- A map is its entries. -/
@[ext] theorem ext {m n : OrdMap κ ν} (h : m.entries = n.entries) : m = n := by
  cases m; cases n; cases h; rfl

/-- The map with no entry. -/
def empty : OrdMap κ ν := ⟨[], .nil⟩

/-- The empty map has none. -/
@[simp] theorem entries_empty : (empty : OrdMap κ ν).entries = [] := rfl

/-- The keys, in order. -/
def keys (m : OrdMap κ ν) : List κ := m.entries.map Prod.fst

/-- The number of entries. -/
def size (m : OrdMap κ ν) : ℕ := m.entries.length

/-- The key is in the map. -/
def contains (m : OrdMap κ ν) (k : κ) : Bool := m.entries.any fun e => e.1 = k

/-- A key is there with some value. -/
theorem contains_iff {m : OrdMap κ ν} {k : κ} : m.contains k = true ↔ ∃ v, (k, v) ∈ m.entries := by
  simp only [contains, List.any_eq_true, decide_eq_true_eq]
  constructor
  · rintro ⟨⟨k', v⟩, hm, rfl⟩
    exact ⟨v, hm⟩
  · rintro ⟨v, hm⟩
    exact ⟨_, hm, rfl⟩

/-- Put a new entry at its place, or leave the list alone where the key is taken. -/
def insertEntry (k : κ) (v : ν) : List (κ × ν) → List (κ × ν)
  | [] => [(k, v)]
  | e :: l =>
      if k < e.1 then (k, v) :: e :: l
      else if e.1 < k then e :: insertEntry k v l
      else e :: l

/-- An entry is the new one, or has been there. -/
theorem mem_insertEntry {k : κ} {v : ν} {l : List (κ × ν)} {e : κ × ν}
    (he : e ∈ insertEntry k v l) : e = (k, v) ∨ e ∈ l := by
  induction l with
  | nil => exact Or.inl (List.mem_singleton.1 he)
  | cons a l ih =>
    simp only [insertEntry] at he
    split_ifs at he
    · exact (List.mem_cons.1 he)
    · rcases List.mem_cons.1 he with rfl | he
      · exact Or.inr (List.mem_cons_self ..)
      · exact (ih he).imp_right (List.mem_cons_of_mem _)
    · exact Or.inr he

/-- The entries stay in order. -/
theorem pairwise_insertEntry {k : κ} {v : ν} {l : List (κ × ν)}
    (hl : l.Pairwise fun a b => a.1 < b.1) :
    (insertEntry k v l).Pairwise fun a b => a.1 < b.1 := by
  induction l with
  | nil => exact List.pairwise_singleton _ _
  | cons a l ih =>
    obtain ⟨ha, hl⟩ := List.pairwise_cons.1 hl
    simp only [insertEntry]
    split_ifs with h₁ h₂
    · refine List.pairwise_cons.2 ⟨fun e he => ?_, List.pairwise_cons.2 ⟨ha, hl⟩⟩
      rcases List.mem_cons.1 he with rfl | he
      · exact h₁
      · exact h₁.trans (ha e he)
    · refine List.pairwise_cons.2 ⟨fun e he => ?_, ih hl⟩
      rcases mem_insertEntry he with rfl | he
      · exact h₂
      · exact ha e he
    · exact List.pairwise_cons.2 ⟨ha, hl⟩

/-- Insert an entry whose key is not yet there (`std::map::emplace`). -/
def emplace (m : OrdMap κ ν) (k : κ) (v : ν) : OrdMap κ ν :=
  ⟨insertEntry k v m.entries, pairwise_insertEntry m.sorted⟩

/-- An entry behind all others goes to the end. -/
theorem insertEntry_of_lt {k : κ} {v : ν} {l : List (κ × ν)} (h : ∀ e ∈ l, e.1 < k) :
    insertEntry k v l = l ++ [(k, v)] := by
  induction l with
  | nil => rfl
  | cons a l ih =>
    obtain ⟨ha, hl⟩ := List.forall_mem_cons.1 h
    rw [insertEntry, if_neg (lt_asymm ha), if_pos ha, ih hl]
    rfl

/-- **Entries that are put in one after the other, in order.** -/
theorem entries_foldl_emplace {l : List (κ × ν)} {m : OrdMap κ ν}
    (h : (m.entries ++ l).Pairwise fun a b => a.1 < b.1) :
    (l.foldl (fun m e => m.emplace e.1 e.2) m).entries = m.entries ++ l := by
  induction l generalizing m with
  | nil => simp
  | cons e l ih =>
    have hlt : ∀ a ∈ m.entries, a.1 < e.1 := fun a ha =>
      (List.pairwise_append.1 h).2.2 a ha e (List.mem_cons_self ..)
    have hentries : (m.emplace e.1 e.2).entries = m.entries ++ [e] := insertEntry_of_lt hlt
    rw [List.foldl_cons, ih (by rw [hentries]; simpa using h), hentries]
    simp

/-- **A fresh key adds exactly one entry.** -/
theorem perm_emplace {m : OrdMap κ ν} {k : κ} (v : ν) (hk : m.contains k = false) :
    (m.emplace k v).entries.Perm ((k, v) :: m.entries) := by
  have hne : ∀ e ∈ m.entries, e.1 ≠ k := fun e he h =>
    Bool.false_ne_true (hk.symm.trans (contains_iff.2 ⟨e.2, h ▸ he⟩))
  change (insertEntry k v m.entries).Perm ((k, v) :: m.entries)
  generalize m.entries = l at hne
  induction l with
  | nil => exact .refl _
  | cons a l ih =>
    have ha := hne a (List.mem_cons_self ..)
    simp only [insertEntry]
    split_ifs with h₁ h₂
    · exact .refl _
    · exact ((ih fun e he => hne e (List.mem_cons_of_mem _ he)).cons a).trans (.swap ..)
    · exact absurd (le_antisymm (not_lt.1 h₁) (not_lt.1 h₂)) ha

/-- A new key is added to what is there. -/
theorem mem_emplace {m : OrdMap κ ν} {k : κ} {v : ν} {e : κ × ν} (hk : m.contains k = false) :
    e ∈ (m.emplace k v).entries ↔ e = (k, v) ∨ e ∈ m.entries := by
  rw [(perm_emplace v hk).mem_iff, List.mem_cons]

/-- Make the value of a key from the one it has, if any, and put it in its place. -/
def updateEntry (k : κ) (f : Option ν → ν) : List (κ × ν) → List (κ × ν)
  | [] => [(k, f none)]
  | e :: l =>
      if k < e.1 then (k, f none) :: e :: l
      else if e.1 < k then e :: updateEntry k f l
      else (k, f (some e.2)) :: l

/-- An entry is that of the key, or has been there. -/
theorem mem_updateEntry {k : κ} {f : Option ν → ν} {l : List (κ × ν)} {e : κ × ν}
    (he : e ∈ updateEntry k f l) : e.1 = k ∨ e ∈ l := by
  induction l with
  | nil => exact Or.inl (congrArg Prod.fst (List.mem_singleton.1 he))
  | cons a l ih =>
    simp only [updateEntry] at he
    split_ifs at he
    · exact (List.mem_cons.1 he).imp_left (congrArg Prod.fst)
    · rcases List.mem_cons.1 he with rfl | he
      · exact Or.inr (List.mem_cons_self ..)
      · exact (ih he).imp_right (List.mem_cons_of_mem _)
    · exact (List.mem_cons.1 he).imp (congrArg Prod.fst) (List.mem_cons_of_mem _)

/-- The entries stay in order. -/
theorem pairwise_updateEntry {k : κ} {f : Option ν → ν} {l : List (κ × ν)}
    (hl : l.Pairwise fun a b => a.1 < b.1) :
    (updateEntry k f l).Pairwise fun a b => a.1 < b.1 := by
  induction l with
  | nil => exact List.pairwise_singleton _ _
  | cons a l ih =>
    obtain ⟨ha, hrest⟩ := List.pairwise_cons.1 hl
    simp only [updateEntry]
    split_ifs with h₁ h₂
    · refine List.pairwise_cons.2 ⟨fun e he => ?_, hl⟩
      rcases List.mem_cons.1 he with rfl | he
      · exact h₁
      · exact h₁.trans (ha e he)
    · refine List.pairwise_cons.2 ⟨fun e he => ?_, ih hrest⟩
      rcases mem_updateEntry he with hk | he
      · exact hk ▸ h₂
      · exact ha e he
    · have hk : a.1 = k := le_antisymm (not_lt.1 h₁) (not_lt.1 h₂)
      exact List.pairwise_cons.2 ⟨fun e he => hk ▸ ha e he, hrest⟩

/-- Give a key a value made from the one it has (`f(m[k])`). -/
def update (m : OrdMap κ ν) (k : κ) (f : Option ν → ν) : OrdMap κ ν :=
  ⟨updateEntry k f m.entries, pairwise_updateEntry m.sorted⟩

/-- The map without its first `n` entries. -/
def erasePrefix (m : OrdMap κ ν) (n : ℕ) : OrdMap κ ν :=
  ⟨m.entries.drop n, m.sorted.sublist (List.drop_sublist n m.entries)⟩

/-- The first entries are dropped. -/
@[simp] theorem entries_erasePrefix (m : OrdMap κ ν) (n : ℕ) :
    (m.erasePrefix n).entries = m.entries.drop n := rfl

/-- The map without the entry of its smallest key. -/
def eraseBegin (m : OrdMap κ ν) : OrdMap κ ν := m.erasePrefix 1

/-- Every key comes after the keys of the entries before it. -/
theorem lt_of_mem_drop {m : OrdMap κ ν} {n : ℕ} {a b : κ × ν} (ha : a ∈ m.entries.take n)
    (hb : b ∈ m.entries.drop n) : a.1 < b.1 := by
  have h := m.sorted
  rw [← List.take_append_drop n m.entries] at h
  exact (List.pairwise_append.1 h).2.2 a ha b hb

/-! ### Values of keys -/

/-- The value of a key. -/
def find? (m : OrdMap κ ν) (k : κ) : Option ν := (m.entries.find? (·.1 = k)).map Prod.snd

/-- The map without a key. -/
def erase (m : OrdMap κ ν) (k : κ) : OrdMap κ ν :=
  ⟨m.entries.filter (·.1 ≠ k), m.sorted.filter _⟩

/-- Change every value. -/
def mapValues (f : ν → ν) (m : OrdMap κ ν) : OrdMap κ ν :=
  ⟨m.entries.map fun e => (e.1, f e.2), m.sorted.map _ fun _ _ h => h⟩

/-- The values are changed, and no key is. -/
@[simp] theorem entries_mapValues (f : ν → ν) (m : OrdMap κ ν) :
    (m.mapValues f).entries = m.entries.map fun e => (e.1, f e.2) := rfl

/-- Nothing is found in the empty map. -/
@[simp] theorem find?_empty (k : κ) : (empty : OrdMap κ ν).find? k = none := rfl

/-- A key below all others has no value. -/
theorem findEntry_of_lt {k : κ} {l : List (κ × ν)} (h : ∀ e ∈ l, k < e.1) :
    l.find? (·.1 = k) = none :=
  List.find?_eq_none.2 fun e he => by simpa using (h e he).ne'

/-- A key has one entry, or none. -/
theorem filter_entries (m : OrdMap κ ν) (k : κ) :
    m.entries.filter (·.1 = k) = (m.find? k).toList.map (Prod.mk k) := by
  obtain ⟨l, hl⟩ := m
  change l.filter (·.1 = k) = ((l.find? (·.1 = k)).map Prod.snd).toList.map (Prod.mk k)
  induction l with
  | nil => rfl
  | cons a l ih =>
    obtain ⟨ha, hl⟩ := List.pairwise_cons.1 hl
    by_cases hk : a.1 = k
    · subst hk
      have hnone : l.filter (·.1 = a.1) = [] :=
        List.filter_eq_nil_iff.2 fun e he => by simpa using (ha e he).ne'
      simp [hnone]
    · simpa [hk] using ih hl

/-- The values behind an update of a list of entries. -/
theorem find?_updateEntry {l : List (κ × ν)} (hl : l.Pairwise fun a b => a.1 < b.1) (k k' : κ)
    (f : Option ν → ν) :
    ((updateEntry k f l).find? (·.1 = k')).map Prod.snd =
      if k = k' then some (f ((l.find? (·.1 = k)).map Prod.snd))
      else (l.find? (·.1 = k')).map Prod.snd := by
  induction l with
  | nil => by_cases hk : k = k' <;> simp [updateEntry, hk]
  | cons a l ih =>
    obtain ⟨ha, hl⟩ := List.pairwise_cons.1 hl
    rcases lt_trichotomy k a.1 with hlt | rfl | hgt
    · have hnone : (a :: l).find? (·.1 = k) = none :=
        findEntry_of_lt (List.forall_mem_cons.2 ⟨hlt, fun e he => hlt.trans (ha e he)⟩)
      rw [updateEntry, if_pos hlt, hnone]
      by_cases hk : k = k' <;> simp [hk]
    · rw [updateEntry, if_neg (lt_irrefl _), if_neg (lt_irrefl _)]
      by_cases hk : a.1 = k' <;> simp [hk]
    · rw [updateEntry, if_neg (lt_asymm hgt), if_pos hgt]
      have hfind := ih hl
      by_cases hak : a.1 = k'
      · have hk : k ≠ k' := hak ▸ hgt.ne'
        simp [hak, hk]
      · simpa [hak, hgt.ne] using hfind

/-- **The values behind an update**: a new one for the key, and the same for the others. -/
theorem find?_update (m : OrdMap κ ν) (k k' : κ) (f : Option ν → ν) :
    (m.update k f).find? k' = if k = k' then some (f (m.find? k)) else m.find? k' :=
  find?_updateEntry m.sorted k k' f

/-- The value that was updated is found. -/
@[simp] theorem find?_update_self (m : OrdMap κ ν) (k : κ) (f : Option ν → ν) :
    (m.update k f).find? k = some (f (m.find? k)) := by
  rw [find?_update, if_pos rfl]

end OrdMap

end Lib
end AsioRtc
