/-
# Format parameters

`find_param`, `add_param` and `remove_param` of `src/sdp.cpp` on a string
`k1=v1;...;kn=vn` (`paramsText`), as operations of the map from the keys to their values.
All three look for the name with `std::string::find`, so they act on the first pair that
has the name anywhere in its key or its value (`Holds`): `findParam_first` says what
`find_param` makes of this pair.

`params_behave_iff` says when the operations are those of the map: the first such pair is
the one of the name itself and not the last of several, and no other key is hidden in the
same way before or after the change.
-/

import AsioRtc.Sdp.Values

namespace AsioRtc

open Lib Text

/-! ### A text between separators -/

namespace Text

variable {n a b s : Text} {c : Char} {i : ℕ}

/-- The empty text is found at the front. -/
theorem findText_nil (s : Text) : findText [] s = some 0 := by
  cases s <;> rfl

/-- **A text without a separator is found in front of it,** or else behind it. -/
theorem findText_append_cons (hc : c ∉ n) :
    findText n (a ++ c :: b) =
      match findText n a with
      | some i => some i
      | none => (findText n b).map (a.length + 1 + ·) := by
  induction a with
  | nil =>
    cases n with
    | nil => rfl
    | cons x n =>
      have hx : x ≠ c := fun h => hc (h ▸ List.mem_cons_self ..)
      have hp : ¬ (x :: n).isPrefixOf (c :: b) = true := fun h =>
        hx (List.cons_prefix_cons.1 (List.isPrefixOf_iff_prefix.1 h)).1
      have hnext : findText (x :: n) (c :: b) = (findText (x :: n) b).map (· + 1) := if_neg hp
      rw [List.nil_append, hnext]
      exact congrArg (Option.map · (findText (x :: n) b)) (funext fun j => Nat.add_comm j 1)
  | cons d a ih =>
    rw [List.cons_append, findText, findText]
    by_cases hp : n.isPrefixOf (d :: a) = true
    · have hp' : n.isPrefixOf (d :: (a ++ c :: b)) = true :=
        List.isPrefixOf_iff_prefix.2 ((List.isPrefixOf_iff_prefix.1 hp).trans ⟨c :: b, rfl⟩)
      rw [if_pos hp', if_pos hp]
    · have hp' : ¬ n.isPrefixOf (d :: (a ++ c :: b)) = true := fun h =>
        hp (List.isPrefixOf_iff_prefix.2
          (prefix_of_prefix_append_cons (a := d :: a) (List.isPrefixOf_iff_prefix.1 h) hc))
      rw [if_neg hp', if_neg hp, ih]
      cases findText n a with
      | some i => rfl
      | none =>
        rw [Option.map_none, Option.map_map]
        congr 1
        funext j
        simp only [Function.comp_apply, List.length_cons]
        omega

/-- A text is found where it is a part of the other one. -/
theorem findText_isSome_iff : (findText n s).isSome = true ↔ n <:+: s := by
  rw [← Option.ne_none_iff_isSome, ne_eq, findText_eq_none, not_not]

/-- A text is found in itself at the front. -/
theorem findText_self (s : Text) : findText s s = some 0 := by
  cases s with
  | nil => rfl
  | cons c s => exact if_pos (List.isPrefixOf_iff_prefix.2 List.prefix_rfl)

end Text

/-! ### The list of the pairs -/

/-- Neither separator is in the text. -/
def Free (w : Text) : Prop := ';' ∉ w ∧ '=' ∉ w

/-- Being free of separators is decided by looking. -/
instance (w : Text) : Decidable (Free w) := inferInstanceAs (Decidable (_ ∧ _))

/-- `key=value`. -/
def pairText (e : Text × Text) : Text := e.1 ++ '=' :: e.2

/-- `k1=v1;...;kn=vn`. -/
def paramsText (ps : List (Text × Text)) : Text := [';'].intercalate (ps.map pairText)

/-- Pairs with separators between them. -/
structure Pairs (ps : List (Text × Text)) : Prop where
  free : ∀ e ∈ ps, Free e.1 ∧ Free e.2
  keys : (ps.map Prod.fst).Nodup

/-- The format parameters of a codec. -/
structure ParamList (ps : List (Text × Text)) : Prop extends Pairs ps where
  ne_nil : ∀ e ∈ ps, e.1 ≠ [] ∧ e.2 ≠ []

/-- The name is somewhere in the key or the value. -/
def Holds (n : Text) (e : Text × Text) : Prop := n <:+: e.1 ∨ n <:+: e.2

/-- Having the name somewhere is decided by looking. -/
instance (n : Text) (e : Text × Text) : Decidable (Holds n e) :=
  inferInstanceAs (Decidable (_ ∨ _))

/-- The first pair that has the name somewhere. -/
def firstHolder (n : Text) (ps : List (Text × Text)) : Option (Text × Text) := ps.find? (Holds n ·)

/-- The name is found first at the end of the key. -/
def EndsIn (n key : Text) : Prop := findText n key = some (key.length - n.length)

/-- Where a name is found is computed. -/
instance (n key : Text) : Decidable (EndsIn n key) := inferInstanceAs (Decidable (_ = _))

/-- The map with the value of the name set. -/
def setParam (ps : List (Text × Text)) (n v : Text) : List (Text × Text) :=
  if n ∈ ps.map Prod.fst then ps.map fun e => if e.1 = n then (n, v) else e else ps ++ [(n, v)]

/-- The map without the name. -/
def dropParam (ps : List (Text × Text)) (n : Text) : List (Text × Text) :=
  ps.filter fun e => e.1 ≠ n

/-- **The name is not hidden**: the first pair that has it somewhere has it at the end of its key,
and its value, just where the map has the name with this value. -/
def Clear (ps : List (Text × Text)) (n : Text) : Prop :=
  ∀ e ∈ firstHolder n ps, ∀ v, EndsIn n e.1 ∧ e.2 = v ↔ (n, v) ∈ ps

/-- What stands in front of a pair. -/
def frontText (ps : List (Text × Text)) : Text := ps.flatMap fun e => pairText e ++ [';']

/-- What stands behind a pair. -/
def backText (ps : List (Text × Text)) : Text := ps.flatMap fun e => ';' :: pairText e

section Layout

variable {ps pre post : List (Text × Text)} {e : Text × Text} {n v w : Text}

/-- The string is its first pair and what stands behind it. -/
theorem paramsText_cons (e : Text × Text) (ps : List (Text × Text)) :
    paramsText (e :: ps) = pairText e ++ backText ps := by
  rw [paramsText, List.map_cons, intercalate_cons_eq, backText, List.flatMap_map]

/-- The string around one of its pairs. -/
theorem paramsText_split (pre : List (Text × Text)) (e : Text × Text) (post : List (Text × Text)) :
    paramsText (pre ++ e :: post) = frontText pre ++ (pairText e ++ backText post) := by
  rw [paramsText, List.map_append, List.map_cons, intercalate_split, List.flatMap_map, List.flatMap_map]
  rfl

/-- Something stands behind a pair only behind a separator. -/
theorem backText_cases (ps : List (Text × Text)) :
    backText ps = [] ∨ ∃ b, backText ps = ';' :: b := by
  cases ps with
  | nil => exact .inl rfl
  | cons e ps => exact .inr ⟨_, by rw [backText, List.flatMap_cons]; rfl⟩

/-- Pairs without the name are passed over. -/
theorem findText_front (hn : Free n) (hpre : ∀ e ∈ pre, ¬ Holds n e) (s : Text) :
    findText n (frontText pre ++ s) = (findText n s).map ((frontText pre).length + ·) := by
  induction pre with
  | nil =>
    rw [frontText, List.flatMap_nil, List.nil_append, List.length_nil]
    simp
  | cons d pre ih =>
    obtain ⟨hd, hpre⟩ := List.forall_mem_cons.1 hpre
    obtain ⟨hkey, hval⟩ := not_or.1 hd
    have hfront : frontText (d :: pre) ++ s = d.1 ++ '=' :: (d.2 ++ ';' :: (frontText pre ++ s)) := by
      simp [frontText, pairText]
    have hlen : (frontText (d :: pre)).length =
        d.1.length + 1 + (d.2.length + 1 + (frontText pre).length) := by
      simp [frontText, pairText]
      omega
    rw [hfront, findText_append_cons hn.2, findText_eq_none.2 hkey]
    dsimp only
    rw [findText_append_cons hn.1, findText_eq_none.2 hval]
    dsimp only
    rw [ih hpre, Option.map_map, Option.map_map, hlen]
    congr 1
    funext j
    simp only [Function.comp_apply]
    omega

/-- **A pair that has the name**: the place it is found at, and what is behind it. -/
theorem findText_pair (hn : Free n) (he : Free e.1 ∧ Free e.2) (h : Holds n e) {back : Text}
    (hback : back = [] ∨ ∃ b, back = ';' :: b) :
    ∃ o, findText n (pairText e ++ back) = some o ∧ o + n.length ≤ (pairText e).length ∧
      ((pairText e ++ back)[o + n.length]? = some '=' ↔ EndsIn n e.1) ∧
      (EndsIn n e.1 → o + n.length = e.1.length) ∧
      (findText n e.1 = none → e.1.length < o) ∧ ∀ i, findText n e.1 = some i → o = i := by
  have htext : pairText e ++ back = e.1 ++ '=' :: (e.2 ++ back) := by simp [pairText]
  have hlen : (pairText e).length = e.1.length + 1 + e.2.length := by
    simp [pairText]
    omega
  rw [htext, findText_append_cons hn.2, EndsIn]
  cases hkey : findText n e.1 with
  | some i =>
    have hle := findText_le hkey
    refine ⟨i, rfl, by omega, ?_, fun h => ?_, nofun, fun j hj => Option.some.inj hj⟩
    · rw [Option.some.injEq]
      rcases Nat.lt_or_ge (i + n.length) e.1.length with hlt | hge
      · rw [List.getElem?_append_left hlt, List.getElem?_eq_getElem hlt]
        refine iff_of_false (fun h => he.1.2 ?_) (by omega)
        rw [← Option.some.inj h]
        exact List.getElem_mem _
      · have heq : i + n.length = e.1.length := by omega
        rw [heq, List.getElem?_append_right (Nat.le_refl _), Nat.sub_self]
        exact iff_of_true rfl (by omega)
    · have := Option.some.inj h
      omega
  | none =>
    have hval : n <:+: e.2 := h.resolve_left (findText_eq_none.1 hkey)
    obtain ⟨j, hj⟩ := Option.isSome_iff_exists.1 (findText_isSome_iff.2 hval)
    have hle := findText_le hj
    have hfind : findText n (e.2 ++ back) = some j := by
      rcases hback with rfl | ⟨b, rfl⟩
      · rwa [List.append_nil]
      · rw [findText_append_cons hn.1, hj]
    refine ⟨e.1.length + 1 + j, by rw [hfind]; rfl, by omega, ?_, nofun, fun _ => by omega, nofun⟩
    refine iff_of_false (fun hc => ?_) (by simp)
    rw [List.getElem?_append_right (by omega),
      show e.1.length + 1 + j + n.length - e.1.length = j + n.length + 1 by omega,
      List.getElem?_cons_succ] at hc
    rcases Nat.lt_or_ge (j + n.length) e.2.length with hlt | hge
    · rw [List.getElem?_append_left hlt] at hc
      exact he.2.2 (List.mem_of_getElem? hc)
    · rw [List.getElem?_append_right hge] at hc
      rcases hback with rfl | ⟨b, rfl⟩
      · cases hc
      · rw [show j + n.length - e.2.length = 0 by omega] at hc
        exact absurd (Option.some.inj hc) (by decide)

/-- No pair has the name. -/
theorem findText_paramsText_eq_none (hn : Free n) (hne : ps ≠ []) (h : ∀ e ∈ ps, ¬ Holds n e) :
    findText n (paramsText ps) = none := by
  obtain ⟨pre, e, rfl⟩ := (List.eq_nil_or_concat ps).resolve_left hne
  rw [List.concat_eq_append] at h ⊢
  obtain ⟨hkey, hval⟩ := not_or.1 (h e (by simp))
  rw [paramsText_split, findText_front hn fun d hd => h d (List.mem_append_left _ hd)]
  simp [backText, pairText, findText_append_cons hn.2, findText_eq_none.2 hkey,
    findText_eq_none.2 hval]

/-- The value ends at the separator. -/
theorem value_ends (hv : ';' ∉ v) {back : Text} (hback : back = [] ∨ ∃ b, back = ';' :: b) :
    (v ++ back).takeWhile (· ≠ ';') = v ∧ (v ++ back).dropWhile (· ≠ ';') = back := by
  have hall : ∀ c ∈ v, decide (c ≠ ';') = true := fun c hc => decide_eq_true fun h => hv (h ▸ hc)
  rw [List.takeWhile_append_of_pos hall, List.dropWhile_append_of_pos hall]
  rcases hback with rfl | ⟨b, rfl⟩ <;> simp

/-! ### Looking a name up -/

variable {c : SdpRtpmap}

/-- No pair has the name. -/
theorem firstHolder_eq_none : firstHolder n ps = none ↔ ∀ e ∈ ps, ¬ Holds n e := by
  simp [firstHolder, List.find?_eq_none]

/-- The first pair that has the name has none in front of it that does. -/
theorem firstHolder_eq_some : firstHolder n ps = some e ↔
    Holds n e ∧ ∃ pre post, ps = pre ++ e :: post ∧ ∀ d ∈ pre, ¬ Holds n d := by
  simp [firstHolder, List.find?_eq_some_iff_append]

/-- A pair has its own key. -/
theorem holds_self (n v : Text) : Holds n (n, v) := .inl List.infix_rfl

/-- **What `find_param` makes of the first pair that has the name.** -/
theorem findParam_first (hps : ∀ e ∈ ps, Free e.1 ∧ Free e.2) (hn : Free n)
    (hc : c.params = paramsText ps) (h : firstHolder n ps = some e) :
    c.findParam n = if EndsIn n e.1 then some e.2 else none := by
  obtain ⟨he, pre, post, rfl, hpre⟩ := firstHolder_eq_some.1 h
  have hfree := hps e (by simp)
  have hback := backText_cases post
  obtain ⟨o, ho, -, hnext, hend, -⟩ := findText_pair hn hfree he hback
  rw [paramsText_split] at hc
  have hpos : findText n c.params = some ((frontText pre).length + o) := by
    rw [hc, findText_front hn hpre, ho]
    rfl
  have hchar : c.params[(frontText pre).length + o + n.length]? =
      (pairText e ++ backText post)[o + n.length]? := by
    rw [hc, List.getElem?_append_right (by omega)]
    congr 1
    omega
  rw [SdpRtpmap.findParam, hpos]
  dsimp only
  rw [hchar]
  by_cases hin : EndsIn n e.1
  · have hdrop : c.params.drop ((frontText pre).length + o + n.length + 1) =
        e.2 ++ backText post := by
      rw [hc, show (frontText pre).length + o + n.length + 1 =
        (frontText pre).length + (e.1.length + 1) by have := hend hin; omega, ← List.drop_drop,
        List.drop_left, pairText, List.append_assoc, ← List.drop_drop, List.drop_left]
      rfl
    rw [if_pos (hnext.2 hin), if_pos hin, hdrop, (value_ends hfree.2.1 hback).1]
  · rw [if_neg fun h => hin (hnext.1 h), if_neg hin]

/-- `find_param` finds nothing where no pair has the name. -/
theorem findParam_none (hn : Free n) (hc : c.params = paramsText ps)
    (h : firstHolder n ps = none) : c.findParam n = none := by
  rw [SdpRtpmap.findParam, hc]
  cases ps with
  | nil => cases n <;> rfl
  | cons e ps =>
    rw [findText_paramsText_eq_none hn (List.cons_ne_nil e ps) (firstHolder_eq_none.1 h)]

/-- **`find_param` is right** just where the name is not hidden. -/
theorem findParam_iff (hps : Pairs ps) (hn : Free n) (hc : c.params = paramsText ps) :
    (∀ v, c.findParam n = some v ↔ (n, v) ∈ ps) ↔ Clear ps n := by
  rw [Clear]
  cases hf : firstHolder n ps with
  | none =>
    have hnot : ∀ v, (n, v) ∉ ps := fun v hv => firstHolder_eq_none.1 hf _ hv (holds_self n v)
    rw [findParam_none hn hc hf]
    simp [hnot]
  | some e =>
    rw [findParam_first hps.free hn hc hf]
    by_cases hin : EndsIn n e.1 <;> simp [hin]

/-! ### Setting and removing -/

/-- There is no separator of pairs in a pair. -/
theorem semicolon_not_mem_pairText (he : Free e.1 ∧ Free e.2) : ';' ∉ pairText e := by
  simp [pairText, he.1.1, he.2.1]

/-- A pair has at least its sign. -/
theorem pairText_ne_nil (e : Text × Text) : pairText e ≠ [] := by simp [pairText]

/-- Where there are pairs, there is text. -/
theorem paramsText_ne_nil (hne : ps ≠ []) : paramsText ps ≠ [] := by
  obtain ⟨e, ps, rfl⟩ := List.exists_cons_of_ne_nil hne
  simp [paramsText_cons, pairText]

/-- A pair at the end comes behind a separator. -/
theorem paramsText_concat (hne : ps ≠ []) (e : Text × Text) :
    paramsText (ps ++ [e]) = paramsText ps ++ ';' :: pairText e := by
  obtain ⟨d, ps, rfl⟩ := List.exists_cons_of_ne_nil hne
  simp [paramsText_cons, backText]

/-- A name that no pair has is no key. -/
theorem not_mem_keys_of_none (h : firstHolder n ps = none) : n ∉ ps.map Prod.fst := by
  intro hk
  obtain ⟨e, he, rfl⟩ := List.mem_map.1 hk
  exact firstHolder_eq_none.1 h e he (holds_self e.1 e.2)

/-- The pairs around the one of a name have other names. -/
theorem Pairs.apart (hps : Pairs (pre ++ (n, w) :: post)) :
    (∀ e ∈ pre, e.1 ≠ n) ∧ ∀ e ∈ post, e.1 ≠ n := by
  have hkeys := hps.keys
  rw [List.map_append, List.map_cons, List.nodup_append] at hkeys
  obtain ⟨-, hpost, hpre⟩ := hkeys
  refine ⟨fun e he h => hpre e.1 (List.mem_map_of_mem he) n (List.mem_cons_self ..) h, fun e he h => ?_⟩
  exact (List.nodup_cons.1 hpost).1 (List.mem_map.2 ⟨e, he, h⟩)

/-- Setting the value of a key changes its own pair. -/
theorem setParam_own (hps : Pairs (pre ++ (n, w) :: post)) (v : Text) :
    setParam (pre ++ (n, w) :: post) n v = pre ++ (n, v) :: post := by
  obtain ⟨hpre, hpost⟩ := hps.apart
  have hsame : ∀ l : List (Text × Text), (∀ e ∈ l, e.1 ≠ n) →
      (l.map fun e => if e.1 = n then (n, v) else e) = l := fun l hl =>
    (List.map_congr_left fun e he => if_neg (hl e he)).trans (List.map_id l)
  rw [setParam, if_pos (by simp), List.map_append, List.map_cons, hsame pre hpre, hsame post hpost,
    if_pos rfl]

/-- Removing a key takes its own pair out. -/
theorem dropParam_own (hps : Pairs (pre ++ (n, w) :: post)) :
    dropParam (pre ++ (n, w) :: post) n = pre ++ post := by
  obtain ⟨hpre, hpost⟩ := hps.apart
  rw [dropParam, List.filter_append, List.filter_cons_of_neg (by simp),
    List.filter_eq_self.2 fun e he => decide_eq_true (hpre e he),
    List.filter_eq_self.2 fun e he => decide_eq_true (hpost e he)]

/-- **`add_param` sets the value of the name** where the first pair that has it is its own. -/
theorem addParam_text (hps : Pairs ps) (hn : Free n) (hc : c.params = paramsText ps)
    (h : ∀ e ∈ firstHolder n ps, e.1 = n) (v : Text) :
    (c.addParam n v).params = paramsText (setParam ps n v) := by
  cases hf : firstHolder n ps with
  | none =>
    rw [setParam, if_neg (not_mem_keys_of_none hf), SdpRtpmap.addParam, hc]
    by_cases hne : ps = []
    · subst hne
      exact (paramsText_cons (n, v) []).symm ▸ (List.append_nil (pairText (n, v))).symm
    · rw [if_neg (paramsText_ne_nil hne),
        findText_paramsText_eq_none hn hne (firstHolder_eq_none.1 hf), paramsText_concat hne]
      simp [pairText]
  | some e =>
    obtain ⟨k, w⟩ := e
    obtain rfl : k = n := h _ hf
    obtain ⟨-, pre, post, rfl, hpre⟩ := firstHolder_eq_some.1 hf
    have hfree := hps.free (k, w) (by simp)
    have hback := backText_cases post
    obtain ⟨o, ho, -, hnext, hend, -, hkey⟩ := findText_pair hn hfree (holds_self k w) hback
    have hin : EndsIn k k := by rw [EndsIn, findText_self, Nat.sub_self]
    obtain rfl := hkey 0 (findText_self k)
    have htext := paramsText_split pre (k, w) post
    have hpos : findText k c.params = some (frontText pre).length := by
      rw [hc, htext, findText_front hn hpre, ho]
      rfl
    have hchar : c.params[(frontText pre).length + k.length]? = some '=' := by
      have heq := hnext.2 hin
      rw [Nat.zero_add] at heq
      rw [hc, htext, List.getElem?_append_right (by omega), Nat.add_sub_cancel_left, heq]
    have htake : c.params.take ((frontText pre).length + k.length + 1) =
        frontText pre ++ (k ++ ['=']) := by
      rw [hc, htext, Nat.add_assoc, List.take_length_add_append, pairText, List.append_assoc,
        List.take_length_add_append]
      rfl
    have hdrop : c.params.drop ((frontText pre).length + k.length + 1) = w ++ backText post := by
      rw [hc, htext, Nat.add_assoc, List.drop_length_add_append, pairText, List.append_assoc,
        List.drop_length_add_append]
      rfl
    rw [SdpRtpmap.addParam, if_neg (hc ▸ paramsText_ne_nil (by simp)), hpos]
    dsimp only
    rw [if_pos hchar]
    dsimp only
    rw [htake, hdrop, (value_ends hfree.2.1 hback).2, setParam_own hps, paramsText_split]
    simp [pairText]

/-- **What `remove_param` takes out**: from the first place of the name to the end of the pair, with
the separator behind it. -/
theorem removeParam_first (hps : ∀ e ∈ ps, Free e.1 ∧ Free e.2) (hn : Free n)
    (hc : c.params = paramsText ps) (he : Holds n e) (hsplit : ps = pre ++ e :: post)
    (hpre : ∀ d ∈ pre, ¬ Holds n d) :
    ∃ o, findText n (pairText e) = some o ∧
      (c.removeParam n).params = frontText pre ++ ((pairText e).take o ++ (backText post).drop 1) := by
  subst hsplit
  have hfree := hps e (by simp)
  have hback := backText_cases post
  obtain ⟨o, ho, -⟩ := findText_pair hn hfree he (.inl rfl)
  rw [List.append_nil] at ho
  have hle := findText_le ho
  have hsemi := semicolon_not_mem_pairText hfree
  refine ⟨o, ho, ?_⟩
  have hfind : findText n (pairText e ++ backText post) = some o := by
    rcases hback with h | ⟨b, h⟩
    · rwa [h, List.append_nil]
    · rw [h, findText_append_cons hn.1, ho]
  rw [paramsText_split] at hc
  have hpos : findText n c.params = some ((frontText pre).length + o) := by
    rw [hc, findText_front hn hpre, hfind]
    rfl
  have hrest : c.params.drop ((frontText pre).length + o + n.length) =
      (pairText e).drop (o + n.length) ++ backText post := by
    rw [hc, Nat.add_assoc, List.drop_length_add_append, List.drop_append_of_le_length hle]
  have htake : c.params.take ((frontText pre).length + o) = frontText pre ++ (pairText e).take o := by
    rw [hc, List.take_length_add_append, List.take_append_of_le_length (by omega)]
  -- The end of the pair: the separator behind it, or the end of the text.
  have hnone : ((pairText e).drop (o + n.length)).findIdx? (· == ';') = none := by
    rw [List.findIdx?_eq_none_iff]
    exact fun x hx => beq_eq_false_iff_ne.2 fun h => hsemi (h ▸ List.mem_of_mem_drop hx)
  have hstop : c.params.drop ((findIf (· == ';') c.params
      ((frontText pre).length + o + n.length)).elim c.params.length (· + 1)) =
      (backText post).drop 1 := by
    rw [findIf, hrest, List.findIdx?_append, hnone]
    rcases hback with h | ⟨b, h⟩
    · rw [h]
      simp
    · have hlen : (frontText pre).length + o + n.length +
          (0 + ((pairText e).drop (o + n.length)).length) + 1 =
          (frontText pre).length + ((pairText e).length + 1) := by
        rw [List.length_drop]
        omega
      simp only [h, List.findIdx?_cons, beq_self_eq_true, if_true, Option.map_some,
        Option.none_or, Option.elim_some]
      rw [hlen, hc, List.drop_length_add_append, List.drop_length_add_append, h]
  rw [SdpRtpmap.removeParam, hpos]
  dsimp only
  rw [hstop, htake, List.append_assoc]

/-- **`remove_param` removes the name** where the first pair that has it is its own, and not the
last of several. -/
theorem removeParam_text (hps : Pairs ps) (hn : Free n) (hc : c.params = paramsText ps)
    (h : ∀ e ∈ firstHolder n ps, e.1 = n)
    (hlast : (ps.getLast?.map Prod.fst = some n) → ps.length = 1) :
    (c.removeParam n).params = paramsText (dropParam ps n) := by
  cases hf : firstHolder n ps with
  | none =>
    have hdrop : dropParam ps n = ps := List.filter_eq_self.2 fun e he => decide_eq_true fun hk =>
      firstHolder_eq_none.1 hf e he (hk ▸ holds_self e.1 e.2)
    rw [hdrop, SdpRtpmap.removeParam]
    cases ps with
    | nil =>
      rw [hc]
      cases n <;> simp [paramsText, findText, findIf, hc]
    | cons e ps =>
      rw [hc, findText_paramsText_eq_none hn (List.cons_ne_nil e ps) (firstHolder_eq_none.1 hf), ← hc]
  | some e =>
    obtain ⟨k, w⟩ := e
    obtain rfl : k = n := h _ hf
    obtain ⟨he, pre, post, rfl, hpre⟩ := firstHolder_eq_some.1 hf
    obtain ⟨o, ho, htext⟩ := removeParam_first hps.free hn hc he rfl hpre
    have hzero : findText k (pairText (k, w)) = some 0 := by
      rw [pairText, findText_append_cons hn.2, findText_self]
    obtain rfl : o = 0 := Option.some.inj (ho.symm.trans hzero)
    rw [htext, dropParam_own hps, List.take_zero, List.nil_append]
    cases post with
    | nil =>
      have hlen := hlast (by simp)
      obtain rfl : pre = [] := List.length_eq_zero_iff.1 (by simpa using hlen)
      rfl
    | cons d post =>
      rw [paramsText_split]
      simp [backText]

/-! ### Reading a string as a map -/

/-- A string that is not empty has one list of pairs. -/
theorem splitOn_paramsText (hps : ∀ e ∈ ps, Free e.1 ∧ Free e.2) (hne : ps ≠ []) :
    (paramsText ps).splitOn ';' = ps.map pairText := by
  refine List.splitOn_intercalate ';' ?_ (by simpa using hne)
  intro l hl
  obtain ⟨e, he, rfl⟩ := List.mem_map.1 hl
  exact semicolon_not_mem_pairText (hps e he)

/-- A pair that another one begins with. -/
theorem pairText_front {d : Text × Text} (hd : Free d.1) (he : Free e.1)
    (h : pairText d <+: pairText e) : d.1 = e.1 ∧ d.2 <+: e.2 := by
  obtain ⟨t, ht⟩ := h
  have hcut : some (d.1, d.2 ++ t) = some (e.1, e.2) := by
    rw [← cutOff_append hd.2, ← cutOff_append he.2, ← pairText, ← ht]
    simp [pairText]
  obtain ⟨hkey, hval⟩ := Prod.mk.inj (Option.some.inj hcut)
  exact ⟨hkey, t, hval⟩

/-- A pair is determined by its text. -/
theorem pairText_inj {d : Text × Text} (hd : Free d.1) (he : Free e.1)
    (h : pairText d = pairText e) : d = e := by
  obtain ⟨hkey, hval⟩ := pairText_front hd he ⟨[], by rw [h, List.append_nil]⟩
  obtain ⟨-, hval'⟩ := pairText_front he hd ⟨[], by rw [h, List.append_nil]⟩
  exact Prod.ext hkey (hval.eq_of_length (Nat.le_antisymm hval.length_le hval'.length_le))

/-- What is left of a pair in front of another one. -/
theorem pairText_join {d e' : Text × Text} {x : Text} (hd : Free d.1 ∧ Free d.2)
    (he : Free e'.1 ∧ Free e'.2) (h : pairText e' = x ++ pairText d) :
    e' = (x ++ d.1, d.2) := by
  have hx : '=' ∉ x := by
    intro hm
    obtain ⟨y, z, rfl⟩ := List.append_of_mem hm
    have hcount := congrArg (List.count '=') h
    simp [pairText, List.count_eq_zero.2 he.1.2, List.count_eq_zero.2 he.2.2,
      List.count_eq_zero.2 hd.1.2, List.count_eq_zero.2 hd.2.2] at hcount
    omega
  have hkey : '=' ∉ x ++ d.1 := by simp [hx, hd.1.2]
  have hcut : some (e'.1, e'.2) = some (x ++ d.1, d.2) := by
    rw [← cutOff_append he.1.2, ← cutOff_append hkey, ← pairText, h]
    simp [pairText]
  exact Option.some.inj hcut

end Layout

/-! ### The operations of the map -/

/-- **The operations on the string are those of the map** at a name and a value. -/
structure BehavesAsMap (c : SdpRtpmap) (ps : List (Text × Text)) (n v : Text) : Prop where
  find : ∀ w, c.findParam n = some w ↔ (n, w) ∈ ps
  added : (c.addParam n v).findParam n = some v
  addedOther : ∀ e ∈ ps, e.1 ≠ n → (c.addParam n v).findParam e.1 = some e.2
  removed : (c.removeParam n).findParam n = none
  removedOther : ∀ e ∈ ps, e.1 ≠ n → (c.removeParam n).findParam e.1 = some e.2
  form : ∃ ps', ParamList ps' ∧ (c.removeParam n).params = paramsText ps' ∧
    ∀ e, e ∈ ps' ↔ e ∈ ps ∧ e.1 ≠ n

/-- **No key is hidden**, before or after a change: the first pair that has the name somewhere is its
own, and not the last of several; and of the other keys, and of the name once it is removed, none is
hidden by another pair. -/
structure KeptApart (ps : List (Text × Text)) (n v : Text) : Prop where
  own : ∀ e ∈ firstHolder n ps, e.1 = n
  last : ps.getLast?.map Prod.fst = some n → ps.length = 1
  added : ∀ e ∈ ps, e.1 ≠ n → Clear (setParam ps n v) e.1
  removed : Clear (dropParam ps n) n
  removedOther : ∀ e ∈ ps, e.1 ≠ n → Clear (dropParam ps n) e.1

section Behaviour

variable {ps pre post : List (Text × Text)} {e : Text × Text} {n v w : Text} {c : SdpRtpmap}

/-- No two pairs have one key. -/
theorem Pairs.value_unique (hps : Pairs ps) {d : Text × Text} (hd : d ∈ ps) (he : e ∈ ps)
    (h : d.1 = e.1) : d = e :=
  List.inj_on_of_nodup_map hps.keys hd he h

/-- What the string is after a removal is read as a map without the name. -/
structure RemovedForm (c : SdpRtpmap) (ps ps' : List (Text × Text)) (n : Text) : Prop where
  list : ParamList ps'
  text : (c.removeParam n).params = paramsText ps'
  mem : ∀ e, e ∈ ps' ↔ e ∈ ps ∧ e.1 ≠ n

/-- The pieces of a string in which one pair has become another text. -/
theorem splitOn_pieces {x : Text} (hpre : ∀ e ∈ pre, Free e.1 ∧ Free e.2) (hx : ';' ∉ x)
    (hpost : ∀ e ∈ post, Free e.1 ∧ Free e.2) :
    (frontText pre ++ (x ++ backText post)).splitOn ';' =
      pre.map pairText ++ x :: post.map pairText := by
  have hjoin : frontText pre ++ (x ++ backText post) =
      [';'].intercalate (pre.map pairText ++ x :: post.map pairText) := by
    rw [intercalate_split, List.flatMap_map, List.flatMap_map]
    simp [frontText, backText]
  rw [hjoin]
  refine List.splitOn_intercalate ';' (fun l hl => ?_) (by simp)
  simp only [List.mem_append, List.mem_cons, List.mem_map] at hl
  rcases hl with ⟨e, he, rfl⟩ | rfl | ⟨e, he, rfl⟩
  · exact semicolon_not_mem_pairText (hpre e he)
  · exact hx
  · exact semicolon_not_mem_pairText (hpost e he)

/-- A pair that is kept is one of the pieces. -/
theorem RemovedForm.mem_pieces {ps' : List (Text × Text)} (h : RemovedForm c ps ps' n) (he : e ∈ ps)
    (hne : e.1 ≠ n) : pairText e ∈ (c.removeParam n).params.splitOn ';' := by
  have hmem := (h.mem e).2 ⟨he, hne⟩
  rw [h.text, splitOn_paramsText h.list.free (List.ne_nil_of_mem hmem)]
  exact List.mem_map_of_mem hmem

/-- The name is taken out of the last pair: it is the only one. -/
theorem RemovedForm.own_last {ps' : List (Text × Text)} (hps : ParamList (pre ++ [e])) (hn : Free n)
    (hc : c.params = paramsText (pre ++ [e])) (he : Holds n e) (hpre : ∀ d ∈ pre, ¬ Holds n d)
    (h : RemovedForm c (pre ++ [e]) ps' n) : e.1 = n ∧ pre = [] := by
  obtain ⟨o, ho, htext⟩ := removeParam_first hps.free hn hc he rfl hpre
  have hle := findText_le ho
  have hnil : (backText []).drop 1 = backText [] := rfl
  rw [hnil] at htext
  by_cases hps' : ps' = []
  · subst hps'
    obtain ⟨hfront, -⟩ := List.append_eq_nil_iff.1 (htext.symm.trans h.text)
    refine ⟨by_contra fun hne => List.not_mem_nil ((h.mem e).2 ⟨by simp, hne⟩), ?_⟩
    cases pre with
    | nil => rfl
    | cons d pre => simp [frontText] at hfront
  · -- What is left of the pair would be one with the same key.
    exfalso
    have hsplit : (frontText pre ++ ((pairText e).take o ++ backText [])).splitOn ';' =
        pre.map pairText ++ [(pairText e).take o] :=
      splitOn_pieces (fun d hd => hps.free d (by simp [hd]))
        (fun hm => semicolon_not_mem_pairText (hps.free e (by simp)) (List.mem_of_mem_take hm))
        (by simp)
    rw [← htext, h.text, splitOn_paramsText h.list.free hps'] at hsplit
    obtain ⟨d, hd, hde⟩ := List.mem_map.1 (hsplit ▸ List.mem_append_right _ (List.mem_singleton_self _))
    have hprefix : pairText d <+: pairText e := hde ▸ List.take_prefix _ _
    have hkey := (pairText_front (h.list.free d hd).1 (hps.free e (by simp)).1 hprefix).1
    obtain rfl := hps.value_unique ((h.mem d).1 hd).1 (by simp) hkey
    have hlen := congrArg List.length hde
    rw [List.length_take] at hlen
    obtain rfl : n = [] := List.length_eq_zero_iff.1 (by omega)
    rw [findText_nil, Option.some.injEq] at ho
    have := List.length_pos_of_ne_nil (pairText_ne_nil d)
    omega

/-- What is left of a pair, with the pair of the name behind it, is the pair again: its key ends in
the name. -/
theorem endsIn_of_left {d : Text × Text} {o : ℕ} (hn : Free n) (he : Free e.1 ∧ Free e.2)
    (hd : Free d.1 ∧ Free d.2) (hholds : Holds n e) (ho : findText n (pairText e) = some o)
    (hleft : pairText e = (pairText e).take o ++ pairText d) (hdn : d.1 = n) : EndsIn n e.1 := by
  have hkey : e.1 = (pairText e).take o ++ n :=
    hdn ▸ congrArg Prod.fst (pairText_join hd he hleft)
  obtain ⟨i, hi⟩ := Option.isSome_iff_exists.1
    (findText_isSome_iff.2 (hkey ▸ (List.suffix_append _ n).isInfix : n <:+: e.1))
  obtain ⟨o', ho', -, -, -, -, hsame⟩ :=
    findText_pair hn he hholds (.inl rfl : ([] : Text) = [] ∨ _)
  rw [List.append_nil, ho] at ho'
  obtain rfl := Option.some.inj ho'
  obtain rfl := hsame i hi
  have hle := findText_le ho
  have hlen : e.1.length = o + n.length := by
    rw [hkey, List.length_append, List.length_take]
    omega
  rw [EndsIn, hi, hlen, Nat.add_sub_cancel]

/-- The name is taken out of a pair in front of another one. -/
theorem RemovedForm.own_front {ps' : List (Text × Text)} {d : Text × Text}
    (hps : ParamList (pre ++ e :: d :: post)) (hn : Free n)
    (hc : c.params = paramsText (pre ++ e :: d :: post)) (he : Holds n e)
    (hpre : ∀ d ∈ pre, ¬ Holds n d) (hremoved : (c.removeParam n).findParam n = none)
    (h : RemovedForm c (pre ++ e :: d :: post) ps' n) : e.1 = n := by
  obtain ⟨o, ho, htext⟩ := removeParam_first hps.free hn hc he rfl hpre
  have hfree_e := hps.free e (by simp)
  have hfree_d := hps.free d (by simp)
  have hfree_pre : ∀ x ∈ pre, Free x.1 ∧ Free x.2 := fun x hx => hps.free x (by simp [hx])
  have hfree_post : ∀ x ∈ post, Free x.1 ∧ Free x.2 := fun x hx => hps.free x (by simp [hx])
  have hback : (backText (d :: post)).drop 1 = pairText d ++ backText post := rfl
  rw [hback, ← List.append_assoc (_ : Text) (pairText d)] at htext
  have hsplit := splitOn_pieces (x := (pairText e).take o ++ pairText d) hfree_pre
    (fun hm => (List.mem_append.1 hm).elim
      (fun hm => semicolon_not_mem_pairText hfree_e (List.mem_of_mem_take hm))
      (semicolon_not_mem_pairText hfree_d)) hfree_post
  rw [← htext] at hsplit
  have hnodup := hps.keys.of_map
  rw [List.nodup_append, List.nodup_cons, List.nodup_cons] at hnodup
  obtain ⟨-, ⟨hed, hdpost, -⟩, hdisjoint⟩ := hnodup
  by_contra hkey
  -- A pair that is kept, and is none of the others, is what is left of the two.
  have hleft : ∀ x ∈ pre ++ e :: d :: post, x.1 ≠ n → x ∉ pre → x ∉ post →
      pairText x = (pairText e).take o ++ pairText d := by
    intro x hx hxn hxpre hxpost
    have hin := h.mem_pieces hx hxn
    have hother : ∀ l : List (Text × Text), (∀ y ∈ l, Free y.1 ∧ Free y.2) → x ∉ l →
        pairText x ∉ l.map pairText := by
      intro l hl hxl hm
      obtain ⟨y, hy, hyx⟩ := List.mem_map.1 hm
      exact hxl (pairText_inj (hl y hy).1 (hps.free x hx).1 hyx ▸ hy)
    rw [hsplit, List.mem_append, List.mem_cons] at hin
    rcases hin with hin | hin | hin
    · exact absurd hin (hother pre hfree_pre hxpre)
    · exact hin
    · exact absurd hin (hother post hfree_post hxpost)
  have hleft_e := hleft e (by simp) hkey (fun hm => hdisjoint e hm e (by simp) rfl)
    fun hm => hed (List.mem_cons_of_mem _ hm)
  have hdn : d.1 = n := by
    by_contra hdn
    have hleft_d := hleft d (by simp) hdn (fun hm => hdisjoint d hm d (by simp) rfl) hdpost
    have heq := pairText_inj hfree_e.1 hfree_d.1 (hleft_e.trans hleft_d.symm)
    exact hed (heq ▸ List.mem_cons_self ..)
  -- So the name ends the key of the first pair, and is still found there.
  have hend := endsIn_of_left hn hfree_e hfree_d he ho hleft_e hdn
  have hsame : (c.removeParam n).params = paramsText (pre ++ e :: post) := by
    rw [htext, paramsText_split, ← hleft_e]
  have hfirst : firstHolder n (pre ++ e :: post) = some e :=
    firstHolder_eq_some.2 ⟨he, pre, post, rfl, hpre⟩
  have hrest : ∀ x ∈ pre ++ e :: post, Free x.1 ∧ Free x.2 := by
    simp only [List.forall_mem_append, List.forall_mem_cons]
    exact ⟨hfree_pre, hfree_e, hfree_post⟩
  have hfind := findParam_first hrest hn hsame hfirst
  rw [if_pos hend, hremoved] at hfind
  cases hfind

/-- **A removal that leaves the map without the name** takes out a pair of the name, and not the last
of several. -/
theorem RemovedForm.own {ps' : List (Text × Text)} (hps : ParamList ps) (hn : Free n)
    (hc : c.params = paramsText ps) (hremoved : (c.removeParam n).findParam n = none)
    (h : RemovedForm c ps ps' n) :
    (∀ e ∈ firstHolder n ps, e.1 = n) ∧ (ps.getLast?.map Prod.fst = some n → ps.length = 1) := by
  have hown : ∀ e ∈ firstHolder n ps, e.1 = n ∧ (ps.getLast? = some e → ps.length = 1) := by
    intro e hf
    obtain ⟨he, pre, post, rfl, hpre⟩ := firstHolder_eq_some.1 hf
    cases post with
    | nil =>
      obtain ⟨hkey, rfl⟩ := RemovedForm.own_last hps hn hc he hpre h
      exact ⟨hkey, fun _ => rfl⟩
    | cons d post =>
      refine ⟨RemovedForm.own_front hps hn hc he hpre hremoved h, fun hlast => ?_⟩
      have hmem : e ∈ d :: post := by
        rw [List.getLast?_append_cons, List.getLast?_cons_cons] at hlast
        exact List.mem_of_getLast? hlast
      exact absurd rfl (hps.toPairs.apart.2 e hmem)
  refine ⟨fun e he => (hown e he).1, fun hlast => ?_⟩
  obtain ⟨e, he, hkey⟩ := Option.map_eq_some_iff.1 hlast
  obtain ⟨d, hd⟩ : ∃ d, firstHolder n ps = some d := by
    refine Option.ne_none_iff_exists'.1 fun hnone => ?_
    exact firstHolder_eq_none.1 hnone e (List.mem_of_getLast? he) (hkey ▸ holds_self e.1 e.2)
  obtain ⟨hdkey, hdlast⟩ := hown d hd
  have hsame : d = e := hps.value_unique (List.mem_of_find?_eq_some hd) (List.mem_of_getLast? he)
    (hdkey.trans hkey.symm)
  exact hdlast (hsame ▸ he)

/-- Pairs stay pairs when a value is set. -/
theorem Pairs.set (hps : Pairs ps) (hn : Free n) (hv : Free v) : Pairs (setParam ps n v) := by
  rw [setParam]
  split
  case isTrue hmem =>
    have hkeys : (ps.map fun e => if e.1 = n then (n, v) else e).map Prod.fst = ps.map Prod.fst := by
      rw [List.map_map]
      refine List.map_congr_left fun e _ => ?_
      rw [Function.comp_apply]
      split
      case isTrue h => exact h.symm
      case isFalse h => rfl
    refine ⟨fun e he => ?_, hkeys ▸ hps.keys⟩
    obtain ⟨d, hd, rfl⟩ := List.mem_map.1 he
    split
    · exact ⟨hn, hv⟩
    · exact hps.free d hd
  case isFalse hmem =>
    refine ⟨fun e he => ?_, ?_⟩
    · rcases List.mem_append.1 he with he | he
      · exact hps.free e he
      · rw [List.mem_singleton.1 he]
        exact ⟨hn, hv⟩
    · rw [List.map_append, List.nodup_append]
      refine ⟨hps.keys, List.nodup_singleton n, fun k hk j hj h => hmem ?_⟩
      rw [List.map_singleton, List.mem_singleton] at hj
      have hkn : k = n := h.trans hj
      exact hkn ▸ hk

/-- The pairs of other keys stay when a value is set. -/
theorem mem_setParam_of_ne (he : e ∈ ps) (h : e.1 ≠ n) : e ∈ setParam ps n v := by
  rw [setParam]
  split
  · exact List.mem_map.2 ⟨e, he, if_neg h⟩
  · exact List.mem_append_left _ he

/-- What is left are the pairs of other keys. -/
theorem mem_dropParam : e ∈ dropParam ps n ↔ e ∈ ps ∧ e.1 ≠ n := by simp [dropParam]

/-- A list of parameters stays one without a key. -/
theorem ParamList.drop (hps : ParamList ps) (n : Text) : ParamList (dropParam ps n) where
  free e he := hps.free e (mem_dropParam.1 he).1
  keys := hps.keys.sublist (List.filter_sublist.map Prod.fst)
  ne_nil e he := hps.ne_nil e (mem_dropParam.1 he).1

/-- A name whose own pair is the first that has it is not hidden. -/
theorem Clear.of_own (hps : Pairs ps) (h : ∀ e ∈ firstHolder n ps, e.1 = n) : Clear ps n := by
  intro e he w
  obtain rfl := h e he
  have hmem := List.mem_of_find?_eq_some he
  rw [EndsIn, findText_self, Nat.sub_self]
  refine ⟨fun ⟨_, hw⟩ => hw ▸ hmem, fun hw => ⟨rfl, ?_⟩⟩
  rw [← hps.value_unique hw hmem rfl]

/-- A key of the map is found just where it is not hidden. -/
theorem findParam_mem_iff (hps : Pairs ps) (hc : c.params = paramsText ps) (he : e ∈ ps) :
    c.findParam e.1 = some e.2 ↔ Clear ps e.1 := by
  rw [← findParam_iff hps (hps.free e he).1 hc]
  refine ⟨fun h w => ⟨fun hw => ?_, fun hw => ?_⟩, fun h => (h e.2).2 he⟩
  · rw [← Option.some.inj (h.symm.trans hw)]
    exact he
  · rw [h, ← hps.value_unique hw he rfl]

/-- A name that is no key is not found just where it is not hidden. -/
theorem findParam_absent_iff (hps : Pairs ps) (hn : Free n) (hc : c.params = paramsText ps)
    (h : ∀ w, (n, w) ∉ ps) : c.findParam n = none ↔ Clear ps n := by
  rw [← findParam_iff hps hn hc, Option.eq_none_iff_forall_ne_some]
  simp [h]

/-- The name is found once it is set. -/
theorem findParam_addParam (hps : Pairs ps) (hn : Free n) (hv : Free v)
    (hc : c.params = paramsText ps) (hown : ∀ e ∈ firstHolder n ps, e.1 = n) :
    (c.addParam n v).findParam n = some v := by
  have hself : EndsIn n n := by rw [EndsIn, findText_self, Nat.sub_self]
  have hfirst : firstHolder n (setParam ps n v) = some (n, v) := by
    cases hf : firstHolder n ps with
    | none =>
      rw [setParam, if_neg (not_mem_keys_of_none hf)]
      exact firstHolder_eq_some.2 ⟨holds_self n v, ps, [], rfl, firstHolder_eq_none.1 hf⟩
    | some e =>
      obtain ⟨k, w⟩ := e
      obtain rfl : k = n := hown _ hf
      obtain ⟨-, pre, post, rfl, hpre⟩ := firstHolder_eq_some.1 hf
      rw [setParam_own hps]
      exact firstHolder_eq_some.2 ⟨holds_self k v, pre, post, rfl, hpre⟩
  rw [findParam_first (hps.set hn hv).free hn (addParam_text hps hn hc hown v) hfirst, if_pos hself]

/-- **The operations on the format parameters are those of the map** just where no key is hidden,
and the name is not that of the last of several. -/
theorem params_behave_iff (hps : ParamList ps) (hn : Free n) (hv : Free v)
    (hc : c.params = paramsText ps) : BehavesAsMap c ps n v ↔ KeptApart ps n v := by
  have hset := hps.toPairs.set hn hv
  have hdrop := (hps.drop n).toPairs
  have habsent : ∀ w, (n, w) ∉ dropParam ps n := fun w h => (mem_dropParam.1 h).2 rfl
  constructor
  · intro h
    obtain ⟨ps', hlist, htext, hmem⟩ := h.form
    obtain ⟨hown, hlast⟩ := RemovedForm.own hps hn hc h.removed ⟨hlist, htext, hmem⟩
    have hadd := addParam_text hps.toPairs hn hc hown v
    have hrem := removeParam_text hps.toPairs hn hc hown hlast
    exact {
      own := hown
      last := hlast
      added := fun e he hne =>
        (findParam_mem_iff hset hadd (mem_setParam_of_ne he hne)).1 (h.addedOther e he hne)
      removed := (findParam_absent_iff hdrop hn hrem habsent).1 h.removed
      removedOther := fun e he hne =>
        (findParam_mem_iff hdrop hrem (mem_dropParam.2 ⟨he, hne⟩)).1 (h.removedOther e he hne) }
  · intro h
    have hadd := addParam_text hps.toPairs hn hc h.own v
    have hrem := removeParam_text hps.toPairs hn hc h.own h.last
    exact {
      find := (findParam_iff hps.toPairs hn hc).2 (Clear.of_own hps.toPairs h.own)
      added := findParam_addParam hps.toPairs hn hv hc h.own
      addedOther := fun e he hne =>
        (findParam_mem_iff hset hadd (mem_setParam_of_ne he hne)).2 (h.added e he hne)
      removed := (findParam_absent_iff hdrop hn hrem habsent).2 h.removed
      removedOther := fun e he hne =>
        (findParam_mem_iff hdrop hrem (mem_dropParam.2 ⟨he, hne⟩)).2 (h.removedOther e he hne)
      form := ⟨dropParam ps n, hps.drop n, hrem, fun _ => mem_dropParam⟩ }

/-- The packetization mode of an H.264 codec, in front of its profile, is set and removed. -/
theorem params_behave_iff_h264 :
    BehavesAsMap { params := "packetization-mode=1;profile-level-id=42001f".toList }
      [("packetization-mode".toList, "1".toList), ("profile-level-id".toList, "42001f".toList)]
      "packetization-mode".toList "0".toList := by
  have hps : ParamList
      [("packetization-mode".toList, "1".toList), ("profile-level-id".toList, "42001f".toList)] :=
    { free := by decide, keys := by decide, ne_nil := by decide }
  have hset := hps.toPairs.set (n := "packetization-mode".toList) (v := "0".toList) (by decide)
    (by decide)
  have hdrop := (hps.drop "packetization-mode".toList).toPairs
  refine (params_behave_iff hps (by decide) (by decide) rfl).2 ?_
  refine ⟨by decide, by decide, fun e he hne => Clear.of_own hset ?_, Clear.of_own hdrop (by decide),
    fun e he hne => Clear.of_own hdrop ?_⟩
  all_goals
    simp only [List.mem_cons, List.not_mem_nil, or_false] at he
    rcases he with rfl | rfl
    · exact absurd rfl hne
    · decide

/-- **A key that another one ends in**: `apt` is read from `x-apt`. -/
theorem params_apart_fails :
    ParamList [("x-apt".toList, "1".toList), ("apt".toList, "96".toList)] ∧
      ¬ BehavesAsMap { params := "x-apt=1;apt=96".toList }
        [("x-apt".toList, "1".toList), ("apt".toList, "96".toList)] "apt".toList "97".toList := by
  refine ⟨{ free := by decide, keys := by decide, ne_nil := by decide }, fun h => ?_⟩
  have hfound : SdpRtpmap.findParam { params := "x-apt=1;apt=96".toList } "apt".toList =
      some "1".toList := by decide
  exact absurd ((h.find _).1 hfound) (by decide)

end Behaviour

end AsioRtc
