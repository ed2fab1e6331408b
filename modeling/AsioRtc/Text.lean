/-
# Texts and the `string_view` operations

A `std::string` is the list of its characters (a byte is the character of its
number).  `find`, `substr`, `removePrefix` and the rest are the members of
`std::string_view` that the SDP parser is written with, each checked: a cut past the
end is a fault, and `npos` is `none`.

The first functions of `src/sdp.cpp`, `trim`, `split_lines` and `split_whitespace`,
are loops over such operations; `trim_eq`, `splitLines_eq` and `splitWhitespace_eq`
say what they compute, as the list functions `strip`, `lines` and `words`, and that
they make no fault.  `parseUint` is `parse_uint8` … `parse_uint64`.

`asioice::utils::nceq` compares two texts without regard to case.  It belongs to a
library outside this repository, so it is a parameter (`NoCaseEq`).
-/

import AsioRtc.Bytes
import Mathlib.Data.List.DropRight

namespace AsioRtc

open Lib

/-- The characters of a `std::string`. -/
abbrev Text := List Char

/-- Membership of texts is decided with this one. -/
instance : LawfulBEq Text := inferInstance

/-- `asioice::utils::nceq`. -/
class NoCaseEq where
  nceq : Text → Text → Bool

export NoCaseEq (nceq)

/-- `asioice::utils::nceq` is equality up to the case of the letters. -/
class LawfulNoCaseEq [NoCaseEq] : Prop where
  nceq_iff : ∀ a b : Text, nceq a b = true ↔ a.map Char.toLower = b.map Char.toLower

/-- Equality up to the case of the ASCII letters. -/
@[reducible] def asciiNoCase : NoCaseEq := ⟨fun a b => a.map Char.toLower == b.map Char.toLower⟩

/-- The comparison on ASCII is lawful: it is the equality of lower-case texts. -/
theorem asciiNoCase_lawful : @LawfulNoCaseEq asciiNoCase :=
  @LawfulNoCaseEq.mk asciiNoCase fun a b =>
    show (a.map Char.toLower == b.map Char.toLower) = true ↔ _ from beq_iff_eq

namespace Text

/-- The characters of `" \t\n\r\f\v"`. -/
def isSpace (c : Char) : Bool :=
  c = ' ' || c = '\t' || c = '\n' || c = '\r' || c = '\x0c' || c = '\x0b'

/-! ### The operations -/

/-- The first position from `o` on whose character satisfies `p`. -/
def findIf (p : Char → Bool) (s : Text) (o : ℕ) : Option ℕ :=
  ((s.drop o).findIdx? p).map (o + ·)

/-- `s.find(c)`. -/
def find (s : Text) (c : Char) : Option ℕ := findIf (· == c) s 0

/-- `s.find(needle)`. -/
def findText (needle : Text) : Text → Option ℕ
  | [] => if needle = [] then some 0 else none
  | c :: s => if needle.isPrefixOf (c :: s) then some 0 else (findText needle s).map (· + 1)

/-- The last position whose character satisfies `p`. -/
def findLast (p : Char → Bool) (s : Text) : Option ℕ :=
  (s.reverse.findIdx? p).map (s.length - 1 - ·)

/-- `s.substr(pos, n)`; without `n`, up to the end. -/
def substr (s : Text) (pos : ℕ) (n : Option ℕ := none) : Checked Text :=
  if pos ≤ s.length then .ok (n.elim (s.drop pos) fun n => (s.drop pos).take n)
  else .error (.substr pos s.length)

/-- `s.remove_prefix(n)`. -/
def removePrefix (s : Text) (n : ℕ) : Checked Text :=
  if n ≤ s.length then .ok (s.drop n) else .error (.removePrefix n s.length)

/-- `s.remove_suffix(n)`. -/
def removeSuffix (s : Text) (n : ℕ) : Checked Text :=
  if n ≤ s.length then .ok (s.take (s.length - n)) else .error (.removeSuffix n s.length)

/-- `s[i]`. -/
def charAt (s : Text) (i : ℕ) : Checked Char :=
  match s[i]? with
  | some c => .ok c
  | none => .error (.index i s.length)

/-- `s.back()`. -/
def back (s : Text) : Checked Char :=
  match s.getLast? with
  | some c => .ok c
  | none => .error .back

section Operations

variable {p : Char → Bool} {s : Text} {c : Char} {i o pos n : ℕ}

/-- What is found is not in front of the start, and inside the text. -/
theorem findIf_lt (h : findIf p s o = some i) : o ≤ i ∧ i < s.length := by
  simp only [findIf, Option.map_eq_some_iff] at h
  obtain ⟨j, hj, rfl⟩ := h
  have := (List.findIdx?_eq_some_iff_findIdx_eq.1 hj).1
  rw [List.length_drop] at this
  omega

/-- What is found is inside the text. -/
theorem find_lt (h : find s c = some i) : i < s.length := (findIf_lt h).2

/-- A character is not found where it does not occur. -/
theorem find_eq_none : find s c = none ↔ c ∉ s := by
  simp only [find, findIf, List.drop_zero, Option.map_eq_none_iff, List.findIdx?_eq_none_iff,
    beq_eq_false_iff_ne]
  exact ⟨fun h hc => h c hc rfl, fun h x hx hxc => h (hxc ▸ hx)⟩

/-- The first `c` cuts the text into what is before it and what is behind it. -/
theorem find_eq_some (h : find s c = some i) :
    s = s.take i ++ c :: s.drop (i + 1) ∧ c ∉ s.take i := by
  simp only [find, findIf, List.drop_zero, Option.map_eq_some_iff, Nat.zero_add] at h
  obtain ⟨j, hj, rfl⟩ := h
  obtain ⟨hlt, hc, hbefore⟩ := List.findIdx?_eq_some_iff_getElem.1 hj
  have hc : s[j] = c := by simpa using hc
  refine ⟨?_, fun hm => ?_⟩
  · rw [← hc, List.getElem_cons_drop, List.take_append_drop]
  · obtain ⟨k, hk, hkc⟩ := List.getElem_of_mem hm
    rw [List.length_take] at hk
    rw [List.getElem_take] at hkc
    exact absurd (by simp [hkc]) (hbefore k (by omega))

/-- A text that is found fits in where it is found. -/
theorem findText_le {needle : Text} (h : findText needle s = some i) :
    i + needle.length ≤ s.length := by
  induction s generalizing i with
  | nil =>
    simp only [findText] at h
    split at h
    · obtain rfl := Option.some.inj h
      simp_all
    · exact absurd h (by simp)
  | cons c s ih =>
    simp only [findText] at h
    split at h
    · rename_i hpre
      obtain rfl := Option.some.inj h
      simpa using (List.isPrefixOf_iff_prefix.1 hpre).length_le
    · obtain ⟨j, hj, rfl⟩ := Option.map_eq_some_iff.1 h
      have := ih hj
      rw [List.length_cons]
      omega

/-- `substr` from a position inside the text. -/
theorem substr_ok (h : pos ≤ s.length) : substr s pos = .ok (s.drop pos) := if_pos h

/-- `substr` of a length from the front never throws. -/
theorem substr_take : substr s 0 (some n) = .ok (s.take n) := if_pos (Nat.zero_le _)

/-- `substr` of all of the text. -/
theorem substr_zero : substr s 0 none = .ok s := if_pos (Nat.zero_le _)

/-- `remove_prefix` of no more than there is. -/
theorem removePrefix_ok (h : n ≤ s.length) : removePrefix s n = .ok (s.drop n) := if_pos h

/-- `remove_suffix` of no more than there is. -/
theorem removeSuffix_ok (h : n ≤ s.length) : removeSuffix s n = .ok (s.take (s.length - n)) :=
  if_pos h

/-- A read inside the text. -/
theorem charAt_ok (h : i < s.length) : charAt s i = .ok s[i] := by
  rw [charAt, List.getElem?_eq_getElem h]

/-- `back` of a text that is not empty. -/
theorem back_ok (h : s ≠ []) : back s = .ok (s.getLast h) := by
  rw [back, List.getLast?_eq_some_getLast h]

end Operations

/-! ### Trimming -/

/-- `trim`. -/
def trim (s : Text) : Checked Text :=
  match findIf (fun c => !isSpace c) s 0 with
  | none => pure []
  | some pos => do
      let s ← removePrefix s pos
      -- `npos + 1` is zero.
      removeSuffix s (s.length - ((findLast (fun c => !isSpace c) s).elim 0 (· + 1)))

/-- The text without the whitespace at its ends. -/
def strip (s : Text) : Text := (s.dropWhile isSpace).rdropWhile isSpace

/-- Trimming makes no text longer. -/
theorem length_strip_le (s : Text) : (strip s).length ≤ s.length :=
  (List.rdropWhile_prefix isSpace _).length_le.trans (List.length_dropWhile_le _ _)

/-- A trimmed text does not end in whitespace. -/
theorem isSpace_getLast_strip {s : Text} (h : strip s ≠ []) :
    isSpace ((strip s).getLast h) = false :=
  Bool.eq_false_iff.2 (List.rdropWhile_last_not isSpace (s.dropWhile isSpace) h)

/-- **What `trim` computes.** -/
theorem trim_eq (s : Text) : trim s = .ok (strip s) := by
  unfold trim strip
  split
  · rename_i h
    have hall : ∀ c ∈ s, isSpace c = true := by
      simpa [findIf] using h
    rw [List.dropWhile_eq_nil_iff.2 hall]
    rfl
  · rename_i pos h
    have hpos : s.drop pos = s.dropWhile isSpace := by
      simp only [findIf, List.drop_zero, Option.map_eq_some_iff, Nat.zero_add] at h
      obtain ⟨j, hj, rfl⟩ := h
      rw [List.dropWhile_eq_drop_findIdx_not, (List.findIdx?_eq_some_iff_findIdx_eq.1 hj).2]
    have hlast : ∀ t : Text, t.length - (findLast (fun c => !isSpace c) t).elim 0 (· + 1) =
        t.reverse.findIdx fun c => !isSpace c := by
      intro t
      unfold findLast
      cases hf : t.reverse.findIdx? fun c => !isSpace c with
      | none =>
        rw [List.findIdx_eq_length_of_false (List.findIdx?_eq_none_iff.1 hf), List.length_reverse]
        rfl
      | some j =>
        obtain ⟨hj, hidx⟩ := List.findIdx?_eq_some_iff_findIdx_eq.1 hf
        rw [List.length_reverse] at hj
        simp only [Option.map_some, Option.elim_some, hidx]
        omega
    rw [removePrefix_ok (findIf_lt h).2.le, hpos]
    generalize s.dropWhile isSpace = t
    simp only [bind, Except.bind]
    rw [removeSuffix_ok (Nat.sub_le _ _), hlast, List.rdropWhile,
      List.dropWhile_eq_drop_findIdx_not, List.reverse_drop, List.length_reverse,
      List.reverse_reverse]

/-- `first_token`. -/
def firstToken (s : Text) : Checked Text :=
  match find s ' ' with
  | some sp => substr s 0 (some sp)
  | none => pure s

/-- The first token is read without leaving the text, and is no longer than it. -/
theorem firstToken_yields (s : Text) : (firstToken s).Yields fun t => t.length ≤ s.length ∧
    (t.length ≠ s.length → t.length + 1 ≤ s.length) := by
  unfold firstToken
  split
  · rw [substr_take]
    refine Checked.yields_ok.2 ?_
    rw [List.length_take]
    omega
  · exact Checked.yields_pure.2 ⟨le_rfl, fun h => absurd rfl h⟩

/-! ### Splitting -/

/-- A line without the `\\r` at its end. -/
def dropCr (line : Text) : Checked Text :=
  if line = [] then pure line
  else do
    let c ← back line
    if c = '\r' then removeSuffix line 1 else pure line

/-- One turn of `split_lines`: the rest of the text, and the lines so far. -/
def splitLinesTurn (st : Text × List Text) : Checked (Turn (Text × List Text) (List Text)) :=
  if st.1 = [] then pure (.done st.2)
  else do
    let line ← substr st.1 0 (find st.1 '\n')
    let line ← dropCr line
    match find st.1 '\n' with
    | none => pure (.done (if line = [] then st.2 else st.2 ++ [line]))
    | some nl => do
        let rest ← removePrefix st.1 (nl + 1)
        pure (.next (rest, st.2 ++ [line]))

/-- `split_lines`. -/
def splitLines (s : Text) : Checked (List Text) :=
  Checked.loop splitLinesTurn (s.length + 1) (s, [])

/-- One turn of `split_whitespace`. -/
def splitWhitespaceTurn (st : Text × List Text) : Checked (Turn (Text × List Text) (List Text)) :=
  if st.1 = [] then pure (.done st.2)
  else
    match find st.1 ' ' with
    | none => pure (.done (st.2 ++ [st.1]))
    | some e => do
        let part ← substr st.1 0 (some e)
        match findIf (· != ' ') st.1 e with
        | none => pure (.done (st.2 ++ [part]))
        | some next => do
            let rest ← removePrefix st.1 next
            pure (.next (rest, st.2 ++ [part]))

/-- `split_whitespace`, which splits at blanks only. -/
def splitWhitespace (s : Text) : Checked (List Text) :=
  match findIf (· != ' ') s 0 with
  | none => pure []
  | some start => do
      let s ← removePrefix s start
      Checked.loop splitWhitespaceTurn (s.length + 1) (s, [])

/-- A line without the `\\r` at its end. -/
def chomp (line : Text) : Text := if line.getLast? = some '\r' then line.dropLast else line

/-- The lines of a text; an empty last one does not count. -/
def lines (s : Text) : List Text :=
  let ls := (s.splitOn '\n').map chomp
  if ls.getLast? = some [] then ls.dropLast else ls

/-- The words of a text, between blanks. -/
def words (s : Text) : List Text := (s.splitOn ' ').filter (· ≠ [])

/-- The carriage return is dropped without leaving the line. -/
theorem dropCr_eq (line : Text) : dropCr line = .ok (chomp line) := by
  unfold dropCr chomp
  split
  · simp_all
    rfl
  · rename_i h
    rw [back_ok h, List.getLast?_eq_some_getLast h]
    simp only [bind, Except.bind, Option.some.injEq]
    split
    · rw [removeSuffix_ok (List.length_pos_of_ne_nil h), List.dropLast_eq_take]
    · rfl

/-- The lines of a text with a line break: the one in front, and those of the rest. -/
theorem lines_of_find {s : Text} {nl : ℕ} (h : find s '\n' = some nl) :
    lines s = chomp (s.take nl) :: lines (s.drop (nl + 1)) := by
  obtain ⟨hs, hnot⟩ := find_eq_some h
  have hsplit : s.splitOn '\n' = s.take nl :: (s.drop (nl + 1)).splitOn '\n' := by
    conv_lhs => rw [hs]
    exact List.splitOn_append_cons_self_of_not_mem hnot _
  have hne : ((s.drop (nl + 1)).splitOn '\n').map chomp ≠ [] := by simp
  simp only [lines, hsplit, List.map_cons, List.getLast?_cons, List.getLast?_eq_some_getLast hne]
  simp only [Option.getD_some]
  split <;> simp [List.dropLast_cons_of_ne_nil hne]

/-- A text without a line break is one line, or none. -/
theorem lines_of_not_mem {s : Text} (h : '\n' ∉ s) :
    lines s = if chomp s = [] then [] else [chomp s] := by
  simp only [lines, List.splitOn_eq_singleton h, List.map_cons, List.map_nil]
  simp

/-- **What `split_lines` computes.** -/
theorem splitLines_eq (s : Text) : splitLines s = .ok (lines s) := by
  have h : (splitLines s).Yields fun ls => ls = lines s := by
    refine Checked.loop_yields (I := fun st => st.2 ++ lines st.1 = lines s)
      (fun st => st.1.length) (fun st hst => ?_) (by simp) (by simp)
    unfold splitLinesTurn
    split
    · rename_i hnil
      refine Checked.yields_done.2 ?_
      rw [← hst, hnil]
      simp [lines_of_not_mem, chomp]
    · rename_i hne
      cases hf : find st.1 '\n' with
      | none =>
        rw [substr_zero]
        simp only [bind, Except.bind]
        rw [dropCr_eq]
        refine Checked.yields_done.2 ?_
        rw [← hst, lines_of_not_mem (find_eq_none.1 hf)]
        by_cases hc : chomp st.1 = []
        · rw [if_pos hc, if_pos hc, List.append_nil]
        · rw [if_neg hc, if_neg hc]
      | some nl =>
        have hlt := find_lt hf
        rw [substr_take]
        simp only [bind, Except.bind]
        rw [dropCr_eq]
        simp only []
        rw [removePrefix_ok (by omega)]
        refine Checked.yields_next.2 ⟨?_, ?_⟩
        · rw [← hst, lines_of_find hf]
          simp
        · rw [List.length_drop]
          omega
  obtain ⟨ls, hls, rfl⟩ := h
  exact hls

/-- The words of a text with a blank: the one in front, unless it is empty, and those of the rest.
-/
theorem words_of_find {s : Text} {e : ℕ} (h : find s ' ' = some e) :
    words s = (if s.take e = [] then [] else [s.take e]) ++ words (s.drop (e + 1)) := by
  obtain ⟨hs, hnot⟩ := find_eq_some h
  have hsplit : s.splitOn ' ' = s.take e :: (s.drop (e + 1)).splitOn ' ' := by
    conv_lhs => rw [hs]
    exact List.splitOn_append_cons_self_of_not_mem hnot _
  rw [words, hsplit]
  by_cases hnil : s.take e = []
  · rw [if_pos hnil, List.filter_cons_of_neg (by simp [hnil]), List.nil_append, words]
  · rw [if_neg hnil, List.filter_cons_of_pos (by simpa using hnil), List.singleton_append, words]

/-- A text without a blank is one word, or none. -/
theorem words_of_not_mem {s : Text} (h : ' ' ∉ s) : words s = if s = [] then [] else [s] := by
  simp only [words, List.splitOn_eq_singleton h, List.filter_cons, List.filter_nil]
  split <;> simp_all

/-- The text from where a character is found starts with it. -/
theorem drop_find {s : Text} {c : Char} {e : ℕ} (h : find s c = some e) :
    s.drop e = c :: s.drop (e + 1) := by
  have hlen : (s.take e).length = e := List.length_take_of_le (find_lt h).le
  conv_lhs => rw [(find_eq_some h).1]
  rw [List.drop_append_of_le_length hlen.ge, List.drop_eq_nil_of_le hlen.le, List.nil_append]

/-- The text from where the blanks end does not start with one. -/
theorem head?_drop_findIf {s : Text} {o start : ℕ} (h : findIf (· != ' ') s o = some start) :
    (s.drop start).head? ≠ some ' ' := by
  have hlt := (findIf_lt h).2
  simp only [findIf, Option.map_eq_some_iff] at h
  obtain ⟨j, hj, rfl⟩ := h
  obtain ⟨hjl, hp, -⟩ := List.findIdx?_eq_some_iff_getElem.1 hj
  rw [List.head?_drop, List.getElem?_eq_getElem hlt]
  simpa using hp

/-- A blank in front changes no word. -/
theorem words_cons_blank (s : Text) : words (' ' :: s) = words s := by
  have h := List.splitOn_append_cons_self_of_not_mem (show ' ' ∉ [] from List.not_mem_nil) s
  rw [List.nil_append] at h
  rw [words, h, List.filter_cons_of_neg (by simp), words]

/-- Leading blanks do not matter. -/
theorem words_dropWhile (s : Text) : words (s.dropWhile (· == ' ')) = words s := by
  induction s with
  | nil => rfl
  | cons c s ih =>
    rw [List.dropWhile_cons]
    split
    · rename_i hc
      rw [ih, eq_of_beq hc, words_cons_blank]
    · rfl

/-- The words from the first character on that is no blank. -/
theorem words_drop_findIf {s : Text} {o start : ℕ} (h : findIf (· != ' ') s o = some start) :
    words (s.drop start) = words (s.drop o) := by
  simp only [findIf, Option.map_eq_some_iff] at h
  obtain ⟨j, hj, rfl⟩ := h
  rw [← words_dropWhile (s.drop o), List.dropWhile_eq_drop_findIdx_not, List.drop_drop,
    ← (List.findIdx?_eq_some_iff_findIdx_eq.1 hj).2]
  rfl

/-- Where there are only blanks left, there is no word left. -/
theorem words_eq_nil_of_findIf {s : Text} {o : ℕ} (h : findIf (· != ' ') s o = none) :
    words (s.drop o) = [] := by
  have hall : ∀ c ∈ s.drop o, (c == ' ') = true := by simpa [findIf] using h
  rw [← words_dropWhile, List.dropWhile_eq_nil_iff.2 hall]
  rfl

/-- The words taken so far and those that are left are the words of `s`. -/
def SplitAt (s : Text) (st : Text × List Text) : Prop :=
  st.2 ++ words st.1 = words s ∧ st.1.head? ≠ some ' '

/-- The words of a text that begins with one. -/
theorem words_of_find_word {s : Text} {e : ℕ} (hhead : s.head? ≠ some ' ') (hne : s ≠ [])
    (h : find s ' ' = some e) : words s = [s.take e] ++ words (s.drop e) := by
  have hword : s.take e ≠ [] := by
    intro hnil
    rcases List.take_eq_nil_iff.1 hnil with rfl | hnil
    · exact hhead (by rw [(find_eq_some h).1]; rfl)
    · exact hne hnil
  rw [words_of_find h, if_neg hword, drop_find h, words_cons_blank]

/-- **A turn takes the first word**, and the blanks behind it. -/
theorem splitWhitespaceTurn_yields {s : Text} {st : Text × List Text} (hst : SplitAt s st) :
    (splitWhitespaceTurn st).Yields (Turn.Holds
      (fun st' => SplitAt s st' ∧ st'.1.length < st.1.length) fun ws => ws = words s) := by
  obtain ⟨hwords, hhead⟩ := hst
  unfold splitWhitespaceTurn
  split
  · rename_i hnil
    refine Checked.yields_done.2 ?_
    rw [← hwords, hnil]
    simp [words]
  · rename_i hne
    cases hf : find st.1 ' ' with
    | none =>
      refine Checked.yields_done.2 ?_
      rw [← hwords, words_of_not_mem (find_eq_none.1 hf), if_neg hne]
    | some e =>
      have he := find_lt hf
      have hrest := words_of_find_word hhead hne hf
      simp only [substr_take, bind, Except.bind]
      cases hn : findIf (· != ' ') st.1 e with
      | none =>
        refine Checked.yields_done.2 ?_
        rw [← hwords, hrest, words_eq_nil_of_findIf hn, List.append_nil]
      | some next =>
        obtain ⟨hle, hlt⟩ := findIf_lt hn
        have hpos : e ≠ next := fun h => by
          have := head?_drop_findIf hn
          rw [← h, drop_find hf] at this
          exact this rfl
        simp only []
        rw [removePrefix_ok hlt.le]
        refine Checked.yields_next.2 ⟨⟨?_, head?_drop_findIf hn⟩, ?_⟩
        · rw [← hwords, hrest, words_drop_findIf hn, List.append_assoc]
        · rw [List.length_drop]
          omega

/-- **What `split_whitespace` computes.** -/
theorem splitWhitespace_eq (s : Text) : splitWhitespace s = .ok (words s) := by
  unfold splitWhitespace
  split
  · rename_i h
    rw [← List.drop_zero (l := s), words_eq_nil_of_findIf h]
    rfl
  · rename_i start h
    rw [removePrefix_ok (findIf_lt h).2.le]
    have hstart : SplitAt s (s.drop start, []) :=
      ⟨by rw [List.nil_append, words_drop_findIf h, List.drop_zero], head?_drop_findIf h⟩
    obtain ⟨ws, hws, rfl⟩ := Checked.loop_yields (fun st => st.1.length)
      (fun _ => splitWhitespaceTurn_yields) hstart (Nat.lt_succ_self _)
    exact hws

/-- A text without a word is blank. -/
theorem eq_blank_of_words_eq_nil {s : Text} (h : words s = []) : ∀ c ∈ s, c = ' ' := by
  induction s with
  | nil => exact fun c hc => absurd hc List.not_mem_nil
  | cons c s ih =>
    by_cases hc : c = ' '
    · rw [hc, words_cons_blank] at h
      exact List.forall_mem_cons.2 ⟨hc, ih h⟩
    · exfalso
      cases hf : find (c :: s) ' ' with
      | none => simp [words_of_not_mem (find_eq_none.1 hf)] at h
      | some e =>
        have he : (c :: s).take e ≠ [] := by
          intro h0
          have hs := (find_eq_some hf).1
          rw [h0, List.nil_append] at hs
          exact hc (List.cons.inj hs).1
        simp [words_of_find hf, he] at h

/-! ### Numbers -/

/-- The value of a row of decimal digits. -/
def digits (s : Text) : ℕ := s.foldl (fun n c => 10 * n + (c.toNat - '0'.toNat)) 0

/-- `parse_uint8` … `parse_uint64`: `from_chars` over the whole text. -/
def parseUint (w : ℕ) (s : Text) : Option (BitVec w) :=
  if s ≠ [] ∧ s.all Char.isDigit = true ∧ digits s < 2 ^ w then some (BitVec.ofNat w (digits s))
  else none

/-- `std::to_string` of an unsigned number. -/
def toText (n : ℕ) : Text := Nat.toDigits 10 n

/-- No two numbers have the same digits. -/
theorem toText_injective : Function.Injective toText :=
  Function.LeftInverse.injective (g := fun s => Nat.ofDigitChars 10 s 0) fun _ =>
    Nat.ofDigitChars_ten_toDigits

/-- Every number has a digit. -/
theorem toText_ne_nil (n : ℕ) : toText n ≠ [] := Nat.toDigits_ne_nil

end Text
end AsioRtc
