/-
# The values of a line

What is left of a line for the parser of a value, and how such values are put
together.  A line is trimmed before it is taken apart, so a value does not end in
whitespace, and it has no newline (`Value`); at its front it may be anything.  The
pieces of a value are again such values: what is behind a character (`cutOff_iff`),
a trimmed part (`Value.strip`), the last word (`Words.of_value`).

The other way round, a text is cut where it was joined (`cutOff_append`,
`words_append_spaced`), and a number is read as itself (`parseUint_toText`).
-/

import AsioRtc.Lib.Pieces
import AsioRtc.Sdp.Attributes

namespace AsioRtc

open Lib

namespace Text

variable {s t v w a b : Text} {c : Char} {ws : List Text}

/-! ### Whitespace at the ends -/

/-- No whitespace at the front. -/
def StartsClean (s : Text) : Prop := ∀ c ∈ s.head?, isSpace c = false

/-- No whitespace at the end. -/
def EndsClean (s : Text) : Prop := ∀ c ∈ s.getLast?, isSpace c = false

/-- Whether a text starts clean shows at its first character. -/
instance (s : Text) : Decidable (StartsClean s) :=
  decidable_of_iff (s.head?.all (fun c => !isSpace c) = true) (by
    unfold StartsClean
    cases s.head? <;> simp)

/-- Whether a text ends clean shows at its last character. -/
instance (s : Text) : Decidable (EndsClean s) :=
  decidable_of_iff (s.getLast?.all (fun c => !isSpace c) = true) (by
    unfold EndsClean
    cases s.getLast? <;> simp)

/-- The empty text starts clean. -/
@[simp] theorem startsClean_nil : StartsClean [] := by simp [StartsClean]

/-- The empty text ends clean. -/
@[simp] theorem endsClean_nil : EndsClean [] := by simp [EndsClean]

/-- The first character decides. -/
@[simp] theorem startsClean_cons : StartsClean (c :: s) ↔ isSpace c = false := by
  simp [StartsClean]

/-- What stands behind a text does not matter to its start. -/
theorem StartsClean.append (h : StartsClean s) (hne : s ≠ []) : StartsClean (s ++ t) := by
  obtain ⟨c, s, rfl⟩ := List.exists_cons_of_ne_nil hne
  simpa using h

/-- The front of a text starts as the text does. -/
theorem StartsClean.of_front (h : StartsClean s) (ht : t <+: s) : StartsClean t := by
  obtain ⟨u, rfl⟩ := ht
  cases t with
  | nil => exact startsClean_nil
  | cons c t => simpa using h

/-- What stands in front of a text does not matter to its end. -/
theorem endsClean_append (hne : t ≠ []) : EndsClean (s ++ t) ↔ EndsClean t := by
  rw [EndsClean, EndsClean, List.getLast?_append_of_ne_nil _ hne]

/-- The same, where the part behind begins with a character that is known. -/
theorem endsClean_append_cons : EndsClean (s ++ c :: t) ↔ EndsClean (c :: t) :=
  endsClean_append (List.cons_ne_nil c t)

/-- The same, for a single character in front. -/
theorem endsClean_cons (hne : t ≠ []) : EndsClean (c :: t) ↔ EndsClean t :=
  endsClean_append (s := [c]) hne

/-- One character is an end of its own. -/
@[simp] theorem endsClean_singleton : EndsClean [c] ↔ isSpace c = false := by simp [EndsClean]

/-- The back of a text ends as the text does. -/
theorem EndsClean.of_suffix (h : EndsClean s) (ht : t <:+ s) : EndsClean t := by
  by_cases hne : t = []
  · exact hne ▸ endsClean_nil
  · obtain ⟨u, rfl⟩ := ht
    exact (endsClean_append hne).1 h

/-- Nothing is trimmed off a clean start. -/
theorem StartsClean.dropWhile_eq (hs : StartsClean s) : s.dropWhile isSpace = s := by
  cases s with
  | nil => rfl
  | cons c s => rw [List.dropWhile_cons_of_neg (by simpa using hs)]

/-- **A text that is clean at both ends** is its own trim. -/
theorem strip_eq_self (hs : StartsClean s) (he : EndsClean s) : strip s = s := by
  rw [strip, hs.dropWhile_eq, List.rdropWhile_eq_self_iff]
  intro hne
  simpa using he _ (List.getLast?_eq_some_getLast hne)

/-- Trimming the end makes it clean. -/
theorem endsClean_rdropWhile (s : Text) : EndsClean (s.rdropWhile isSpace) := by
  intro c hc
  by_cases hne : s.rdropWhile isSpace = []
  · simp [hne] at hc
  · rw [List.getLast?_eq_some_getLast hne, Option.mem_some_iff] at hc
    exact hc ▸ Bool.eq_false_iff.2 (List.rdropWhile_last_not isSpace s hne)

/-- A trimmed text ends clean. -/
theorem endsClean_strip (s : Text) : EndsClean (strip s) := endsClean_rdropWhile _

/-- The trim is a front of what is left behind the leading whitespace. -/
theorem strip_front (s : Text) : strip s <+: s.dropWhile isSpace := List.rdropWhile_prefix _ _

/-- A trimmed text starts clean. -/
theorem startsClean_strip (s : Text) : StartsClean (strip s) := by
  refine StartsClean.of_front (fun c hc => ?_) (strip_front s)
  have hnot := List.head?_dropWhile_not isSpace s
  rw [Option.mem_def.1 hc] at hnot
  simpa using hnot

/-- The trim is a part of the text. -/
theorem strip_within (s : Text) : strip s <:+: s :=
  (strip_front s).isInfix.trans (List.dropWhile_suffix _).isInfix

/-- To trim twice is to trim once. -/
@[simp] theorem strip_strip (s : Text) : strip (strip s) = strip s :=
  strip_eq_self (startsClean_strip s) (endsClean_strip s)

/-- Where a text does not end in whitespace, something of it is left. -/
theorem strip_ne_nil (he : EndsClean s) (hne : s ≠ []) : strip s ≠ [] := by
  intro h
  have hall : ∀ c ∈ s.dropWhile isSpace, isSpace c = true := List.rdropWhile_eq_nil_iff.1 h
  have hnil : s.dropWhile isSpace = [] := by
    cases hd : s.dropWhile isSpace with
    | nil => rfl
    | cons c t =>
      have hnot := List.head?_dropWhile_not isSpace s
      rw [hd] at hnot hall
      simp [hall c (List.mem_cons_self ..)] at hnot
  have hlast := List.dropWhile_eq_nil_iff.1 hnil _ (List.getLast_mem hne)
  rw [he _ (List.getLast?_eq_some_getLast hne)] at hlast
  cases hlast

/-- Whitespace is trimmed at the end up to the last character that is none. -/
theorem rdropWhile_append_cons (hc : isSpace c = false) :
    (s ++ c :: t).rdropWhile isSpace = s ++ c :: t.rdropWhile isSpace := by
  induction t using List.reverseRecOn with
  | nil => exact List.rdropWhile_concat_neg isSpace s c (by simp [hc])
  | append_singleton t x ih =>
    rw [List.rdropWhile_concat, show s ++ c :: (t ++ [x]) = (s ++ c :: t) ++ [x] by simp,
      List.rdropWhile_concat, ih]
    split
    · rfl
    · simp

/-- A text with a sign in front of it: only its end is trimmed. -/
theorem strip_cons_cons (hc : isSpace c = false) :
    strip (c :: '=' :: s) = c :: '=' :: s.rdropWhile isSpace := by
  have hd : (c :: '=' :: s).dropWhile isSpace = c :: '=' :: s :=
    List.dropWhile_cons_of_neg (by simpa using hc)
  rw [strip, hd]
  exact rdropWhile_append_cons (s := [c]) (c := '=') (by decide)

/-- What the parser has behind the name of an attribute. -/
structure Value (v : Text) : Prop where
  ends : EndsClean v
  newline : '\n' ∉ v

namespace Value

/-- The empty text is a value. -/
theorem nil : Value [] := ⟨endsClean_nil, List.not_mem_nil⟩

/-- The back of a value is a value. -/
theorem of_suffix (h : Value v) (ht : t <:+ v) : Value t :=
  ⟨h.ends.of_suffix ht, fun hm => h.newline (ht.subset hm)⟩

/-- What is behind a character. -/
theorem behind (h : Value (a ++ c :: b)) : Value b :=
  h.of_suffix ((List.suffix_cons c b).trans (List.suffix_append a _))

/-- The trim of a value is a value. -/
theorem stripped (h : Value v) : Value (strip v) :=
  ⟨endsClean_strip v, fun hm => h.newline ((strip_within v).subset hm)⟩

/-- Whatever stands in front of a value that is not empty, without a newline, makes a value with it.
-/
theorem append (hs : '\n' ∉ s) (ht : Value t) (hne : t ≠ []) : Value (s ++ t) :=
  ⟨(endsClean_append hne).2 ht.ends, by simp [hs, ht.newline]⟩

/-- In front of a value that is not empty anything may stand. -/
theorem append_cons (hs : '\n' ∉ s) (hc : c ≠ '\n') (ht : Value t) (hne : t ≠ []) :
    Value (s ++ c :: t) :=
  append hs ⟨(endsClean_cons hne).2 ht.ends, by simp [ht.newline, hc.symm]⟩ (List.cons_ne_nil _ _)

end Value

/-! ### Cutting -/

/-- Without the character there is no cut. -/
theorem cutOff_none (h : c ∉ s) : cutOff s c = none := by
  rw [cutOff, find_eq_none.2 h]
  rfl

/-- The first `c` stands behind a part without one. -/
theorem find_append (ha : c ∉ a) : find (a ++ c :: b) c = some a.length := by
  have hnone : a.findIdx? (· == c) = none := by
    rw [List.findIdx?_eq_none_iff]
    exact fun x hx => beq_eq_false_iff_ne.2 fun hxc => ha (hxc ▸ hx)
  simp [find, findIf, List.findIdx?_append, hnone, List.findIdx?_cons]

/-- **A text is cut at the first `c`.** -/
theorem cutOff_append (ha : c ∉ a) : cutOff (a ++ c :: b) c = some (a, b) := by
  have hdrop : (a ++ c :: b).drop (a.length + 1) = b := by
    rw [← List.drop_drop, List.drop_left, List.drop_succ_cons, List.drop_zero]
  rw [cutOff, find_append ha, Option.map_some, List.take_left, hdrop]

/-- A cut is the one way to write the text with a `c` behind a part without one. -/
theorem cutOff_iff : cutOff s c = some (a, b) ↔ s = a ++ c :: b ∧ c ∉ a := by
  constructor
  · intro h
    obtain ⟨i, hi, hab⟩ := Option.map_eq_some_iff.1 h
    obtain ⟨rfl, rfl⟩ := Prod.mk.inj hab
    exact find_eq_some hi
  · rintro ⟨rfl, ha⟩
    exact cutOff_append ha

/-- **What a cut leaves of a value.** -/
theorem Value.cutOff (hv : Value v) (h : cutOff v c = some (a, b)) :
    c ∉ a ∧ '\n' ∉ a ∧ Value b ∧ (isSpace c = true → b ≠ []) := by
  obtain ⟨rfl, ha⟩ := cutOff_iff.1 h
  refine ⟨ha, fun hm => hv.newline (List.mem_append_left _ hm), hv.behind, ?_⟩
  rintro hc rfl
  have := (endsClean_append_cons.1 hv.ends) c rfl
  rw [hc] at this
  cases this

/-- A value without whitespace at its front: it is its own `trim`. -/
structure Trimmed (s : Text) : Prop extends Value s where
  starts : StartsClean s

/-- The empty text is trimmed. -/
theorem Trimmed.nil : Trimmed [] := ⟨.nil, startsClean_nil⟩

/-- A trimmed text is its own trim. -/
theorem Trimmed.strip_eq (h : Trimmed s) : strip s = s := strip_eq_self h.starts h.ends

/-- The trim of a value is trimmed. -/
theorem Value.trimmed (h : Value v) : Trimmed (strip v) := ⟨h.stripped, startsClean_strip v⟩

/-- Trimmed texts, joined. -/
theorem trimmed_intercalate (hc : c ≠ '\n') (h : ∀ w ∈ ws, w ≠ [] ∧ Trimmed w) :
    Trimmed ([c].intercalate ws) := by
  induction ws with
  | nil => exact .nil
  | cons w ws ih =>
    obtain ⟨⟨hne, hw⟩, hws⟩ := List.forall_mem_cons.1 h
    cases ws with
    | nil => simpa using hw
    | cons v ws =>
      have hne' : [c].intercalate (v :: ws) ≠ [] := by
        simp [intercalate_cons_eq, (hws v (List.mem_cons_self ..)).1]
      rw [List.intercalate_cons_cons, List.append_assoc]
      exact ⟨.append_cons hw.newline hc (ih hws).toValue hne', hw.starts.append hne⟩

/-- A text without whitespace, and not empty. -/
def Token (s : Text) : Prop := s ≠ [] ∧ ∀ c ∈ s, isSpace c = false

/-- Whether a text is a token shows at its characters. -/
instance (s : Text) : Decidable (Token s) :=
  decidable_of_iff (s ≠ [] ∧ s.all (fun c => !isSpace c) = true) (by simp [Token])

namespace Token

/-- A token has no whitespace at its ends, and no newline. -/
theorem trimmed (h : Token s) : Trimmed s where
  ends c hc := h.2 c (List.mem_of_getLast? hc)
  newline hm := absurd (h.2 _ hm) (by decide)
  starts c hc := h.2 c (List.mem_of_head? hc)

/-- A token has no blank. -/
theorem blank (h : Token s) : ' ' ∉ s := fun hm => absurd (h.2 _ hm) (by decide)

end Token

/-! ### Finding a text -/

/-- A text is not found exactly where it does not occur. -/
theorem findText_eq_none {n : Text} : findText n s = none ↔ ¬ n <:+: s := by
  induction s with
  | nil =>
    rw [findText]
    split <;> simp_all
  | cons c s ih =>
    rw [findText]
    by_cases hp : n.isPrefixOf (c :: s) = true
    · have := (List.isPrefixOf_iff_prefix.1 hp).isInfix
      simp [hp, this]
    · rw [if_neg hp, Option.map_eq_none_iff, ih, List.infix_cons_iff,
        ← List.isPrefixOf_iff_prefix]
      simp [hp]

/-- What is in front of the first place of a text. -/
theorem not_infix_take {n : Text} {i : ℕ} (hn : n ≠ []) (h : findText n s = some i) :
    ¬ n <:+: s.take i := by
  induction s generalizing i with
  | nil => simpa using hn
  | cons c s ih =>
    rw [findText] at h
    by_cases hp : n.isPrefixOf (c :: s) = true
    · rw [if_pos hp] at h
      obtain rfl := Option.some.inj h
      simpa using hn
    · rw [if_neg hp] at h
      obtain ⟨j, hj, rfl⟩ := Option.map_eq_some_iff.1 h
      rw [List.take_succ_cons, List.infix_cons_iff]
      rintro (hpre | hin)
      · refine hp (List.isPrefixOf_iff_prefix.2 (hpre.trans ?_))
        exact List.prefix_cons_inj c |>.2 (List.take_prefix j s)
      · exact ih hj hin

/-- **A text that begins with a blank, and has no other,** is found where it was put, unless
there is one in front of it. -/
theorem findText_append {n : Text} (hn : c ∉ n) (ha : ¬ (c :: n) <:+: a) :
    findText (c :: n) (a ++ c :: n ++ b) = some a.length := by
  induction a with
  | nil =>
    have hpre : (c :: n).isPrefixOf (c :: (n ++ b)) = true :=
      List.isPrefixOf_iff_prefix.2 ⟨b, rfl⟩
    rw [List.nil_append, List.cons_append, findText, if_pos hpre]
    rfl
  | cons d a ih =>
    have hnot : ¬ (c :: n).isPrefixOf (d :: (a ++ c :: n ++ b)) = true := by
      rw [List.isPrefixOf_iff_prefix]
      intro hp
      obtain ⟨rfl, hrest⟩ := List.cons_prefix_cons.1 hp
      rw [List.append_assoc, List.cons_append] at hrest
      have hpre := prefix_of_prefix_append_cons hrest hn
      exact ha ((List.prefix_cons_inj c).2 hpre).isInfix
    rw [List.cons_append, List.cons_append, findText, if_neg hnot,
      ih fun h => ha (h.trans (List.suffix_cons d a).isInfix)]
    rfl

/-! ### Words -/

/-- A text is whole between blanks exactly where it has none. -/
theorem whole_blank : Whole (· == ' ') w ↔ ' ' ∉ w := by
  simp only [Whole, beq_eq_false_iff_ne]
  exact ⟨fun h hm => h _ hm rfl, fun h c hc hcb => h (hcb ▸ hc)⟩

/-- Words, each with a blank in front. -/
def spaced (ws : List Text) : Text := ws.flatMap (' ' :: ·)

/-- Words between blanks, the last one without whitespace at its end. -/
structure Words (ws : List Text) : Prop where
  word : ∀ w ∈ ws, w ≠ [] ∧ ' ' ∉ w ∧ '\n' ∉ w
  ends : ∀ w ∈ ws.getLast?, EndsClean w

namespace Words

/-- No words at all. -/
theorem nil : Words [] := ⟨by simp, by simp⟩

/-- **The words of a value** end as the value does. -/
theorem of_value (hv : Value v) : Words (words v) where
  word w hw := by
    obtain ⟨hne, hblank, hin⟩ := mem_pieces w hw
    exact ⟨hne, whole_blank.1 hblank, fun hm => hv.newline (hin.subset hm)⟩
  ends w hw := by
    refine hv.ends.of_suffix (getLast?_pieces (fun c hc => ?_) hw)
    refine beq_eq_false_iff_ne.2 fun hcb => ?_
    have := hv.ends c hc
    rw [hcb] at this
    exact absurd this (by decide)

/-- Words are not empty, and are whole between blanks. -/
theorem whole (h : Words ws) : ∀ w ∈ ws, w ≠ [] ∧ Whole (· == ' ') w := fun w hw =>
  ⟨(h.word w hw).1, whole_blank.2 (h.word w hw).2.1⟩

/-- The words behind the first one. -/
theorem of_cons (h : Words (w :: ws)) : Words ws where
  word v hv := h.word v (List.mem_cons_of_mem _ hv)
  ends v hv := by
    refine h.ends v ?_
    obtain ⟨x, ws, rfl⟩ := List.exists_cons_of_ne_nil (List.ne_nil_of_mem (List.mem_of_getLast? hv))
    rwa [List.getLast?_cons_cons]

/-- Two lists of words, one behind the other. -/
theorem append {us : List Text} (h : Words us) (hw : Words ws) : Words (us ++ ws) where
  word v hv := (List.mem_append.1 hv).elim (h.word v) (hw.word v)
  ends v hv := by
    by_cases hne : ws = []
    · rw [hne, List.append_nil] at hv
      exact h.ends v hv
    · rw [List.getLast?_append_of_ne_nil _ hne] at hv
      exact hw.ends v hv

/-- **The words of joined words.** -/
theorem words_append_spaced (h : Words (w :: ws)) : words (w ++ spaced ws) = w :: ws :=
  pieces_append_flatMap rfl (h.whole w (List.mem_cons_self ..)) h.of_cons.whole

/-- Words with a blank in front of each are a value. -/
theorem value_spaced (h : Words ws) : Value (spaced ws) := by
  refine ⟨?_, fun hm => ?_⟩
  · rcases List.eq_nil_or_concat ws with rfl | ⟨us, w, rfl⟩
    · exact endsClean_nil
    · have hw := h.word w (by simp)
      rw [spaced, List.concat_eq_append, List.flatMap_append, List.flatMap_singleton,
        endsClean_append (List.cons_ne_nil _ _), endsClean_cons hw.1]
      exact h.ends w (by simp)
  · obtain ⟨w, hw, hm⟩ := List.mem_flatMap.1 hm
    rcases List.mem_cons.1 hm with hm | hm
    · exact absurd hm (by decide)
    · exact (h.word w hw).2.2 hm

/-- Words with blanks between them are a value. -/
theorem value_append_spaced (h : Words (w :: ws)) : Value (w ++ spaced ws) := by
  have hw := h.word w (List.mem_cons_self ..)
  have hv := h.value_spaced
  rw [spaced, List.flatMap_cons, List.cons_append] at hv
  exact ⟨(endsClean_cons (by simp [hw.1])).1 hv.ends, fun hm =>
    hv.newline (List.mem_cons_of_mem _ hm)⟩

end Words

/-- Tokens are words. -/
theorem Words.of_tokens (h : ∀ w ∈ ws, Token w) : Words ws where
  word w hw := ⟨(h w hw).1, (h w hw).blank, (h w hw).trimmed.newline⟩
  ends w hw := (h w (List.mem_of_getLast? hw)).trimmed.ends

/-- What is read from a stream is tokens. -/
theorem token_of_mem_streamWords (h : w ∈ streamWords s) : Token w :=
  ⟨(mem_pieces w h).1, (mem_pieces w h).2.1⟩

/-- **Tokens are read from a stream again.** -/
theorem streamWords_append_spaced (hw : Token w) (hws : ∀ u ∈ ws, Token u) :
    streamWords (w ++ spaced ws) = w :: ws :=
  pieces_append_flatMap rfl hw hws

/-- Where there is a word, something is written. -/
theorem spaced_ne_nil (h : ws ≠ []) : spaced ws ≠ [] := by
  obtain ⟨w, ws, rfl⟩ := List.exists_cons_of_ne_nil h
  simp [spaced]

/-- A value that is not empty has a word. -/
theorem Value.words_ne_nil (hv : Value v) (hne : v ≠ []) : words v ≠ [] := by
  intro h
  have hlast := eq_blank_of_words_eq_nil h _ (List.getLast_mem hne)
  have := hv.ends _ (List.getLast?_eq_some_getLast hne)
  rw [hlast] at this
  exact absurd this (by decide)

/-- The first word of a text that does not begin with whitespace does not either. -/
theorem startsClean_words (hs : StartsClean s) (hw : w ∈ (words s).head?) : StartsClean w := by
  refine hs.of_front (head?_pieces (fun c hc => ?_) hw)
  refine beq_eq_false_iff_ne.2 fun hcb => ?_
  have := hs c hc
  rw [hcb] at this
  exact absurd this (by decide)

/-! ### Numbers -/

/-- A number is written in digits. -/
theorem isDigit_toText {n : ℕ} (hc : c ∈ toText n) : c.isDigit = true :=
  Nat.isDigit_of_mem_toDigits (by decide) (by decide) hc

/-- A digit is no whitespace. -/
theorem isSpace_of_isDigit (hc : c.isDigit = true) : isSpace c = false := by
  rw [Bool.eq_false_iff]
  intro h
  simp only [isSpace, Bool.or_eq_true, decide_eq_true_eq] at h
  rcases h with ((((rfl | rfl) | rfl) | rfl) | rfl) | rfl <;> exact absurd hc (by decide)

/-- What is no digit does not occur in a number. -/
theorem not_mem_toText (hc : c.isDigit = false) (n : ℕ) : c ∉ toText n := fun h =>
  Bool.false_ne_true (hc.symm.trans (isDigit_toText h))

/-- A number is a token. -/
theorem token_toText (n : ℕ) : Token (toText n) :=
  ⟨toText_ne_nil n, fun _ hc => isSpace_of_isDigit (isDigit_toText hc)⟩

/-- **A number is read as itself.** -/
@[simp] theorem parseUint_toText {n : ℕ} (x : BitVec n) : parseUint n (toText x.toNat) = some x := by
  have hval : digits (toText x.toNat) = x.toNat := Nat.ofDigitChars_ten_toDigits
  have hall : (toText x.toNat).all Char.isDigit = true :=
    List.all_eq_true.2 fun c hc => isDigit_toText hc
  rw [parseUint, if_pos ⟨toText_ne_nil _, hall, by rw [hval]; exact x.isLt⟩, hval, BitVec.ofNat_toNat,
    BitVec.setWidth_eq]

end Text
end AsioRtc
