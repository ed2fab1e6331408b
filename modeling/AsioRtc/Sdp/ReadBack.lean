/-
# Attributes are read back

For each kind of attribute: what the parser of `Sdp.Attributes` reads from a value is
well formed (`parseRtpmap_yields` and its siblings), and a well-formed attribute is
read back from what `to_string` writes (`WellFormed.parse_text`), which is a value
again (`WellFormed.value_text`).

A value that follows a blank is trimmed, a part in front of one has no blank in it.
An `a=ssrc` attribute alone is not always read back: without a value its name must not
be empty or end in whitespace (`SdpSsrc.Clean`), as that whitespace would be trimmed.
-/

import AsioRtc.Sdp.Print

namespace AsioRtc

open Lib Text

variable {v : Text}

/-- Nothing is written for an optional part that is empty. -/
@[simp] theorem optPart_nil (c : Char) : optPart c [] = [] := rfl

/-- An optional part that is there comes behind its separator. -/
theorem optPart_of_ne {s : Text} (c : Char) (h : s ≠ []) : optPart c s = c :: s := if_neg h

/-! ### Codecs -/

namespace SdpRtpmap

/-- A name in front of its slash, without whitespace at the front; the parameters are read from
a line of their own. -/
structure WellFormed (attr : SdpRtpmap) : Prop where
  slash : '/' ∉ attr.name
  newline : '\n' ∉ attr.name
  starts : StartsClean attr.name
  params : Trimmed attr.params

variable {attr : SdpRtpmap}

/-- The attribute as its payload type, a blank, and the name with what is behind the slash. -/
theorem text_eq (attr : SdpRtpmap) :
    attr.text = toText attr.payloadType.toNat ++ ' ' :: (attr.name ++ '/' ::
      (toText attr.clockRate.toNat ++ attr.channels.elim [] fun ch => '/' :: toText ch.toNat)) := by
  simp [text]

/-- What is behind the name. -/
theorem value_rate (attr : SdpRtpmap) :
    Value (toText attr.clockRate.toNat ++ attr.channels.elim [] fun ch => '/' :: toText ch.toNat) := by
  have hrate := (token_toText attr.clockRate.toNat).trimmed.toValue
  cases attr.channels with
  | none => simpa using hrate
  | some ch =>
    exact .append_cons hrate.newline (by decide) (token_toText ch.toNat).trimmed.toValue
      (toText_ne_nil _)

/-- What is behind the blank needs no trimming: the name starts clean, and a number or a slash with
one ends it. -/
theorem WellFormed.trimmed_name (h : attr.WellFormed) :
    Trimmed (attr.name ++ '/' ::
      (toText attr.clockRate.toNat ++ attr.channels.elim [] fun ch => '/' :: toText ch.toNat)) where
  toValue := .append_cons h.newline (by decide) attr.value_rate (by simp [toText_ne_nil])
  starts := by
    cases hn : attr.name with
    | nil => exact startsClean_cons.2 (by decide)
    | cons c s => exact startsClean_cons.2 (startsClean_cons.1 (hn ▸ h.starts))

/-- The text of a codec can stand on a line. -/
theorem WellFormed.value_text (h : attr.WellFormed) : Value attr.text := by
  rw [text_eq]
  exact .append_cons (not_mem_toText (by decide) _) (by decide) h.trimmed_name.toValue (by simp)

/-- **A codec is read back.** -/
theorem WellFormed.parse_text (h : attr.WellFormed) :
    parseRtpmap attr.text = .ok (some { attr with params := [] }) := by
  rw [text_eq, parseRtpmap, cut_eq, cutOff_append (not_mem_toText (by decide) _)]
  simp only [Checked.ok_bind, trim_eq, h.trimmed_name.strip_eq, parseUint_toText, cut_eq,
    cutOff_append h.slash]
  cases hc : attr.channels with
  | none =>
    simp only [Option.elim_none, List.append_nil, cutOff_none (not_mem_toText (c := '/') (by decide) _),
      parseUint_toText]
    rfl
  | some ch =>
    simp only [Option.elim_some, cutOff_append (not_mem_toText (c := '/') (by decide) _),
      parseUint_toText, (token_toText ch.toNat).trimmed.strip_eq]
    rfl

end SdpRtpmap

/-- A codec that is read is well formed, and has no parameters yet. -/
theorem parseRtpmap_yields (hv : Value v) :
    (parseRtpmap v).Yields fun r => ∀ attr ∈ r, attr.WellFormed ∧ attr.params = [] := by
  simp only [parseRtpmap, cut_eq, trim_eq, Checked.ok_bind]
  split
  · simp
  rename_i ptText rest hc
  obtain ⟨-, -, hrest, -⟩ := hv.cutOff hc
  split
  · simp
  split
  · simp
  rename_i name afterName hname
  have hwf : ∀ pt rate ch, (SdpRtpmap.mk pt name rate ch []).WellFormed := fun pt rate ch =>
    { slash := (hrest.trimmed.toValue.cutOff hname).1
      newline := (hrest.trimmed.toValue.cutOff hname).2.1
      starts := hrest.trimmed.starts.of_front ⟨_, (cutOff_iff.1 hname).1.symm⟩
      params := .nil }
  split
  · refine Checked.yields_pure.2 fun attr hattr => ?_
    obtain ⟨rate, -, rfl⟩ := Option.map_eq_some_iff.1 hattr
    exact ⟨hwf _ _ _, rfl⟩
  split
  · simp
  · refine Checked.yields_pure.2 fun attr hattr => ?_
    obtain ⟨ch, -, rfl⟩ := Option.map_eq_some_iff.1 hattr
    exact ⟨hwf _ _ _, rfl⟩

namespace SdpRtcpFb

/-- A type and what is behind it. -/
structure WellFormed (attr : SdpRtcpFb) : Prop where
  type_ne : attr.type ≠ []
  blank : ' ' ∉ attr.type
  newline : '\n' ∉ attr.type
  starts : StartsClean attr.type
  subtype : Trimmed attr.subtype
  ends : attr.subtype = [] → EndsClean attr.type

variable {attr : SdpRtcpFb}

/-- What is behind the payload type. -/
theorem WellFormed.trimmed_type (h : attr.WellFormed) :
    Trimmed (attr.type ++ optPart ' ' attr.subtype) where
  toValue := by
    by_cases hs : attr.subtype = []
    · rw [hs, optPart_nil, List.append_nil]
      exact ⟨h.ends hs, h.newline⟩
    · rw [optPart_of_ne _ hs]
      exact .append_cons h.newline (by decide) h.subtype.toValue hs
  starts := h.starts.append h.type_ne

/-- A payload type is written with digits or as the star, so it has no separator in it. -/
theorem not_mem_payloadText {c : Char} (hd : c.isDigit = false) (hc : c ≠ '*') (pt : Option U8) :
    c ∉ payloadText pt := by
  cases pt with
  | none => simpa [payloadText] using hc
  | some pt => exact not_mem_toText hd _

/-- The payload type is read back, whether it is one or all of them. -/
theorem payloadText_read (pt : Option U8) :
    ¬ (payloadText pt ≠ "*".toList ∧ parseUint 8 (payloadText pt) = none) ∧
      (if payloadText pt = "*".toList then none else parseUint 8 (payloadText pt)) = pt := by
  cases pt with
  | none => exact ⟨fun h => h.1 rfl, rfl⟩
  | some pt =>
    have hne : toText pt.toNat ≠ "*".toList := fun h =>
      not_mem_toText (c := '*') (by decide) pt.toNat (h ▸ List.mem_cons_self ..)
    simp only [payloadText, Option.elim_some, parseUint_toText, if_neg hne]
    simp

/-- The text of feedback can stand on a line. -/
theorem WellFormed.value_text (h : attr.WellFormed) : Value attr.text := by
  rw [text, List.append_assoc]
  exact .append_cons (not_mem_payloadText (by decide) (by decide) _) (by decide)
    h.trimmed_type.toValue (by simp [h.type_ne])

/-- **Feedback is read back.** -/
theorem WellFormed.parse_text (h : attr.WellFormed) : parseRtcpfb attr.text = .ok (some attr) := by
  obtain ⟨hread, hpt⟩ := payloadText_read attr.payloadType
  rw [text, List.append_assoc, List.cons_append, parseRtcpfb, cut_eq,
    cutOff_append (not_mem_payloadText (by decide) (by decide) _)]
  simp only [Checked.ok_bind, if_neg hread, trim_eq, h.trimmed_type.strip_eq, cut_eq, hpt]
  by_cases hs : attr.subtype = []
  · rw [hs, optPart_nil, List.append_nil, cutOff_none h.blank]
    rw [← hs]
    rfl
  · rw [optPart_of_ne _ hs, cutOff_append h.blank]
    simp only [h.subtype.strip_eq]
    rfl

end SdpRtcpFb

/-- Feedback that is read is well formed: its type is not empty and has no blank. -/
theorem parseRtcpfb_yields (hv : Value v) :
    (parseRtcpfb v).Yields fun r => ∀ attr ∈ r, attr.WellFormed := by
  simp only [parseRtcpfb, cut_eq, trim_eq, Checked.ok_bind]
  split
  · simp
  rename_i ptText rest hc
  obtain ⟨-, -, hrest, hne⟩ := hv.cutOff hc
  have hstrip : strip rest ≠ [] := strip_ne_nil hrest.ends (hne (by decide))
  split
  · simp
  split
  · rename_i hcut
    have hblank : ' ' ∉ strip rest := by
      rw [← cutOff_isSome, hcut]
      simp
    refine Checked.yields_pure.2 fun attr hattr => ?_
    obtain rfl := Option.some.inj hattr
    exact ⟨hstrip, hblank, hrest.stripped.newline, startsClean_strip _, .nil, fun _ =>
      endsClean_strip _⟩
  · rename_i type subtype hcut
    obtain ⟨hblank, hnl, hsub, hsne⟩ := hrest.stripped.cutOff hcut
    have hsplit := (cutOff_iff.1 hcut).1
    have htype : type ≠ [] := by
      rintro rfl
      have := startsClean_strip rest
      rw [hsplit] at this
      exact absurd (startsClean_cons.1 this) (by decide)
    refine Checked.yields_pure.2 fun attr hattr => ?_
    obtain rfl := Option.some.inj hattr
    exact ⟨htype, hblank, hnl, (startsClean_strip rest).of_front ⟨_, hsplit.symm⟩, hsub.trimmed,
      fun h0 => absurd h0 (strip_ne_nil hsub.ends (hsne (by decide)))⟩

/-! ### The enumerations -/

section

variable [NoCaseEq] [LawfulNoCaseEq]

/-- The comparison of the C library is the comparison of the lower-case texts. -/
theorem nceq_eq (a b : Text) : nceq a b = (a.map Char.toLower == b.map Char.toLower) :=
  Bool.eq_iff_iff.2 ((LawfulNoCaseEq.nceq_iff a b).trans beq_iff_eq.symm)

/-- A media type is read back from its word. -/
theorem parseSdpMediaType_toString (t : SdpMediaType) : parseSdpMediaType t.toString = some t := by
  cases t <;> simp only [parseSdpMediaType, nceq_eq] <;> rfl

/-- A transport protocol is read back from its word. -/
theorem parseSdpProto_toString (p : SdpProto) : parseSdpProto p.toString = some p := by
  cases p <;> simp only [parseSdpProto, nceq_eq] <;> rfl

/-- A direction is read back from its word. -/
theorem parseSdpDirection_toString (d : SdpDirection) :
    parseSdpDirection d.toString = some d := by
  cases d <;> simp only [parseSdpDirection, nceq_eq] <;> rfl

/-- A DTLS role is read back from its word. -/
theorem parseSetupRole_toString (r : SdpSetupRole) : parseSetupRole r.toString = some r := by
  cases r <;> simp only [parseSetupRole, nceq_eq] <;> rfl

/-- A kind of bandwidth is read back from its word. -/
theorem parseBandwidthType_toString (t : SdpBandwidthType) :
    parseBandwidthType t.toString = some t := by
  cases t <;> simp only [parseBandwidthType, nceq_eq] <;> rfl

end

/-- The word of a media type is one word. -/
theorem SdpMediaType.token (t : SdpMediaType) : Token t.toString := by cases t <;> decide

/-- The word of a protocol is one word. -/
theorem SdpProto.token (p : SdpProto) : Token p.toString := by cases p <;> decide

/-- The word of a direction is one word. -/
theorem SdpDirection.token (d : SdpDirection) : Token d.toString := by cases d <;> decide

/-- The word of a DTLS role is one word. -/
theorem SdpSetupRole.token (r : SdpSetupRole) : Token r.toString := by cases r <;> decide

/-! ### Extensions -/

namespace SdpExtmap

/-- A URI in front of its attributes. -/
structure WellFormed (attr : SdpExtmap) : Prop where
  blank : ' ' ∉ attr.uri
  newline : '\n' ∉ attr.uri
  attributes : Trimmed attr.attributes
  uri : attr.attributes = [] → attr.uri ≠ [] ∧ EndsClean attr.uri

variable {attr : SdpExtmap}

/-- The id, and the direction behind it. -/
def idText (attr : SdpExtmap) : Text :=
  toText attr.id.toNat ++ attr.direction.elim [] fun d => '/' :: d.toString

/-- There is no blank and no line break in the id and its direction. -/
theorem idText_part (attr : SdpExtmap) : ' ' ∉ attr.idText ∧ '\n' ∉ attr.idText := by
  have hnum : ' ' ∉ toText attr.id.toNat ∧ '\n' ∉ toText attr.id.toNat :=
    ⟨not_mem_toText (by decide) _, not_mem_toText (by decide) _⟩
  rw [idText]
  cases attr.direction with
  | none => simpa using hnum
  | some d => simpa [hnum] using ⟨d.token.blank, d.token.trimmed.newline⟩

/-- The URI and its attributes are a value, and never an empty one. -/
theorem WellFormed.value_uri (h : attr.WellFormed) :
    Value (attr.uri ++ optPart ' ' attr.attributes) ∧
      attr.uri ++ optPart ' ' attr.attributes ≠ [] := by
  by_cases ha : attr.attributes = []
  · rw [ha, optPart_nil, List.append_nil]
    exact ⟨⟨(h.uri ha).2, h.newline⟩, (h.uri ha).1⟩
  · rw [optPart_of_ne _ ha]
    exact ⟨.append_cons h.newline (by decide) h.attributes.toValue ha, by simp⟩

/-- The attribute as its id, a blank, and the URI with its attributes. -/
theorem text_eq (attr : SdpExtmap) :
    attr.text = attr.idText ++ ' ' :: (attr.uri ++ optPart ' ' attr.attributes) := by
  simp [text, idText]

/-- The text of an extension can stand on a line. -/
theorem WellFormed.value_text (h : attr.WellFormed) : Value attr.text := by
  rw [text_eq]
  exact .append_cons attr.idText_part.2 (by decide) h.value_uri.1 h.value_uri.2

variable [NoCaseEq] [LawfulNoCaseEq]

/-- The id and the direction are read back. -/
theorem parseExtmapId_idText (attr : SdpExtmap) :
    parseExtmapId attr.idText = .ok (some (attr.id, attr.direction)) := by
  rw [parseExtmapId, cut_eq, idText]
  cases attr.direction with
  | none =>
    simp only [Option.elim_none, List.append_nil, cutOff_none (not_mem_toText (c := '/') (by decide) _),
      Checked.ok_bind, parseUint_toText]
    rfl
  | some d =>
    simp only [Option.elim_some, cutOff_append (not_mem_toText (c := '/') (by decide) _),
      Checked.ok_bind, parseUint_toText, parseSdpDirection_toString]
    rfl

/-- **An extension is read back.** -/
theorem WellFormed.parse_text (h : attr.WellFormed) : parseExtmap attr.text = .ok (some attr) := by
  rw [text_eq, parseExtmap, cut_eq, cutOff_append attr.idText_part.1]
  simp only [Checked.ok_bind, if_neg h.value_uri.2, parseExtmapId_idText, cut_eq, trim_eq]
  by_cases ha : attr.attributes = []
  · rw [ha, optPart_nil, List.append_nil, cutOff_none h.blank]
    rw [← ha]
    rfl
  · rw [optPart_of_ne _ ha, cutOff_append h.blank]
    simp only [h.attributes.strip_eq]
    rfl

end SdpExtmap

/-- An extension that is read is well formed. -/
theorem parseExtmap_yields [NoCaseEq] (hv : Value v) :
    (parseExtmap v).Yields fun r => ∀ attr ∈ r, attr.WellFormed := by
  have hid : ∀ t, (parseExtmapId t).Yields fun _ => True := fun t => by
    simp only [parseExtmapId, cut_eq, Checked.ok_bind]
    repeat' split
    all_goals exact Checked.yields_pure.2 trivial
  simp only [parseExtmap, cut_eq, trim_eq, Checked.ok_bind]
  split
  · simp
  rename_i idText uri hc
  obtain ⟨-, -, huri, hne⟩ := hv.cutOff hc
  split
  · simp
  refine (hid _).bind fun r _ => ?_
  split
  · simp
  split
  · rename_i hcut
    have hblank : ' ' ∉ uri := by
      rw [← cutOff_isSome, hcut]
      simp
    refine Checked.yields_pure.2 fun attr hattr => ?_
    obtain rfl := Option.some.inj hattr
    exact ⟨hblank, huri.newline, .nil, fun _ => ⟨hne (by decide), huri.ends⟩⟩
  · rename_i first ext hcut
    obtain ⟨hblank, hnl, hext, hene⟩ := huri.cutOff hcut
    refine Checked.yields_pure.2 fun attr hattr => ?_
    obtain rfl := Option.some.inj hattr
    exact ⟨hblank, hnl, hext.trimmed, fun h0 =>
      absurd h0 (strip_ne_nil hext.ends (hene (by decide)))⟩

/-! ### Sources -/

namespace SdpSsrc

/-- An attribute of a source in front of its value. -/
structure WellFormed (attr : SdpSsrc) : Prop where
  colon : ':' ∉ attr.attr
  newline : '\n' ∉ attr.attr
  value : Value attr.value

/-- Nothing of it is trimmed where it is written. -/
def Clean (attr : SdpSsrc) : Prop :=
  attr.value = [] → attr.attr ≠ [] ∧ EndsClean attr.attr

/-- Whether something would be trimmed is decided by the attribute. -/
instance (attr : SdpSsrc) : Decidable attr.Clean :=
  inferInstanceAs (Decidable (attr.value = [] → attr.attr ≠ [] ∧ EndsClean attr.attr))

variable {attr : SdpSsrc}

/-- The attribute as its number, a blank, and the name with the value. -/
theorem text_eq (attr : SdpSsrc) :
    attr.text = toText attr.ssrc.toNat ++ ' ' :: (attr.attr ++ optPart ':' attr.value) := by
  simp [text]

/-- The text of a source has no line break in it, clean or not. -/
theorem WellFormed.newline_text (h : attr.WellFormed) : '\n' ∉ attr.text := by
  have hnum : '\n' ∉ toText attr.ssrc.toNat := not_mem_toText (by decide) _
  by_cases hv : attr.value = []
  · simp [text_eq, hv, hnum, h.newline]
  · simp [text_eq, optPart_of_ne _ hv, hnum, h.newline, h.value.newline]

/-- The text of a clean source can stand on a line. -/
theorem WellFormed.value_text (h : attr.WellFormed) (hc : attr.Clean) : Value attr.text := by
  refine ⟨?_, h.newline_text⟩
  rw [text_eq, endsClean_append_cons]
  by_cases hv : attr.value = []
  · rw [hv, optPart_nil, List.append_nil, endsClean_cons (hc hv).1]
    exact (hc hv).2
  · rw [optPart_of_ne _ hv, endsClean_cons (by simp), endsClean_append_cons, endsClean_cons hv]
    exact h.value.ends

/-- **A source is read back.** -/
theorem WellFormed.parse_text (h : attr.WellFormed) : parseSsrc attr.text = .ok (some attr) := by
  rw [text_eq, parseSsrc, cut_eq, cutOff_append (not_mem_toText (by decide) _)]
  simp only [Checked.ok_bind, parseUint_toText, cut_eq]
  by_cases hv : attr.value = []
  · rw [hv, optPart_nil, List.append_nil, cutOff_none h.colon]
    rw [← hv]
    rfl
  · rw [optPart_of_ne _ hv, cutOff_append h.colon]
    rfl

end SdpSsrc

/-- A source that is read is well formed. -/
theorem parseSsrc_yields (hv : Value v) :
    (parseSsrc v).Yields fun r => ∀ attr ∈ r, attr.WellFormed := by
  simp only [parseSsrc, cut_eq, Checked.ok_bind]
  split
  · simp
  rename_i ssrcText rest hc
  obtain ⟨-, -, hrest, -⟩ := hv.cutOff hc
  split
  · simp
  split
  · rename_i hcut
    have hcolon : ':' ∉ rest := by
      rw [← cutOff_isSome, hcut]
      simp
    refine Checked.yields_pure.2 fun attr hattr => ?_
    obtain rfl := Option.some.inj hattr
    exact ⟨hcolon, hrest.newline, .nil⟩
  · rename_i name value hcut
    obtain ⟨hcolon, hnl, hvalue, -⟩ := hrest.cutOff hcut
    refine Checked.yields_pure.2 fun attr hattr => ?_
    obtain rfl := Option.some.inj hattr
    exact ⟨hcolon, hnl, hvalue⟩

/-- A source whose line ends clean and has no colon is clean. -/
theorem parseSsrc_clean {attr : SdpSsrc} (he : EndsClean v) (hc : ':' ∉ v)
    (h : parseSsrc v = .ok (some attr)) : attr.Clean := by
  simp only [parseSsrc, cut_eq, Checked.ok_bind] at h
  split at h
  · cases h
  rename_i ssrcText rest hcut
  obtain ⟨rfl, -⟩ := cutOff_iff.1 hcut
  split at h
  · cases h
  have hcolon : ':' ∉ rest := fun hm => hc (by simp [hm])
  rw [cutOff_none hcolon] at h
  obtain rfl := Option.some.inj (Except.ok.inj h)
  intro _
  rw [endsClean_append_cons] at he
  by_cases hrest : rest = []
  · rw [hrest] at he
    exact absurd he (by decide)
  · exact ⟨hrest, (endsClean_cons hrest).1 he⟩

namespace SdpSsrcGroup

/-- Semantics in front of the sources. -/
structure WellFormed (attr : SdpSsrcGroup) : Prop where
  blank : ' ' ∉ attr.semantics
  newline : '\n' ∉ attr.semantics
  ssrcs : attr.ssrcs ≠ []

variable {attr : SdpSsrcGroup}

/-- The numbers of a group are words. -/
theorem words_ssrcs (ssrcs : List U32) : Words (ssrcs.map fun ssrc => toText ssrc.toNat) := by
  refine .of_tokens fun w hw => ?_
  obtain ⟨ssrc, -, rfl⟩ := List.mem_map.1 hw
  exact token_toText _

/-- The numbers of the sources, behind the first blank. -/
theorem text_eq {ssrc : U32} {ssrcs : List U32} (h : attr.ssrcs = ssrc :: ssrcs) :
    attr.text = attr.semantics ++ ' ' ::
      (toText ssrc.toNat ++ spaced (ssrcs.map fun ssrc => toText ssrc.toNat)) := by
  simp [text, h, spaced]

/-- The text of a group of sources can stand on a line. -/
theorem WellFormed.value_text (h : attr.WellFormed) : Value attr.text := by
  rw [text]
  exact .append h.newline (words_ssrcs _).value_spaced (spaced_ne_nil (by simpa using h.ssrcs))

/-- **A group of sources is read back.** -/
theorem WellFormed.parse_text (h : attr.WellFormed) :
    parseSsrcGroup attr.text = .ok (some attr) := by
  obtain ⟨ssrc, ssrcs, hs⟩ := List.exists_cons_of_ne_nil h.ssrcs
  have hwords : words (toText ssrc.toNat ++ spaced (ssrcs.map fun ssrc => toText ssrc.toNat)) =
      attr.ssrcs.map fun ssrc => toText ssrc.toNat := by
    rw [hs]
    exact Words.words_append_spaced (words_ssrcs (ssrc :: ssrcs))
  have hread : (attr.ssrcs.map fun ssrc => toText ssrc.toNat).mapM (parseUint 32) =
      some attr.ssrcs := by
    induction attr.ssrcs with
    | nil => rfl
    | cons ssrc ssrcs ih => simp [ih]
  rw [text_eq hs, parseSsrcGroup, cut_eq, cutOff_append h.blank]
  simp only [Checked.ok_bind, splitWhitespace_eq, hwords, hread]
  rfl

end SdpSsrcGroup

/-- A group of sources that is read is well formed: it has at least one number. -/
theorem parseSsrcGroup_yields (hv : Value v) :
    (parseSsrcGroup v).Yields fun r => ∀ attr ∈ r, attr.WellFormed := by
  simp only [parseSsrcGroup, cut_eq, splitWhitespace_eq, Checked.ok_bind]
  split
  · simp
  rename_i semantics rest hc
  obtain ⟨hblank, hnl, hrest, hne⟩ := hv.cutOff hc
  refine Checked.yields_pure.2 fun attr hattr => ?_
  obtain ⟨ssrcs, hssrcs, rfl⟩ := Option.map_eq_some_iff.1 hattr
  refine ⟨hblank, hnl, ?_⟩
  rintro rfl
  obtain ⟨w, ws, hw⟩ := List.exists_cons_of_ne_nil (hrest.words_ne_nil (hne (by decide)))
  simp [hw, Option.bind_eq_some_iff] at hssrcs

/-! ### What is read piece by piece -/

section Pieces

variable {s t r : Text} {n : ℕ}

/-- What is taken as a word is one, and what is left is the rest of the text. -/
theorem takeToken_eq_some (h : takeToken s = some (t, r)) : Token t ∧ r <:+ s := by
  simp only [takeToken] at h
  split at h
  · cases h
  · rename_i hne
    obtain ⟨rfl, rfl⟩ := Prod.mk.inj (Option.some.inj h)
    refine ⟨⟨hne, fun c hc => ?_⟩, List.dropWhile_suffix _⟩
    simpa using List.mem_takeWhile_imp hc

/-- What is left behind blanks is the rest of the text. -/
theorem takeSpaces_eq_some (h : takeSpaces s = some r) : r <:+ s := by
  simp only [takeSpaces] at h
  split at h
  · cases h
  · obtain rfl := Option.some.inj h
    exact List.dropWhile_suffix _

/-- What is left behind digits is the rest of the text. -/
theorem takeDigits_eq_some (h : takeDigits s = some (t, r)) : r <:+ s := by
  simp only [takeDigits] at h
  split at h
  · cases h
  · obtain ⟨-, rfl⟩ := Prod.mk.inj (Option.some.inj h)
    exact List.dropWhile_suffix _

/-- A word is taken as far as the blank behind it, or as far as the end. -/
theorem takeToken_append (ht : Token t) (hr : ∀ c ∈ r.head?, isSpace c = true) :
    takeToken (t ++ r) = some (t, r) := by
  have hall : ∀ c ∈ t, (!isSpace c) = true := fun c hc => by simp [ht.2 c hc]
  have hr' : r.takeWhile (fun c => !isSpace c) = [] ∧ r.dropWhile (fun c => !isSpace c) = r := by
    cases r with
    | nil => simp
    | cons c r => simp [hr c rfl]
  rw [takeToken, List.takeWhile_append_of_pos hall, List.dropWhile_append_of_pos hall, hr'.1,
    hr'.2, List.append_nil]
  exact if_neg ht.1

/-- A single blank is skipped in front of what starts clean. -/
theorem takeSpaces_cons (hs : StartsClean s) : takeSpaces (' ' :: s) = some s := by
  rw [takeSpaces, List.takeWhile_cons_of_pos (by decide), List.dropWhile_cons_of_pos (by decide),
    hs.dropWhile_eq]
  rfl

/-- A number is taken as far as what is not a digit. -/
theorem takeDigits_append (hr : ∀ c ∈ r.head?, c.isDigit = false) :
    takeDigits (toText n ++ r) = some (toText n, r) := by
  have hall : ∀ c ∈ toText n, c.isDigit = true := fun c hc => isDigit_toText hc
  have hr' : r.takeWhile Char.isDigit = [] ∧ r.dropWhile Char.isDigit = r := by
    cases r with
    | nil => simp
    | cons c r => simp [hr c rfl]
  rw [takeDigits, List.takeWhile_append_of_pos hall, List.dropWhile_append_of_pos hall, hr'.1,
    hr'.2, List.append_nil]
  exact if_neg (toText_ne_nil n)

end Pieces

namespace SdpRtcp

/-- The address is there as a whole or not at all. -/
def WellFormed (attr : SdpRtcp) : Prop :=
  (attr.nettype = [] ∧ attr.addrtype = [] ∧ attr.addr = []) ∨
    (Token attr.nettype ∧ Token attr.addrtype ∧ Token attr.addr)

variable {attr : SdpRtcp}

/-- The text of the attribute can stand on a line. -/
theorem WellFormed.value_text (h : attr.WellFormed) : Value attr.text := by
  have hnum := (token_toText attr.port.toNat).trimmed.toValue
  rcases h with ⟨hn, -, -⟩ | ⟨hn, ht, ha⟩
  · simpa [text, hn] using hnum
  · have hwords : Words [attr.nettype, attr.addrtype, attr.addr] :=
      .of_tokens (by simp [hn, ht, ha])
    rw [text, if_pos ⟨hn.1, ht.1, ha.1⟩]
    exact .append hnum.newline hwords.value_spaced (by simp [spaced])

/-- **The port of the feedback is read back.** -/
theorem WellFormed.parse_text (h : attr.WellFormed) : parseRtcp attr.text = some attr := by
  rcases h with ⟨hn, ht, ha⟩ | ⟨hn, ht, ha⟩
  · have htext : attr.text = toText attr.port.toNat ++ [] := by simp [text, hn]
    rw [htext, parseRtcp, takeDigits_append (by simp)]
    simp only [Option.bind_eq_bind, Option.bind_some, if_pos, parseUint_toText]
    cases attr
    simp_all
  · have htext : attr.text = toText attr.port.toNat ++
        ' ' :: (attr.nettype ++ ' ' :: (attr.addrtype ++ ' ' :: (attr.addr ++ []))) := by
      rw [text, if_pos ⟨hn.1, ht.1, ha.1⟩]
      simp [spaced]
    have starts {t r : Text} (ht : Token t) : StartsClean (t ++ r) := ht.trimmed.starts.append ht.1
    have blank {s : Text} : ∀ c ∈ (' ' :: s).head?, isSpace c = true := by simp [isSpace]
    have nothing : ∀ c ∈ ([] : Text).head?, isSpace c = true := by simp
    rw [htext, parseRtcp, takeDigits_append (by simp)]
    simp only [Option.bind_eq_bind, Option.bind_some, if_neg (List.cons_ne_nil _ _),
      takeSpaces_cons (starts hn), takeToken_append hn blank, takeSpaces_cons (starts ht),
      takeToken_append ht blank, takeSpaces_cons (starts ha), takeToken_append ha nothing,
      parseUint_toText]
    rfl

end SdpRtcp

/-- What is read has the whole address or nothing of it: a part of one is an error. -/
theorem parseRtcp_wellFormed {attr : SdpRtcp} (h : parseRtcp v = some attr) : attr.WellFormed := by
  simp only [parseRtcp, Option.bind_eq_bind, Option.bind_eq_some_iff, Prod.exists] at h
  obtain ⟨portText, s, -, h⟩ := h
  split at h
  · obtain ⟨port, -, h⟩ := Option.bind_eq_some_iff.1 h
    obtain rfl := Option.some.inj h
    exact Or.inl ⟨rfl, rfl, rfl⟩
  · simp only [Option.bind_eq_some_iff, Prod.exists] at h
    obtain ⟨nettype, s₁, ⟨_, -, hn⟩, addrtype, s₂, ⟨_, -, ht⟩, addr, s₃, ⟨_, -, ha⟩, h⟩ := h
    split at h
    · obtain ⟨port, -, h⟩ := Option.bind_eq_some_iff.1 h
      obtain rfl := Option.some.inj h
      exact Or.inr ⟨(takeToken_eq_some hn).1, (takeToken_eq_some ht).1, (takeToken_eq_some ha).1⟩
    · cases h

namespace SdpCrypto

/-- A suite and its key; the parameters of the session are what is left. -/
structure WellFormed (attr : SdpCrypto) : Prop where
  suite : Token attr.suite
  keyParams : Token attr.keyParams
  sessionParams : Trimmed attr.sessionParams

variable {attr : SdpCrypto}

/-- The attribute as its tag, its suite, its key and the parameters, with blanks between them. -/
theorem text_eq (attr : SdpCrypto) :
    attr.text = toText attr.tag.toNat ++
      ' ' :: (attr.suite ++ ' ' :: (attr.keyParams ++ optPart ' ' attr.sessionParams)) := by
  simp [text, spaced]

/-- The text of keys can stand on a line. -/
theorem WellFormed.value_text (h : attr.WellFormed) : Value attr.text := by
  have hkey : Value (attr.keyParams ++ optPart ' ' attr.sessionParams) := by
    by_cases hs : attr.sessionParams = []
    · simpa [hs] using h.keyParams.trimmed.toValue
    · rw [optPart_of_ne _ hs]
      exact .append_cons h.keyParams.trimmed.newline (by decide) h.sessionParams.toValue hs
  rw [text_eq]
  refine .append_cons (not_mem_toText (by decide) _) (by decide) ?_ (by simp)
  exact .append_cons h.suite.trimmed.newline (by decide) hkey (by simp [h.keyParams.1])

/-- **Keys are read back.** -/
theorem WellFormed.parse_text (h : attr.WellFormed) : parseCrypto attr.text = some attr := by
  have starts {t r : Text} (ht : Token t) : StartsClean (t ++ r) := ht.trimmed.starts.append ht.1
  have blank {s : Text} : ∀ c ∈ (' ' :: s).head?, isSpace c = true := by simp [isSpace]
  have hopt : ∀ c ∈ (optPart ' ' attr.sessionParams).head?, isSpace c = true := by
    unfold optPart
    split
    · simp
    · exact blank
  have hrest : (optPart ' ' attr.sessionParams).dropWhile isSpace = attr.sessionParams := by
    unfold optPart
    split
    · rename_i hs
      rw [hs]
      rfl
    · rw [List.dropWhile_cons_of_pos (by decide)]
      have hs := h.sessionParams.starts
      cases hp : attr.sessionParams with
      | nil => rfl
      | cons c s =>
        rw [hp] at hs
        rw [List.dropWhile_cons_of_neg (by simpa using hs)]
  rw [text_eq, parseCrypto, takeDigits_append (by simp)]
  simp only [Option.bind_eq_bind, Option.bind_some, takeSpaces_cons (starts h.suite),
    takeToken_append h.suite blank, takeSpaces_cons (starts h.keyParams),
    takeToken_append h.keyParams hopt, parseUint_toText, hrest]
  rfl

end SdpCrypto

/-- Keys that are read are well formed; the parameters start behind the last blank. -/
theorem parseCrypto_wellFormed {attr : SdpCrypto} (hv : Value v) (h : parseCrypto v = some attr) :
    attr.WellFormed := by
  simp only [parseCrypto, Option.bind_eq_bind, Option.bind_eq_some_iff, Prod.exists] at h
  obtain ⟨_, s, h₁, s₁, h₂, suite, s₂, h₃, s₃, h₄, keyParams, s₄, h₅, tag, -, h⟩ := h
  obtain rfl := Option.some.inj h
  have hsuf : s₄.dropWhile isSpace <:+ v :=
    (List.dropWhile_suffix _).trans ((takeToken_eq_some h₅).2.trans ((takeSpaces_eq_some h₄).trans
      ((takeToken_eq_some h₃).2.trans ((takeSpaces_eq_some h₂).trans (takeDigits_eq_some h₁)))))
  refine ⟨(takeToken_eq_some h₃).1, (takeToken_eq_some h₅).1, hv.of_suffix hsuf, fun c hc => ?_⟩
  have hnot := List.head?_dropWhile_not isSpace s₄
  rw [Option.mem_def.1 hc] at hnot
  simpa using hnot

/-! ### Names and identifiers -/

namespace SdpFingerprint

/-- An algorithm in front of its value. -/
structure WellFormed (attr : SdpFingerprint) : Prop where
  blank : ' ' ∉ attr.algorithm
  newline : '\n' ∉ attr.algorithm
  value : Trimmed attr.value
  value_ne : attr.value ≠ []

variable {attr : SdpFingerprint}

/-- The text of a fingerprint can stand on a line. -/
theorem WellFormed.value_text (h : attr.WellFormed) : Value attr.text :=
  .append_cons h.newline (by decide) h.value.toValue h.value_ne

/-- **A fingerprint is read back.** -/
theorem WellFormed.parse_text (h : attr.WellFormed) :
    parseFingerprint attr.text = .ok (some attr) := by
  rw [text, parseFingerprint, cut_eq, cutOff_append h.blank]
  simp only [Checked.ok_bind, trim_eq, h.value.strip_eq]
  rfl

end SdpFingerprint

/-- A fingerprint that is read is well formed: its value is trimmed and not empty. -/
theorem parseFingerprint_wellFormed (hv : Value v) :
    (parseFingerprint v).Yields fun r => ∀ attr ∈ r, attr.WellFormed := by
  simp only [parseFingerprint, cut_eq, trim_eq, Checked.ok_bind]
  split
  · simp
  rename_i algorithm rest hc
  obtain ⟨hblank, hnl, hrest, hne⟩ := hv.cutOff hc
  refine Checked.yields_pure.2 fun attr hattr => ?_
  obtain rfl := Option.some.inj hattr
  exact ⟨hblank, hnl, hrest.trimmed, strip_ne_nil hrest.ends (hne (by decide))⟩

namespace SdpMsid

/-- A stream in front of its track. -/
structure WellFormed (attr : SdpMsid) : Prop where
  blank : ' ' ∉ attr.streamId
  newline : '\n' ∉ attr.streamId
  trackId : Trimmed attr.trackId
  ends : attr.trackId = [] → EndsClean attr.streamId

variable {attr : SdpMsid}

/-- The text of a stream can stand on a line. -/
theorem WellFormed.value_text (h : attr.WellFormed) : Value attr.text := by
  by_cases ht : attr.trackId = []
  · rw [text, ht, optPart_nil, List.append_nil]
    exact ⟨h.ends ht, h.newline⟩
  · rw [text, optPart_of_ne _ ht]
    exact .append_cons h.newline (by decide) h.trackId.toValue ht

/-- **A stream is read back.** -/
theorem WellFormed.parse_text (h : attr.WellFormed) : parseMsid attr.text = .ok attr := by
  rw [parseMsid, cut_eq, text]
  by_cases ht : attr.trackId = []
  · rw [ht, optPart_nil, List.append_nil, cutOff_none h.blank]
    simp only [Checked.ok_bind]
    rw [← ht]
    rfl
  · rw [optPart_of_ne _ ht, cutOff_append h.blank]
    simp only [Checked.ok_bind, trim_eq, h.trackId.strip_eq]
    rfl

end SdpMsid

/-- A stream that is read is well formed. -/
theorem parseMsid_yields (hv : Value v) : (parseMsid v).Yields SdpMsid.WellFormed := by
  simp only [parseMsid, cut_eq, trim_eq, Checked.ok_bind]
  split
  · rename_i hcut
    have hblank : ' ' ∉ v := by
      rw [← cutOff_isSome, hcut]
      simp
    exact Checked.yields_pure.2 ⟨hblank, hv.newline, .nil, fun _ => hv.ends⟩
  · rename_i streamId rest hcut
    obtain ⟨hblank, hnl, hrest, hne⟩ := hv.cutOff hcut
    exact Checked.yields_pure.2 ⟨hblank, hnl, hrest.trimmed, fun h0 =>
      absurd h0 (strip_ne_nil hrest.ends (hne (by decide)))⟩

namespace SdpGroup

/-- Semantics in front of the mids. -/
structure WellFormed (attr : SdpGroup) : Prop where
  blank : ' ' ∉ attr.semantic
  newline : '\n' ∉ attr.semantic
  items_ne : attr.items ≠ []
  items : Words attr.items
  starts : ∀ w ∈ attr.items.head?, StartsClean w

variable {attr : SdpGroup}

/-- The text of a group can stand on a line. -/
theorem WellFormed.value_text (h : attr.WellFormed) : Value attr.text :=
  .append h.newline h.items.value_spaced (spaced_ne_nil h.items_ne)

/-- **A group is read back.** -/
theorem WellFormed.parse_text (h : attr.WellFormed) : parseGroup attr.text = .ok (some attr) := by
  obtain ⟨w, ws, hw⟩ := List.exists_cons_of_ne_nil h.items_ne
  have hwords : Words (w :: ws) := hw ▸ h.items
  have hne := (hwords.word w (List.mem_cons_self ..)).1
  have htrim : Trimmed (w ++ spaced ws) :=
    ⟨hwords.value_append_spaced, (h.starts w (by simp [hw])).append hne⟩
  have htext : attr.text = attr.semantic ++ ' ' :: (w ++ spaced ws) := by
    simp [text, hw, spaced]
  rw [htext, parseGroup, cut_eq, cutOff_append h.blank]
  simp only [Checked.ok_bind, trim_eq, htrim.strip_eq, splitWhitespace_eq,
    hwords.words_append_spaced]
  rw [if_neg (by simp [hne]), ← hw]
  rfl

end SdpGroup

/-- A group that is read is well formed: it has at least one mid. -/
theorem parseGroup_wellFormed (hv : Value v) :
    (parseGroup v).Yields fun r => ∀ attr ∈ r, attr.WellFormed := by
  simp only [parseGroup, cut_eq, trim_eq, splitWhitespace_eq, Checked.ok_bind]
  split
  · simp
  rename_i semantic mids hc
  obtain ⟨hblank, hnl, hmids, hne⟩ := hv.cutOff hc
  have hstrip := strip_ne_nil hmids.ends (hne (by decide))
  rw [if_neg hstrip]
  refine Checked.yields_pure.2 fun attr hattr => ?_
  obtain rfl := Option.some.inj hattr
  exact ⟨hblank, hnl, hmids.stripped.words_ne_nil hstrip, .of_value hmids.stripped,
    fun w hw => startsClean_words (startsClean_strip mids) hw⟩

namespace SdpMsidSemantic

variable {attr : SdpMsidSemantic}

/-- The text of the semantics can stand on a line. -/
theorem value_text (h : Words (attr.semantic :: attr.streamIds)) : Value attr.text :=
  h.value_append_spaced

/-- **The semantics of the streams are read back.** -/
theorem parse_text (h : Words (attr.semantic :: attr.streamIds)) :
    parseMsidSemantic attr.text = .ok attr := by
  rw [parseMsidSemantic_eq, text, h.words_append_spaced]

end SdpMsidSemantic

/-- What is read of the semantics of the streams. -/
theorem parseMsidSemantic_words {attr : SdpMsidSemantic} (h : parseMsidSemantic v = .ok attr) :
    words v = attr.semantic :: attr.streamIds := by
  rw [parseMsidSemantic_eq] at h
  cases hw : words v with
  | nil => simp [hw] at h
  | cons w ws =>
    rw [hw] at h
    obtain rfl := Except.ok.inj h
    rfl

/-! ### The session part -/

namespace SdpBandwidth

/-- The text of a bandwidth can stand on a line. -/
theorem value_text (b : SdpBandwidth) : Value b.text :=
  .append_cons (by cases b.type <;> decide) (by decide)
    (token_toText b.bandwidth.toNat).trimmed.toValue (toText_ne_nil _)

/-- **A bandwidth is read back.** -/
theorem parse_text [NoCaseEq] [LawfulNoCaseEq] (b : SdpBandwidth) :
    parseBandwidth b.text = .ok (some b) := by
  have hcolon : ':' ∉ b.type.toString := by cases b.type <;> decide
  rw [parseBandwidth, text, cut_eq, cutOff_append hcolon]
  simp only [Checked.ok_bind, parseBandwidthType_toString, parseUint_toText]
  rfl

end SdpBandwidth

namespace SdpOrigin

/-- The words of an origin. -/
def fields (o : SdpOrigin) : List Text :=
  [o.username, o.sessionId, o.sessionVersion, o.nettype, o.addrtype, o.addr]

/-- Each of them is there. -/
def WellFormed (o : SdpOrigin) : Prop := ∀ w ∈ o.fields, Token w

variable {o : SdpOrigin}

/-- The origin that stands for a line that is too short is well formed. -/
theorem wellFormed_default : WellFormed {} := show ∀ w ∈ fields {}, Token w by decide

/-- The text of an origin can stand on a line. -/
theorem WellFormed.value_text (h : o.WellFormed) : Value o.text :=
  (Words.of_tokens h).value_append_spaced

/-- **The origin is read back.** -/
theorem WellFormed.parse_text (h : o.WellFormed) : parseOrigin o.text = o := by
  obtain ⟨hu, hrest⟩ := List.forall_mem_cons.1 h
  rw [parseOrigin, text, streamWords_append_spaced hu hrest]

end SdpOrigin

/-- Every origin that is read is well formed, as a line that is too short gives the default one. -/
theorem parseOrigin_wellFormed (v : Text) : (parseOrigin v).WellFormed := by
  unfold parseOrigin
  split
  · rename_i username sessionId sessionVersion nettype addrtype addr rest hw
    intro w hmem
    refine token_of_mem_streamWords (s := v) ?_
    rw [hw]
    exact List.mem_append_left rest hmem
  · exact SdpOrigin.wellFormed_default

end AsioRtc
