/-
# What the text says

An accepted text and the description it is read as.  The lines of the text come in
sections, each one with its attributes (`sectionsOf`), and what the parser has behind
them is what they say (`parseSdp_records`): an attribute without a field of its own is
there as it is written, a source with what its line says, and of the semantics of the
streams the last ones count.

A codec that comes again is ignored, and feedback for all codecs of a section takes the
place of feedback for one of them (`mem_addFeedback_iff`), so these are recorded up to
that (`SdpMedia.Records`).

So the description comes back from its own text just where nothing of the first text is
lost (`Printable`, `parseSdp_comesBack_iff`).
-/

import AsioRtc.Sdp.RoundTrip
import AsioRtc.Sdp.SectionRuns

namespace AsioRtc

open Lib Text

/-! ### The attributes -/

/-- The feedback of an attribute. -/
def rtcpFbOf (attr : Text × Text) : Option SdpRtcpFb :=
  (valueOf "rtcp-fb".toList attr).bind fun v => accepted (parseRtcpfb v)

/-- The source of an attribute. -/
def ssrcOf (attr : Text × Text) : Option SdpSsrc :=
  (valueOf "ssrc".toList attr).bind fun v => accepted (parseSsrc v)

/-- The values of the semantics of the streams. -/
def semanticsOf (attrs : List (Text × Text)) : List Text :=
  attrs.filterMap (valueOf "msid-semantic".toList)

/-- The semantics of the streams: the last ones count. -/
def semanticOf (attrs : List (Text × Text)) : Checked SdpMsidSemantic :=
  ((semanticsOf attrs).getLast?.map parseMsidSemantic).getD (.ok {})

/-- The parser has no field for an attribute. -/
def isOther [NoCaseEq] (known : List Text) (attr : Text × Text) : Bool :=
  attr.1 ∉ known ∧ parseSdpDirection attr.1 = none

/-- Feedback as it is kept: what is for one codec gives way to what is for all of them. -/
def KeptOf (read kept : List SdpRtcpFb) : Prop :=
  ∀ fb, fb ∈ kept ↔ fb ∈ read ∧
    ∀ w ∈ read, w.payloadType = none → SdpMedia.sameFeedback w fb = true → fb.payloadType = none

/-- **What a section has of its attributes.** -/
structure SdpMedia.Records [NoCaseEq] (m : SdpMedia) (attrs : List (Text × Text)) : Prop where
  attributes : m.attributes = attrs.filter (isOther mediaAttrNames)
  ssrcs : m.ssrcs = attrs.filterMap ssrcOf
  codecs : ∀ pt, m.HasCodec pt ↔ ∃ c ∈ attrs.filterMap rtpmapOf, c.payloadType = pt
  feedback : KeptOf (attrs.filterMap rtcpFbOf) m.rtcpFbs

/-- What the session part has of its attributes. -/
structure SessionDescription.Records [NoCaseEq] (s : SessionDescription)
    (attrs : List (Text × Text)) : Prop where
  attributes : s.attributes = attrs.filter (isOther sessionAttrNames)
  semantic : semanticOf attrs = .ok s.msidSemantic

section Feedback

variable {m : SdpMedia} {new fb : SdpRtcpFb}

/-- **What `add_feedback` makes of the feedback.** -/
theorem mem_addFeedback_iff (hne : new.type ≠ []) :
    fb ∈ (m.addFeedback new).rtcpFbs ↔
      if new.payloadType = none then
        fb = new ∨ fb ∈ m.rtcpFbs ∧ SdpMedia.sameFeedback fb new = false
      else fb ∈ m.rtcpFbs ∨ fb = new ∧
        ∀ f ∈ m.rtcpFbs, SdpMedia.sameFeedback f new = true → f.payloadType ≠ none := by
  rw [SdpMedia.addFeedback, if_neg hne]
  cases hpt : new.payloadType with
  | none =>
    rw [if_pos rfl]
    simp only [List.mem_append, List.mem_filter, List.mem_singleton, Bool.not_eq_true']
    exact or_comm
  | some pt =>
    rw [if_neg (by simp)]
    split
    · rename_i hpt'
      obtain rfl := Option.some.inj hpt'
      split
      · rename_i hany
        obtain ⟨f, hf, hany⟩ := List.any_eq_true.1 hany
        obtain ⟨hsame, hall⟩ := Bool.and_eq_true_iff.1 hany
        refine ⟨Or.inl, ?_⟩
        rintro (h | ⟨rfl, h⟩)
        · exact h
        · -- The feedback that is there is for the same codec: it is the new one.
          obtain ⟨p, hp⟩ := Option.ne_none_iff_exists'.1 (h f hf hsame)
          obtain ⟨htype, hsubtype⟩ := sameFeedback_iff.1 hsame
          have heq : f = fb := by
            rw [hp] at hall
            cases f
            cases fb
            simp_all
          exact heq ▸ hf
      · rename_i hany
        rw [List.mem_append, List.mem_singleton]
        refine or_congr_right ⟨fun h => ⟨h, fun f hf hsame hnone => hany ?_⟩, And.left⟩
        exact List.any_eq_true.2 ⟨f, hf, by simp [hsame, hnone]⟩
    · rename_i hpt'
      cases hpt'

/-- New feedback. -/
theorem KeptOf.add {read : List SdpRtcpFb} (h : KeptOf read m.rtcpFbs) (hne : new.type ≠ []) :
    KeptOf (read ++ [new]) (m.addFeedback new).rtcpFbs := by
  intro fb
  rw [mem_addFeedback_iff hne]
  simp only [List.mem_append, List.mem_singleton, or_imp, forall_and, forall_eq]
  split
  · rename_i hnone
    constructor
    · rintro (rfl | ⟨hfb, hsame⟩)
      · exact ⟨Or.inr rfl, fun _ _ _ _ => hnone, fun _ _ => hnone⟩
      · obtain ⟨hread, hall⟩ := (h fb).1 hfb
        refine ⟨Or.inl hread, hall, fun _ hsame' => ?_⟩
        obtain ⟨htype, hsubtype⟩ := sameFeedback_iff.1 hsame'
        rw [sameFeedback_iff.2 ⟨htype.symm, hsubtype.symm⟩] at hsame
        cases hsame
    · rintro ⟨hread, hall, hnew⟩
      by_cases heq : fb = new
      · exact Or.inl heq
      · refine Or.inr ⟨(h fb).2 ⟨hread.resolve_right heq, hall⟩, ?_⟩
        rw [Bool.eq_false_iff]
        intro hsame
        obtain ⟨htype, hsubtype⟩ := sameFeedback_iff.1 hsame
        have hpt := hnew hnone (sameFeedback_iff.2 ⟨htype.symm, hsubtype.symm⟩)
        refine heq ?_
        cases fb
        cases new
        simp_all
  · rename_i hsome
    constructor
    · rintro (hfb | ⟨rfl, hall⟩)
      · obtain ⟨hread, hall⟩ := (h fb).1 hfb
        exact ⟨Or.inl hread, hall, fun hnone => absurd hnone hsome⟩
      · refine ⟨Or.inr rfl, fun w hw hnone hsame => ?_, fun hnone => absurd hnone hsome⟩
        exact absurd hnone (hall w ((h w).2 ⟨hw, fun _ _ _ _ => hnone⟩) hsame)
    · rintro ⟨hread | rfl, hall, -⟩
      · exact Or.inl ((h fb).2 ⟨hread, hall⟩)
      · exact Or.inr ⟨rfl, fun f hf hsame hnone =>
          hsome (hall f ((h f).1 hf).1 hnone hsame)⟩

end Feedback

variable [NoCaseEq]

section Attributes

variable {m m' : SdpMedia} {s s' : SessionDescription} {name value : Text}
  {attrs : List (Text × Text)}

theorem isOther_iff {known : List Text} {attr : Text × Text} :
    isOther known attr = true ↔ attr.1 ∉ known ∧ parseSdpDirection attr.1 = none := by
  simp [isOther]

/-- An attribute of one of the fields. -/
theorem isOther_eq_false {known : List Text}
    (h : name ∈ known ∨ parseSdpDirection name ≠ none) : isOther known (name, value) = false := by
  rw [Bool.eq_false_iff]
  exact fun hother => h.elim (isOther_iff.1 hother).1 fun h0 => h0 (isOther_iff.1 hother).2

/-- Such an attribute is not kept among those without a field. -/
theorem filter_isOther {known : List Text}
    (h : name ∈ known ∨ parseSdpDirection name ≠ none) :
    [(name, value)].filter (isOther known) = [] := by
  rw [List.filter_singleton, isOther_eq_false h]
  rfl

omit [NoCaseEq] in
theorem filterMap_concat {α β : Type} (f : α → Option β) (l : List α) (a : α) :
    (l ++ [a]).filterMap f = l.filterMap f ++ (f a).toList := by
  rw [List.filterMap_append]
  cases h : f a <;> simp [h]

/-- The attributes without a field behind an attribute. -/
theorem MediaAttr.attributes_eq (h : MediaAttr m value name m') :
    m'.attributes = m.attributes ++ [(name, value)].filter (isOther mediaAttrNames) := by
  have silent {n : Text} (hk : n ∈ mediaAttrNames ∨ parseSdpDirection n ≠ none) :
      m.attributes = m.attributes ++ [(n, value)].filter (isOther mediaAttrNames) := by
    rw [filter_isOther hk, List.append_nil]
  cases h with
  | rtpmap _ => exact (SdpMedia.addRtpmap_attributes ..).trans (silent (Or.inl (by decide)))
  | rtcpFb _ => exact (SdpMedia.addFeedback_attributes ..).trans (silent (Or.inl (by decide)))
  | direction _ h => exact silent (Or.inr (by simp [h]))
  | other hn h =>
    rw [List.filter_singleton, isOther_iff.2 ⟨hn, h⟩]
    rfl
  | _ => exact silent (Or.inl (by decide))

/-- The sources behind an attribute. -/
theorem MediaAttr.ssrcs_eq (h : MediaAttr m value name m') :
    m'.ssrcs = m.ssrcs ++ (ssrcOf (name, value)).toList := by
  have silent {n : Text} (hn : n ≠ "ssrc".toList) :
      m.ssrcs = m.ssrcs ++ (ssrcOf (n, value)).toList := by
    rw [ssrcOf, valueOf_of_ne hn, Option.bind_none, Option.toList_none, List.append_nil]
  cases h with
  | @ssrc a h =>
    have hread : ssrcOf ("ssrc".toList, value) = some a := accepted_ok h
    rw [hread]
    rfl
  | rtpmap _ => exact (SdpMedia.addRtpmap_ssrcs ..).trans (silent (by decide))
  | rtcpFb _ => exact (SdpMedia.addFeedback_ssrcs ..).trans (silent (by decide))
  | direction hn _ => exact silent fun h => hn (h ▸ by decide)
  | other hn _ => exact silent fun h => hn (h ▸ by decide)
  | _ => exact silent (by decide)

/-- The feedback behind an attribute. -/
theorem MediaAttr.feedback (h : MediaAttr m value name m') (hv : Value value)
    {read : List SdpRtcpFb} (hf : KeptOf read m.rtcpFbs) :
    KeptOf (read ++ (rtcpFbOf (name, value)).toList) m'.rtcpFbs := by
  have silent {m' : SdpMedia} {n : Text} (hn : n ≠ "rtcp-fb".toList)
      (hm : m'.rtcpFbs = m.rtcpFbs) :
      KeptOf (read ++ (rtcpFbOf (n, value)).toList) m'.rtcpFbs := by
    rw [rtcpFbOf, valueOf_of_ne hn, Option.bind_none, Option.toList_none, List.append_nil, hm]
    exact hf
  cases h with
  | @rtcpFb fb h =>
    have hread : rtcpFbOf ("rtcp-fb".toList, value) = some fb := accepted_ok h
    rw [hread]
    exact hf.add (yields_some (parseRtcpfb_yields hv) h).type_ne
  | rtpmap _ => exact silent (by decide) (SdpMedia.addRtpmap_rtcpFbs ..)
  | direction hn _ => exact silent (fun h => hn (h ▸ by decide)) rfl
  | other hn _ => exact silent (fun h => hn (h ▸ by decide)) rfl
  | _ => exact silent (by decide) rfl

/-- **What an attribute records in a section.** -/
theorem MediaAttr.records (h : MediaAttr m value name m') (hv : Value value)
    (hm : m.Records attrs) : m'.Records (attrs ++ [(name, value)]) where
  attributes := by rw [h.attributes_eq, hm.attributes, List.filter_append]
  ssrcs := by rw [h.ssrcs_eq, hm.ssrcs, filterMap_concat]
  codecs pt := by
    rw [h.hasCodec_iff, hm.codecs, filterMap_concat]
    simp only [List.mem_append, Option.mem_toList, Option.mem_def, or_and_right, exists_or]
  feedback := by
    rw [filterMap_concat]
    exact h.feedback hv hm.feedback

/-- **What an attribute records in the session part.** -/
theorem SessionAttr.records (h : SessionAttr s value name s') (hs : s.Records attrs) :
    s'.Records (attrs ++ [(name, value)]) := by
  have silent {t : SessionDescription} {n : Text} (hn : n ≠ "msid-semantic".toList)
      (hk : n ∈ sessionAttrNames ∨ parseSdpDirection n ≠ none)
      (ha : t.attributes = s.attributes) (hm : t.msidSemantic = s.msidSemantic) :
      t.Records (attrs ++ [(n, value)]) := by
    refine ⟨?_, ?_⟩
    · rw [ha, hs.attributes, List.filter_append, filter_isOther hk, List.append_nil]
    · have hnone : valueOf "msid-semantic".toList (n, value) = none := if_neg hn
      rw [hm, ← hs.semantic, semanticOf, semanticOf, semanticsOf, filterMap_concat, hnone,
        Option.toList_none, List.append_nil]
      rfl
  cases h with
  | msidSemantic h =>
    refine ⟨?_, ?_⟩
    · rw [List.filter_append, filter_isOther (Or.inl (by decide)), List.append_nil]
      exact hs.attributes
    · have hread :
          valueOf "msid-semantic".toList ("msid-semantic".toList, value) = some value := rfl
      rw [semanticOf, semanticsOf, filterMap_concat, hread, Option.toList_some,
        List.getLast?_concat]
      exact h
  | other hn h =>
    refine ⟨?_, ?_⟩
    · rw [List.filter_append, List.filter_singleton, isOther_iff.2 ⟨hn, h⟩, hs.attributes]
      rfl
    · have hne : name ≠ "msid-semantic".toList := fun heq => hn (by rw [heq]; decide)
      have hnone : valueOf "msid-semantic".toList (name, value) = none := if_neg hne
      rw [semanticOf, semanticsOf, filterMap_concat, hnone, Option.toList_none, List.append_nil]
      exact hs.semantic
  | direction hn h =>
    have hne : name ≠ "msid-semantic".toList := fun heq => hn (by rw [heq]; decide)
    exact silent hne (Or.inr (by simp [h])) rfl rfl
  | _ => exact silent (by decide) (Or.inl (by decide)) rfl rfl

end Attributes

/-! ### The sections -/

section Runs

variable {s s' : SessionDescription} {st st' : ParseState} {line v : Text} {t : Char}
  {ls : List Text} {attrs : List (Text × Text)} {m : SdpMedia}

/-- A new section has no attributes. -/
theorem parseMediaLine_records (h : parseMediaLine v = .ok (some m)) : m.Records [] := by
  obtain ⟨type, port, proto, fmts, -, rfl⟩ := yields_some (parseMediaLine_yields v) h
  exact ⟨rfl, rfl, fun pt => by simp [SdpMedia.HasCodec], fun fb => by simp⟩

/-- A line of the session part. -/
theorem SessionLine.records (h : SessionLine s v t s') (hl : strip line = t :: '=' :: v)
    (hs : s.Records attrs) : s'.Records (attrs ++ (lineAttr line).toList) := by
  have other (ht : t ≠ 'a') (h : s'.attributes = s.attributes ∧ s'.msidSemantic = s.msidSemantic) :
      s'.Records (attrs ++ (lineAttr line).toList) := by
    rw [lineAttr_eq_none hl ht, Option.toList_none, List.append_nil]
    exact ⟨h.1.trans hs.attributes, hs.semantic.trans (congrArg _ h.2.symm)⟩
  cases h with
  | attr h =>
    rw [lineAttr_eq_some hl]
    exact h.records hs
  | other ht => exact other (fun h => ht (by rw [h]; decide)) ⟨rfl, rfl⟩
  | _ => exact other (by decide) ⟨rfl, rfl⟩

/-- **What the lines in front of the sections record.** -/
theorem LineRun.records_front (h : LineRun st ls st') (hin : st.inMedia = false)
    (hm : ∀ l ∈ ls, isMediaLine l = false) (hs : st.session.Records attrs) :
    st'.session.Records (attrs ++ ls.filterMap lineAttr) := by
  induction h generalizing attrs with
  | nil => simpa using hs
  | @cons st st₁ st' line ls h _ ih =>
    obtain ⟨hline, hls⟩ := List.forall_mem_cons.1 hm
    have hstep : st₁.session.Records (attrs ++ (lineAttr line).toList) := by
      rcases h.front_cases hin hline with ⟨hl, rfl⟩ | ⟨t, v, s', hl, hsession, rfl⟩
      · simpa [lineAttr, hl] using hs
      · exact hsession.records hl hs
    rw [filterMap_cons_eq, ← List.append_assoc]
    exact ih (h.front hin hline).1 hls hstep

/-- **What a section records.** -/
theorem SectionRun.records {sec : Text × List Text} (h : SectionRun sec m)
    (hn : ∀ l ∈ sec.2, '\n' ∉ l) : m.Records (sec.2.filterMap lineAttr) := by
  obtain ⟨v, m₀, -, hparse, hrun⟩ := h
  refine hrun.of_attrs (fun hmem hl h hm => ?_) (parseMediaLine_records hparse)
  exact h.records (attrParts_value (value_of_line hl (hn _ hmem))).2.2 hm

/-- **The description of an accepted text.** -/
theorem parseSdp_records {sdp type : Text} {d : SessionDescription}
    (h : parseSdp sdp type = .ok (some d)) :
    d.Records (sectionsOf (lines sdp)).1 ∧
      List.Forall₂ SdpMedia.Records d.medias (sectionsOf (lines sdp)).2 := by
  obtain ⟨-, s, ms, hfront, hrest, -, rfl⟩ := parseSdp_sections_iff.1 h
  have hempty : SessionDescription.Records { sdpType := type } [] := ⟨rfl, rfl⟩
  have hs := hfront.records_front rfl not_media_of_front hempty
  have hn := (forall_sectionLines fun _ => newline_not_mem_lines (s := sdp)).2
  rw [sectionsOf_eq]
  refine ⟨⟨hs.attributes, hs.semantic⟩, List.forall₂_map_right_iff.2 ?_⟩
  clear h hfront hs
  generalize (sectionLines (lines sdp)).2 = secs at hrest hn
  induction hrest with
  | nil => exact .nil
  | cons hsec _ ih =>
    obtain ⟨hline, hrest⟩ := List.forall_mem_cons.1 hn
    exact .cons (hsec.records hline) (ih hrest)

end Runs

/-! ### What is lost -/

/-- Nothing is lost of the attributes of a section: no source and no attribute without a value
ends in whitespace, and feedback for one payload type has its codec, where it is not replaced by
feedback for all of them. -/
@[mk_iff] structure SectionPrintable (attrs : List (Text × Text)) : Prop where
  ssrcs : ∀ a ∈ attrs.filterMap ssrcOf, a.Clean
  attributes : ∀ a ∈ attrs, isOther mediaAttrNames a = true → a.2 = [] → EndsClean a.1
  feedback : ∀ fb ∈ attrs.filterMap rtcpFbOf, ∀ pt ∈ fb.payloadType,
    (∃ w ∈ attrs.filterMap rtcpFbOf, w.payloadType = none ∧ SdpMedia.sameFeedback w fb = true) ∨
      ∃ c ∈ attrs.filterMap rtpmapOf, c.payloadType = pt

/-- **Nothing of a text is lost**: besides, there is a stream behind the last semantics of the
streams. -/
@[mk_iff] structure Printable (sdp : Text) : Prop where
  attributes : ∀ a ∈ (sectionsOf (lines sdp)).1, isOther sessionAttrNames a = true → a.2 = [] →
    EndsClean a.1
  semantic : ∀ v ∈ (semanticsOf (sectionsOf (lines sdp)).1).getLast?, 1 < (words v).length
  sections : ∀ attrs ∈ (sectionsOf (lines sdp)).2, SectionPrintable attrs

instance (attrs : List (Text × Text)) : Decidable (SectionPrintable attrs) :=
  decidable_of_iff _ (sectionPrintable_iff attrs).symm

instance (sdp : Text) : Decidable (Printable sdp) := decidable_of_iff _ (printable_iff sdp).symm

section Printable

variable {m : SdpMedia} {s : SessionDescription} {attrs : List (Text × Text)}

theorem SdpMedia.Records.clean_iff (h : m.Records attrs) : m.Clean ↔ SectionPrintable attrs := by
  have hattrs : (∀ a ∈ m.attributes, a.2 = [] → EndsClean a.1) ↔
      ∀ a ∈ attrs, isOther mediaAttrNames a = true → a.2 = [] → EndsClean a.1 := by
    rw [h.attributes]
    simp only [List.mem_filter, and_imp]
  have hfeedback : (∀ fb ∈ m.rtcpFbs, ∀ pt, fb.payloadType = some pt → m.HasCodec pt) ↔
      ∀ fb ∈ attrs.filterMap rtcpFbOf, ∀ pt, fb.payloadType = some pt →
        (∃ w ∈ attrs.filterMap rtcpFbOf, w.payloadType = none ∧
          SdpMedia.sameFeedback w fb = true) ∨
          ∃ c ∈ attrs.filterMap rtpmapOf, c.payloadType = pt := by
    constructor
    · intro hm fb hfb pt hpt
      by_cases hall : ∃ w ∈ attrs.filterMap rtcpFbOf, w.payloadType = none ∧
          SdpMedia.sameFeedback w fb = true
      · exact Or.inl hall
      · refine Or.inr ((h.codecs pt).1 (hm fb ((h.feedback fb).2 ⟨hfb, ?_⟩) pt hpt))
        exact fun w hw hnone hsame => absurd ⟨w, hw, hnone, hsame⟩ hall
    · intro ht fb hfb pt hpt
      obtain ⟨hread, hall⟩ := (h.feedback fb).1 hfb
      refine (h.codecs pt).2 ((ht fb hread pt hpt).resolve_left ?_)
      rintro ⟨w, hw, hnone, hsame⟩
      rw [hall w hw hnone hsame] at hpt
      cases hpt
  constructor
  · exact fun hc => ⟨h.ssrcs ▸ hc.ssrcs, hattrs.1 hc.attributes, hfeedback.1 hc.feedback⟩
  · exact fun hp => ⟨h.ssrcs.symm ▸ hp.ssrcs, hattrs.2 hp.attributes, hfeedback.2 hp.feedback⟩

theorem SessionDescription.Records.semantic_iff (h : s.Records attrs) :
    (s.msidSemantic = {} ∨ s.msidSemantic.streamIds ≠ []) ↔
      ∀ v ∈ (semanticsOf attrs).getLast?, 1 < (words v).length := by
  have hs := h.semantic
  unfold semanticOf at hs
  cases hlast : (semanticsOf attrs).getLast? with
  | none =>
    rw [hlast] at hs
    exact iff_of_true (Or.inl (Except.ok.inj hs).symm) (by simp)
  | some v =>
    rw [hlast, Option.map_some, Option.getD_some, parseMsidSemantic_eq] at hs
    split at hs
    · cases hs
    · rename_i w ws hw
      have hword : w ≠ [] := by
        have hmem : w ∈ words v := by simp [hw]
        simpa [words] using (List.mem_filter.1 hmem).2
      rw [← Except.ok.inj hs]
      simp [hw, hword, List.length_pos_iff]

/-- **A description is clean where nothing of its text is lost.** -/
theorem clean_iff_printable {sdp type : Text} {d : SessionDescription}
    (h : parseSdp sdp type = .ok (some d)) : d.Clean ↔ Printable sdp := by
  obtain ⟨hs, hms⟩ := parseSdp_records h
  have hattrs : (∀ a ∈ d.attributes, a.2 = [] → EndsClean a.1) ↔
      ∀ a ∈ (sectionsOf (lines sdp)).1, isOther sessionAttrNames a = true → a.2 = [] →
        EndsClean a.1 := by
    rw [hs.attributes]
    simp only [List.mem_filter, and_imp]
  have hmedias : (∀ m ∈ d.medias, m.Clean) ↔
      ∀ attrs ∈ (sectionsOf (lines sdp)).2, SectionPrintable attrs := by
    generalize d.medias = ms at hms
    generalize (sectionsOf (lines sdp)).2 = sections at hms
    induction hms with
    | nil => simp
    | cons hm _ ih => simp only [List.forall_mem_cons, hm.clean_iff, ih]
  constructor
  · exact fun hc => ⟨hattrs.1 hc.attributes, hs.semantic_iff.1 hc.semantic, hmedias.1 hc.medias⟩
  · exact fun hp => ⟨hattrs.2 hp.attributes, hs.semantic_iff.2 hp.semantic, hmedias.2 hp.sections⟩

/-- **When a text is printed as it was read.**  The description of an accepted text comes back from
its own text just where nothing of it is lost. -/
theorem parseSdp_comesBack_iff [LawfulNoCaseEq] {sdp type : Text} {d : SessionDescription}
    (h : parseSdp sdp type = .ok (some d)) : d.ComesBack ↔ Printable sdp :=
  (parseSdp_wellFormed h).1.comesBack_iff.trans (clean_iff_printable h)

end Printable

/-- A section with feedback for its codec. -/
def nackText : Text :=
  "v=0\r\nm=video 9 UDP/TLS/RTP/SAVPF 96\r\na=rtpmap:96 VP8/90000\r\na=rtcp-fb:96 nack\r\n".toList

/-- The same section as a description. -/
def nackDescription : SessionDescription where
  sdpType := "offer".toList
  medias := [{ mediaType := .video, port := 9, proto := .UDP_TLS_RTP_SAVPF
               formats := .payloadTypes [96]
               rtpmaps := [{ payloadType := 96, name := "VP8".toList, clockRate := 90000 }]
               rtcpFbs := [{ payloadType := some 96, type := "nack".toList }] }]

omit [NoCaseEq] in
/-- It comes back. -/
theorem nackDescription_comesBack :
    @parseSdp asciiNoCase nackText "offer".toList = .ok (some nackDescription) ∧
      @SessionDescription.ComesBack asciiNoCase nackDescription := by
  have hparse : @parseSdp asciiNoCase nackText "offer".toList = .ok (some nackDescription) := rfl
  have hiff := @parseSdp_comesBack_iff asciiNoCase asciiNoCase_lawful _ _ _ hparse
  exact ⟨hparse, hiff.2 (by decide)⟩

omit [NoCaseEq] in
/-- **A description that does not come back**: the semantics of the streams without a stream. -/
theorem parseSdp_bareSemantic_lost :
    ∃ d, @parseSdp asciiNoCase "v=0\r\na=msid-semantic: WMS\r\n".toList "offer".toList =
        .ok (some d) ∧
      ¬ @SessionDescription.ComesBack asciiNoCase d := by
  have hparse : @parseSdp asciiNoCase "v=0\r\na=msid-semantic: WMS\r\n".toList "offer".toList =
      .ok (some { sdpType := "offer".toList, msidSemantic := { semantic := "WMS".toList } }) := rfl
  refine ⟨_, hparse, fun h => ?_⟩
  have hwf := (@parseSdp_wellFormed asciiNoCase _ _ _ hparse).1
  have hclean :=
    (@SessionDescription.WellFormed.comesBack_iff _ asciiNoCase asciiNoCase_lawful hwf).1 h
  exact hclean.semantic.elim (by decide) (by decide)

end AsioRtc
