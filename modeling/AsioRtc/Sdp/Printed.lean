/-
# What a printed text can be read as

The lines of `session_description::to_string`, whatever the description loses in them: none of
them has a newline, and what the parser makes of them is clean again
(`WellFormed.printed_clean`).

A line that is no media line and no feedback for one codec keeps a description clean by
itself (`Harmless`, `LineStep.clean`).  Feedback for one codec does so behind the line of
its codec (`Ready`), and this is where it is printed (`codecLines_clean`).
-/

import AsioRtc.Sdp.Reparse
import AsioRtc.Sdp.SectionRuns

namespace AsioRtc

open Lib Text

/-! ### Lines that keep a description clean -/

/-- An attribute that keeps a description clean, in a section or in the session part. -/
structure HarmlessAttr (inMedia : Bool) (name value : Text) : Prop where
  ends : value = [] → EndsClean name
  ssrc : inMedia = true → name = "ssrc".toList →
    ∀ a, parseSsrc value = .ok (some a) → a.Clean
  feedback : inMedia = true → name = "rtcp-fb".toList →
    ∀ fb, parseRtcpfb value = .ok (some fb) → fb.payloadType = none
  semantic : inMedia = false → name = "msid-semantic".toList →
    ∀ a, parseMsidSemantic value = .ok a → a.streamIds ≠ []

/-- A line that keeps a description clean. -/
structure Harmless (inMedia : Bool) (line : Text) : Prop where
  newline : '\n' ∉ line
  media : ∀ v, strip line ≠ 'm' :: '=' :: v
  attr : ∀ v, strip line = 'a' :: '=' :: v →
    HarmlessAttr inMedia (attrParts v).1 (attrParts v).2

section Attributes

variable {inMedia : Bool} {name value : Text}

/-- An attribute of another name. -/
theorem harmlessAttr_other (he : EndsClean name)
    (hn : name ∉ ["ssrc", "rtcp-fb", "msid-semantic"].map String.toList) :
    HarmlessAttr inMedia name value := by
  simp only [List.map_cons, List.map_nil, List.mem_cons, List.not_mem_nil, not_or, or_false] at hn
  exact ⟨fun _ => he, fun _ h => absurd h hn.1, fun _ h => absurd h hn.2.1,
    fun _ h => absurd h hn.2.2⟩

/-- Without a value an attribute is not accepted under these names. -/
theorem harmlessAttr_nil (he : EndsClean name) : HarmlessAttr inMedia name [] where
  ends _ := he
  ssrc _ _ a h := by
    have hnone : parseSsrc [] = .ok none := rfl
    rw [hnone] at h
    cases h
  feedback _ _ fb h := by
    have hnone : parseRtcpfb [] = .ok none := rfl
    rw [hnone] at h
    cases h
  semantic _ _ a h := by
    rw [parseMsidSemantic_eq] at h
    cases h

/-- The line of an attribute with a value. -/
theorem harmless_attrLine (hc : ':' ∉ name) (hn : '\n' ∉ name) (hv : Value value)
    (h : HarmlessAttr inMedia name value) : Harmless inMedia (attrLine name value) where
  newline := by simp [attrLine, hn, hv.newline]
  media v hl := by
    rw [strip_attrLine hv] at hl
    cases hl
  attr v hl := by
    rw [strip_attrLine hv] at hl
    obtain rfl := (List.cons.inj (List.cons.inj hl).2).2
    rw [attrParts_append hc]
    exact h

/-- The line of an attribute without a value: what is left of its name ends clean. -/
theorem harmless_flagLine (hc : ':' ∉ name) (hn : '\n' ∉ name) :
    Harmless inMedia (flagLine name) where
  newline := by simp [flagLine, hn]
  media v hl := by
    rw [flagLine, strip_cons_cons (by decide)] at hl
    cases hl
  attr v hl := by
    have hend : EndsClean v := (value_of_line hl (by simp [flagLine, hn])).ends
    have hmem : ':' ∉ v := by
      rw [flagLine, strip_cons_cons (by decide)] at hl
      obtain rfl := (List.cons.inj (List.cons.inj hl).2).2
      exact fun hm => hc ((List.rdropWhile_prefix _ _).subset hm)
    rw [attrParts_of_not_mem hmem]
    exact harmlessAttr_nil hend

/-- A line of another type. -/
theorem harmless_line {t : Char} (ht : isSpace t = false) (ha : t ≠ 'a') (hm : t ≠ 'm')
    (hn : '\n' ∉ value) : Harmless inMedia (t :: '=' :: value) where
  newline := by
    have hnt : '\n' ≠ t := fun h => by
      rw [← h] at ht
      cases ht
    simp [hn, hnt]
  media v hl := by
    rw [strip_cons_cons ht] at hl
    exact hm (List.cons.inj hl).1
  attr v hl := by
    rw [strip_cons_cons ht] at hl
    exact absurd (List.cons.inj hl).1 ha

/-- An attribute without a field of its own. -/
theorem harmless_attributeLine [NoCaseEq] {known : List Text} {attr : Text × Text}
    (h : OtherAttr known attr)
    (hmedia : inMedia = true → "ssrc".toList ∈ known ∧ "rtcp-fb".toList ∈ known)
    (hsession : inMedia = false → "msid-semantic".toList ∈ known) :
    Harmless inMedia (attributeLine attr) := by
  by_cases hv : attr.2 = []
  · rw [attributeLine, hv, optPart_nil, List.append_nil]
    exact harmless_flagLine h.colon h.newline
  · rw [attributeLine, optPart_of_ne _ hv]
    refine harmless_attrLine h.colon h.newline h.value ⟨fun hnil => absurd hnil hv, ?_, ?_, ?_⟩
    · exact fun hm heq => absurd (heq ▸ (hmedia hm).1) h.unknown
    · exact fun hm heq => absurd (heq ▸ (hmedia hm).2) h.unknown
    · exact fun hs heq => absurd (heq ▸ hsession hs) h.unknown

/-- The line of a source.  One that loses something has no value, so there is no colon behind its
number. -/
theorem harmless_ssrc {a : SdpSsrc} (ha : a.WellFormed) :
    Harmless true (attrLine "ssrc".toList a.text) := by
  by_cases hclean : a.Clean
  · refine harmless_attrLine (by decide) (by decide) (ha.value_text hclean)
      ⟨fun _ => by decide, fun _ _ b hb => ?_, fun _ h => absurd h (by decide), fun h => by cases h⟩
    rw [ha.parse_text] at hb
    rw [← Option.some.inj (Except.ok.inj hb)]
    exact hclean
  · have hvalue : a.value = [] := (Classical.not_imp.1 hclean).1
    have htext : ':' ∉ a.text := by
      have hnum : ':' ∉ toText a.ssrc.toNat := not_mem_toText (by decide) _
      simp [SdpSsrc.text_eq, hvalue, hnum, ha.colon]
    have hnl : '\n' ∉ attrLine "ssrc".toList a.text := by
      simp [attrLine, ha.newline_text]
    refine ⟨hnl, fun v hl => ?_, fun v hl => ?_⟩
    · rw [attrLine, strip_cons_cons (by decide)] at hl
      cases hl
    · have hend : EndsClean v := (value_of_line hl hnl).ends
      rw [attrLine, strip_cons_cons (by decide), rdropWhile_append_cons (by decide)] at hl
      obtain rfl := (List.cons.inj (List.cons.inj hl).2).2
      have htrimmed : ':' ∉ a.text.rdropWhile isSpace :=
        fun hm => htext ((List.rdropWhile_prefix _ _).subset hm)
      rw [attrParts_append (by decide)]
      change HarmlessAttr true "ssrc".toList _
      refine ⟨fun _ => by decide, fun _ _ b hb => ?_, fun _ h => absurd h (by decide),
        fun h => by cases h⟩
      exact parseSsrc_clean (endsClean_rdropWhile _) htrimmed hb

end Attributes

/-! ### One line -/

section Steps

variable [NoCaseEq] {m m' : SdpMedia} {s s' : SessionDescription} {name value line : Text}
  {st st' : ParseState} {ls : List Text}

omit [NoCaseEq] in
/-- A codec is found where there is one. -/
theorem findRtpmap_isSome_iff {pt : U8} : (m.findRtpmap pt).isSome = true ↔ m.HasCodec pt := by
  simp [SdpMedia.findRtpmap, SdpMedia.HasCodec, List.find?_isSome]

/-- The codecs behind an attribute. -/
theorem MediaAttr.hasCodec_iff (h : MediaAttr m value name m') {pt : U8} :
    m'.HasCodec pt ↔ m.HasCodec pt ∨ ∃ c ∈ rtpmapOf (name, value), c.payloadType = pt := by
  have silent {m' : SdpMedia} {n : Text} (hn : n ≠ "rtpmap".toList) (hm : m'.rtpmaps = m.rtpmaps) :
      m'.HasCodec pt ↔ m.HasCodec pt ∨ ∃ c ∈ rtpmapOf (n, value), c.payloadType = pt := by
    rw [rtpmapOf, valueOf_of_ne hn, Option.bind_none, SdpMedia.HasCodec, hm]
    simp [SdpMedia.HasCodec]
  cases h with
  | @rtpmap c h =>
    have hread : rtpmapOf ("rtpmap".toList, value) = some c := accepted_ok h
    rw [hread]
    simp only [Option.mem_some_iff, exists_eq_left']
    unfold SdpMedia.addRtpmap
    split
    · rename_i hfind
      refine ⟨Or.inl, fun h => h.elim id fun heq => ?_⟩
      exact heq ▸ findRtpmap_isSome_iff.1 hfind
    · simp [SdpMedia.HasCodec, or_and_right, exists_or]
  | fmtp hcut hp h =>
    obtain ⟨pre, d, post, hsplit, rfl, hpre⟩ := exists_of_findRtpmap h
    have hnone : rtpmapOf ("fmtp".toList, value) = none := rfl
    rw [hnone, SdpMedia.HasCodec, SdpMedia.HasCodec, setParams_eq _ hsplit hpre, hsplit]
    simp [or_and_right, exists_or]
  | rtcpFb h => exact silent (by decide) (by simp)
  | direction hn h => exact silent (fun h => hn (h ▸ by decide)) rfl
  | other hn h => exact silent (fun h => hn (h ▸ by decide)) rfl
  | _ => exact silent (by decide) rfl

omit [NoCaseEq] in
/-- Feedback that a section may take. -/
theorem SdpMedia.Clean.addFeedback {fb : SdpRtcpFb} (hm : m.Clean)
    (hfb : ∀ pt, fb.payloadType = some pt → m.HasCodec pt) : (m.addFeedback fb).Clean := by
  have hfeedback : ∀ f ∈ (m.addFeedback fb).rtcpFbs, ∀ pt, f.payloadType = some pt →
      m.HasCodec pt := by
    intro f hf pt hpt
    rcases mem_addFeedback hf with rfl | hf
    · exact hfb pt hpt
    · exact hm.feedback f hf pt hpt
  rw [m.addFeedback_frame fb]
  exact ⟨hm.ssrcs, hm.attributes, hfeedback⟩

/-- An attribute that keeps a section clean. -/
theorem MediaAttr.clean (h : MediaAttr m value name m') (hl : HarmlessAttr true name value)
    (hm : m.Clean) : m'.Clean := by
  have hcodec : ∀ fb ∈ m.rtcpFbs, ∀ pt, fb.payloadType = some pt → m'.HasCodec pt :=
    fun fb hfb pt hpt => h.hasCodec_iff.2 (Or.inl (hm.feedback fb hfb pt hpt))
  cases h with
  | rtpmap h =>
    refine ⟨?_, ?_, ?_⟩
    · rw [SdpMedia.addRtpmap]
      split <;> exact hm.ssrcs
    · rw [SdpMedia.addRtpmap]
      split <;> exact hm.attributes
    · have hfbs : ∀ c, (m.addRtpmap c).rtcpFbs = m.rtcpFbs := fun c => by
        rw [SdpMedia.addRtpmap]
        split <;> rfl
      rw [hfbs]
      exact hcodec
  | fmtp hcut hp h => exact ⟨hm.ssrcs, hm.attributes, hcodec⟩
  | rtcpFb h =>
    refine hm.addFeedback fun pt hpt => ?_
    rw [hl.feedback rfl rfl _ h] at hpt
    cases hpt
  | ssrc h => exact ⟨forall_mem_concat hm.ssrcs (hl.ssrc rfl rfl _ h), hm.attributes, hcodec⟩
  | other hn h => exact ⟨hm.ssrcs, forall_mem_concat hm.attributes hl.ends, hcodec⟩
  | _ => exact ⟨hm.ssrcs, hm.attributes, hcodec⟩

/-- An attribute that keeps a description clean. -/
theorem SessionAttr.clean (h : SessionAttr s value name s') (hl : HarmlessAttr false name value)
    (hs : s.Clean) : s'.Clean := by
  cases h with
  | msidSemantic h =>
    exact ⟨hs.attributes, Or.inr (hl.semantic rfl rfl _ h), hs.medias⟩
  | other hn h => exact ⟨forall_mem_concat hs.attributes hl.ends, hs.semantic, hs.medias⟩
  | _ => exact ⟨hs.attributes, hs.semantic, hs.medias⟩

/-- **A line that keeps a description clean.** -/
theorem LineStep.clean (h : LineStep st line st') (hl : Harmless st.inMedia line)
    (hst : st.session.Clean) : st'.inMedia = st.inMedia ∧ st'.session.Clean := by
  cases h with
  | blank h => exact ⟨rfl, hst⟩
  | media hm hcheck h => exact absurd hm (hl.media _)
  | @attr v ms m m' ha hin hm h =>
    have hms := hst.medias
    rw [hm] at hms
    have hattr := hl.attr v ha
    rw [hin] at hattr
    have hm' : m'.Clean := h.clean hattr (hms m (by simp))
    exact ⟨rfl, hst.attributes, hst.semantic,
      forall_mem_concat (fun x hx => hms x (List.mem_append_left _ hx)) hm'⟩
  | ignored ha ht hne hin hm => exact ⟨rfl, hst⟩
  | @session t v s' ha ht hin h =>
    refine ⟨rfl, ?_⟩
    cases h with
    | attr h =>
      have hattr := hl.attr v ha
      rw [hin] at hattr
      exact h.clean hattr hst
    | _ => exact ⟨hst.attributes, hst.semantic, hst.medias⟩

/-- Lines that keep a description clean. -/
theorem LineRun.clean (h : LineRun st ls st') (hl : ∀ line ∈ ls, Harmless st.inMedia line)
    (hst : st.session.Clean) : st'.inMedia = st.inMedia ∧ st'.session.Clean :=
  h.invariant (P := fun st₁ => st₁.inMedia = st.inMedia ∧ st₁.session.Clean)
    (fun hmem hstep ⟨hin, hclean⟩ => by
      have hnext := hstep.clean (hin.symm ▸ hl _ hmem) hclean
      exact ⟨hnext.1.trans hin, hnext.2⟩) ⟨rfl, hst⟩

end Steps

/-! ### The lines of a codec -/

section Codecs

variable [NoCaseEq] {m m₁ m₂ : SdpMedia} {name value : Text} {st st' : ParseState} {pt : U8}

/-- An attribute makes one section of another. -/
theorem MediaAttr.unique (h₁ : MediaAttr m value name m₁) (h₂ : MediaAttr m value name m₂) :
    m₁ = m₂ :=
  Option.some.inj (Except.ok.inj (h₁.apply.symm.trans h₂.apply))

/-- The line of an attribute in a section. -/
theorem LineStep.of_attrLine (h : LineStep st (attrLine name value) st') (hin : st.inMedia = true)
    (hc : ':' ∉ name) (hv : Value value) : ∃ ms m m', st.session.medias = ms ++ [m] ∧
      MediaAttr m value name m' ∧ st' = { st with session.medias := ms ++ [m'] } := by
  have hline : strip (attrLine name value) = 'a' :: '=' :: (name ++ ':' :: value) :=
    strip_attrLine hv
  cases h with
  | blank h =>
    rw [hline] at h
    cases h
  | media hl hcheck h =>
    rw [hline] at hl
    cases hl
  | @attr v ms m m' hl hin hm h =>
    rw [hline] at hl
    obtain rfl := (List.cons.inj (List.cons.inj hl).2).2
    rw [attrParts_append hc] at h
    exact ⟨ms, m, m', hm, h, rfl⟩
  | ignored hl ht ha hin hm =>
    rw [hline] at hl
    exact absurd (List.cons.inj hl).1.symm ha
  | session hl ht hfront h =>
    rw [hin] at hfront
    cases hfront

/-- The parser is in a section that has the codec. -/
structure Ready (pt : U8) (st : ParseState) : Prop where
  inMedia : st.inMedia = true
  clean : st.session.Clean
  codec : ∀ m ∈ st.session.medias.getLast?, m.HasCodec pt

/-- An attribute behind the codec. -/
theorem Ready.attr (hst : Ready pt st) (h : LineStep st (attrLine name value) st')
    (hc : ':' ∉ name) (hv : Value value)
    (hclean : ∀ m m' : SdpMedia, MediaAttr m value name m' → m.Clean → m.HasCodec pt → m'.Clean) :
    Ready pt st' := by
  obtain ⟨ms, m, m', hm, hattr, rfl⟩ := h.of_attrLine hst.inMedia hc hv
  have hms := hst.clean.medias
  have hcodec := hst.codec m (by simp [hm])
  rw [hm] at hms
  have hm' : m'.Clean := hclean m m' hattr (hms m (by simp)) hcodec
  refine ⟨hst.inMedia, ⟨hst.clean.attributes, hst.clean.semantic,
    forall_mem_concat (fun x hx => hms x (List.mem_append_left _ hx)) hm'⟩, fun x hx => ?_⟩
  simp only [List.getLast?_concat, Option.mem_some_iff] at hx
  exact hx ▸ hattr.hasCodec_iff.2 (Or.inl hcodec)

omit [NoCaseEq] in
/-- A codec that is added is there. -/
theorem hasCodec_addRtpmap (m : SdpMedia) (c : SdpRtpmap) :
    (m.addRtpmap c).HasCodec c.payloadType := by
  unfold SdpMedia.addRtpmap
  split
  · rename_i hfind
    obtain ⟨pre, d, post, hsplit, hpt, -⟩ := exists_of_findRtpmap hfind
    exact ⟨d, by simp [hsplit], hpt⟩
  · exact ⟨c, List.mem_append_right _ (List.mem_singleton_self c), rfl⟩

/-- Behind the line of a codec. -/
theorem ready_of_rtpmap {c : SdpRtpmap} (hc : c.WellFormed)
    (h : LineStep st (attrLine "rtpmap".toList c.text) st') (hin : st.inMedia = true)
    (hst : st.session.Clean) : Ready c.payloadType st' := by
  obtain ⟨ms, m, m', hm, hattr, rfl⟩ := h.of_attrLine hin (by decide) hc.value_text
  have hms := hst.medias
  rw [hm] at hms
  have hm' : m'.Clean :=
    hattr.clean (harmlessAttr_other (by decide) (by decide)) (hms m (by simp))
  refine ⟨hin, ⟨hst.attributes, hst.semantic,
    forall_mem_concat (fun x hx => hms x (List.mem_append_left _ hx)) hm'⟩, fun x hx => ?_⟩
  simp only [List.getLast?_concat, Option.mem_some_iff] at hx
  rw [← hx, hattr.unique (.rtpmap hc.parse_text)]
  exact hasCodec_addRtpmap _ _

/-- **The lines of a codec.** -/
theorem SdpMedia.WellFormed.codecLines_clean (hm : m.WellFormed)
    (h : LineRun st (m.codecLines pt) st') (hin : st.inMedia = true) (hst : st.session.Clean) :
    st'.inMedia = true ∧ st'.session.Clean := by
  unfold SdpMedia.codecLines at h
  split at h
  · cases h
    exact ⟨hin, hst⟩
  · rename_i c hfind
    obtain rfl : c.payloadType = pt := by simpa using List.find?_some hfind
    have hc : c.WellFormed := hm.rtpmaps c (List.mem_of_find?_eq_some hfind)
    obtain ⟨st₂, h₂, hfeedback⟩ := h.of_append
    obtain ⟨st₁, h₁, hfmtp⟩ := h₂.of_append
    have hready : Ready c.payloadType st₁ := by
      cases h₁ with
      | cons h₁ hr =>
        cases hr
        exact ready_of_rtpmap hc h₁ hin hst
    have hparams : Ready c.payloadType st₂ := by
      refine hfmtp.invariant (fun hmem hstep hready => ?_) hready
      unfold AsioRtc.lineIf at hmem
      split at hmem
      · rename_i hne
        obtain rfl := List.mem_singleton.1 hmem
        have hv : Value (toText c.payloadType.toNat ++ ' ' :: c.params) :=
          .append_cons (not_mem_toText (by decide) _) (by decide) hc.params.toValue hne
        exact hready.attr hstep (by decide) hv fun _ _ hattr hclean _ =>
          hattr.clean (harmlessAttr_other (by decide) (by decide)) hclean
      · exact absurd hmem List.not_mem_nil
    have hlast : Ready c.payloadType st' := by
      refine hfeedback.invariant (fun hmem hstep hready => ?_) hparams
      obtain ⟨fb, hfb, rfl⟩ := List.mem_map.1 hmem
      obtain ⟨hfb, hpt⟩ := mem_feedbackFor.1 hfb
      have hwf := hm.rtcpFbs fb hfb
      refine hready.attr hstep (by decide) hwf.value_text fun m m' hattr hclean hcodec => ?_
      obtain rfl := hattr.unique (.rtcpFb hwf.parse_text)
      refine hclean.addFeedback fun pt h => ?_
      rw [hpt] at h
      exact Option.some.inj h ▸ hcodec
    exact ⟨hlast.inMedia, hlast.clean⟩

end Codecs

/-! ### The lines of a description -/

section Lines

variable [NoCaseEq] {inMedia : Bool} {m : SdpMedia} {name value line : Text}

/-- A name in front of its value that says nothing by itself. -/
def PlainName (name : Text) : Prop :=
  ':' ∉ name ∧ '\n' ∉ name ∧ EndsClean name ∧
    name ∉ ["ssrc", "rtcp-fb", "msid-semantic"].map String.toList

/-- Whether a name is plain is decided by the name. -/
instance (name : Text) : Decidable (PlainName name) :=
  inferInstanceAs (Decidable (_ ∧ _ ∧ _ ∧ _))

omit [NoCaseEq] in
/-- An attribute of a plain name sets no codec and no parameters. -/
theorem harmless_plain (h : PlainName name) (hv : Value value) :
    Harmless inMedia (attrLine name value) :=
  harmless_attrLine h.1 h.2.1 hv (harmlessAttr_other h.2.2.1 h.2.2.2)

omit [NoCaseEq] in
/-- A line under a condition is harmless if the line is. -/
theorem harmless_lineIf {p : Prop} [Decidable p] (h : p → Harmless inMedia line) :
    ∀ l ∈ lineIf p line, Harmless inMedia l := by
  intro l hl
  unfold lineIf at hl
  split at hl
  · exact List.mem_singleton.1 hl ▸ h ‹_›
  · exact absurd hl List.not_mem_nil

omit [NoCaseEq] in
/-- The options of ICE are harmless. -/
theorem harmless_iceOptions {ws : List Text} (hw : Words ws) :
    ∀ l ∈ lineIf (ws ≠ []) (iceOptionsLine ws), Harmless inMedia l := by
  refine harmless_lineIf fun hne => ?_
  obtain ⟨w, ws, rfl⟩ := List.exists_cons_of_ne_nil hne
  rw [iceOptionsLine, intercalate_cons_eq]
  exact harmless_plain (by decide) hw.value_append_spaced

omit [NoCaseEq] in
/-- A candidate is harmless. -/
theorem harmless_candidate {c : Text} (hc : CandidateText c) : Harmless inMedia (flagLine c) := by
  obtain ⟨v, rfl, hv⟩ := hc
  exact harmless_plain (by decide : PlainName "candidate".toList) hv

omit [NoCaseEq] in
/-- A direction is harmless. -/
theorem harmless_direction (d : SdpDirection) : Harmless inMedia (flagLine d.toString) := by
  cases d <;> exact harmless_flagLine (by decide) (by decide)

omit [NoCaseEq] in
/-- A flag of a plain name is harmless. -/
theorem harmless_flag (h : PlainName name) {p : Prop} [Decidable p] :
    ∀ l ∈ lineIf p (flagLine name), Harmless inMedia l :=
  harmless_lineIf fun _ => harmless_flagLine h.1 h.2.1

namespace SdpMedia.WellFormed

/-- The lines of the transport are harmless. -/
theorem harmless_transport (hm : m.WellFormed) : ∀ l ∈ m.transportLines, Harmless true l := by
  simp only [SdpMedia.transportLines, List.forall_mem_append, List.forall_mem_map]
  refine ⟨⟨⟨⟨⟨⟨⟨⟨⟨⟨?_, ?_⟩, ?_⟩, ?_⟩, ?_⟩, ?_⟩, ?_⟩, ?_⟩, ?_⟩, ?_⟩, ?_⟩
  · exact harmless_lineIf fun _ => harmless_plain (by decide) hm.iceUfrag.toValue
  · exact harmless_lineIf fun _ => harmless_plain (by decide) hm.icePwd.toValue
  · exact harmless_iceOptions hm.iceOptions.words
  · exact fun c hc => harmless_candidate (hm.candidates c hc)
  · exact fun a ha => harmless_plain (by decide) (hm.fingerprints a ha).value_text
  · exact fun role _ => harmless_plain (by decide) role.token.trimmed.toValue
  · exact harmless_flag (by decide)
  · exact harmless_flag (by decide)
  · exact harmless_flag (by decide)
  · exact harmless_flag (by decide)
  · exact fun a ha => harmless_plain (by decide) (hm.rtcp a (Option.mem_toList.1 ha)).value_text

/-- The lines of the streams are harmless. -/
theorem harmless_streams (hm : m.WellFormed) : ∀ l ∈ m.streamLines, Harmless true l := by
  simp only [SdpMedia.streamLines, List.forall_mem_append, List.forall_mem_map]
  refine ⟨⟨⟨⟨⟨⟨⟨⟨?_, ?_⟩, ?_⟩, ?_⟩, ?_⟩, ?_⟩, ?_⟩, ?_⟩, ?_⟩
  · exact fun a ha => harmless_ssrc (hm.ssrcs a ha)
  · exact fun a ha => harmless_plain (by decide) (hm.ssrcGroups a ha).value_text
  · exact fun a ha => harmless_plain (by decide) (hm.cryptos a ha).value_text
  · exact fun port _ => harmless_plain (by decide) (token_toText _).trimmed.toValue
  · exact fun size _ => harmless_plain (by decide) (token_toText _).trimmed.toValue
  · exact harmless_lineIf fun hne => harmless_plain (by decide) (hm.simulcast.value_text hne)
  · exact fun a ha => harmless_plain (by decide) (hm.rids a ha).value_text
  · exact harmless_flag (by decide)
  · exact fun a ha => harmless_attributeLine (hm.attributes a ha) (fun _ => by decide)
      fun h => by cases h

/-- The lines in front of the codecs. -/
theorem harmless_front (hm : m.WellFormed) :
    ∀ l ∈ [flagLine m.direction.toString] ++ lineIf (m.mid ≠ []) (attrLine "mid".toList m.mid) ++
      (m.msids.map fun msid => attrLine "msid".toList msid.text) ++ m.transportLines ++
        (m.extmaps.map fun em => attrLine "extmap".toList em.text), Harmless true l := by
  simp only [List.forall_mem_append, List.forall_mem_map, List.forall_mem_singleton]
  refine ⟨⟨⟨⟨?_, ?_⟩, ?_⟩, hm.harmless_transport⟩, ?_⟩
  · exact harmless_direction m.direction
  · exact harmless_lineIf fun _ => harmless_plain (by decide) hm.mid.toValue
  · exact fun a ha => harmless_plain (by decide) (hm.msids a ha).value_text
  · exact fun a ha => harmless_plain (by decide) (hm.extmaps a ha).value_text

/-- The lines behind them. -/
theorem harmless_back (hm : m.WellFormed) :
    ∀ l ∈ (m.feedbackForAll.map fun fb => attrLine "rtcp-fb".toList fb.text) ++ m.streamLines,
      Harmless true l := by
  simp only [List.forall_mem_append, List.forall_mem_map]
  refine ⟨fun fb hfb => ?_, hm.harmless_streams⟩
  obtain ⟨hfb, hnone⟩ := mem_feedbackForAll.1 hfb
  have hwf := hm.rtcpFbs fb hfb
  refine harmless_attrLine (by decide) (by decide) hwf.value_text
    ⟨fun _ => by decide, fun _ h => absurd h (by decide), fun _ _ f hf => ?_, fun h => by cases h⟩
  rw [hwf.parse_text] at hf
  rw [← Option.some.inj (Except.ok.inj hf)]
  exact hnone

/-- The lines of a section around those of its codecs. -/
theorem toLines_split (hm : m.WellFormed) : m.toLines = m.mediaLine ::
    (([flagLine m.direction.toString] ++ lineIf (m.mid ≠ []) (attrLine "mid".toList m.mid) ++
      (m.msids.map fun msid => attrLine "msid".toList msid.text) ++ m.transportLines ++
        (m.extmaps.map fun em => attrLine "extmap".toList em.text)) ++
      (m.payloadTypes.flatMap m.codecLines ++
        ((m.feedbackForAll.map fun fb => attrLine "rtcp-fb".toList fb.text) ++ m.streamLines))) := by
  rw [hm.toLines_eq, SdpMedia.bodyLines, SdpMedia.codecsLines, SdpMedia.feedbackForAll]
  simp only [List.append_assoc]

/-- The first line of a section is one line. -/
theorem newline_mediaLine (hm : m.WellFormed) : '\n' ∉ m.mediaLine := by
  rw [mediaLine_eq]
  simp [hm.value_mediaLine.newline]

/-- The lines of a codec are one line each. -/
theorem newline_codecLines (hm : m.WellFormed) (pt : U8) : ∀ l ∈ m.codecLines pt, '\n' ∉ l := by
  unfold SdpMedia.codecLines
  split
  · exact fun l hl => absurd hl List.not_mem_nil
  · rename_i c hfind
    have hc : c.WellFormed := hm.rtpmaps c (List.mem_of_find?_eq_some hfind)
    have hnum : '\n' ∉ toText pt.toNat := not_mem_toText (by decide) _
    have hrtpmap : '\n' ∉ attrLine "rtpmap".toList c.text := by
      simp [attrLine, hc.value_text.newline]
    have hfmtp : '\n' ∉ attrLine "fmtp".toList (toText pt.toNat ++ ' ' :: c.params) := by
      simp [attrLine, hnum, hc.params.newline]
    simp only [List.forall_mem_append, List.forall_mem_map, List.forall_mem_singleton]
    refine ⟨⟨hrtpmap, fun l hl => ?_⟩, fun fb hfb => ?_⟩
    · unfold AsioRtc.lineIf at hl
      split at hl
      · exact List.mem_singleton.1 hl ▸ hfmtp
      · exact absurd hl List.not_mem_nil
    · have hwf := hm.rtcpFbs fb (mem_feedbackFor.1 hfb).1
      simp [attrLine, hwf.value_text.newline]

/-- No line of a section has a newline. -/
theorem newline_toLines (hm : m.WellFormed) : ∀ l ∈ m.toLines, '\n' ∉ l := by
  have hcodecs : ∀ l ∈ m.payloadTypes.flatMap m.codecLines, '\n' ∉ l := fun l hl => by
    obtain ⟨pt, -, hl⟩ := List.mem_flatMap.1 hl
    exact hm.newline_codecLines pt l hl
  rw [hm.toLines_split]
  exact List.forall_mem_cons.2 ⟨hm.newline_mediaLine, List.forall_mem_append.2
    ⟨fun l hl => (hm.harmless_front l hl).newline, List.forall_mem_append.2
      ⟨hcodecs, fun l hl => (hm.harmless_back l hl).newline⟩⟩⟩

/-- The media line begins a section that is clean. -/
theorem mediaLine_clean (hm : m.WellFormed) {st st' : ParseState} (h : LineStep st m.mediaLine st')
    (hst : st.session.Clean) : st'.inMedia = true ∧ st'.session.Clean := by
  have hline : strip m.mediaLine = 'm' :: '=' :: (m.mediaType.toString ++
      spaced (toText m.port.toNat :: m.proto.toString :: m.formatTexts)) := by
    rw [mediaLine_eq]
    exact strip_line (by decide) hm.value_mediaLine.ends
  cases h with
  | blank h =>
    rw [hline] at h
    cases h
  | @media v new hl hcheck h =>
    obtain ⟨type, port, proto, fmts, -, rfl⟩ := yields_some (parseMediaLine_yields v) h
    exact ⟨rfl, hst.attributes, hst.semantic,
      forall_mem_concat hst.medias ⟨by simp, by simp, by simp⟩⟩
  | attr hl hin hms h =>
    rw [hline] at hl
    cases hl
  | ignored hl ht ha hin hms =>
    rw [hline] at hl
    exact absurd (List.cons.inj hl).1.symm ht
  | session hl ht hin h =>
    rw [hline] at hl
    exact absurd (List.cons.inj hl).1.symm ht

/-- The lines of all codecs. -/
theorem allCodecLines_clean (hm : m.WellFormed) (pts : List U8) {st st' : ParseState}
    (h : LineRun st (pts.flatMap m.codecLines) st') (hin : st.inMedia = true)
    (hst : st.session.Clean) : st'.inMedia = true ∧ st'.session.Clean := by
  induction pts generalizing st with
  | nil =>
    cases h
    exact ⟨hin, hst⟩
  | cons pt pts ih =>
    rw [List.flatMap_cons] at h
    obtain ⟨st₁, hpt, hpts⟩ := h.of_append
    obtain ⟨hin₁, hst₁⟩ := hm.codecLines_clean hpt hin hst
    exact ih hpts hin₁ hst₁

/-- **The lines of a section.** -/
theorem toLines_clean (hm : m.WellFormed) {st st' : ParseState} (h : LineRun st m.toLines st')
    (hst : st.session.Clean) : st'.inMedia = true ∧ st'.session.Clean := by
  rw [hm.toLines_split] at h
  cases h with
  | @cons _ st₁ _ _ _ hmedia h =>
    obtain ⟨st₂, hfront, h⟩ := h.of_append
    obtain ⟨st₃, hcodecs, hback⟩ := h.of_append
    obtain ⟨hin₁, hst₁⟩ := hm.mediaLine_clean hmedia hst
    obtain ⟨hin₂, hst₂⟩ := hfront.clean (hin₁ ▸ hm.harmless_front) hst₁
    obtain ⟨hin₃, hst₃⟩ := hm.allCodecLines_clean m.payloadTypes hcodecs (hin₂.trans hin₁) hst₂
    obtain ⟨hin₄, hst₄⟩ := hback.clean (hin₃ ▸ hm.harmless_back) hst₃
    exact ⟨hin₄.trans hin₃, hst₄⟩

end SdpMedia.WellFormed

namespace SessionDescription.WellFormed

variable {d : SessionDescription}

/-- The lines of the session part are harmless. -/
theorem harmless_sessionLines (hd : d.WellFormed) :
    ∀ l ∈ d.sessionLines, Harmless false l := by
  have hnum : ∀ n, '\n' ∉ toText n := fun n => not_mem_toText (by decide) n
  simp only [SessionDescription.sessionLines, List.forall_mem_append, List.forall_mem_map,
    List.forall_mem_cons]
  refine ⟨⟨⟨⟨⟨⟨⟨?_, ?_, ?_, ?_⟩, ?_⟩, ?_⟩, ?_⟩, ?_⟩, ?_⟩, ?_, ?_⟩
  · exact harmless_line (by decide) (by decide) (by decide) (hnum _)
  · exact harmless_line (by decide) (by decide) (by decide) hd.origin.value_text.newline
  · exact harmless_line (by decide) (by decide) (by decide) hd.sessionName.newline
  · exact fun l hl => absurd hl List.not_mem_nil
  · exact harmless_lineIf fun _ => harmless_line (by decide) (by decide) (by decide) hd.uri.newline
  · exact harmless_lineIf fun _ =>
      harmless_line (by decide) (by decide) (by decide) hd.email.newline
  · exact harmless_lineIf fun _ =>
      harmless_line (by decide) (by decide) (by decide) hd.phoneNumber.newline
  · exact harmless_lineIf fun hne => absurd hd.conn.1 hne
  · exact fun b _ => harmless_line (by decide) (by decide) (by decide) b.value_text.newline
  · exact harmless_line (by decide) (by decide) (by decide) (by decide)
  · exact fun l hl => absurd hl List.not_mem_nil

/-- So are its attributes. -/
theorem harmless_attributeLines (hd : d.WellFormed) :
    ∀ l ∈ d.attributeLines, Harmless false l := by
  simp only [SessionDescription.attributeLines, List.forall_mem_append, List.forall_mem_map]
  refine ⟨⟨⟨⟨⟨⟨⟨⟨⟨⟨⟨?_, ?_⟩, ?_⟩, ?_⟩, ?_⟩, ?_⟩, ?_⟩, ?_⟩, ?_⟩, ?_⟩, ?_⟩, ?_⟩
  · exact fun dir _ => harmless_direction dir
  · exact harmless_lineIf fun _ => harmless_plain (by decide) hd.iceUfrag.toValue
  · exact harmless_lineIf fun _ => harmless_plain (by decide) hd.icePwd.toValue
  · exact harmless_iceOptions hd.iceOptions
  · exact harmless_flag (by decide)
  · exact fun a ha => harmless_plain (by decide) (hd.fingerprints a ha).value_text
  · exact fun role _ => harmless_plain (by decide) role.token.trimmed.toValue
  · exact harmless_flag (by decide)
  · refine harmless_lineIf fun hne => ?_
    have hw : Words (d.msidSemantic.semantic :: d.msidSemantic.streamIds) :=
      hd.msidSemantic.resolve_left fun h => hne (by rw [h])
    refine harmless_attrLine (by decide) (by decide) (SdpMsidSemantic.value_text hw)
      ⟨fun _ => by decide, fun h => (by cases h), fun h => (by cases h), fun _ _ a ha => ?_⟩
    rw [SdpMsidSemantic.parse_text hw] at ha
    rw [← Except.ok.inj ha]
    exact hne
  · exact fun a ha => harmless_plain (by decide) (hd.groups a ha).value_text
  · exact fun a ha => harmless_attributeLine (hd.attributes a ha) (fun h => by cases h)
      fun _ => by decide
  · exact fun c hc => harmless_candidate (hd.candidates c hc)

/-- No line of a description has a newline, so they are the lines of its text. -/
theorem lines_toString (hd : d.WellFormed) : lines d.toString = d.toLines := by
  refine lines_unlines ?_
  rw [SessionDescription.toLines, List.forall_mem_append, List.forall_mem_append]
  refine ⟨⟨fun l hl => (hd.harmless_sessionLines l hl).newline,
    fun l hl => (hd.harmless_attributeLines l hl).newline⟩, fun l hl => ?_⟩
  obtain ⟨m, hm, hl⟩ := List.mem_flatMap.1 hl
  exact (hd.medias m hm).newline_toLines l hl

/-- The lines of all sections. -/
theorem allMediaLines_clean (ms : List SdpMedia) (hms : ∀ m ∈ ms, m.WellFormed)
    {st st' : ParseState} (h : LineRun st (ms.flatMap SdpMedia.toLines) st')
    (hst : st.session.Clean) : st'.session.Clean := by
  induction ms generalizing st with
  | nil =>
    cases h
    exact hst
  | cons m ms ih =>
    obtain ⟨hm, hms⟩ := List.forall_mem_cons.1 hms
    rw [List.flatMap_cons] at h
    obtain ⟨st₁, hm₁, hms₁⟩ := h.of_append
    exact ih hms hms₁ (hm.toLines_clean hm₁ hst).2

/-- **What a printed text is read as is clean.** -/
theorem printed_clean (hd : d.WellFormed) {st st' : ParseState} (h : LineRun st d.toLines st')
    (hin : st.inMedia = false) (hst : st.session.Clean) : st'.session.Clean := by
  rw [SessionDescription.toLines] at h
  obtain ⟨st₂, h, hmedias⟩ := h.of_append
  obtain ⟨st₁, hsession, hattrs⟩ := h.of_append
  obtain ⟨hin₁, hst₁⟩ := hsession.clean (hin ▸ hd.harmless_sessionLines) hst
  have hin₁ : st₁.inMedia = false := hin₁.trans hin
  obtain ⟨-, hst₂⟩ := hattrs.clean (hin₁ ▸ hd.harmless_attributeLines) hst₁
  exact allMediaLines_clean d.medias hd.medias hmedias hst₂

end SessionDescription.WellFormed

end Lines

end AsioRtc
