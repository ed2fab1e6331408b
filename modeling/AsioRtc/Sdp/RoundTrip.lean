/-
# Printing and parsing again

`session_description::to_string` and then `parse_sdp`, on a description that was
accepted.  A clean one is read back (`WellFormed.parse_toString`), up to the order of
the feedback in its sections (`Clean.same_reread`), and what is read at all is clean
(`WellFormed.reparsed_clean`).  So a description comes back just where nothing of it is
lost (`WellFormed.comesBack_iff`).
-/

import AsioRtc.Sdp.Printed

namespace AsioRtc

open Lib Text

/-! ### The same description -/

/-- The same section, with its feedback as a set. -/
structure SdpMedia.Same (m m' : SdpMedia) : Prop where
  fields : m' = { m with rtcpFbs := m'.rtcpFbs }
  feedback : ∀ fb, fb ∈ m'.rtcpFbs ↔ fb ∈ m.rtcpFbs

/-- The same description, with the feedback of its sections as sets. -/
structure SessionDescription.Same (d d' : SessionDescription) : Prop where
  fields : d' = { d with medias := d'.medias }
  medias : List.Forall₂ SdpMedia.Same d.medias d'.medias

section Same

variable {m m' : SdpMedia} {d d' : SessionDescription}

/-- What is written with a codec or for all of them is all the feedback. -/
theorem SdpMedia.Clean.same_reread (hc : m.Clean) : m.Same m.reread where
  fields := rfl
  feedback fb := by
    have hreread : fb ∈ m.reread.rtcpFbs ↔
        (∃ c ∈ m.rtpmaps, fb ∈ m.feedbackFor c.payloadType) ∨ fb ∈ m.feedbackForAll := by
      simp [reread, feedbackOf]
    rw [hreread]
    constructor
    · rintro (⟨c, -, hfb⟩ | hfb)
      · exact (mem_feedbackFor.1 hfb).1
      · exact (mem_feedbackForAll.1 hfb).1
    · intro hfb
      cases hpt : fb.payloadType with
      | none => exact Or.inr (mem_feedbackForAll.2 ⟨hfb, hpt⟩)
      | some pt =>
        obtain ⟨c, hmem, rfl⟩ := hc.feedback fb hfb pt hpt
        exact Or.inl ⟨c, hmem, mem_feedbackFor.2 ⟨hfb, hpt⟩⟩

theorem SessionDescription.Clean.same_reread (hc : d.Clean) : d.Same d.reread where
  fields := rfl
  medias := by
    rw [reread, List.forall₂_map_right_iff, List.forall₂_same]
    exact fun m hm => (hc.medias m hm).same_reread

theorem SdpMedia.Same.clean (h : m.Same m') (hc : m'.Clean) : m.Clean := by
  have hssrcs : m'.ssrcs = m.ssrcs := by rw [h.fields]
  have hattrs : m'.attributes = m.attributes := by rw [h.fields]
  have hcodecs : m'.rtpmaps = m.rtpmaps := by rw [h.fields]
  refine ⟨hssrcs ▸ hc.ssrcs, hattrs ▸ hc.attributes, fun fb hfb pt hpt => ?_⟩
  have hcodec := hc.feedback fb ((h.feedback fb).2 hfb) pt hpt
  rw [HasCodec, hcodecs] at hcodec
  exact hcodec

theorem SessionDescription.Same.clean (h : d.Same d') (hc : d'.Clean) : d.Clean := by
  have hattrs : d'.attributes = d.attributes := by rw [h.fields]
  have hsemantic : d'.msidSemantic = d.msidSemantic := by rw [h.fields]
  refine ⟨hattrs ▸ hc.attributes, hsemantic ▸ hc.semantic, fun m hm => ?_⟩
  obtain ⟨i, hi, rfl⟩ := List.mem_iff_getElem.1 hm
  have hi' : i < d'.medias.length := h.medias.length_eq ▸ hi
  exact (h.medias.get hi hi').clean (hc.medias _ (List.getElem_mem hi'))

end Same

/-! ### The round trip -/

variable {d d' : SessionDescription} {type : Text}

/-- A description comes back from its text. -/
def SessionDescription.ComesBack [NoCaseEq] (d : SessionDescription) : Prop :=
  ∃ d', parseSdp d.toString d.sdpType = .ok (some d') ∧ d.Same d'

namespace SessionDescription.WellFormed

theorem toLines_ne_nil (d : SessionDescription) : d.toLines ≠ [] := by
  simp [toLines, sessionLines]

/-- The empty description is clean. -/
theorem clean_empty (type : Text) : Clean { sdpType := type } :=
  ⟨by simp, Or.inl rfl, by simp⟩

variable [NoCaseEq]

/-- **What a printed text is read as is clean.** -/
theorem reparsed_clean (hd : d.WellFormed) (h : parseSdp d.toString type = .ok (some d')) :
    d'.Clean := by
  obtain ⟨-, st, hrun, rfl⟩ := parseSdp_iff.1 h
  rw [hd.lines_toString] at hrun
  exact hd.printed_clean hrun rfl (clean_empty type)

variable [LawfulNoCaseEq]

/-- The sections, one behind the other. -/
theorem written_medias (ms : List SdpMedia) (hms : ∀ m ∈ ms, m.WellFormed ∧ m.Clean)
    {st : ParseState} (hst : ms = [] ∨ ∀ last ∈ st.session.medias.getLast?, checkMsid last = true)
    (hcheck : ∀ m ∈ ms.dropLast, checkMsid m = true) :
    ∃ st', LineRun st (ms.flatMap SdpMedia.toLines) st' ∧ st'.session =
      { st.session with medias := st.session.medias ++ ms.map SdpMedia.reread } := by
  induction ms generalizing st with
  | nil => exact ⟨st, .nil st, by simp⟩
  | cons m ms ih =>
    obtain ⟨hm, hms⟩ := List.forall_mem_cons.1 hms
    have hrun : LineRun st m.toLines (inSection st.session st.session.medias m.reread) :=
      hm.1.written_section hm.2 (hst.resolve_left (by simp))
    -- A section is checked when the next one begins.
    have hnext : ms = [] ∨ ∀ last ∈ (inSection st.session st.session.medias
        m.reread).session.medias.getLast?, checkMsid last = true := by
      refine or_iff_not_imp_left.2 fun hne last hlast => ?_
      simp only [inSection, List.getLast?_concat, Option.mem_some_iff] at hlast
      subst hlast
      exact hcheck m (by simp [List.dropLast_cons_of_ne_nil hne])
    have hrest : ∀ x ∈ ms.dropLast, checkMsid x = true := by
      intro x hx
      refine hcheck x ?_
      rw [List.dropLast_cons_of_ne_nil (List.ne_nil_of_mem (List.mem_of_mem_dropLast hx))]
      exact List.mem_cons_of_mem _ hx
    obtain ⟨st', hrun', hst'⟩ := ih hms hnext hrest
    refine ⟨st', ?_, ?_⟩
    · rw [List.flatMap_cons]
      exact hrun.append hrun'
    · rw [hst']
      simp [inSection]

/-- **A clean description is read back.** -/
theorem parse_toString (hd : d.WellFormed) (hc : d.Clean) :
    parseSdp d.toString d.sdpType = .ok (some d.reread) := by
  have hfront : LineRun ⟨{ sdpType := d.sdpType }, false⟩ (d.sessionLines ++ d.attributeLines)
      ⟨d.front, false⟩ := hd.written_session.append (hd.written_attributeLines hc)
  obtain ⟨st, hmedias, hst⟩ : ∃ st, LineRun ⟨d.front, false⟩ (d.medias.flatMap SdpMedia.toLines) st ∧
      st.session = { d.front with medias := d.front.medias ++ d.medias.map SdpMedia.reread } :=
    written_medias d.medias (fun m hm => ⟨hd.medias m hm, hc.medias m hm⟩)
      (Or.inr (by simp [front])) hd.msids
  refine parseSdp_iff.2 ⟨?_, st, ?_, hst.trans (by simp [front, reread])⟩
  · rw [hd.lines_toString]
    exact toLines_ne_nil d
  · rw [hd.lines_toString]
    exact hfront.append hmedias

/-- **The round trip.**  A description comes back just where nothing of it is lost. -/
theorem comesBack_iff (hd : d.WellFormed) : d.ComesBack ↔ d.Clean := by
  constructor
  · rintro ⟨d', hparse, hsame⟩
    exact hsame.clean (hd.reparsed_clean hparse)
  · exact fun hc => ⟨d.reread, hd.parse_toString hc, hc.same_reread⟩

end SessionDescription.WellFormed

end AsioRtc
