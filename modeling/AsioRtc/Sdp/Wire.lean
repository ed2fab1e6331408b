/-
# A description on the wire

What the other side reads of a description that this side has made itself.  `to_string` writes the
address of the connection in a `c=` line behind the media line, and `parse_sdp` passes over it; a
section with an empty list of formats is read as one without formats.  Those are the differences
(`SessionDescription.onWire`): a description survives where the rest of it comes back
(`Survives`), and it does where that rest is well formed and clean (`survives_of_onWire`).
-/

import AsioRtc.Sdp.RoundTrip

namespace AsioRtc

open Lib Text

/-- What a section says on the wire. -/
def SdpMedia.onWire (m : SdpMedia) : SdpMedia :=
  { m with
    connNettype := [], connAddrtype := [], connAddr := []
    formats := if m.formats = .strings [] then .none else m.formats }

/-- What a description says on the wire. -/
def SessionDescription.onWire (d : SessionDescription) : SessionDescription :=
  { d with medias := d.medias.map SdpMedia.onWire }

/-- The address of a section is on one line. -/
structure SdpMedia.ConnLine (m : SdpMedia) : Prop where
  nettype : '\n' ∉ m.connNettype
  addrtype : '\n' ∉ m.connAddrtype
  addr : '\n' ∉ m.connAddr

/-- Its text is read as what it says. -/
def SessionDescription.Survives [NoCaseEq] (d : SessionDescription) : Prop :=
  ∃ d', parseSdp d.toString d.sdpType = .ok (some d') ∧ d.onWire.Same d'

namespace SdpMedia

theorem onWire_mediaLine (m : SdpMedia) : m.onWire.mediaLine = m.mediaLine := by
  have hformats : m.onWire.formatTexts = m.formatTexts := by
    unfold formatTexts onWire
    by_cases h : m.formats = .strings []
    · simp [h]
    · simp [h]
  rw [mediaLine, mediaLine, hformats]
  rfl

theorem onWire_payloadTypes (m : SdpMedia) : m.onWire.payloadTypes = m.payloadTypes := by
  unfold payloadTypes onWire
  by_cases h : m.formats = .strings []
  · simp [h]
  · simp [h]

theorem onWire_bodyLines (m : SdpMedia) : m.onWire.bodyLines = m.bodyLines := by
  have hcodecs : m.onWire.codecsLines = m.codecsLines := by
    rw [codecsLines, codecsLines, onWire_payloadTypes]
    rfl
  rw [bodyLines, bodyLines, hcodecs]
  rfl

/-- The lines of a section are those it has on the wire, with the address in between. -/
theorem toLines_onWire (m : SdpMedia) :
    m.toLines = m.onWire.mediaLine ::
      (lineIf (m.connNettype ≠ []) (connLine m.connNettype m.connAddrtype m.connAddr) ++
        m.onWire.bodyLines) := by
  rw [onWire_mediaLine, onWire_bodyLines, toLines, bodyLines]
  simp only [List.append_assoc, List.cons_append, List.nil_append]

end SdpMedia

section Sections

variable [NoCaseEq] {st st' : ParseState} {m : SdpMedia}

/-- The media line begins a section. -/
theorem SdpMedia.WellFormed.opens (hm : m.WellFormed) (h : LineStep st m.mediaLine st') :
    st'.inMedia = true ∧ st'.session.medias ≠ [] := by
  have hline : strip m.mediaLine = 'm' :: '=' :: (m.mediaType.toString ++
      spaced (toText m.port.toNat :: m.proto.toString :: m.formatTexts)) := by
    rw [mediaLine_eq]
    exact strip_line (by decide) hm.value_mediaLine.ends
  cases h with
  | blank h =>
    rw [hline] at h
    cases h
  | media => exact ⟨rfl, by simp⟩
  | attr hl =>
    rw [hline] at hl
    cases hl
  | ignored hl ht =>
    rw [hline] at hl
    cases hl
    exact absurd rfl ht
  | session hl ht =>
    rw [hline] at hl
    cases hl
    exact absurd rfl ht

/-- The address of a section is passed over. -/
theorem connLine_step (hin : st.inMedia = true) (hne : st.session.medias ≠ []) (n a x : Text) :
    LineStep st (connLine n a x) st := by
  have hline : ∃ v, strip (connLine n a x) = 'c' :: '=' :: v := by
    have hcons : connLine n a x = 'c' :: '=' :: (n ++ spaced [a, x]) := rfl
    rw [hcons, strip_cons_cons (by decide)]
    exact ⟨_, rfl⟩
  obtain ⟨v, hv⟩ := hline
  exact .ignored hv (by decide) (by decide) hin hne

/-- A section is read as what it says on the wire. -/
theorem SdpMedia.WellFormed.run_of_onWire (hm : m.onWire.WellFormed)
    (h : LineRun st m.onWire.toLines st') : LineRun st m.toLines st' := by
  rw [hm.toLines_eq] at h
  rw [m.toLines_onWire]
  cases h with
  | cons h hr =>
    obtain ⟨hin, hne⟩ := hm.opens h
    refine .cons h (.append ?_ hr)
    by_cases hn : m.connNettype = []
    · rw [lineIf, if_neg (not_not.2 hn)]
      exact .nil _
    · rw [lineIf, if_pos hn]
      exact .single (connLine_step hin hne _ _ _)

theorem run_of_onWire (ms : List SdpMedia) (hms : ∀ m ∈ ms, m.onWire.WellFormed)
    (h : LineRun st ((ms.map SdpMedia.onWire).flatMap SdpMedia.toLines) st') :
    LineRun st (ms.flatMap SdpMedia.toLines) st' := by
  induction ms generalizing st with
  | nil => exact h
  | cons m ms ih =>
    obtain ⟨hm, hms⟩ := List.forall_mem_cons.1 hms
    rw [List.map_cons, List.flatMap_cons] at h
    obtain ⟨st₁, h₁, h₂⟩ := h.of_append
    rw [List.flatMap_cons]
    exact (hm.run_of_onWire h₁).append (ih hms h₂)

/-- No line of a section has a newline. -/
theorem SdpMedia.WellFormed.newline_of_onWire (hm : m.onWire.WellFormed) (hconn : m.ConnLine) :
    ∀ l ∈ m.toLines, '\n' ∉ l := by
  have hlines := hm.newline_toLines
  rw [hm.toLines_eq] at hlines
  obtain ⟨hmedia, hbody⟩ := List.forall_mem_cons.1 hlines
  rw [m.toLines_onWire]
  refine List.forall_mem_cons.2 ⟨hmedia, List.forall_mem_append.2 ⟨fun l hl => ?_, hbody⟩⟩
  by_cases hn : m.connNettype = []
  · rw [lineIf, if_neg (not_not.2 hn)] at hl
    exact absurd hl List.not_mem_nil
  · rw [lineIf, if_pos hn, List.mem_singleton] at hl
    rw [hl, connLine]
    simp only [spaced, List.flatMap_cons, List.flatMap_nil, List.append_nil, List.mem_append,
      List.mem_cons, not_or]
    exact ⟨⟨by decide, hconn.nettype⟩, ⟨by decide, hconn.addrtype⟩, by decide, hconn.addr⟩

end Sections

/-! ### Descriptions -/

section Descriptions

variable [NoCaseEq] {d : SessionDescription}

/-- **A description survives** where what it says on the wire is well formed and clean. -/
theorem SessionDescription.survives_of_onWire [LawfulNoCaseEq] (hd : d.onWire.WellFormed)
    (hc : d.onWire.Clean) (hconn : ∀ m ∈ d.medias, m.ConnLine) : d.Survives := by
  have hms : ∀ m ∈ d.medias, m.onWire.WellFormed := fun m hm =>
    hd.medias _ (List.mem_map_of_mem hm)
  have hlines : lines d.toString = d.toLines := by
    refine lines_unlines ?_
    rw [toLines, List.forall_mem_append, List.forall_mem_append]
    refine ⟨⟨fun l hl => (hd.harmless_sessionLines l hl).newline,
      fun l hl => (hd.harmless_attributeLines l hl).newline⟩, fun l hl => ?_⟩
    obtain ⟨m, hm, hl⟩ := List.mem_flatMap.1 hl
    exact (hms m hm).newline_of_onWire (hconn m hm) l hl
  obtain ⟨-, st, hrun, hst⟩ := parseSdp_iff.1 (hd.parse_toString hc)
  rw [hd.lines_toString, toLines] at hrun
  obtain ⟨st₁, hfront, hmedias⟩ := hrun.of_append
  refine ⟨d.onWire.reread, parseSdp_iff.2 ⟨?_, st, ?_, hst⟩, hc.same_reread⟩
  · rw [hlines]
    exact WellFormed.toLines_ne_nil d
  · rw [hlines, toLines]
    exact hfront.append (run_of_onWire _ hms hmedias)

/-- What survives has an origin of words. -/
theorem SessionDescription.Survives.origin (h : d.Survives) : d.origin.WellFormed := by
  obtain ⟨d', hparse, hsame⟩ := h
  have horigin : d'.origin = d.origin := by
    rw [hsame.fields]
    rfl
  exact horigin ▸ (parseSdp_wellFormed hparse).1.origin

end Descriptions

end AsioRtc
