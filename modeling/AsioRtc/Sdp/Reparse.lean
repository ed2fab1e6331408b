/-
# A description is read back

The lines of `session_description::to_string` against the parser, for the sections
(`written_section`) and for the session part (`written_session`,
`written_attributeLines`): behind them the parser has every field of the description,
but for the order of the feedback in its sections (`SdpMedia.reread`).

The one proviso is that nothing is lost where it is written
(`SessionDescription.Clean`): no attribute and no source ends in whitespace that is
trimmed, feedback for one payload type has its codec, and there are streams behind the
semantics of the streams.
-/

import AsioRtc.Sdp.Written

namespace AsioRtc

open Lib Text

variable [NoCaseEq] {s d : SessionDescription} {ms : List SdpMedia} {m b : SdpMedia}

/-! ### A section -/

/-- A section has a codec of that payload type. -/
def SdpMedia.HasCodec (m : SdpMedia) (pt : U8) : Prop := ∃ c ∈ m.rtpmaps, c.payloadType = pt

/-- Nothing of a section is lost where it is written. -/
structure SdpMedia.Clean (m : SdpMedia) : Prop where
  ssrcs : ∀ a ∈ m.ssrcs, a.Clean
  attributes : ∀ a ∈ m.attributes, a.2 = [] → EndsClean a.1
  feedback : ∀ fb ∈ m.rtcpFbs, ∀ pt, fb.payloadType = some pt → m.HasCodec pt

/-- The lines of a section behind its first one. -/
def SdpMedia.bodyLines (m : SdpMedia) : List Text :=
  [flagLine m.direction.toString] ++
  lineIf (m.mid ≠ []) (attrLine "mid".toList m.mid) ++
  (m.msids.map fun msid => attrLine "msid".toList msid.text) ++
  m.transportLines ++ m.codecsLines ++ m.streamLines

namespace SdpMedia.WellFormed

variable [LawfulNoCaseEq]

omit [LawfulNoCaseEq] in
/-- The lines of a section are its first one and its body. -/
theorem toLines_eq (hm : m.WellFormed) : m.toLines = m.mediaLine :: m.bodyLines := by
  have hconn : lineIf (m.connNettype ≠ []) (connLine m.connNettype m.connAddrtype m.connAddr) = [] :=
    if_neg (not_not.2 hm.conn.1)
  rw [toLines, hconn]
  rfl

omit [LawfulNoCaseEq] in
/-- The formats of a section are words. -/
theorem token_formatTexts (hm : m.WellFormed) : ∀ f ∈ m.formatTexts, Token f := by
  rw [formatTexts]
  have h := hm.formats
  generalize m.formats = formats at h
  cases h with
  | payloadTypes hne =>
    intro f hf
    obtain ⟨pt, -, rfl⟩ := List.mem_map.1 hf
    exact token_toText _
  | strings hnil hne ht hf => exact hf
  | none hnil => simp

omit [NoCaseEq] [LawfulNoCaseEq] in
/-- The first line of a section as its words. -/
theorem mediaLine_eq (m : SdpMedia) :
    m.mediaLine = 'm' :: '=' :: (m.mediaType.toString ++
      spaced (toText m.port.toNat :: m.proto.toString :: m.formatTexts)) := by
  simp [mediaLine]

omit [LawfulNoCaseEq] in
/-- The words of a media line. -/
theorem token_mediaLine (hm : m.WellFormed) :
    ∀ w ∈ toText m.port.toNat :: m.proto.toString :: m.formatTexts, Token w :=
  List.forall_mem_cons.2 ⟨token_toText _, List.forall_mem_cons.2
    ⟨m.proto.token, hm.token_formatTexts⟩⟩

omit [LawfulNoCaseEq] in
/-- The first line of a section is a value behind its `m=`. -/
theorem value_mediaLine (hm : m.WellFormed) : Value (m.mediaType.toString ++
    spaced (toText m.port.toNat :: m.proto.toString :: m.formatTexts)) :=
  (Words.of_tokens (List.forall_mem_cons.2
    ⟨m.mediaType.token, hm.token_mediaLine⟩)).value_append_spaced

/-- **The media line.** -/
theorem parseMediaLine_text (hm : m.WellFormed) :
    parseMediaLine (m.mediaType.toString ++
      spaced (toText m.port.toNat :: m.proto.toString :: m.formatTexts)) =
      .ok (some m.opened) := by
  have hport : parseMediaPort (toText m.port.toNat) = .ok (some m.port) := by
    rw [parseMediaPort, find_eq_none.2 (not_mem_toText (by decide) _), parseUint_toText]
    rfl
  have hproto : (parseSdpProto m.proto.toString).getD .RTP_AVP = m.proto := by
    rw [parseSdpProto_toString]
    rfl
  rw [parseMediaLine, streamWords_append_spaced m.mediaType.token hm.token_mediaLine]
  simp only [parseSdpMediaType_toString, hport, Checked.ok_bind, hproto]
  split
  · rename_i ht
    rw [foldl_addFormat _ _ rfl, opened, ht]
    by_cases hf : m.formatTexts = [] <;> simp [hf] <;> rfl
  · rename_i ht
    simp [opened, ht]
    rfl

/-- The first line opens the section, where the section before it has one track at most. -/
theorem media_step (hm : m.WellFormed) {st : ParseState}
    (hcheck : ∀ last ∈ st.session.medias.getLast?, checkMsid last = true) :
    LineStep st m.mediaLine (inSection st.session st.session.medias m.opened) := by
  have hl : strip m.mediaLine = _ := (congrArg strip (mediaLine_eq m)).trans
    (strip_line (by decide) hm.value_mediaLine.ends)
  exact .media hl hcheck hm.parseMediaLine_text

/-- The transport, field by field. -/
theorem written_transport (hm : m.WellFormed) :
    Written (inSection s ms) m.described m.transportLines m.connected := by
  let b₁ : SdpMedia := { m.described with iceUfrag := m.iceUfrag }
  let b₂ : SdpMedia := { b₁ with icePwd := m.icePwd }
  let b₃ : SdpMedia := { b₂ with iceOptions := m.iceOptions }
  let b₄ : SdpMedia := { b₃ with candidates := m.candidates }
  let b₅ : SdpMedia := { b₄ with fingerprints := m.fingerprints }
  let b₆ : SdpMedia := { b₅ with setup := m.setup }
  let b₇ : SdpMedia := { b₆ with extmapAllowMixed := m.extmapAllowMixed }
  let b₈ : SdpMedia := { b₇ with rtcpMux := m.rtcpMux }
  let b₉ : SdpMedia := { b₈ with rtcpMuxOnly := m.rtcpMuxOnly }
  let b₁₀ : SdpMedia := { b₉ with rtcpRsize := m.rtcpRsize }
  let b₁₁ : SdpMedia := { b₁₀ with rtcp := m.rtcp }
  have h₁ : Written (inSection s ms) m.described _ b₁ := written_iceUfrag rfl hm.iceUfrag
  have h₂ : Written (inSection s ms) b₁ _ b₂ := written_icePwd rfl hm.icePwd
  have h₃ : Written (inSection s ms) b₂ _ b₃ := written_iceOptions rfl hm.iceOptions
  have h₄ : Written (inSection s ms) b₃ _ b₄ := written_candidates rfl hm.candidates
  have h₅ : Written (inSection s ms) b₄ _ b₅ := written_fingerprints rfl hm.fingerprints
  have h₆ : Written (inSection s ms) b₅ _ b₆ := written_setup rfl
  have h₇ : Written (inSection s ms) b₆ _ b₇ := written_extmapAllowMixed rfl
  have h₈ : Written (inSection s ms) b₇ _ b₈ := written_rtcpMux rfl
  have h₉ : Written (inSection s ms) b₈ _ b₉ := written_rtcpMuxOnly rfl
  have h₁₀ : Written (inSection s ms) b₉ _ b₁₀ := written_rtcpRsize rfl
  have h₁₁ : Written (inSection s ms) b₁₀ _ b₁₁ := written_rtcp rfl hm.rtcp
  exact h₁.append h₂ |>.append h₃ |>.append h₄ |>.append h₅ |>.append h₆ |>.append h₇
    |>.append h₈ |>.append h₉ |>.append h₁₀ |>.append h₁₁

/-- The codecs, behind the extensions and in front of the feedback for all of them. -/
theorem written_codecsLines (hm : m.WellFormed) :
    Written (inSection s ms) m.connected m.codecsLines
      { m.coded m.rtpmaps with rtcpFbs := m.reread.rtcpFbs } := by
  have h₁ : Written (inSection s ms) m.connected _ (m.coded []) := written_extmaps rfl hm.extmaps
  have h₂ : Written (inSection s ms) (m.coded m.rtpmaps) _
      { m.coded m.rtpmaps with rtcpFbs := m.reread.rtcpFbs } :=
    written_feedback hm.reread_apart fun fb hfb => hm.rtcpFbs fb (mem_feedbackForAll.1 hfb).1
  exact (h₁.append hm.written_codecs).append h₂

omit [LawfulNoCaseEq] in
/-- The formats are read back with the codecs. -/
theorem coded_formats (hm : m.WellFormed) : (m.coded m.rtpmaps).formats = m.formats := by
  have h := hm.formats
  rw [coded, opened, formatTexts]
  generalize m.formats = formats at h
  cases h with
  | payloadTypes hne => exact if_neg hne
  | strings hnil hne ht hf => simp [hnil, ht, hne]
  | none hnil => simp [hnil]

omit [LawfulNoCaseEq] in
/-- The fields that are not written are those of a new section. -/
theorem reread_eq (hm : m.WellFormed) :
    { m.reread with
      formats := (m.coded m.rtpmaps).formats, connNettype := [], connAddrtype := []
      connAddr := [] } = m.reread := by
  obtain ⟨hn, ht, ha⟩ :
      m.reread.connNettype = [] ∧ m.reread.connAddrtype = [] ∧ m.reread.connAddr = [] := hm.conn
  have hf : (m.coded m.rtpmaps).formats = m.reread.formats := hm.coded_formats
  rw [hf]
  generalize m.reread = r at hn ht ha
  cases r
  simp only at hn ht ha
  rw [hn, ht, ha]

omit [LawfulNoCaseEq] in
/-- The lines of the streams, behind the codecs. -/
theorem written_streams (hm : m.WellFormed) (hc : m.Clean) :
    Written (inSection s ms) { m.coded m.rtpmaps with rtcpFbs := m.reread.rtcpFbs } m.streamLines
      m.reread := by
  let b₀ : SdpMedia := { m.coded m.rtpmaps with rtcpFbs := m.reread.rtcpFbs }
  let b₁ : SdpMedia := { b₀ with ssrcs := m.ssrcs }
  let b₂ : SdpMedia := { b₁ with ssrcGroups := m.ssrcGroups }
  let b₃ : SdpMedia := { b₂ with cryptos := m.cryptos }
  let b₄ : SdpMedia := { b₃ with sctpPort := m.sctpPort }
  let b₅ : SdpMedia := { b₄ with maxMessageSize := m.maxMessageSize }
  let b₆ : SdpMedia := { b₅ with simulcast := m.simulcast }
  let b₇ : SdpMedia := { b₆ with rids := m.rids }
  let b₈ : SdpMedia := { b₇ with endOfCandidates := m.endOfCandidates }
  let b₉ : SdpMedia := { b₈ with attributes := m.attributes }
  have h₁ : Written (inSection s ms) b₀ _ b₁ :=
    written_ssrcs rfl fun a ha => ⟨hm.ssrcs a ha, hc.ssrcs a ha⟩
  have h₂ : Written (inSection s ms) b₁ _ b₂ := written_ssrcGroups rfl hm.ssrcGroups
  have h₃ : Written (inSection s ms) b₂ _ b₃ := written_cryptos rfl hm.cryptos
  have h₄ : Written (inSection s ms) b₃ _ b₄ := written_sctpPort rfl
  have h₅ : Written (inSection s ms) b₄ _ b₅ := written_maxMessageSize rfl
  have h₆ : Written (inSection s ms) b₅ _ b₆ := written_simulcast rfl hm.simulcast
  have h₇ : Written (inSection s ms) b₆ _ b₇ := written_rids rfl hm.rids
  have h₈ : Written (inSection s ms) b₇ _ b₈ := written_endOfCandidates rfl
  have h₉ : Written (inSection s ms) b₈ _ b₉ := written_attributes rfl hm.attributes hc.attributes
  have hread : b₉ = m.reread := hm.reread_eq
  rw [← hread]
  exact h₁.append h₂ |>.append h₃ |>.append h₄ |>.append h₅ |>.append h₆ |>.append h₇
    |>.append h₈ |>.append h₉

/-- **A section is read back.** -/
theorem written_section (hm : m.WellFormed) (hc : m.Clean) {st : ParseState}
    (hcheck : ∀ last ∈ st.session.medias.getLast?, checkMsid last = true) :
    LineRun st m.toLines (inSection st.session st.session.medias m.reread) := by
  let b₁ : SdpMedia := { m.opened with direction := m.direction }
  let b₂ : SdpMedia := { b₁ with mid := m.mid }
  have h₁ : Written (inSection st.session st.session.medias) m.opened _ b₁ :=
    written_direction m.direction
  have h₂ : Written (inSection st.session st.session.medias) b₁ _ b₂ := written_mid rfl hm.mid
  have h₃ : Written (inSection st.session st.session.medias) b₂ _ m.described :=
    written_msids rfl hm.msids
  have hbody := h₁.append h₂ |>.append h₃ |>.append hm.written_transport
    |>.append hm.written_codecsLines |>.append (hm.written_streams hc)
  rw [hm.toLines_eq]
  exact .cons (hm.media_step hcheck) hbody

end SdpMedia.WellFormed

/-! ### The session part -/

namespace SessionDescription

/-- Nothing of a description is lost where it is written. -/
structure Clean (d : SessionDescription) : Prop where
  attributes : ∀ a ∈ d.attributes, a.2 = [] → EndsClean a.1
  semantic : d.msidSemantic = {} ∨ d.msidSemantic.streamIds ≠ []
  medias : ∀ m ∈ d.medias, m.Clean

/-- **What a description is read back as.** -/
def reread (d : SessionDescription) : SessionDescription :=
  { d with medias := d.medias.map SdpMedia.reread }

/-- A description in front of its attributes. -/
def opened (d : SessionDescription) : SessionDescription :=
  { sdpType := d.sdpType, version := d.version, origin := d.origin, sessionName := d.sessionName
    uri := d.uri, email := d.email, phoneNumber := d.phoneNumber, bandwidths := d.bandwidths }

/-- A description in front of its sections. -/
def front (d : SessionDescription) : SessionDescription := { d with medias := [] }

section Fields

variable {s : SessionDescription} {v : Text}

/-- A text behind the letter of its line. -/
theorem written_line {f : Text → SessionDescription} {t : Char} (h0 : f [] = s)
    (ht : isSpace t = false) (hm : t ≠ 'm') (hv : Value v) (h : SessionLine s v t (f v)) :
    Written inFront s (lineIf (v ≠ []) (t :: '=' :: v)) (f v) :=
  .lineIf (fun _ => h.written ht hm hv) fun hnil => by rw [← h0, not_not.1 hnil]

/-- A trimmed text. -/
theorem written_text {f : Text → SessionDescription} {name : Text} (h0 : f [] = s)
    (hc : ':' ∉ name) (hv : Trimmed v)
    (h : SessionAttr s v name (f (strip v))) :
    Written inFront s (lineIf (v ≠ []) (attrLine name v)) (f v) := by
  rw [hv.strip_eq] at h
  exact .lineIf (fun _ => h.written hc hv.toValue) fun hnil => by rw [← h0, not_not.1 hnil]

/-- A flag. -/
theorem written_flag {f : Bool → SessionDescription} {name : Text} {p : Bool} (h0 : f false = s)
    (hc : ':' ∉ name) (he : EndsClean name) (h : SessionAttr s [] name (f true)) :
    Written inFront s (lineIf (p = true) (flagLine name)) (f p) := by
  cases p with
  | false => exact h0 ▸ .nil _
  | true => exact h.written_flag hc he

/-- The options of ICE of the session part. -/
theorem written_iceOptions {ws : List Text} (h0 : s.iceOptions = []) (hw : Words ws) :
    Written inFront s (lineIf (ws ≠ []) (iceOptionsLine ws)) { s with iceOptions := ws } := by
  refine .lineIf (fun hne => ?_) fun hnil => by rw [not_not.1 hnil, ← h0]
  obtain ⟨w, ws, rfl⟩ := List.exists_cons_of_ne_nil hne
  have heq : [' '].intercalate (w :: ws) = w ++ spaced ws := intercalate_cons_eq w ws
  have h : SessionAttr s ([' '].intercalate (w :: ws)) "ice-options".toList _ := .iceOptions
  rw [heq, hw.words_append_spaced, h0, List.nil_append] at h
  rw [iceOptionsLine, heq]
  exact h.written (by decide) hw.value_append_spaced

/-- The fingerprints of the session part. -/
theorem written_fingerprints {xs : List SdpFingerprint} (h0 : s.fingerprints = [])
    (h : ∀ a ∈ xs, a.WellFormed) :
    Written inFront s (xs.map fun a => attrLine "fingerprint".toList a.text)
      { s with fingerprints := xs } := by
  have h0 : { s with fingerprints := [] } = s := by rw [← h0]
  exact h0 ▸ .list (f := fun xs => { s with fingerprints := xs }) fun _ a ha =>
    (SessionAttr.fingerprint (h a ha).parse_text).written (by decide) (h a ha).value_text

/-- The groups of the sections. -/
theorem written_groups {xs : List SdpGroup} (h0 : s.groups = []) (h : ∀ a ∈ xs, a.WellFormed) :
    Written inFront s (xs.map fun a => attrLine "group".toList a.text) { s with groups := xs } := by
  have h0 : { s with groups := [] } = s := by rw [← h0]
  exact h0 ▸ .list (f := fun xs => { s with groups := xs }) fun _ a ha =>
    (SessionAttr.group (h a ha).parse_text).written (by decide) (h a ha).value_text

/-- The semantics of the streams; without a stream, the line is left out. -/
theorem written_msidSemantic {a : SdpMsidSemantic} (h0 : s.msidSemantic = {})
    (h : a = {} ∨ Words (a.semantic :: a.streamIds)) (hc : a = {} ∨ a.streamIds ≠ []) :
    Written inFront s (lineIf (a.streamIds ≠ []) (attrLine "msid-semantic".toList a.text))
      { s with msidSemantic := a } := by
  refine .lineIf (fun hne => ?_) fun hnil => ?_
  · have hw := h.resolve_left fun h => hne (by rw [h])
    exact (SessionAttr.msidSemantic (SdpMsidSemantic.parse_text hw)).written (by decide)
      (SdpMsidSemantic.value_text hw)
  · rw [hc.resolve_right hnil, ← h0]

/-- The candidates of the session part. -/
theorem written_candidates {cs : List Text} (h0 : s.candidates = [])
    (h : ∀ c ∈ cs, CandidateText c) :
    Written inFront s (cs.map flagLine) { s with candidates := cs } := by
  have h0 : { s with candidates := [] } = s := by rw [← h0]
  refine h0 ▸ .list (f := fun cs => { s with candidates := cs }) fun ys c hc => ?_
  obtain ⟨v, rfl, hv⟩ := h c hc
  exact SessionAttr.candidate.written (by decide) hv

/-- The attributes of the session part that the parser does not know. -/
theorem written_attributes {xs : List (Text × Text)} (h0 : s.attributes = [])
    (h : ∀ a ∈ xs, OtherAttr sessionAttrNames a) (hc : ∀ a ∈ xs, a.2 = [] → EndsClean a.1) :
    Written inFront s (xs.map attributeLine) { s with attributes := xs } := by
  have h0 : { s with attributes := [] } = s := by rw [← h0]
  refine h0 ▸ .list (f := fun xs => { s with attributes := xs }) fun ys a ha => ?_
  obtain ⟨name, value⟩ := a
  have hattr := h _ ha
  by_cases hv : value = []
  · subst hv
    rw [attributeLine, optPart, if_pos rfl, List.append_nil]
    exact (SessionAttr.other hattr.unknown hattr.direction).written_flag hattr.colon
      (hc _ ha rfl)
  · rw [attributeLine, optPart_of_ne _ hv]
    exact (SessionAttr.other hattr.unknown hattr.direction).written hattr.colon hattr.value

variable [LawfulNoCaseEq]

/-- The bandwidths. -/
theorem written_bandwidths {xs : List SdpBandwidth} (h0 : s.bandwidths = []) :
    Written inFront s (xs.map fun b => "b=".toList ++ b.text) { s with bandwidths := xs } := by
  have h0 : { s with bandwidths := [] } = s := by rw [← h0]
  exact h0 ▸ .list (f := fun xs => { s with bandwidths := xs }) fun _ b _ =>
    (SessionLine.bandwidth b.parse_text).written (by decide) (by decide) b.value_text

/-- The direction of the session part. -/
theorem written_direction {o : Option SdpDirection} (h0 : s.direction = none) :
    Written inFront s (o.toList.map fun d => flagLine d.toString) { s with direction := o } := by
  refine .option (fun d hd => ?_) fun h => by rw [h, ← h0]
  subst hd
  refine (SessionAttr.direction ?_ (parseSdpDirection_toString d)).written_flag ?_
    d.token.trimmed.ends
  · cases d <;> decide
  · cases d <;> decide

/-- The DTLS role of the session part. -/
theorem written_setup {o : Option SdpSetupRole} (h0 : s.setup = none) :
    Written inFront s (o.toList.map fun role => attrLine "setup".toList role.toString)
      { s with setup := o } := by
  refine .option (fun role hr => ?_) fun h => by rw [h, ← h0]
  subst hr
  exact (SessionAttr.setup (parseSetupRole_toString role)).written (by decide)
    role.token.trimmed.toValue

end Fields

variable [LawfulNoCaseEq]

/-- The lines in front of the attributes. -/
theorem WellFormed.written_session (hd : d.WellFormed) :
    Written inFront { sdpType := d.sdpType } d.sessionLines d.opened := by
  let s₁ : SessionDescription := { sdpType := d.sdpType, version := d.version }
  let s₂ : SessionDescription := { s₁ with origin := d.origin }
  let s₃ : SessionDescription := { s₂ with sessionName := d.sessionName }
  let s₄ : SessionDescription := { s₃ with uri := d.uri }
  let s₅ : SessionDescription := { s₄ with email := d.email }
  let s₆ : SessionDescription := { s₅ with phoneNumber := d.phoneNumber }
  have h₁ : Written inFront { sdpType := d.sdpType } ["v=".toList ++ toText d.version.toNat] s₁ := by
    have h : SessionLine { sdpType := d.sdpType } (toText d.version.toNat) 'v' _ := .version
    rw [parseUint_toText] at h
    exact h.written (by decide) (by decide) (token_toText _).trimmed.toValue
  have h₂ : Written inFront s₁ ["o=".toList ++ d.origin.text] s₂ := by
    have h : SessionLine s₁ d.origin.text 'o' _ := .origin
    rw [hd.origin.parse_text] at h
    exact h.written (by decide) (by decide) hd.origin.value_text
  have h₃ : Written inFront s₂ ["s=".toList ++ d.sessionName] s₃ :=
    SessionLine.sessionName.written (by decide) (by decide) hd.sessionName
  have h₄ : Written inFront s₃ (lineIf (d.uri ≠ []) ("u=".toList ++ d.uri)) s₄ :=
    written_line (f := fun v => { s₃ with uri := v }) rfl (by decide) (by decide) hd.uri .uri
  have h₅ : Written inFront s₄ (lineIf (d.email ≠ []) ("e=".toList ++ d.email)) s₅ :=
    written_line (f := fun v => { s₄ with email := v }) rfl (by decide) (by decide) hd.email .email
  have h₆ : Written inFront s₅ (lineIf (d.phoneNumber ≠ []) ("p=".toList ++ d.phoneNumber)) s₆ :=
    written_line (f := fun v => { s₅ with phoneNumber := v }) rfl (by decide) (by decide)
      hd.phoneNumber .phoneNumber
  have h₇ : Written inFront s₆ (d.bandwidths.map fun b => "b=".toList ++ b.text) d.opened :=
    written_bandwidths rfl
  have h₈ : Written inFront d.opened ["t=0 0".toList] d.opened :=
    SessionLine.written (t := 't') (by decide) (by decide) ⟨by decide, by decide⟩
      (.other (by decide))
  have hconn : lineIf (d.connNettype ≠ []) (connLine d.connNettype d.connAddrtype d.connAddr) = [] :=
    if_neg (not_not.2 hd.conn.1)
  rw [sessionLines, hconn, List.append_nil]
  exact ((h₁.append h₂).append h₃).append h₄ |>.append h₅ |>.append h₆ |>.append h₇ |>.append h₈

/-- The attributes in front of the sections. -/
theorem WellFormed.written_attributeLines (hd : d.WellFormed) (hc : d.Clean) :
    Written inFront d.opened d.attributeLines d.front := by
  let s₁ : SessionDescription := { d.opened with direction := d.direction }
  let s₂ : SessionDescription := { s₁ with iceUfrag := d.iceUfrag }
  let s₃ : SessionDescription := { s₂ with icePwd := d.icePwd }
  let s₄ : SessionDescription := { s₃ with iceOptions := d.iceOptions }
  let s₅ : SessionDescription := { s₄ with iceLite := d.iceLite }
  let s₆ : SessionDescription := { s₅ with fingerprints := d.fingerprints }
  let s₇ : SessionDescription := { s₆ with setup := d.setup }
  let s₈ : SessionDescription := { s₇ with extmapAllowMixed := d.extmapAllowMixed }
  let s₉ : SessionDescription := { s₈ with msidSemantic := d.msidSemantic }
  let s₁₀ : SessionDescription := { s₉ with groups := d.groups }
  let s₁₁ : SessionDescription := { s₁₀ with attributes := d.attributes }
  have h₁ : Written inFront d.opened _ s₁ := written_direction rfl
  have h₂ : Written inFront s₁ _ s₂ :=
    written_text (f := fun v => { s₁ with iceUfrag := v }) rfl (by decide) hd.iceUfrag .iceUfrag
  have h₃ : Written inFront s₂ _ s₃ :=
    written_text (f := fun v => { s₂ with icePwd := v }) rfl (by decide) hd.icePwd .icePwd
  have h₄ : Written inFront s₃ _ s₄ := written_iceOptions rfl hd.iceOptions
  have h₅ : Written inFront s₄ _ s₅ :=
    written_flag (f := fun p => { s₄ with iceLite := p }) rfl (by decide) (by decide) .iceLite
  have h₆ : Written inFront s₅ _ s₆ := written_fingerprints rfl hd.fingerprints
  have h₇ : Written inFront s₆ _ s₇ := written_setup rfl
  have h₈ : Written inFront s₇ _ s₈ :=
    written_flag (f := fun p => { s₇ with extmapAllowMixed := p }) rfl (by decide) (by decide)
      .extmapAllowMixed
  have h₉ : Written inFront s₈ _ s₉ := written_msidSemantic rfl hd.msidSemantic hc.semantic
  have h₁₀ : Written inFront s₉ _ s₁₀ := written_groups rfl hd.groups
  have h₁₁ : Written inFront s₁₀ _ s₁₁ := written_attributes rfl hd.attributes hc.attributes
  have h₁₂ : Written inFront s₁₁ _ { s₁₁ with candidates := d.candidates } :=
    written_candidates rfl hd.candidates
  have hfront : { s₁₁ with candidates := d.candidates } = d.front := by
    obtain ⟨hn, ht, ha⟩ : d.front.connNettype = [] ∧ d.front.connAddrtype = [] ∧
      d.front.connAddr = [] := hd.conn
    have hs : { s₁₁ with candidates := d.candidates } =
        { d.front with connNettype := [], connAddrtype := [], connAddr := [] } := rfl
    rw [hs]
    generalize d.front = r at hn ht ha
    cases r
    simp only at hn ht ha
    rw [hn, ht, ha]
  rw [← hfront]
  exact h₁.append h₂ |>.append h₃ |>.append h₄ |>.append h₅ |>.append h₆ |>.append h₇
    |>.append h₈ |>.append h₉ |>.append h₁₀ |>.append h₁₁ |>.append h₁₂

end SessionDescription

end AsioRtc
