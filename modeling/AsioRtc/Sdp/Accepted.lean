/-
# What is accepted is well formed

Every part of an accepted description is one that is read back: a trimmed text, a list
of words, an attribute that is well formed in the sense of `Sdp.ReadBack` and
`Sdp.Simulcast` (`SdpMedia.WellFormed`, `SessionDescription.WellFormed`).  The payload
types of a section are those of its codecs, in their order and each once, and no
feedback is there twice or behind a wildcard (`Apart`).

Each attribute keeps this (`MediaAttr.wellFormed`, `SessionAttr.wellFormed`), each line
does (`LineStep.wellFormed`), and so does a run over the lines of a text
(`parseSdp_wellFormed`).
-/

import AsioRtc.Sdp.Steps

namespace AsioRtc

open Lib Text

/-! ### Lists and feedback -/

/-- Neither of two feedbacks covers the other one. -/
def Apart (a b : SdpRtcpFb) : Prop :=
  SdpMedia.sameFeedback a b = true →
    a.payloadType ≠ none ∧ b.payloadType ≠ none ∧ a.payloadType ≠ b.payloadType

/-- Feedback that is added stays apart. -/
theorem addFeedback_apart {m : SdpMedia} (fb : SdpRtcpFb) (h : m.rtcpFbs.Pairwise Apart) :
    (m.addFeedback fb).rtcpFbs.Pairwise Apart := by
  unfold SdpMedia.addFeedback
  split
  · exact h
  split
  · rename_i pt hpt
    split
    · exact h
    · rename_i hnot
      refine List.pairwise_append.2 ⟨h, List.pairwise_singleton _ _, fun f hf g hg hsame => ?_⟩
      obtain rfl := List.mem_singleton.1 hg
      have hall : ¬ f.payloadType.all (· = pt) = true := fun hp =>
        hnot (List.any_eq_true.2 ⟨f, hf, by rw [hsame, hp]; rfl⟩)
      cases hfp : f.payloadType with
      | none => simp [hfp] at hall
      | some p => simpa [hfp, hpt] using hall
  · rename_i hpt
    refine List.pairwise_append.2 ⟨h.filter _, List.pairwise_singleton _ _,
      fun f hf g hg hsame => ?_⟩
    obtain rfl := List.mem_singleton.1 hg
    simp [hsame] at hf

/-- Feedback is the one added, or has been there. -/
theorem mem_addFeedback {m : SdpMedia} {fb f : SdpRtcpFb} (h : f ∈ (m.addFeedback fb).rtcpFbs) :
    f = fb ∨ f ∈ m.rtcpFbs := by
  unfold SdpMedia.addFeedback at h
  split at h
  · exact Or.inr h
  split at h
  · split at h
    · exact Or.inr h
    · simpa [or_comm] using h
  · rcases List.mem_append.1 h with h | h
    · exact Or.inr (List.mem_of_mem_filter h)
    · exact Or.inl (List.mem_singleton.1 h)

/-- The option words of the ICE agent: the first one does not begin with whitespace. -/
structure OptionWords (ws : List Text) : Prop where
  words : Words ws
  starts : ∀ w ∈ ws.head?, StartsClean w

/-- The options of two lines. -/
theorem OptionWords.append {us ws : List Text} (h : OptionWords us) (hw : OptionWords ws) :
    OptionWords (us ++ ws) where
  words := h.words.append hw.words
  starts w hm := by
    cases us with
    | nil => exact hw.starts w hm
    | cons u us => exact h.starts w hm

/-- A candidate line. -/
def CandidateText (c : Text) : Prop := ∃ v, c = "candidate:".toList ++ v ∧ Value v

variable [NoCaseEq]

/-- An attribute without a field of its own. -/
structure OtherAttr (known : List Text) (attr : Text × Text) : Prop where
  unknown : attr.1 ∉ known
  direction : parseSdpDirection attr.1 = none
  colon : ':' ∉ attr.1
  newline : '\n' ∉ attr.1
  value : Value attr.2

/-! ### Sections -/

/-- The formats are the payload types of the codecs; without a codec they are those of the media
line, which only a section for the data channels keeps. -/
inductive FormatsOf (type : SdpMediaType) (codecs : List SdpRtpmap) : SdpFormats → Prop
  | payloadTypes (hne : codecs ≠ []) :
      FormatsOf type codecs (.payloadTypes (codecs.map SdpRtpmap.payloadType))
  | strings {fmts : List Text} (hnil : codecs = []) (hne : fmts ≠ []) (ht : type = .application)
      (hf : ∀ f ∈ fmts, Token f) : FormatsOf type codecs (.strings fmts)
  | none (hnil : codecs = []) : FormatsOf type codecs .none

/-- A section that is read back. -/
structure SdpMedia.WellFormed (m : SdpMedia) : Prop where
  mid : Trimmed m.mid
  iceUfrag : Trimmed m.iceUfrag
  icePwd : Trimmed m.icePwd
  iceOptions : OptionWords m.iceOptions
  msids : ∀ a ∈ m.msids, a.WellFormed
  candidates : ∀ c ∈ m.candidates, CandidateText c
  fingerprints : ∀ a ∈ m.fingerprints, a.WellFormed
  rtcp : ∀ a ∈ m.rtcp, a.WellFormed
  extmaps : ∀ a ∈ m.extmaps, a.WellFormed
  rtpmaps : ∀ c ∈ m.rtpmaps, c.WellFormed
  payloads : (m.rtpmaps.map SdpRtpmap.payloadType).Nodup
  formats : FormatsOf m.mediaType m.rtpmaps m.formats
  rtcpFbs : ∀ fb ∈ m.rtcpFbs, fb.WellFormed
  feedback : m.rtcpFbs.Pairwise Apart
  ssrcs : ∀ a ∈ m.ssrcs, a.WellFormed
  ssrcGroups : ∀ a ∈ m.ssrcGroups, a.WellFormed
  cryptos : ∀ a ∈ m.cryptos, a.WellFormed
  simulcast : m.simulcast.WellFormed
  rids : ∀ a ∈ m.rids, a.WellFormed
  attributes : ∀ a ∈ m.attributes, OtherAttr mediaAttrNames a
  conn : m.connNettype = [] ∧ m.connAddrtype = [] ∧ m.connAddr = []

/-- A description that is read back. -/
structure SessionDescription.WellFormed (d : SessionDescription) : Prop where
  origin : d.origin.WellFormed
  sessionName : Value d.sessionName
  uri : Value d.uri
  email : Value d.email
  phoneNumber : Value d.phoneNumber
  conn : d.connNettype = [] ∧ d.connAddrtype = [] ∧ d.connAddr = []
  iceUfrag : Trimmed d.iceUfrag
  icePwd : Trimmed d.icePwd
  iceOptions : Words d.iceOptions
  fingerprints : ∀ a ∈ d.fingerprints, a.WellFormed
  msidSemantic : d.msidSemantic = {} ∨ Words (d.msidSemantic.semantic :: d.msidSemantic.streamIds)
  groups : ∀ a ∈ d.groups, a.WellFormed
  candidates : ∀ c ∈ d.candidates, CandidateText c
  attributes : ∀ a ∈ d.attributes, OtherAttr sessionAttrNames a
  medias : ∀ m ∈ d.medias, m.WellFormed
  msids : ∀ m ∈ d.medias.dropLast, checkMsid m = true

section Attributes

variable {m m' : SdpMedia} {s s' : SessionDescription} {name value : Text}

omit [NoCaseEq] in
/-- What holds of a list and of one more element. -/
theorem forall_mem_concat {α : Type} {P : α → Prop} {l : List α} {a : α} (h : ∀ x ∈ l, P x)
    (ha : P a) : ∀ x ∈ l ++ [a], P x := by
  intro x hx
  rcases List.mem_append.1 hx with hx | hx
  · exact h x hx
  · exact List.mem_singleton.1 hx ▸ ha

omit [NoCaseEq] in
/-- What a parser yields where it accepts. -/
theorem yields_some {α : Type} {x : Checked (Option α)} {P : α → Prop} {a : α}
    (hx : x.Yields fun r => ∀ a ∈ r, P a) (h : x = .ok (some a)) : P a := by
  obtain ⟨r, hr, hp⟩ := hx
  obtain rfl := Except.ok.inj (h.symm.trans hr)
  exact hp a rfl

omit [NoCaseEq] in
/-- The payload types of a section are those of its codecs. -/
theorem FormatsOf.payloadTypes_eq (h : FormatsOf m.mediaType m.rtpmaps m.formats) :
    m.payloadTypes = m.rtpmaps.map SdpRtpmap.payloadType := by
  rw [SdpMedia.payloadTypes]
  generalize m.formats = formats at h
  cases h with
  | payloadTypes hne => rfl
  | strings hnil hne ht hf => simp [hnil]
  | none hnil => simp [hnil]

/-- A section with one more codec. -/
theorem SdpMedia.WellFormed.addRtpmap {c : SdpRtpmap} (hm : m.WellFormed) (hc : c.WellFormed) :
    (m.addRtpmap c).WellFormed := by
  unfold SdpMedia.addRtpmap
  split
  · exact hm
  · rename_i hnew
    have hnew : ∀ d ∈ m.rtpmaps, d.payloadType ≠ c.payloadType := by
      simpa [SdpMedia.findRtpmap, List.find?_eq_none] using hnew
    have hformats : SdpFormats.payloadTypes (m.payloadTypes ++ [c.payloadType]) =
        .payloadTypes ((m.rtpmaps ++ [c]).map SdpRtpmap.payloadType) := by
      rw [hm.formats.payloadTypes_eq, List.map_append]
      rfl
    refine { hm with rtpmaps := forall_mem_concat hm.rtpmaps hc, payloads := ?_, formats := ?_ }
    · rw [List.map_append, List.map_singleton, List.nodup_append]
      refine ⟨hm.payloads, List.nodup_singleton _, fun a ha b hb => ?_⟩
      obtain ⟨d, hd, rfl⟩ := List.mem_map.1 ha
      exact List.mem_singleton.1 hb ▸ hnew d hd
    · rw [hformats]
      exact .payloadTypes (by simp)

omit [NoCaseEq] in
/-- The codec whose parameters are set. -/
theorem setParams_eq {pre post : List SdpRtpmap} {c : SdpRtpmap} (params : Text)
    (h : m.rtpmaps = pre ++ c :: post) (hpre : ∀ d ∈ pre, d.payloadType ≠ c.payloadType) :
    m.setParams c.payloadType params =
      { m with rtpmaps := pre ++ { c with params := params } :: post } := by
  have hlen : pre.findIdx (fun d => d.payloadType = c.payloadType) = pre.length :=
    List.findIdx_eq_length_of_false (by simpa using hpre)
  have hidx : m.rtpmaps.findIdx (fun d => d.payloadType = c.payloadType) = pre.length := by
    rw [h, List.findIdx_append, hlen, if_neg (lt_irrefl _), List.findIdx_cons]
    simp
  have hfind : m.findRtpmap c.payloadType = some c := by
    rw [SdpMedia.findRtpmap, h, List.find?_append, List.find?_eq_none.2 (by simpa using hpre)]
    simp
  rw [SdpMedia.setParams, hidx, hfind, h]
  simp

omit [NoCaseEq] in
/-- The codec that is found is the first one with its payload type. -/
theorem exists_of_findRtpmap {pt : U8} (h : (m.findRtpmap pt).isSome = true) :
    ∃ pre c post, m.rtpmaps = pre ++ c :: post ∧ c.payloadType = pt ∧
      ∀ d ∈ pre, d.payloadType ≠ c.payloadType := by
  obtain ⟨c, hc⟩ := Option.isSome_iff_exists.1 h
  obtain ⟨hpt, pre, post, hsplit, hpre⟩ := List.find?_eq_some_iff_append.1 hc
  obtain rfl : c.payloadType = pt := by simpa using hpt
  exact ⟨pre, c, post, hsplit, rfl, by simpa using hpre⟩

/-- A section whose codec gets parameters. -/
theorem SdpMedia.WellFormed.setParams {pt : U8} {params : Text} (hm : m.WellFormed)
    (h : (m.findRtpmap pt).isSome = true) (hp : Trimmed params) :
    (m.setParams pt params).WellFormed := by
  obtain ⟨pre, c, post, hsplit, rfl, hpre⟩ := exists_of_findRtpmap h
  have hset : (m.setParams c.payloadType params).rtpmaps = _ :=
    congrArg SdpMedia.rtpmaps (setParams_eq params hsplit hpre)
  have hpts : (m.setParams c.payloadType params).rtpmaps.map SdpRtpmap.payloadType =
      m.rtpmaps.map SdpRtpmap.payloadType := by
    rw [hset, hsplit]
    simp
  have hc := hm.rtpmaps c (by simp [hsplit])
  refine { hm with rtpmaps := fun d hd => ?_, payloads := ?_, formats := ?_ }
  · rw [hset] at hd
    rcases List.mem_append.1 hd with hd | hd
    · exact hm.rtpmaps d (by simp [hsplit, hd])
    rcases List.mem_cons.1 hd with rfl | hd
    · exact { hc with params := hp }
    · exact hm.rtpmaps d (by simp [hsplit, hd])
  · rw [hpts]
    exact hm.payloads
  · have hformats : (m.setParams c.payloadType params).formats = m.formats := rfl
    have hne : m.rtpmaps ≠ [] := by simp [hsplit]
    have hold := hm.formats
    rw [hformats]
    generalize m.formats = formats at hold
    cases hold with
    | payloadTypes _ =>
      rw [← hpts]
      exact .payloadTypes (by simp [hset])
    | strings hnil _ _ _ => exact absurd hnil hne
    | none hnil => exact absurd hnil hne

/-- A section with more feedback. -/
theorem SdpMedia.WellFormed.addFeedback {fb : SdpRtcpFb} (hm : m.WellFormed)
    (hfb : fb.WellFormed) : (m.addFeedback fb).WellFormed := by
  have hfbs : ∀ f ∈ (m.addFeedback fb).rtcpFbs, f.WellFormed := by
    intro f hf
    rcases mem_addFeedback hf with rfl | hf
    · exact hfb
    · exact hm.rtcpFbs f hf
  rw [m.addFeedback_frame fb]
  exact { hm with rtcpFbs := hfbs, feedback := addFeedback_apart fb hm.feedback }

/-- **An attribute keeps a section well formed.** -/
theorem MediaAttr.wellFormed (h : MediaAttr m value name m') (hm : m.WellFormed)
    (hc : ':' ∉ name) (hn : '\n' ∉ name) (hv : Value value) : m'.WellFormed := by
  cases h with
  | rtpmap h => exact hm.addRtpmap (yields_some (parseRtpmap_yields hv) h).1
  | fmtp hcut hpt h => exact hm.setParams h (hv.cutOff hcut).2.2.1.trimmed
  | rtcpFb h => exact hm.addFeedback (yields_some (parseRtcpfb_yields hv) h)
  | extmap h =>
    exact { hm with extmaps := forall_mem_concat hm.extmaps (yields_some (parseExtmap_yields hv) h) }
  | ssrc h =>
    exact { hm with ssrcs := forall_mem_concat hm.ssrcs (yields_some (parseSsrc_yields hv) h) }
  | ssrcGroup h =>
    exact { hm with
      ssrcGroups := forall_mem_concat hm.ssrcGroups (yields_some (parseSsrcGroup_yields hv) h) }
  | rtcp h =>
    refine { hm with rtcp := fun a ha => ?_ }
    obtain rfl := Option.some.inj ha
    exact parseRtcp_wellFormed h
  | mid h => exact { hm with mid := hv.trimmed }
  | msid h =>
    obtain ⟨a, ha, hwf⟩ := parseMsid_yields hv
    obtain rfl := Except.ok.inj (h.symm.trans ha)
    exact { hm with msids := forall_mem_concat hm.msids hwf }
  | iceUfrag h => exact { hm with iceUfrag := hv.trimmed }
  | icePwd h => exact { hm with icePwd := hv.trimmed }
  | iceOptions h =>
    have hopts : OptionWords (words (strip value)) :=
      ⟨.of_value hv.stripped, fun w hw => startsClean_words (startsClean_strip value) hw⟩
    exact { hm with iceOptions := hm.iceOptions.append hopts }
  | candidate =>
    exact { hm with candidates := forall_mem_concat hm.candidates ⟨value, rfl, hv⟩ }
  | endOfCandidates => exact { hm with }
  | fingerprint h =>
    exact { hm with
      fingerprints := forall_mem_concat hm.fingerprints
        (yields_some (parseFingerprint_wellFormed hv) h) }
  | setup h => exact { hm with }
  | crypto h =>
    exact { hm with cryptos := forall_mem_concat hm.cryptos (parseCrypto_wellFormed hv h) }
  | rtcpMux => exact { hm with }
  | rtcpMuxOnly => exact { hm with }
  | rtcpRsize => exact { hm with }
  | extmapAllowMixed => exact { hm with }
  | sctpPort h => exact { hm with }
  | maxMessageSize h => exact { hm with }
  | simulcast h => exact { hm with simulcast := parseSimulcast_wellFormed hv.newline h }
  | rid h =>
    exact { hm with rids := forall_mem_concat hm.rids (yields_some (parseRid_yields hv) h) }
  | direction hname h => exact { hm with }
  | other hname h =>
    exact { hm with attributes := forall_mem_concat hm.attributes ⟨hname, h, hc, hn, hv⟩ }

/-- **An attribute keeps a description well formed.** -/
theorem SessionAttr.wellFormed (h : SessionAttr s value name s') (hs : s.WellFormed)
    (hc : ':' ∉ name) (hn : '\n' ∉ name) (hv : Value value) : s'.WellFormed := by
  cases h with
  | group h =>
    exact { hs with groups := forall_mem_concat hs.groups (yields_some (parseGroup_wellFormed hv) h) }
  | iceUfrag => exact { hs with iceUfrag := hv.trimmed }
  | icePwd => exact { hs with icePwd := hv.trimmed }
  | iceOptions => exact { hs with iceOptions := hs.iceOptions.append (.of_value hv) }
  | iceLite => exact { hs with }
  | candidate =>
    exact { hs with candidates := forall_mem_concat hs.candidates ⟨value, rfl, hv⟩ }
  | fingerprint h =>
    exact { hs with
      fingerprints := forall_mem_concat hs.fingerprints
        (yields_some (parseFingerprint_wellFormed hv) h) }
  | setup h => exact { hs with }
  | extmapAllowMixed => exact { hs with }
  | msidSemantic h =>
    have hw : Words (words value) := .of_value hv
    rw [parseMsidSemantic_words h] at hw
    exact { hs with msidSemantic := Or.inr hw }
  | direction hname h => exact { hs with }
  | other hname h =>
    exact { hs with attributes := forall_mem_concat hs.attributes ⟨hname, h, hc, hn, hv⟩ }

end Attributes

/-! ### Lines -/

section Lines

variable {st st' : ParseState} {line v : Text}

omit [NoCaseEq] in
/-- A line has no characters that it did not have with its carriage return. -/
theorem mem_of_mem_chomp {c : Char} (h : c ∈ chomp line) : c ∈ line := by
  unfold chomp at h
  split at h
  · exact List.mem_of_mem_dropLast h
  · exact h

omit [NoCaseEq] in
/-- A line has no newline. -/
theorem newline_not_mem_lines {s : Text} (h : line ∈ lines s) : '\n' ∉ line := by
  have hline : line ∈ (s.splitOn '\n').map chomp := by
    simp only [lines] at h
    split at h
    · exact List.mem_of_mem_dropLast h
    · exact h
  obtain ⟨l, hl, rfl⟩ := List.mem_map.1 hline
  intro hm
  have hm := mem_of_mem_chomp hm
  have hp : l ∈ pieces (· == '\n') s := List.mem_filter.2 ⟨hl, by simpa using List.ne_nil_of_mem hm⟩
  simpa using (mem_pieces l hp).2.1 _ hm

omit [NoCaseEq] in
/-- The value of a line. -/
theorem value_of_line {t : Char} (hl : strip line = t :: '=' :: v) (hn : '\n' ∉ line) : Value v := by
  have hline : Value (strip line) :=
    ⟨endsClean_strip line, fun hm => hn ((strip_within line).subset hm)⟩
  rw [hl] at hline
  exact hline.of_suffix ⟨[t, '='], rfl⟩

omit [NoCaseEq] in
/-- The name of an attribute and its value. -/
theorem attrParts_value (hv : Value v) :
    ':' ∉ (attrParts v).1 ∧ '\n' ∉ (attrParts v).1 ∧ Value (attrParts v).2 := by
  rw [attrParts]
  cases hc : cutOff v ':' with
  | none =>
    have hcolon : ':' ∉ v := by
      rw [← cutOff_isSome, hc]
      simp
    exact ⟨hcolon, hv.newline, .nil⟩
  | some p =>
    obtain ⟨hcolon, hnl, hval, -⟩ := hv.cutOff hc
    exact ⟨hcolon, hnl, hval⟩

omit [NoCaseEq] in
/-- The formats of a media line. -/
theorem foldl_addFormat (fmts : List Text) (m : SdpMedia) (hf : m.formats = .none) :
    fmts.foldl SdpMedia.addFormat m =
      { m with formats := if fmts = [] then .none else .strings fmts } := by
  have hstrings : ∀ (fmts fs : List Text) (m : SdpMedia), m.formats = .strings fs →
      fmts.foldl SdpMedia.addFormat m = { m with formats := .strings (fs ++ fmts) } := by
    intro fmts
    induction fmts with
    | nil =>
      intro fs m h
      rw [List.append_nil, ← h]
      rfl
    | cons f fmts ih =>
      intro fs m h
      have hadd : m.addFormat f = { m with formats := .strings (fs ++ [f]) } := by
        rw [SdpMedia.addFormat, h]
      rw [List.foldl_cons, ih (fs ++ [f]) _ (by rw [hadd]), hadd]
      simp
  cases fmts with
  | nil =>
    rw [if_pos rfl, ← hf]
    rfl
  | cons f fmts =>
    have hadd : m.addFormat f = { m with formats := .strings [f] } := by
      rw [SdpMedia.addFormat, hf]
    rw [List.foldl_cons, hstrings fmts [f] _ (by rw [hadd]), hadd, if_neg (by simp)]
    rfl

/-- **A new section.** -/
theorem parseMediaLine_yields (v : Text) :
    (parseMediaLine v).Yields fun r => ∀ m ∈ r, ∃ (type : SdpMediaType) (port : U16)
      (proto : SdpProto) (fmts : List Text), (∀ f ∈ fmts, Token f) ∧
      m = { mediaType := type, port := port, proto := proto,
            formats := if type = .application ∧ fmts ≠ [] then .strings fmts else .none } := by
  have hport : ∀ t, (parseMediaPort t).Yields fun _ => True := fun t => by
    unfold parseMediaPort
    split
    · exact Checked.yields_pure.2 trivial
    · rw [substr_take]
      exact Checked.yields_pure.2 trivial
  unfold parseMediaLine
  split
  · rename_i typeText portText protoText fmts hw
    have htokens : ∀ f ∈ fmts, Token f := fun f hf =>
      token_of_mem_streamWords (s := v) (by rw [hw]; simp [hf])
    split
    · simp
    rename_i type htype
    refine (hport portText).bind fun port _ => ?_
    split
    · simp
    rename_i port
    refine Checked.yields_pure.2 fun m hm => ?_
    obtain rfl := Option.some.inj hm
    refine ⟨type, port, (parseSdpProto protoText).getD .RTP_AVP, fmts, htokens, ?_⟩
    by_cases ht : type = .application
    · rw [if_pos ht, foldl_addFormat fmts _ rfl]
      by_cases hf : fmts = [] <;> simp [ht, hf]
    · simp [ht]
  · simp

/-- **A new section is well formed.** -/
theorem parseMediaLine_wellFormed {m : SdpMedia} (h : parseMediaLine v = .ok (some m)) :
    m.WellFormed := by
  obtain ⟨type, port, proto, fmts, htokens, rfl⟩ := yields_some (parseMediaLine_yields v) h
  have hformats : FormatsOf type []
      (if type = .application ∧ fmts ≠ [] then .strings fmts else .none) := by
    split
    · rename_i h
      exact .strings rfl h.2 h.1 htokens
    · exact .none rfl
  exact
    { mid := .nil, iceUfrag := .nil, icePwd := .nil, iceOptions := ⟨.nil, by simp⟩,
      msids := by simp, candidates := by simp, fingerprints := by simp, rtcp := by simp,
      extmaps := by simp, rtpmaps := by simp, payloads := by simp, formats := hformats,
      rtcpFbs := by simp, feedback := .nil, ssrcs := by simp, ssrcGroups := by simp,
      cryptos := by simp, simulcast := SdpSimulcast.wellFormed_empty, rids := by simp,
      attributes := by simp, conn := ⟨rfl, rfl, rfl⟩ }

/-- A line of the session part keeps a description well formed. -/
theorem SessionLine.wellFormed {s s' : SessionDescription} {t : Char} (h : SessionLine s v t s')
    (hs : s.WellFormed) (hv : Value v) : s'.WellFormed := by
  cases h with
  | version => exact { hs with }
  | origin => exact { hs with origin := parseOrigin_wellFormed v }
  | sessionName => exact { hs with sessionName := hv }
  | uri => exact { hs with uri := hv }
  | email => exact { hs with email := hv }
  | phoneNumber => exact { hs with phoneNumber := hv }
  | bandwidth h => exact { hs with }
  | attr h =>
    obtain ⟨hc, hn, hval⟩ := attrParts_value hv
    exact h.wellFormed hs hc hn hval
  | other ht => exact hs

/-- **A line keeps a description well formed.** -/
theorem LineStep.wellFormed (h : LineStep st line st') (hst : st.session.WellFormed)
    (hn : '\n' ∉ line) : st'.session.WellFormed := by
  cases h with
  | blank h => exact hst
  | media hl hcheck h =>
    refine { hst with medias := forall_mem_concat hst.medias (parseMediaLine_wellFormed h),
                      msids := ?_ }
    rw [List.dropLast_concat]
    intro m hm
    rcases List.eq_nil_or_concat st.session.medias with hnil | ⟨ms, last, hms⟩
    · simp [hnil] at hm
    · rw [List.concat_eq_append] at hms
      rw [hms] at hm hcheck
      have hmsids := hst.msids
      rw [hms, List.dropLast_concat] at hmsids
      rcases List.mem_append.1 hm with hm | hm
      · exact hmsids m hm
      · exact List.mem_singleton.1 hm ▸ hcheck last (by simp)
  | @attr v ms m m' hl hin hm h =>
    have hparts := attrParts_value (value_of_line hl hn)
    have hmedias := hst.medias
    have hmsids := hst.msids
    rw [hm] at hmedias hmsids
    have hm' : m'.WellFormed :=
      h.wellFormed (hmedias m (by simp)) hparts.1 hparts.2.1 hparts.2.2
    refine { hst with medias := forall_mem_concat (fun x hx => hmedias x (by simp [hx])) hm',
                      msids := ?_ }
    rw [List.dropLast_concat] at hmsids ⊢
    exact hmsids
  | ignored hl ht ha hin hm => exact hst
  | session hl ht hin h => exact h.wellFormed hst (value_of_line hl hn)

/-- An attribute leaves the type alone. -/
theorem SessionAttr.sdpType {s s' : SessionDescription} {name value : Text}
    (h : SessionAttr s value name s') : s'.sdpType = s.sdpType := by
  cases h <;> rfl

/-- The type is the one the parser is given. -/
theorem LineStep.sdpType (h : LineStep st line st') : st'.session.sdpType = st.session.sdpType := by
  cases h with
  | blank h => rfl
  | media hl hcheck h => rfl
  | attr hl hin hm h => rfl
  | ignored hl ht ha hin hm => rfl
  | session hl ht hin h =>
    cases h with
    | attr h => exact h.sdpType
    | _ => rfl

/-- The description that the parser starts with is well formed. -/
theorem wellFormed_empty (type : Text) : SessionDescription.WellFormed { sdpType := type } where
  origin := SdpOrigin.wellFormed_default
  sessionName := show Value "-".toList from ⟨by decide, by decide⟩
  uri := .nil
  email := .nil
  phoneNumber := .nil
  conn := ⟨rfl, rfl, rfl⟩
  iceUfrag := .nil
  icePwd := .nil
  iceOptions := .nil
  fingerprints := by simp
  msidSemantic := Or.inl rfl
  groups := by simp
  candidates := by simp
  attributes := by simp
  medias := by simp
  msids := by simp

/-- **What `parse_sdp` accepts is well formed.** -/
theorem parseSdp_wellFormed {sdp type : Text} {d : SessionDescription}
    (h : parseSdp sdp type = .ok (some d)) : d.WellFormed ∧ d.sdpType = type := by
  obtain ⟨-, st, hrun, rfl⟩ := parseSdp_iff.1 h
  exact hrun.invariant (P := fun st => st.session.WellFormed ∧ st.session.sdpType = type)
    (fun hmem hstep hst => ⟨hstep.wellFormed hst.1 (newline_not_mem_lines hmem),
      hstep.sdpType.trans hst.2⟩) ⟨wellFormed_empty type, rfl⟩

end Lines

end AsioRtc
