/-
# What is accepted of a text

A line of a section is accepted for what it says, and not for the lines in front of it;
the one exception is `a=fmtp`, which needs the codec of its payload type
(`exists_bodyRun_iff`).  So a text is accepted where its lines are, and the sections
that are checked agree on their track (`parseSdp_accepts_iff`).

`parseSdp_checksMsids_iff` says when two `a=msid` lines of one section with different
tracks reject the text: the check of a section is made at the `m=` line of the next one,
and nothing is behind the last.
-/

import AsioRtc.Sdp.Sections

namespace AsioRtc

open Lib Text

/-! ### What the lines of a section say -/

/-- The codec of a line. -/
def codecLine (line : Text) : Option SdpRtpmap := (lineAttr line).bind rtpmapOf

/-- The payload type and the parameters of an attribute. -/
def fmtpOf (attr : Text × Text) : Option (U8 × Text) :=
  (valueOf "fmtp".toList attr).bind fun v =>
    (cutOff v ' ').bind fun p => (parseUint 8 p.1).map fun pt => (pt, strip p.2)

/-- The parameters of a line. -/
def fmtpLine (line : Text) : Option (U8 × Text) := (lineAttr line).bind fmtpOf

/-- The stream identifiers of an attribute. -/
def msidOf (attr : Text × Text) : Option SdpMsid :=
  (valueOf "msid".toList attr).bind fun v => accepted (some <$> parseMsid v)

/-- The stream identifiers of a line. -/
def msidLine (line : Text) : Option SdpMsid := (lineAttr line).bind msidOf

/-- The parameters of a codec are behind the codec. -/
def FmtpsReady (codecs : U8 → Prop) (ls : List Text) : Prop :=
  ∀ pre line post, ls = pre ++ line :: post → ∀ f ∈ fmtpLine line,
    codecs f.1 ∨ ∃ c ∈ pre.filterMap codecLine, c.payloadType = f.1

/-- The stream identifiers of a section name one track. -/
def MsidsAgree (ls : List Text) : Prop :=
  ∀ a ∈ ls.filterMap msidLine, ∀ b ∈ ls.filterMap msidLine, a.trackId = b.trackId

instance (ls : List Text) : Decidable (MsidsAgree ls) :=
  inferInstanceAs (Decidable (∀ a ∈ ls.filterMap msidLine, ∀ b ∈ ls.filterMap msidLine, _))

variable [NoCaseEq]

/-- An attribute of a section that is accepted for what it says. -/
def attrAccepted (attr : Text × Text) : Bool :=
  if attr.1 = "fmtp".toList then (fmtpOf attr).isSome
  else (accepted (applyMediaAttr { mediaType := .audio } attr.1 attr.2)).isSome

/-- A line behind the first one of a section that is accepted for what it says. -/
def bodyLineAccepted (line : Text) : Bool :=
  match strip line with
  | [] => true
  | t :: '=' :: v => t ≠ 'a' || attrAccepted (attrParts v)
  | _ => false

/-! ### What is accepted -/

section Acceptance

variable {m m' : SdpMedia} {name value line : Text} {ls : List Text} {pt : U8}

omit [NoCaseEq] in
theorem isSome_accepted_iff {α : Type} {x : Checked (Option α)} :
    (accepted x).isSome = true ↔ ∃ a, x = .ok (some a) := by
  constructor
  · intro h
    match x, h with
    | .ok (some a), _ => exact ⟨a, rfl⟩
  · rintro ⟨a, rfl⟩
    rfl

/-- An attribute that is not for a codec is accepted in any state. -/
theorem MediaAttr.any_state (h : MediaAttr m value name m') (hn : name ≠ "fmtp".toList)
    (m₁ : SdpMedia) : ∃ m₂, MediaAttr m₁ value name m₂ := by
  cases h with
  | fmtp => exact absurd rfl hn
  | rtpmap h => exact ⟨_, .rtpmap h⟩
  | rtcpFb h => exact ⟨_, .rtcpFb h⟩
  | extmap h => exact ⟨_, .extmap h⟩
  | ssrc h => exact ⟨_, .ssrc h⟩
  | ssrcGroup h => exact ⟨_, .ssrcGroup h⟩
  | rtcp h => exact ⟨_, .rtcp h⟩
  | mid h => exact ⟨_, .mid h⟩
  | msid h => exact ⟨_, .msid h⟩
  | iceUfrag h => exact ⟨_, .iceUfrag h⟩
  | icePwd h => exact ⟨_, .icePwd h⟩
  | iceOptions h => exact ⟨_, .iceOptions h⟩
  | candidate => exact ⟨_, .candidate⟩
  | endOfCandidates => exact ⟨_, .endOfCandidates⟩
  | fingerprint h => exact ⟨_, .fingerprint h⟩
  | setup h => exact ⟨_, .setup h⟩
  | crypto h => exact ⟨_, .crypto h⟩
  | rtcpMux => exact ⟨_, .rtcpMux⟩
  | rtcpMuxOnly => exact ⟨_, .rtcpMuxOnly⟩
  | rtcpRsize => exact ⟨_, .rtcpRsize⟩
  | extmapAllowMixed => exact ⟨_, .extmapAllowMixed⟩
  | sctpPort h => exact ⟨_, .sctpPort h⟩
  | maxMessageSize h => exact ⟨_, .maxMessageSize h⟩
  | simulcast h => exact ⟨_, .simulcast h⟩
  | rid h => exact ⟨_, .rid h⟩
  | direction hn h => exact ⟨_, .direction hn h⟩
  | other hn h => exact ⟨_, .other hn h⟩

/-- What an attribute for a codec has read. -/
theorem MediaAttr.fmtp_read (h : MediaAttr m value name m') (hn : name = "fmtp".toList) :
    ∃ p params pt, cutOff value ' ' = some (p, params) ∧ parseUint 8 p = some pt ∧
      (m.findRtpmap pt).isSome = true := by
  cases h with
  | fmtp hcut hpt h => exact ⟨_, _, _, hcut, hpt, h⟩
  | direction hknown _ => exact absurd (hn ▸ by decide) hknown
  | other hknown _ => exact absurd (hn ▸ by decide) hknown
  | _ => exact absurd hn (by decide)

/-- **Which attributes a section accepts.** -/
theorem exists_mediaAttr_iff : (∃ m', MediaAttr m value name m') ↔
    attrAccepted (name, value) = true ∧ ∀ f ∈ fmtpOf (name, value), m.HasCodec f.1 := by
  by_cases hn : name = "fmtp".toList
  · subst hn
    have hof : fmtpOf ("fmtp".toList, value) = (cutOff value ' ').bind fun p =>
        (parseUint 8 p.1).map fun pt => (pt, strip p.2) := rfl
    have hacc : attrAccepted ("fmtp".toList, value) = (fmtpOf ("fmtp".toList, value)).isSome := rfl
    rw [hacc]
    constructor
    · rintro ⟨m', h⟩
      obtain ⟨p, params, pt, hcut, hpt, hfind⟩ := h.fmtp_read rfl
      rw [hof, hcut, Option.bind_some, hpt]
      refine ⟨rfl, fun f hf => ?_⟩
      obtain rfl := Option.some.inj hf
      exact findRtpmap_isSome_iff.1 hfind
    · rintro ⟨hsome, hcodec⟩
      obtain ⟨f, hf⟩ := Option.isSome_iff_exists.1 hsome
      have hcodec := hcodec f hf
      rw [hof] at hf
      obtain ⟨p, hcut, hf⟩ := Option.bind_eq_some_iff.1 hf
      obtain ⟨pt, hpt, rfl⟩ := Option.map_eq_some_iff.1 hf
      exact ⟨_, .fmtp hcut hpt (findRtpmap_isSome_iff.2 hcodec)⟩
  · have hnone : fmtpOf (name, value) = none := by
      rw [fmtpOf, valueOf_of_ne hn, Option.bind_none]
    rw [attrAccepted, if_neg hn, isSome_accepted_iff, hnone]
    simp only [applyMediaAttr_iff, Option.mem_def, reduceCtorEq, false_imp_iff, implies_true,
      and_true]
    constructor
    · rintro ⟨m', h⟩
      exact h.any_state hn _
    · rintro ⟨m', h⟩
      exact h.any_state hn _

/-- The stream identifiers behind an attribute. -/
theorem MediaAttr.msids_eq (h : MediaAttr m value name m') :
    m'.msids = m.msids ++ (msidOf (name, value)).toList := by
  have silent {n : Text} (hn : n ≠ "msid".toList) :
      m.msids = m.msids ++ (msidOf (n, value)).toList := by
    rw [msidOf, valueOf_of_ne hn, Option.bind_none, Option.toList_none, List.append_nil]
  cases h with
  | @msid a h =>
    have hread : msidOf ("msid".toList, value) = some a := accepted_ok (by rw [h]; rfl)
    rw [hread]
    rfl
  | rtpmap _ => exact (SdpMedia.addRtpmap_msids ..).trans (silent (by decide))
  | rtcpFb _ => exact (SdpMedia.addFeedback_msids ..).trans (silent (by decide))
  | direction hn h => exact silent fun h => hn (h ▸ by decide)
  | other hn h => exact silent fun h => hn (h ▸ by decide)
  | _ => exact silent (by decide)

omit [NoCaseEq] in
theorem fmtpsReady_cons_iff {codecs : U8 → Prop} :
    FmtpsReady codecs (line :: ls) ↔ (∀ f ∈ fmtpLine line, codecs f.1) ∧
      FmtpsReady (fun pt => codecs pt ∨ ∃ c ∈ codecLine line, c.payloadType = pt) ls := by
  constructor
  · intro h
    refine ⟨fun f hf => ?_, fun pre l post hls f hf => ?_⟩
    · rcases h [] line ls rfl f hf with h | ⟨c, hc, -⟩
      · exact h
      · cases hc
    · rcases h (line :: pre) l post (by rw [hls]; rfl) f hf with h | ⟨c, hc, hpt⟩
      · exact Or.inl (Or.inl h)
      · obtain ⟨l', hl', hcl⟩ := List.mem_filterMap.1 hc
        rcases List.mem_cons.1 hl' with rfl | hl'
        · exact Or.inl (Or.inr ⟨c, hcl, hpt⟩)
        · exact Or.inr ⟨c, List.mem_filterMap.2 ⟨l', hl', hcl⟩, hpt⟩
  · rintro ⟨hline, hrest⟩ pre l post hls f hf
    cases pre with
    | nil =>
      obtain ⟨rfl, -⟩ := List.cons.inj hls
      exact Or.inl (hline f hf)
    | cons l' pre =>
      obtain ⟨rfl, hsplit⟩ := List.cons.inj hls
      rcases hrest pre l post hsplit f hf with (h | ⟨c, hc, hpt⟩) | ⟨c, hc, hpt⟩
      · exact Or.inl h
      · exact Or.inr ⟨c, List.mem_filterMap.2 ⟨line, List.mem_cons_self .., hc⟩, hpt⟩
      · obtain ⟨l', hl', hcl⟩ := List.mem_filterMap.1 hc
        exact Or.inr ⟨c, List.mem_filterMap.2 ⟨l', List.mem_cons_of_mem _ hl', hcl⟩, hpt⟩

/-- **Which lines a section accepts.** -/
theorem exists_bodyStep_iff : (∃ m', BodyStep m line m') ↔
    bodyLineAccepted line = true ∧ ∀ f ∈ fmtpLine line, m.HasCodec f.1 := by
  have other (hattr : lineAttr line = none) : ∀ f ∈ fmtpLine line, m.HasCodec f.1 := by
    simp [fmtpLine, hattr]
  match hl : strip line with
  | [] =>
    exact iff_of_true ⟨m, .blank hl⟩ ⟨by rw [bodyLineAccepted, hl], other (by simp [lineAttr, hl])⟩
  | [t] =>
    refine iff_of_false ?_ fun h => by simp [bodyLineAccepted, hl] at h
    rintro ⟨m', h | h | h⟩ <;> simp_all
  | t :: e :: v =>
    by_cases he : e = '='
    · subst he
      have hacc : bodyLineAccepted line = (t ≠ 'a' || attrAccepted (attrParts v)) := by
        rw [bodyLineAccepted, hl]
        rfl
      rw [hacc]
      by_cases ha : t = 'a'
      · subst ha
        have hfmtp : fmtpLine line = fmtpOf (attrParts v) := by
          rw [fmtpLine, lineAttr_eq_some hl]
          rfl
        have hiff : (∃ m', MediaAttr m (attrParts v).2 (attrParts v).1 m') ↔
            attrAccepted (attrParts v) = true ∧ ∀ f ∈ fmtpOf (attrParts v), m.HasCodec f.1 :=
          exists_mediaAttr_iff
        simp only [ne_eq, not_true_eq_false, decide_false, Bool.false_or]
        rw [hfmtp, ← hiff]
        constructor
        · rintro ⟨m', h⟩
          cases h with
          | blank h => rw [hl] at h; cases h
          | attr hl' h =>
            obtain ⟨-, -, rfl⟩ : True ∧ True ∧ v = _ := by rw [hl] at hl'; simpa using hl'
            exact ⟨m', h⟩
          | ignored hl' ha =>
            rw [hl] at hl'
            exact absurd (List.cons.inj hl').1.symm ha
        · rintro ⟨m', h⟩
          exact ⟨m', .attr hl h⟩
      · exact iff_of_true ⟨m, .ignored hl ha⟩ ⟨by simp [ha], other (lineAttr_eq_none hl ha)⟩
    · refine iff_of_false ?_ fun h => by simp [bodyLineAccepted, hl, he] at h
      have hne {t' : Char} {v' : Text} (h : strip line = t' :: '=' :: v') : False := by
        rw [hl] at h
        exact he (List.cons.inj (List.cons.inj h).2).1
      rintro ⟨m', h⟩
      cases h with
      | blank h => rw [hl] at h; cases h
      | attr hl' _ => exact hne hl'
      | ignored hl' _ => exact hne hl'

/-- The codecs behind a line. -/
theorem BodyStep.hasCodec_iff (h : BodyStep m line m') :
    m'.HasCodec pt ↔ m.HasCodec pt ∨ ∃ c ∈ codecLine line, c.payloadType = pt := by
  have other (hattr : lineAttr line = none) :
      m.HasCodec pt ↔ m.HasCodec pt ∨ ∃ c ∈ codecLine line, c.payloadType = pt := by
    simp [codecLine, hattr]
  cases h with
  | blank h => exact other (by simp [lineAttr, h])
  | attr hl h =>
    rw [codecLine, lineAttr_eq_some hl]
    exact h.hasCodec_iff
  | ignored hl ha => exact other (lineAttr_eq_none hl ha)

/-- **When a section is accepted**: its lines are, and the parameters of a codec are behind it. -/
theorem exists_bodyRun_iff : (∃ m', BodyRun m ls m') ↔
    (∀ line ∈ ls, bodyLineAccepted line = true) ∧ FmtpsReady m.HasCodec ls := by
  induction ls generalizing m with
  | nil => exact iff_of_true ⟨m, .nil m⟩ ⟨by simp, fun pre _ _ h => by simp at h⟩
  | cons line ls ih =>
    have hcons : (∃ m', BodyRun m (line :: ls) m') ↔
        ∃ m₁, BodyStep m line m₁ ∧ ∃ m', BodyRun m₁ ls m' := by
      constructor
      · rintro ⟨m', h⟩
        cases h with
        | cons h hrun => exact ⟨_, h, m', hrun⟩
      · rintro ⟨m₁, h, m', hrun⟩
        exact ⟨m', .cons h hrun⟩
    rw [hcons, List.forall_mem_cons, fmtpsReady_cons_iff]
    have hready {m₁ : SdpMedia} (h : BodyStep m line m₁) : m₁.HasCodec =
        fun pt => m.HasCodec pt ∨ ∃ c ∈ codecLine line, c.payloadType = pt :=
      funext fun pt => propext h.hasCodec_iff
    constructor
    · rintro ⟨m₁, h, hrun⟩
      obtain ⟨hline, hfmtp⟩ := exists_bodyStep_iff.1 ⟨m₁, h⟩
      obtain ⟨hls, hrest⟩ := ih.1 hrun
      exact ⟨⟨hline, hls⟩, hfmtp, hready h ▸ hrest⟩
    · rintro ⟨⟨hline, hls⟩, hfmtp, hrest⟩
      obtain ⟨m₁, h⟩ := exists_bodyStep_iff.2 ⟨hline, hfmtp⟩
      exact ⟨m₁, h, ih.2 ⟨hls, (hready h).symm ▸ hrest⟩⟩

/-- The stream identifiers behind the lines. -/
theorem BodyRun.msids_eq (h : BodyRun m ls m') :
    m'.msids = m.msids ++ ls.filterMap msidLine := by
  have hattrs := h.of_attrs
    (P := fun m' attrs => m'.msids = m.msids ++ attrs.filterMap msidOf)
    (fun _ _ h hm => by rw [h.msids_eq, hm, filterMap_concat, List.append_assoc]) (by simp)
  rwa [List.filterMap_filterMap] at hattrs

/-- The first line of a section is accepted. -/
def mediaLineAccepted (line : Text) : Bool :=
  match strip line with
  | 'm' :: '=' :: v => (accepted (parseMediaLine v)).isSome
  | _ => false

omit [NoCaseEq] in
theorem checkMsid_iff : checkMsid m = true ↔ ∀ a ∈ m.msids, ∀ b ∈ m.msids, a.trackId = b.trackId := by
  unfold checkMsid
  split
  · rename_i h
    simp [h]
  · rename_i first rest h
    rw [h, List.all_eq_true]
    simp only [decide_eq_true_eq]
    constructor
    · intro hall
      have hfirst : ∀ a ∈ first :: rest, a.trackId = first.trackId :=
        List.forall_mem_cons.2 ⟨rfl, hall⟩
      exact fun a ha b hb => (hfirst a ha).trans (hfirst b hb).symm
    · exact fun h a ha => h a (List.mem_cons_of_mem _ ha) first (List.mem_cons_self ..)

/-- **When a section is accepted on its own.** -/
theorem exists_sectionRun_iff {sec : Text × List Text} : (∃ m, SectionRun sec m) ↔
    mediaLineAccepted sec.1 = true ∧ (∀ line ∈ sec.2, bodyLineAccepted line = true) ∧
      FmtpsReady (fun _ => False) sec.2 := by
  have hstart {v : Text} {m₀ : SdpMedia} (h : parseMediaLine v = .ok (some m₀)) :
      m₀.HasCodec = fun _ => False := by
    obtain ⟨type, port, proto, fmts, -, rfl⟩ := yields_some (parseMediaLine_yields v) h
    exact funext fun pt => by simp [SdpMedia.HasCodec]
  constructor
  · rintro ⟨m, v, m₀, hl, hparse, hrun⟩
    have hmedia : mediaLineAccepted sec.1 = true := by
      rw [mediaLineAccepted, hl]
      exact isSome_accepted_iff.2 ⟨m₀, hparse⟩
    exact ⟨hmedia, hstart hparse ▸ exists_bodyRun_iff.1 ⟨m, hrun⟩⟩
  · rintro ⟨hmedia, hbody⟩
    unfold mediaLineAccepted at hmedia
    split at hmedia
    · rename_i v hl
      obtain ⟨m₀, hparse⟩ := isSome_accepted_iff.1 hmedia
      obtain ⟨m, hrun⟩ := exists_bodyRun_iff.2 ((hstart hparse).symm ▸ hbody)
      exact ⟨m, v, m₀, hl, hparse, hrun⟩
    · cases hmedia

theorem SectionRun.checkMsid_iff {sec : Text × List Text} (h : SectionRun sec m) :
    checkMsid m = true ↔ MsidsAgree sec.2 := by
  obtain ⟨v, m₀, -, hparse, hrun⟩ := h
  obtain ⟨type, port, proto, fmts, -, rfl⟩ := yields_some (parseMediaLine_yields v) hparse
  rw [AsioRtc.checkMsid_iff, hrun.msids_eq, List.nil_append, MsidsAgree]

/-! ### The whole text -/

variable {st st' : ParseState} {sdp type : Text}

/-- A line of the session part is accepted. -/
def FrontAccepted (line : Text) : Prop :=
  sessionLineAccepted (strip line) = true ∧ ¬ BareMsidSemantic line

theorem exists_frontStep_iff (hin : st.inMedia = false) (hm : isMediaLine line = false) :
    (∃ st', LineStep st line st') ↔ FrontAccepted line := by
  have hline := parseLine_session hin line
  rw [FrontAccepted]
  by_cases hbare : BareMsidSemantic line
  · rw [if_pos hbare] at hline
    refine iff_of_false ?_ fun h => h.2 hbare
    rintro ⟨st', h⟩
    exact hline ⟨_, parseLine_iff.2 h⟩
  · rw [if_neg hbare] at hline
    obtain ⟨r, hr, hline⟩ := hline
    by_cases hacc : sessionLineAccepted (strip line) = true
    · rw [if_pos hacc] at hline
      obtain ⟨st', rfl, -⟩ := hline
      exact iff_of_true ⟨st', parseLine_iff.1 hr⟩ ⟨hacc, hbare⟩
    · rw [if_neg hacc] at hline
      refine iff_of_false ?_ fun h => hacc h.1
      rintro ⟨st', h⟩
      have hsome := Except.ok.inj (hr.symm.trans (parseLine_iff.2 h))
      have hsection := (hline st' hsome).1
      rw [(h.front hin hm).1] at hsection
      cases hsection

/-- **When the session part is accepted.** -/
theorem exists_frontRun_iff (hin : st.inMedia = false) (hms : st.session.medias = [])
    (hm : ∀ l ∈ ls, isMediaLine l = false) :
    (∃ s, LineRun st ls ⟨s, false⟩) ↔ ∀ line ∈ ls, FrontAccepted line := by
  induction ls generalizing st with
  | nil =>
    refine iff_of_true ⟨st.session, ?_⟩ (by simp)
    rw [← hin]
    exact .nil st
  | cons line ls ih =>
    obtain ⟨hline, hls⟩ := List.forall_mem_cons.1 hm
    rw [List.forall_mem_cons]
    constructor
    · rintro ⟨s, h⟩
      cases h with
      | cons h hrun =>
        obtain ⟨hin₁, hms₁⟩ := h.front hin hline
        exact ⟨(exists_frontStep_iff hin hline).1 ⟨_, h⟩, (ih hin₁ (hms₁.trans hms) hls).1 ⟨s, hrun⟩⟩
    · rintro ⟨hacc, hrest⟩
      obtain ⟨st₁, h⟩ := (exists_frontStep_iff hin hline).2 hacc
      obtain ⟨hin₁, hms₁⟩ := h.front hin hline
      obtain ⟨s, hrun⟩ := (ih hin₁ (hms₁.trans hms) hls).2 hrest
      exact ⟨s, .cons h hrun⟩

/-- **Every line of a text is accepted for itself**, and the parameters of a codec are behind it. -/
structure LinesAccepted (sdp : Text) : Prop where
  ne_nil : lines sdp ≠ []
  front : ∀ line ∈ (sectionLines (lines sdp)).1, FrontAccepted line
  media : ∀ sec ∈ (sectionLines (lines sdp)).2, mediaLineAccepted sec.1 = true
  body : ∀ sec ∈ (sectionLines (lines sdp)).2, ∀ line ∈ sec.2, bodyLineAccepted line = true
  fmtps : ∀ sec ∈ (sectionLines (lines sdp)).2, FmtpsReady (fun _ => False) sec.2

omit [NoCaseEq] in
theorem exists_forall₂_iff {α β : Type} {R : α → β → Prop} {l : List α} :
    (∃ l', List.Forall₂ R l l') ↔ ∀ a ∈ l, ∃ b, R a b := by
  induction l with
  | nil => exact iff_of_true ⟨[], .nil⟩ (by simp)
  | cons a l ih =>
    rw [List.forall_mem_cons, ← ih]
    constructor
    · rintro ⟨_, h⟩
      cases h with
      | cons h hrest => exact ⟨⟨_, h⟩, _, hrest⟩
    · rintro ⟨⟨b, h⟩, l', hrest⟩
      exact ⟨b :: l', .cons h hrest⟩

/-- The check of all sections but the last. -/
theorem checks_iff {secs : List (Text × List Text)} {ms : List SdpMedia}
    (h : List.Forall₂ SectionRun secs ms) :
    (∀ x ∈ ms.dropLast, checkMsid x = true) ↔ ∀ sec ∈ secs.dropLast, MsidsAgree sec.2 := by
  induction h with
  | nil => simp
  | @cons sec m secs ms h hrest ih =>
    cases hrest with
    | nil => simp
    | cons h' hrest =>
      rw [List.dropLast_cons_cons, List.dropLast_cons_cons, List.forall_mem_cons,
        List.forall_mem_cons, h.checkMsid_iff, ih]

/-- **Which texts `parse_sdp` accepts**: those whose lines are accepted, where every section but the
last names one track. -/
theorem parseSdp_accepts_iff : (∃ d, parseSdp sdp type = .ok (some d)) ↔
    LinesAccepted sdp ∧ ∀ sec ∈ (sectionLines (lines sdp)).2.dropLast, MsidsAgree sec.2 := by
  have hfront : (∃ s, LineRun ⟨{ sdpType := type }, false⟩ (sectionLines (lines sdp)).1 ⟨s, false⟩) ↔
      ∀ line ∈ (sectionLines (lines sdp)).1, FrontAccepted line :=
    exists_frontRun_iff rfl rfl not_media_of_front
  have hsecs := exists_forall₂_iff (R := SectionRun) (l := (sectionLines (lines sdp)).2)
  constructor
  · rintro ⟨d, h⟩
    obtain ⟨hne, s, ms, hrun, hrest, hchecks, -⟩ := parseSdp_sections_iff.1 h
    have hsec := fun sec hsec => exists_sectionRun_iff.1 (hsecs.1 ⟨ms, hrest⟩ sec hsec)
    exact ⟨⟨hne, hfront.1 ⟨s, hrun⟩, fun sec hm => (hsec sec hm).1, fun sec hm => (hsec sec hm).2.1,
      fun sec hm => (hsec sec hm).2.2⟩, (checks_iff hrest).1 hchecks⟩
  · rintro ⟨h, hagree⟩
    obtain ⟨s, hrun⟩ := hfront.2 h.front
    obtain ⟨ms, hrest⟩ := hsecs.2 fun sec hm =>
      exists_sectionRun_iff.2 ⟨h.media sec hm, h.body sec hm, h.fmtps sec hm⟩
    exact ⟨_, parseSdp_sections_iff.2 ⟨h.ne_nil, s, ms, hrun, hrest, (checks_iff hrest).2 hagree, rfl⟩⟩

/-- A text is rejected where it is neither accepted nor makes a fault. -/
theorem parseSdp_rejects_iff : parseSdp sdp type = .ok none ↔
    ¬ MsidSemanticReached sdp ∧ ¬ ∃ d, parseSdp sdp type = .ok (some d) := by
  rw [← parseSdp_safe_iff sdp type]
  constructor
  · intro h
    exact ⟨⟨none, h⟩, fun ⟨d, hd⟩ => by simp [h] at hd⟩
  · rintro ⟨⟨r, hr⟩, hnot⟩
    cases r with
    | none => exact hr
    | some d => exact absurd ⟨d, hr⟩ hnot

/-! ### The check of the stream identifiers -/

/-- **The check of the stream identifiers**: two tracks in one section reject a text, and where
each section names one track the check rejects none. -/
structure ChecksMsids (sdp type : Text) : Prop where
  rejects : (∃ sec ∈ (sectionLines (lines sdp)).2, ¬ MsidsAgree sec.2) →
    parseSdp sdp type = .ok none
  accepts : (∀ sec ∈ (sectionLines (lines sdp)).2, MsidsAgree sec.2) → LinesAccepted sdp →
    ∃ d, parseSdp sdp type = .ok (some d)

/-- **When two tracks in one section reject the text**: it makes no fault in the session part, and
the two are not only in the last section, or a line of the text is not accepted anyway. -/
theorem parseSdp_checksMsids_iff (sdp type : Text) : ChecksMsids sdp type ↔
    (∀ sec ∈ (sectionLines (lines sdp)).2, MsidsAgree sec.2) ∨ ¬ MsidSemanticReached sdp ∧
      ((∃ sec ∈ (sectionLines (lines sdp)).2.dropLast, ¬ MsidsAgree sec.2) ∨
        ¬ LinesAccepted sdp) := by
  have hreject : parseSdp sdp type = .ok none ↔ ¬ MsidSemanticReached sdp ∧
      ((∃ sec ∈ (sectionLines (lines sdp)).2.dropLast, ¬ MsidsAgree sec.2) ∨
        ¬ LinesAccepted sdp) := by
    rw [parseSdp_rejects_iff, parseSdp_accepts_iff, not_and_or, or_comm]
    simp only [not_forall, exists_prop]
  rw [← hreject]
  constructor
  · intro h
    by_cases hall : ∀ sec ∈ (sectionLines (lines sdp)).2, MsidsAgree sec.2
    · exact Or.inl hall
    · simp only [not_forall, exists_prop] at hall
      exact Or.inr (h.rejects hall)
  · intro h
    refine ⟨fun ⟨sec, hsec, hnot⟩ => ?_, fun hall hlines => ?_⟩
    · exact h.resolve_left fun hall => hnot (hall sec hsec)
    · exact parseSdp_accepts_iff.2 ⟨hlines, fun sec hsec => hall sec (List.dropLast_subset _ hsec)⟩

end Acceptance

/-- Two tracks in the only section. -/
def lastSectionText : Text :=
  "v=0\r\nm=audio 9 RTP/AVP 0\r\na=msid:s t\r\na=msid:s u\r\n".toList

omit [NoCaseEq] in
/-- **Two tracks in the last section** are accepted. -/
theorem parseSdp_lastMsids_accepted :
    ¬ @ChecksMsids asciiNoCase lastSectionText "offer".toList := by
  intro h
  have htwo : ∃ sec ∈ (sectionLines (lines lastSectionText)).2, ¬ MsidsAgree sec.2 := by decide
  have hreject := @ChecksMsids.rejects asciiNoCase _ _ h htwo
  have haccept : ∃ d, @parseSdp asciiNoCase lastSectionText "offer".toList = .ok (some d) :=
    ⟨_, rfl⟩
  obtain ⟨d, hd⟩ := haccept
  rw [hreject] at hd
  cases hd

end AsioRtc
