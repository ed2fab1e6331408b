/-
# The SDP parser

`apply_session_attr`, `apply_media_attr` and `do_parse` of `src/sdp.cpp`, over the
parsers of `Sdp.Attributes`.  The text is taken line by line; the lines before the
first `m=` belong to the session, the others to the last section so far.  A line
that does not parse rejects the whole description.

The parser ends and makes no fault on a text (`parseSdp_safe_iff`) unless the session
part has an `a=msid-semantic` line without a value, and no line before it is rejected:
there `parse_msid_semantic` takes the front of an empty list.  In a media section the
same line is an attribute like any other.
-/

import AsioRtc.Sdp.Attributes

namespace AsioRtc

open Lib Text

variable [NoCaseEq]

/-- `apply_session_attr`; `none` is `false`. -/
def applySessionAttr (session : SessionDescription) (name value : Text) :
    Checked (Option SessionDescription) :=
  if name = "group".toList then do
    let group ← parseGroup value
    pure (group.map fun g => { session with groups := session.groups ++ [g] })
  else if name = "ice-ufrag".toList then do
    let ufrag ← trim value
    pure (some { session with iceUfrag := ufrag })
  else if name = "ice-pwd".toList then do
    let pwd ← trim value
    pure (some { session with icePwd := pwd })
  else if name = "ice-options".toList then do
    let parts ← splitWhitespace value
    pure (some { session with iceOptions := session.iceOptions ++ parts })
  else if name = "ice-lite".toList then pure (some { session with iceLite := true })
  else if name = "candidate".toList then
    pure (some { session with
      candidates := session.candidates ++ ["candidate:".toList ++ value] })
  else if name = "fingerprint".toList then do
    let fp ← parseFingerprint value
    pure (fp.map fun fp => { session with fingerprints := session.fingerprints ++ [fp] })
  else if name = "setup".toList then
    pure ((parseSetupRole value).map fun role => { session with setup := some role })
  else if name = "extmap-allow-mixed".toList then
    pure (some { session with extmapAllowMixed := true })
  else if name = "msid-semantic".toList then do
    let ms ← parseMsidSemantic value
    pure (some { session with msidSemantic := ms })
  else
    match parseSdpDirection name with
    | some d => pure (some { session with direction := some d })
    | none => pure (some { session with attributes := session.attributes ++ [(name, value)] })

/-- The `fmtp` branch of `apply_media_attr`. -/
def applyFmtp (media : SdpMedia) (value : Text) : Checked (Option SdpMedia) := do
  match ← cut value ' ' with
  | none => pure none
  | some (ptText, params) =>
    match parseUint 8 ptText with
    | none => pure none
    | some pt =>
      if (media.findRtpmap pt).isSome then do
        let params ← trim params
        pure (some (media.setParams pt params))
      else pure none

/-- `apply_media_attr`; `none` is `false`. -/
def applyMediaAttr (media : SdpMedia) (name value : Text) : Checked (Option SdpMedia) :=
  if name = "rtpmap".toList then do
    let rtpmap ← parseRtpmap value
    pure (rtpmap.map media.addRtpmap)
  else if name = "fmtp".toList then applyFmtp media value
  else if name = "rtcp-fb".toList then do
    let fb ← parseRtcpfb value
    pure (fb.map media.addFeedback)
  else if name = "extmap".toList then do
    let extmap ← parseExtmap value
    pure (extmap.map fun e => { media with extmaps := media.extmaps ++ [e] })
  else if name = "ssrc".toList then do
    let ssrc ← parseSsrc value
    pure (ssrc.map fun s => { media with ssrcs := media.ssrcs ++ [s] })
  else if name = "ssrc-group".toList then do
    let group ← parseSsrcGroup value
    pure (group.map fun g => { media with ssrcGroups := media.ssrcGroups ++ [g] })
  else if name = "rtcp".toList then
    pure ((parseRtcp value).map fun rtcp => { media with rtcp := some rtcp })
  else if name = "mid".toList then do
    let mid ← trim value
    pure (if mid ≠ [] then some { media with mid := mid } else none)
  else if name = "msid".toList then do
    let msid ← parseMsid value
    pure (some { media with msids := media.msids ++ [msid] })
  else if name = "ice-ufrag".toList then do
    let ufrag ← trim value
    pure (if ufrag ≠ [] then some { media with iceUfrag := ufrag } else none)
  else if name = "ice-pwd".toList then do
    let pwd ← trim value
    pure (if pwd ≠ [] then some { media with icePwd := pwd } else none)
  else if name = "ice-options".toList then do
    let opts ← trim value
    if opts = [] then pure none
    else do
      let parts ← splitWhitespace opts
      pure (some { media with iceOptions := media.iceOptions ++ parts })
  else if name = "candidate".toList then
    pure (some { media with candidates := media.candidates ++ ["candidate:".toList ++ value] })
  else if name = "end-of-candidates".toList then
    pure (some { media with endOfCandidates := true })
  else if name = "fingerprint".toList then do
    let fp ← parseFingerprint value
    pure (fp.map fun fp => { media with fingerprints := media.fingerprints ++ [fp] })
  else if name = "setup".toList then
    pure ((parseSetupRole value).map fun role => { media with setup := some role })
  else if name = "crypto".toList then
    pure ((parseCrypto value).map fun c => { media with cryptos := media.cryptos ++ [c] })
  else if name = "rtcp-mux".toList then pure (some { media with rtcpMux := true })
  else if name = "rtcp-mux-only".toList then pure (some { media with rtcpMuxOnly := true })
  else if name = "rtcp-rsize".toList then pure (some { media with rtcpRsize := true })
  else if name = "extmap-allow-mixed".toList then
    pure (some { media with extmapAllowMixed := true })
  else if name = "sctp-port".toList then
    pure ((parseUint 16 value).map fun port => { media with sctpPort := some port })
  else if name = "max-message-size".toList then
    pure ((parseUint 32 value).map fun size => { media with maxMessageSize := some size })
  else if name = "simulcast".toList then do
    let simulcast ← parseSimulcast value
    pure (some { media with simulcast := simulcast })
  else if name = "rid".toList then do
    let rid ← parseRid value
    pure (rid.map fun r => { media with rids := media.rids ++ [r] })
  else
    match parseSdpDirection name with
    | some d => pure (some { media with direction := d })
    | none => pure (some { media with attributes := media.attributes ++ [(name, value)] })

/-! ### Lines -/

/-- `parse_line_type_value`. -/
def parseLineTypeValue (line : Text) : Checked (Option (Char × Text)) :=
  if line.length < 2 then pure none
  else do
    let eq ← charAt line 1
    if eq ≠ '=' then pure none
    else do
      let type ← charAt line 0
      let value ← substr line 2
      pure (some (type, value))

/-- `split_attr`. -/
def splitAttr (attr : Text) : Checked (Text × Text) := do
  match ← cut attr ':' with
  | none => pure (attr, [])
  | some p => pure p

/-- The description so far, and `in_media`. -/
structure ParseState where
  session : SessionDescription
  inMedia : Bool := false

/-- An `m=` line. -/
def parseMediaSection (st : ParseState) (val : Text) : Checked (Option ParseState) :=
  if st.session.medias.getLast?.any fun m => !checkMsid m then pure none
  else do
    let m ← parseMediaLine val
    pure (m.map fun m =>
      ⟨{ st.session with medias := st.session.medias ++ [m] }, true⟩)

/-- A line of a media section. -/
def parseInMedia (st : ParseState) (type : Char) (val : Text) : Checked (Option ParseState) :=
  match st.session.medias.getLast? with
  | none => .error .back
  | some media =>
    if type = 'a' then do
      let (name, value) ← splitAttr val
      let media ← applyMediaAttr media name value
      pure (media.map fun media =>
        { st with session.medias := st.session.medias.dropLast ++ [media] })
    else pure (some st)

/-- A line of the session part. -/
def parseInSession (session : SessionDescription) (type : Char) (val : Text) :
    Checked (Option SessionDescription) :=
  if type = 'v' then
    pure (some { session with version := (parseUint 8 val).getD session.version })
  else if type = 'o' then pure (some { session with origin := parseOrigin val })
  else if type = 's' then pure (some { session with sessionName := val })
  else if type = 'u' then pure (some { session with uri := val })
  else if type = 'e' then pure (some { session with email := val })
  else if type = 'p' then pure (some { session with phoneNumber := val })
  else if type = 'b' then do
    let bw ← parseBandwidth val
    pure (bw.map fun bw => { session with bandwidths := session.bandwidths ++ [bw] })
  else if type = 'a' then do
    let (name, value) ← splitAttr val
    applySessionAttr session name value
  else pure (some session)

/-- One turn of the loop of `do_parse`; `none` rejects the text. -/
def parseLine (st : ParseState) (line : Text) : Checked (Option ParseState) := do
  let line ← trim line
  if line = [] then pure (some st)
  else
    match ← parseLineTypeValue line with
    | none => pure none
    | some (type, val) =>
      if type = 'm' then parseMediaSection st val
      else if st.inMedia then parseInMedia st type val
      else do
        let session ← parseInSession st.session type val
        pure (session.map fun session => { st with session := session })

/-- The loop of `do_parse`. -/
def parseLines (st : ParseState) : List Text → Checked (Option SessionDescription)
  | [] => pure (some st.session)
  | line :: rest => do
      match ← parseLine st line with
      | none => pure none
      | some st => parseLines st rest

/-- `do_parse`, and `parse_sdp`, which puts its result behind a pointer. -/
def parseSdp (sdp type : Text) : Checked (Option SessionDescription) := do
  let ls ← splitLines sdp
  if ls = [] then pure none else parseLines ⟨{ sdpType := type }, false⟩ ls

/-! ### Which lines are accepted -/

/-- What is before the first colon, and what is behind it. -/
def attrParts (attr : Text) : Text × Text := (cutOff attr ':').getD (attr, [])

/-- A session attribute that is accepted. -/
def sessionAttrAccepted (name value : Text) : Bool :=
  if name = "group".toList ∨ name = "fingerprint".toList then ' ' ∈ value
  else if name = "setup".toList then (parseSetupRole value).isSome
  else true

/-- A trimmed line of the session part that is accepted. -/
def sessionLineAccepted : Text → Bool
  | [] => true
  | type :: '=' :: val =>
      if type = 'm' then false
      else if type = 'b' then
        match parseBandwidth val with
        | .ok bw => bw.isSome
        | .error _ => false
      else if type = 'a' then sessionAttrAccepted (attrParts val).1 (attrParts val).2
      else true
  | _ => false

omit [NoCaseEq] in
theorem splitAttr_eq (attr : Text) : splitAttr attr = .ok (attrParts attr) := by
  rw [splitAttr, cut_eq, Checked.ok_bind, attrParts]
  cases cutOff attr ':' <;> rfl

/-- **What `apply_session_attr` does.**  It accepts what `sessionAttrAccepted` says; only
`msid-semantic` makes a fault, where its value has no word. -/
theorem applySessionAttr_yields (session : SessionDescription) {name value : Text}
    (h : name = "msid-semantic".toList → words value ≠ []) :
    (applySessionAttr session name value).Yields fun r =>
      r.isSome = sessionAttrAccepted name value := by
  by_cases hg : name = "group".toList
  · refine Checked.Yields.mono (P := fun r => r.isSome = true ↔ ' ' ∈ value) ?_ fun r hr => ?_
    · rw [applySessionAttr, if_pos hg]
      exact (parseGroup_yields value).bind fun r hr =>
        Checked.yields_pure.2 (by rwa [Option.isSome_map])
    · rw [sessionAttrAccepted, if_pos (Or.inl hg), Bool.eq_iff_iff, hr, decide_eq_true_iff]
  by_cases hf : name = "fingerprint".toList
  · refine Checked.Yields.mono (P := fun r => r.isSome = true ↔ ' ' ∈ value) ?_ fun r hr => ?_
    · simp only [applySessionAttr, hf]
      exact (parseFingerprint_yields value).bind fun r hr =>
        Checked.yields_pure.2 (by rwa [Option.isSome_map])
    · rw [sessionAttrAccepted, if_pos (Or.inr hf), Bool.eq_iff_iff, hr, decide_eq_true_iff]
  by_cases hs : name = "setup".toList
  · subst hs
    exact Checked.yields_pure.2 Option.isSome_map
  have hacc : sessionAttrAccepted name value = true := by
    rw [sessionAttrAccepted, if_neg (not_or.2 ⟨hg, hf⟩), if_neg hs]
  rw [hacc]
  by_cases hm : name = "msid-semantic".toList
  · have hms : (parseMsidSemantic value).Safe := by
      rw [parseMsidSemantic_eq]
      cases hw : words value with
      | nil => exact absurd hw (h hm)
      | cons w ws => exact ⟨_, rfl⟩
    subst hm
    exact (Checked.safe_iff.1 hms).bind fun ms _ => Checked.yields_pure.2 rfl
  · simp only [applySessionAttr, hg, hf, hs, hm, if_false, trim_eq, splitWhitespace_eq,
      Checked.ok_bind]
    repeat' split
    all_goals exact Checked.yields_pure.2 rfl

theorem applyMediaAttr_safe (media : SdpMedia) (name value : Text) :
    (applyMediaAttr media name value).Safe := by
  have map : ∀ {α : Type} {x : Checked (Option α)} (f : α → SdpMedia), x.Safe →
      (x >>= fun r => pure (r.map f)).Safe := fun f hx => hx.bind fun _ _ => Checked.safe_pure
  have hfmtp : (applyFmtp media value).Safe := by
    simp only [applyFmtp, cut_eq, trim_eq, Checked.ok_bind]
    repeat' split
    all_goals exact Checked.safe_pure
  have hfp : (parseFingerprint value).Safe := (parseFingerprint_yields value).safe
  unfold applyMediaAttr
  simp only [trim_eq, splitWhitespace_eq, Checked.ok_bind]
  repeat' refine Checked.Safe.ite (fun _ => ?_) fun _ => ?_
  all_goals first
    | exact Checked.safe_pure
    | exact hfmtp
    | exact map _ (parseRtpmap_safe value)
    | exact map _ (parseRtcpfb_safe value)
    | exact map _ (parseExtmap_safe value)
    | exact map _ (parseSsrc_safe value)
    | exact map _ (parseSsrcGroup_safe value)
    | exact map _ (parseRid_safe value)
    | exact map _ hfp
    | exact (parseMsid_safe value).bind fun _ _ => Checked.safe_pure
    | exact (parseSimulcast_safe value).bind fun _ _ => Checked.safe_pure
    | cases parseSdpDirection name <;> exact Checked.safe_pure

/-! ### Where the parser faults -/

/-- A line that reads `a=msid-semantic`, with nothing behind it but a colon. -/
def BareMsidSemantic (line : Text) : Prop :=
  strip line = "a=msid-semantic".toList ∨ strip line = "a=msid-semantic:".toList

instance (line : Text) : Decidable (BareMsidSemantic line) :=
  inferInstanceAs (Decidable (_ ∨ _))

/-- The session part of a text has such a line, and no line before it is rejected. -/
def MsidSemanticReached (sdp : Text) : Prop :=
  ∃ pre line post, lines sdp = pre ++ line :: post ∧
    (∀ l ∈ pre, sessionLineAccepted (strip l) = true) ∧ BareMsidSemantic line

omit [NoCaseEq] in
/-- The parts of an attribute that is a trimmed line: a value without a word is no value. -/
theorem value_eq_nil {line v : Text} {t : Char} (hl : strip line = t :: '=' :: v)
    (hw : words (attrParts v).2 = []) : (attrParts v).2 = [] := by
  by_contra hne
  have hsuf : (attrParts v).2 <:+ strip line := by
    rw [hl, attrParts]
    cases hc : cutOff v ':' with
    | none => exact List.nil_suffix
    | some p =>
      obtain ⟨i, -, rfl⟩ := Option.map_eq_some_iff.1 hc
      exact (List.drop_suffix _ _).trans ⟨[t, '='], rfl⟩
  have hlast := isSpace_getLast_strip (hsuf.ne_nil hne)
  rw [← hsuf.getLast hne, eq_blank_of_words_eq_nil hw _ (List.getLast_mem hne)] at hlast
  exact absurd hlast (by decide)

omit [NoCaseEq] in
/-- An attribute by its parts. -/
theorem eq_of_attrParts_nil {v : Text} (h : (attrParts v).2 = []) :
    v = (attrParts v).1 ∨ v = (attrParts v).1 ++ [':'] := by
  revert h
  rw [attrParts]
  cases hc : cutOff v ':' with
  | none => exact fun _ => Or.inl rfl
  | some p =>
    obtain ⟨i, hi, rfl⟩ := Option.map_eq_some_iff.1 hc
    intro h
    have hv := (find_eq_some hi).1
    rw [show v.drop (i + 1) = [] from h] at hv
    exact Or.inr hv

/-- A line of the session part is accepted where `sessionLineAccepted` says so. -/
theorem parseInSession_yields (session : SessionDescription) {line v : Text} {t : Char}
    (hl : strip line = t :: '=' :: v) (hm : t ≠ 'm') (hbare : ¬ BareMsidSemantic line) :
    (parseInSession session t v).Yields fun r => r.isSome = sessionLineAccepted (strip line) := by
  have hacc : sessionLineAccepted (strip line) =
      if t = 'b' then
        match parseBandwidth v with
        | .ok bw => bw.isSome
        | .error _ => false
      else if t = 'a' then sessionAttrAccepted (attrParts v).1 (attrParts v).2
      else true := by
    rw [hl, sessionLineAccepted, if_neg hm]
  rw [hacc]
  by_cases hb : t = 'b'
  · subst hb
    obtain ⟨bw, hbw⟩ := parseBandwidth_safe v
    rw [if_pos rfl, hbw]
    refine ⟨bw.map fun bw => { session with bandwidths := session.bandwidths ++ [bw] }, ?_,
      Option.isSome_map⟩
    simp only [parseInSession, hbw, Checked.ok_bind]
    rfl
  by_cases ha : t = 'a'
  · subst ha
    rw [if_neg hb, if_pos rfl]
    simp only [parseInSession, splitAttr_eq, Checked.ok_bind]
    refine applySessionAttr_yields session fun hname hw => hbare ?_
    rcases eq_of_attrParts_nil (value_eq_nil hl hw) with h | h
    · exact Or.inl (by rw [hl, h, hname]; rfl)
    · exact Or.inr (by rw [hl, h, hname]; rfl)
  · rw [if_neg hb, if_neg ha]
    simp only [parseInSession, hb, ha, if_false]
    repeat' split
    all_goals exact Checked.yields_pure.2 rfl

omit [NoCaseEq] in
/-- How a trimmed line is taken apart. -/
theorem parseLineTypeValue_eq (t e : Char) (v : Text) :
    parseLineTypeValue (t :: e :: v) = .ok (if e = '=' then some (t, v) else none) := by
  by_cases he : e = '='
  · subst he
    rfl
  · rw [if_neg he, parseLineTypeValue, if_neg (by simp), charAt_ok (by simp), Checked.ok_bind]
    exact if_pos he

/-- A line of a media section leaves the parser in one. -/
def InSection (st : ParseState) : Prop := st.inMedia = true ∧ st.session.medias ≠ []

theorem parseMediaSection_yields (st : ParseState) (v : Text) :
    (parseMediaSection st v).Yields fun r => ∀ st', r = some st' → InSection st' := by
  unfold parseMediaSection
  split
  · exact Checked.yields_pure.2 (by simp)
  · refine (Checked.safe_iff.1 (parseMediaLine_safe v)).bind fun m _ =>
      Checked.yields_pure.2 fun st' h => ?_
    obtain ⟨m, -, rfl⟩ := Option.map_eq_some_iff.1 h
    exact ⟨rfl, by simp⟩

theorem parseInMedia_yields {st : ParseState} (hst : InSection st) (t : Char) (v : Text) :
    (parseInMedia st t v).Yields fun r => ∀ st', r = some st' → InSection st' := by
  rw [parseInMedia, List.getLast?_eq_some_getLast hst.2]
  simp only [splitAttr_eq, Checked.ok_bind]
  split
  · refine (Checked.safe_iff.1 (applyMediaAttr_safe _ _ _)).bind fun m _ =>
      Checked.yields_pure.2 fun st' h => ?_
    obtain ⟨m, -, rfl⟩ := Option.map_eq_some_iff.1 h
    exact ⟨hst.1, by simp⟩
  · refine Checked.yields_pure.2 fun st' h => ?_
    obtain rfl := Option.some.inj h
    exact hst

/-- The fault of a bare line. -/
theorem parseInSession_bare (session : SessionDescription) {v : Text}
    (hv : attrParts v = ("msid-semantic".toList, [])) :
    parseInSession session 'a' v = .error .front := by
  have h : parseInSession session 'a' v =
      splitAttr v >>= fun p => applySessionAttr session p.1 p.2 := rfl
  rw [h, splitAttr_eq, Checked.ok_bind, hv]
  rfl

/-- **A line of the session part.**  It faults where it is a bare `a=msid-semantic`; another line
is taken into the session part where it is accepted, and otherwise rejects the text or opens a
media section. -/
theorem parseLine_session {st : ParseState} (hst : st.inMedia = false) (line : Text) :
    if BareMsidSemantic line then ¬ (parseLine st line).Safe
    else (parseLine st line).Yields fun r =>
      if sessionLineAccepted (strip line) = true then ∃ st', r = some st' ∧ st'.inMedia = false
      else ∀ st', r = some st' → InSection st' := by
  split
  · rename_i hbare
    obtain ⟨v, hl, hv⟩ : ∃ v, strip line = 'a' :: '=' :: v ∧
        attrParts v = ("msid-semantic".toList, []) := by
      rcases hbare with h | h
      · exact ⟨"msid-semantic".toList, h, rfl⟩
      · exact ⟨"msid-semantic:".toList, h, rfl⟩
    have hfault : parseLine st line = .error .front := by
      rw [parseLine, trim_eq, Checked.ok_bind, hl, if_neg (by simp), parseLineTypeValue_eq,
        if_pos rfl, Checked.ok_bind]
      simp only [hst, parseInSession_bare _ hv]
      rfl
    rw [hfault]
    exact Checked.not_safe_error
  · rename_i hbare
    rw [parseLine, trim_eq, Checked.ok_bind]
    match hl : strip line with
    | [] => exact Checked.yields_pure.2 ⟨st, rfl, hst⟩
    | [t] => exact Checked.yields_pure.2 (by rw [show sessionLineAccepted [t] = false from rfl]; simp)
    | t :: e :: v =>
      rw [if_neg (by simp), parseLineTypeValue_eq]
      by_cases he : e = '='
      · subst he
        rw [if_pos rfl, Checked.ok_bind]
        by_cases hm : t = 'm'
        · subst hm
          exact parseMediaSection_yields st v
        · have hno : ¬ st.inMedia = true := by simp [hst]
          simp only [hm, if_false, hno]
          refine (parseInSession_yields st.session hl hm hbare).bind fun r hr =>
            Checked.yields_pure.2 ?_
          rw [hl] at hr
          rw [← hr]
          cases r with
          | none => simp
          | some session => exact ⟨_, rfl, rfl⟩
      · have hrej : sessionLineAccepted (t :: e :: v) = false := by
          simp [sessionLineAccepted, he]
        rw [if_neg he, hrej]
        exact Checked.yields_pure.2 (by simp)

/-- A line after the first `m=`. -/
theorem parseLine_section {st : ParseState} (hst : InSection st) (line : Text) :
    (parseLine st line).Yields fun r => ∀ st', r = some st' → InSection st' := by
  rw [parseLine, trim_eq, Checked.ok_bind]
  match hl : strip line with
  | [] => exact Checked.yields_pure.2 fun st' h => Option.some.inj h ▸ hst
  | [t] => exact Checked.yields_pure.2 (by simp)
  | t :: e :: v =>
    rw [if_neg (by simp), parseLineTypeValue_eq, Checked.ok_bind]
    split
    · exact Checked.yields_pure.2 (by simp)
    · split
      · exact parseMediaSection_yields st _
      · rw [if_pos hst.1]
        exact parseInMedia_yields hst _ _

theorem parseLines_section {st : ParseState} (hst : InSection st) (ls : List Text) :
    (parseLines st ls).Safe := by
  induction ls generalizing st with
  | nil => exact Checked.safe_pure
  | cons line rest ih =>
    obtain ⟨r, hr, hin⟩ := parseLine_section hst line
    rw [parseLines, hr, Checked.ok_bind]
    cases r with
    | none => exact Checked.safe_pure
    | some st' => exact ih (hin st' rfl)

/-- The lines of the session part, from a line on. -/
theorem parseLines_safe_iff {st : ParseState} (hst : st.inMedia = false) (ls : List Text) :
    (parseLines st ls).Safe ↔ ¬ ∃ pre line post, ls = pre ++ line :: post ∧
      (∀ l ∈ pre, sessionLineAccepted (strip l) = true) ∧ BareMsidSemantic line := by
  induction ls generalizing st with
  | nil => simp [parseLines]
  | cons line rest ih =>
    -- A bare line is reached here, or behind an accepted one.
    have hcons : (∃ pre l post, line :: rest = pre ++ l :: post ∧
        (∀ x ∈ pre, sessionLineAccepted (strip x) = true) ∧ BareMsidSemantic l) ↔
        BareMsidSemantic line ∨ sessionLineAccepted (strip line) = true ∧
          ∃ pre l post, rest = pre ++ l :: post ∧
            (∀ x ∈ pre, sessionLineAccepted (strip x) = true) ∧ BareMsidSemantic l := by
      constructor
      · rintro ⟨pre, l, post, h, hpre, hl⟩
        cases pre with
        | nil => exact Or.inl ((List.cons.inj h).1 ▸ hl)
        | cons x pre =>
          obtain ⟨rfl, hrest⟩ := List.cons.inj h
          exact Or.inr ⟨hpre _ (List.mem_cons_self ..), pre, l, post, hrest,
            fun y hy => hpre y (List.mem_cons_of_mem _ hy), hl⟩
      · rintro (h | ⟨hacc, pre, l, post, rfl, hpre, hl⟩)
        · exact ⟨[], line, rest, rfl, by simp, h⟩
        · exact ⟨line :: pre, l, post, rfl, List.forall_mem_cons.2 ⟨hacc, hpre⟩, hl⟩
    have hline := parseLine_session hst line
    rw [hcons]
    by_cases hbare : BareMsidSemantic line
    · rw [if_pos hbare] at hline
      refine iff_of_false (fun hsafe => hline ?_) (by simp [hbare])
      obtain ⟨r, hr, -⟩ := Checked.safe_bind_iff.1 hsafe
      exact ⟨r, hr⟩
    · rw [if_neg hbare] at hline
      obtain ⟨r, hr, hline⟩ := hline
      rw [parseLines, hr, Checked.ok_bind]
      by_cases hacc : sessionLineAccepted (strip line) = true
      · rw [if_pos hacc] at hline
        obtain ⟨st', rfl, hst'⟩ := hline
        simpa [hbare, hacc] using ih hst'
      · rw [if_neg hacc] at hline
        refine iff_of_true ?_ (by simp [hbare, hacc])
        cases r with
        | none => exact Checked.safe_pure
        | some st' => exact parseLines_section (hline st' rfl) rest

/-- **When the parser makes no fault.**  It ends with a description or rejects the text, unless
the session part has an `a=msid-semantic` line without a value and no line before it is
rejected. -/
theorem parseSdp_safe_iff (sdp type : Text) :
    (parseSdp sdp type).Safe ↔ ¬ MsidSemanticReached sdp := by
  rw [parseSdp, splitLines_eq, Checked.ok_bind, MsidSemanticReached]
  split
  · rename_i hnil
    simp [hnil]
  · exact parseLines_safe_iff rfl _

omit [NoCaseEq] in
/-- **A fault.**  A description of two lines, the second one `a=msid-semantic:`. -/
theorem parseSdp_msidSemantic_faults :
    ¬ (@parseSdp asciiNoCase "v=0\r\na=msid-semantic:\r\n".toList "offer".toList).Safe := by
  have h : @parseSdp asciiNoCase "v=0\r\na=msid-semantic:\r\n".toList "offer".toList =
      .error .front := rfl
  rw [h]
  exact Checked.not_safe_error

end AsioRtc
