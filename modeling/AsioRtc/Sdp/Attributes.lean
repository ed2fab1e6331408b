/-
# The values of the SDP lines

The parsers at the beginning of `src/sdp.cpp`, one for each kind of line and
attribute.  A parser cuts its value at a character (`cut`), trims a part or splits
it into words, and gives `none` where a part is missing or is not a number.  The
regular expressions of `parse_crypto`, `parse_rtcp` and `parse_rid` are read off by
the pieces they are made of (`takeDigits`, `takeSpaces`, `takeToken`): no piece can
take less than all it matches, so there is nothing to go back to.

Every parser is free of faults but one.  `parse_msid_semantic` takes the first of
the words of its value, and there may be none (`parseMsidSemantic_eq`).
-/

import AsioRtc.Sdp.Description

namespace AsioRtc

open Lib Text

/-! ### Cutting a value -/

/-- `s.substr(0, i)` and `s.substr(i + 1)` at the first `c`. -/
def cut (s : Text) (c : Char) : Checked (Option (Text × Text)) :=
  match find s c with
  | none => pure none
  | some i => do
      let a ← substr s 0 (some i)
      let b ← substr s (i + 1)
      pure (some (a, b))

/-- What is before the first `c`, and what is behind it. -/
def cutOff (s : Text) (c : Char) : Option (Text × Text) :=
  (find s c).map fun i => (s.take i, s.drop (i + 1))

/-- The checked cut never leaves the text. -/
theorem cut_eq (s : Text) (c : Char) : cut s c = .ok (cutOff s c) := by
  unfold cut cutOff
  cases h : find s c with
  | none => rfl
  | some i =>
    have := find_lt h
    simp only [substr_take, substr_ok (show i + 1 ≤ s.length by omega)]
    rfl

/-- A text is cut where the character occurs. -/
theorem cutOff_isSome {s : Text} {c : Char} : (cutOff s c).isSome = true ↔ c ∈ s := by
  rw [cutOff, Option.isSome_map, ← Option.ne_none_iff_isSome, ne_eq, find_eq_none, not_not]

/-- `\S+`. -/
def takeToken (s : Text) : Option (Text × Text) :=
  let t := s.takeWhile fun c => !isSpace c
  if t = [] then none else some (t, s.dropWhile fun c => !isSpace c)

/-- `\s+`. -/
def takeSpaces (s : Text) : Option Text :=
  if s.takeWhile isSpace = [] then none else some (s.dropWhile isSpace)

/-- `\d+`. -/
def takeDigits (s : Text) : Option (Text × Text) :=
  let t := s.takeWhile Char.isDigit
  if t = [] then none else some (t, s.dropWhile Char.isDigit)

/-- What `>>` reads from a stream, one word after the other. -/
def streamWords (s : Text) : List Text := (s.splitOnP isSpace).filter (· ≠ [])

/-! ### The enumerations -/

section

variable [NoCaseEq]

/-- `parse_sdp_media_type`. -/
def parseSdpMediaType (s : Text) : Option SdpMediaType :=
  if nceq s "audio".toList then some .audio
  else if nceq s "video".toList then some .video
  else if nceq s "application".toList then some .application
  else if nceq s "text".toList then some .text
  else if nceq s "message".toList then some .message
  else none

/-- `parse_sdp_proto`. -/
def parseSdpProto (s : Text) : Option SdpProto :=
  if nceq s "UDP".toList then some .UDP
  else if nceq s "RTP/AVP".toList then some .RTP_AVP
  else if nceq s "RTP/SAVP".toList then some .RTP_SAVP
  else if nceq s "RTP/SAVPF".toList then some .RTP_SAVPF
  else if nceq s "UDP/TLS/RTP/SAVPF".toList then some .UDP_TLS_RTP_SAVPF
  else if nceq s "DTLS/SCTP".toList then some .DTLS_SCTP
  else if nceq s "UDP/DTLS/SCTP".toList then some .UDP_DTLS_SCTP
  else if nceq s "TCP/DTLS/SCTP".toList then some .TCP_DTLS_SCTP
  else none

/-- `parse_sdp_direction`. -/
def parseSdpDirection (s : Text) : Option SdpDirection :=
  if nceq s "inactive".toList then some .inactive
  else if nceq s "sendonly".toList then some .sendonly
  else if nceq s "recvonly".toList then some .recvonly
  else if nceq s "sendrecv".toList then some .sendrecv
  else none

/-- `parse_setup_role`. -/
def parseSetupRole (s : Text) : Option SdpSetupRole :=
  if nceq s "active".toList then some .active
  else if nceq s "passive".toList then some .passive
  else if nceq s "actpass".toList then some .actpass
  else if nceq s "holdconn".toList then some .holdconn
  else none

/-- `parse_bandwidth_type`. -/
def parseBandwidthType (s : Text) : Option SdpBandwidthType :=
  if nceq s "CT".toList then some .CT
  else if nceq s "AS".toList then some .AS
  else if nceq s "TIAS".toList then some .TIAS
  else if nceq s "RS".toList then some .RS
  else if nceq s "RR".toList then some .RR
  else none

end

/-! ### The attributes -/

/-- `parse_origin`; a line that is short of words gives the default. -/
def parseOrigin (s : Text) : SdpOrigin :=
  match streamWords s with
  | username :: sessionId :: sessionVersion :: nettype :: addrtype :: addr :: _ =>
      ⟨username, sessionId, sessionVersion, nettype, addrtype, addr⟩
  | _ => {}

/-- `parse_rtpmap`. -/
def parseRtpmap (value : Text) : Checked (Option SdpRtpmap) := do
  match ← cut value ' ' with
  | none => pure none
  | some (ptText, rest) => do
      let rest ← trim rest
      match parseUint 8 ptText with
      | none => pure none
      | some pt =>
        match ← cut rest '/' with
        | none => pure none
        | some (name, afterName) =>
          match ← cut afterName '/' with
          | none =>
              pure ((parseUint 32 afterName).map fun rate =>
                { payloadType := pt, name := name, clockRate := rate })
          | some (rateText, chText) =>
            match parseUint 32 rateText with
            | none => pure none
            | some rate => do
                let chText ← trim chText
                pure ((parseUint 8 chText).map fun ch =>
                  { payloadType := pt, name := name, clockRate := rate, channels := some ch })

/-- The id of an extension and its direction.  A text that is no number leaves the id zero
where there is no direction. -/
def parseExtmapId [NoCaseEq] (idText : Text) : Checked (Option (U16 × Option SdpDirection)) := do
  match ← cut idText '/' with
  | none => pure (some ((parseUint 16 idText).getD 0, none))
  | some (idText, dirText) =>
    match parseUint 16 idText, parseSdpDirection dirText with
    | some id, some d => pure (some (id, some d))
    | _, _ => pure none

/-- `parse_extmap`. -/
def parseExtmap [NoCaseEq] (value : Text) : Checked (Option SdpExtmap) := do
  match ← cut value ' ' with
  | none => pure none
  | some (idText, uri) =>
    if uri = [] then pure none
    else
      match ← parseExtmapId idText with
      | none => pure none
      | some (id, d) =>
        match ← cut uri ' ' with
        | none => pure (some { id := id, direction := d, uri := uri })
        | some (uri, ext) => do
            let ext ← trim ext
            pure (some { id := id, direction := d, uri := uri, attributes := ext })

/-- `parse_rtcpfb`. -/
def parseRtcpfb (value : Text) : Checked (Option SdpRtcpFb) := do
  match ← cut value ' ' with
  | none => pure none
  | some (ptText, rest) =>
    if ptText ≠ "*".toList ∧ parseUint 8 ptText = none then pure none
    else do
      let pt := if ptText = "*".toList then none else parseUint 8 ptText
      let rest ← trim rest
      match ← cut rest ' ' with
      | none => pure (some { payloadType := pt, type := rest })
      | some (type, subtype) => do
          let subtype ← trim subtype
          pure (some { payloadType := pt, type := type, subtype := subtype })

/-- `parse_ssrc`. -/
def parseSsrc (value : Text) : Checked (Option SdpSsrc) := do
  match ← cut value ' ' with
  | none => pure none
  | some (ssrcText, rest) =>
    match parseUint 32 ssrcText with
    | none => pure none
    | some ssrc =>
      match ← cut rest ':' with
      | none => pure (some { ssrc := ssrc, attr := rest })
      | some (attr, value) => pure (some { ssrc := ssrc, attr := attr, value := value })

/-- `parse_ssrc_group`. -/
def parseSsrcGroup (value : Text) : Checked (Option SdpSsrcGroup) := do
  match ← cut value ' ' with
  | none => pure none
  | some (semantics, rest) => do
      let parts ← splitWhitespace rest
      pure ((parts.mapM (parseUint 32)).map fun ssrcs => { semantics := semantics, ssrcs := ssrcs })

/-- `parse_fingerprint`. -/
def parseFingerprint (value : Text) : Checked (Option SdpFingerprint) := do
  match ← cut value ' ' with
  | none => pure none
  | some (algorithm, rest) => do
      let rest ← trim rest
      pure (some { algorithm := algorithm, value := rest })

/-- `parse_bandwidth`. -/
def parseBandwidth [NoCaseEq] (value : Text) : Checked (Option SdpBandwidth) := do
  match ← cut value ':' with
  | none => pure none
  | some (typeText, bwText) =>
    match parseBandwidthType typeText, parseUint 32 bwText with
    | some type, some bw => pure (some { type := type, bandwidth := bw })
    | _, _ => pure none

/-- `parse_crypto`: `^(\d+)\s+(\S+)\s+(\S+)(?:\s+(.*))?$`. -/
def parseCrypto (value : Text) : Option SdpCrypto := do
  let (tagText, s) ← takeDigits value
  let s ← takeSpaces s
  let (suite, s) ← takeToken s
  let s ← takeSpaces s
  let (keyParams, s) ← takeToken s
  let tag ← parseUint 32 tagText
  pure { tag := tag, suite := suite, keyParams := keyParams, sessionParams := s.dropWhile isSpace }

/-- `parse_rtcp`: `^(\d+)(?:\s+(\S+)\s+(\S+)\s+(\S+))?$`. -/
def parseRtcp (value : Text) : Option SdpRtcp := do
  let (portText, s) ← takeDigits value
  if s = [] then
    let port ← parseUint 16 portText
    pure { port := port }
  else
    let (nettype, s) ← takeSpaces s >>= takeToken
    let (addrtype, s) ← takeSpaces s >>= takeToken
    let (addr, s) ← takeSpaces s >>= takeToken
    if s = [] then
      let port ← parseUint 16 portText
      pure { nettype := nettype, addrtype := addrtype, addr := addr, port := port }
    else none

/-- `parse_msid`. -/
def parseMsid (value : Text) : Checked SdpMsid := do
  match ← cut value ' ' with
  | none => pure { streamId := value }
  | some (streamId, rest) => do
      let track ← trim rest
      pure { streamId := streamId, trackId := track }

/-- `check_msid`. -/
def checkMsid (m : SdpMedia) : Bool :=
  match m.msids with
  | [] => true
  | first :: rest => rest.all fun msid => msid.trackId = first.trackId

/-- `parse_msid_semantic`. -/
def parseMsidSemantic (value : Text) : Checked SdpMsidSemantic := do
  match ← splitWhitespace value with
  | [] => .error .front
  | semantic :: streamIds => pure { semantic := semantic, streamIds := streamIds }

/-- `parse_group`. -/
def parseGroup (value : Text) : Checked (Option SdpGroup) := do
  match ← cut value ' ' with
  | none => pure none
  | some (semantic, mids) => do
      let mids ← trim mids
      if mids = [] then pure (some { semantic := semantic })
      else do
        let items ← splitWhitespace mids
        pure (some { semantic := semantic, items := items })

/-! ### Simulcast -/

/-- A stream of a layer; nothing for an empty one. -/
def simulcastStream (token : Text) : Checked (List SdpSimulcastStream) :=
  if token = [] then pure []
  else do
    let c ← charAt token 0
    if c = '~' then do
      let rid ← removePrefix token 1
      pure [{ rid := rid, paused := true }]
    else pure [{ rid := token }]

/-- One turn of the inner loop of `parse_simulcast_layers`: what is left of the group, and the
alternatives so far. -/
def simulcastGroupTurn (st : Text × List SdpSimulcastStream) :
    Checked (Turn (Text × List SdpSimulcastStream) (List SdpSimulcastStream)) :=
  if st.1 = [] then pure (.done st.2)
  else do
    match ← cut st.1 ',' with
    | none => do
        let stream ← trim st.1 >>= simulcastStream
        pure (.done (st.2 ++ stream))
    | some (token, rest) => do
        let stream ← trim token >>= simulcastStream
        pure (.next (rest, st.2 ++ stream))

/-- The inner loop of `parse_simulcast_layers`. -/
def parseSimulcastGroup (group : Text) : Checked (List SdpSimulcastStream) :=
  Checked.loop simulcastGroupTurn (group.length + 1) (group, [])

/-- One turn of the outer loop of `parse_simulcast_layers`. -/
def simulcastLayersTurn (st : Text × List (List SdpSimulcastStream)) :
    Checked (Turn (Text × List (List SdpSimulcastStream)) (List (List SdpSimulcastStream))) :=
  if st.1 = [] then pure (.done st.2)
  else do
    match ← cut st.1 ';' with
    | none => do
        let alts ← parseSimulcastGroup st.1
        pure (.done (if alts = [] then st.2 else st.2 ++ [alts]))
    | some (group, rest) => do
        let alts ← parseSimulcastGroup group
        pure (.next (rest, if alts = [] then st.2 else st.2 ++ [alts]))

/-- `parse_simulcast_layers`. -/
def parseSimulcastLayers (str : Text) : Checked (List (List SdpSimulcastStream)) :=
  Checked.loop simulcastLayersTurn (str.length + 1) (str, [])

/-- The layers of one direction, and the text that begins with the keyword of the other one. -/
def simulcastSide (other rest : Text) : Checked (List (List SdpSimulcastStream) × Option Text) :=
  match findText (' ' :: other) rest with
  | none => do
      let layers ← trim rest >>= parseSimulcastLayers
      pure (layers, none)
  | some next => do
      let streams ← substr rest 0 (some next)
      let layers ← trim streams >>= parseSimulcastLayers
      let v ← substr rest (next + 1)
      pure (layers, some v)

/-- Go on where there is a text left. -/
def simulcastNext (attr : SdpSimulcast) : Option Text → Turn (Text × SdpSimulcast) SdpSimulcast
  | none => .done attr
  | some v => .next (v, attr)

/-- What is behind the first token. -/
def simulcastRest (v token : Text) : Checked Text :=
  if token.length = v.length then pure [] else substr v (token.length + 1) >>= trim

/-- One turn of `parse_simulcast`. -/
def simulcastTurn (st : Text × SdpSimulcast) :
    Checked (Turn (Text × SdpSimulcast) SdpSimulcast) :=
  if st.1 = [] then pure (.done st.2)
  else do
    let token ← firstToken st.1
    let rest ← simulcastRest st.1 token
    if token = "send".toList ∧ rest ≠ [] then do
      let (layers, v) ← simulcastSide "recv".toList rest
      pure (simulcastNext { st.2 with sendLayers := layers } v)
    else if token = "recv".toList ∧ rest ≠ [] then do
      let (layers, v) ← simulcastSide "send".toList rest
      pure (simulcastNext { st.2 with recvLayers := layers } v)
    else pure (.done st.2)

/-- `parse_simulcast`. -/
def parseSimulcast (value : Text) : Checked SdpSimulcast := do
  let v ← trim value
  Checked.loop simulcastTurn (v.length + 1) (v, {})

/-! ### Restriction identifiers -/

/-- `^(\S+)\s+(send|recv)(?:\s+(.*))?$`: the id, the direction and the parameters. -/
def matchRidHead (value : Text) : Option (Text × SdpRidDirection × Text) := do
  let (id, s) ← takeToken value
  let s ← takeSpaces s
  let (d, s) ←
    if "send".toList.isPrefixOf s then some (SdpRidDirection.send, s.drop 4)
    else if "recv".toList.isPrefixOf s then some (SdpRidDirection.recv, s.drop 4)
    else none
  match s with
  | [] => pure (id, d, [])
  | c :: _ => if isSpace c then pure (id, d, s.dropWhile isSpace) else none

/-- One parameter of an `a=rid` line; the flag says whether it may go on a list of payload
types. -/
def ridParam (st : SdpRid × Bool) (token : Text) : Checked (SdpRid × Bool) := do
  let token ← trim token
  match cutOff token '=' with
  | some (c :: key, c' :: val) => do
      let key ← trim (c :: key)
      let val ← trim (c' :: val)
      if key = "pt".toList then
        let numbers := (val.splitOnP fun c => !c.isDigit).filter (· ≠ [])
        pure ({ st.1 with
          payloadTypes := st.1.payloadTypes ++ numbers.filterMap (parseUint 8) }, true)
      else pure ({ st.1 with params := st.1.params.emplace key val }, false)
  | _ =>
      match parseUint 8 token with
      | some pt =>
          if st.2 then pure ({ st.1 with payloadTypes := st.1.payloadTypes ++ [pt] }, st.2)
          else pure st
      | none => pure st

/-- `parse_rid`. -/
def parseRid (value : Text) : Checked (Option SdpRid) :=
  match matchRidHead value with
  | none => pure none
  | some (id, d, params) => do
      let tokens := (params.splitOn ';').filter (· ≠ [])
      let (rid, _) ← tokens.foldlM ridParam ({ id := id, direction := d }, false)
      pure (some rid)

/-- The port of a media line.  The part before a slash may be no number: the port stays 9. -/
def parseMediaPort (portText : Text) : Checked (Option U16) :=
  match find portText '/' with
  | none => pure (parseUint 16 portText)
  | some slash => do
      let p ← substr portText 0 (some slash)
      pure (some ((parseUint 16 p).getD 9))

/-- `parse_media_line`. -/
def parseMediaLine [NoCaseEq] (value : Text) : Checked (Option SdpMedia) :=
  match streamWords value with
  | typeText :: portText :: protoText :: fmts =>
    match parseSdpMediaType typeText with
    | none => pure none
    | some type => do
        match ← parseMediaPort portText with
        | none => pure none
        | some port =>
            let md : SdpMedia :=
              { mediaType := type, port := port, proto := (parseSdpProto protoText).getD .RTP_AVP }
            pure (some (if type = .application then fmts.foldl SdpMedia.addFormat md else md))
  | _ => pure none

/-! ### No faults -/

section Safety

/-- Reading a codec never leaves its text. -/
theorem parseRtpmap_safe (value : Text) : (parseRtpmap value).Safe := by
  simp only [parseRtpmap, cut_eq, trim_eq, Checked.ok_bind]
  repeat' split
  all_goals exact Checked.safe_pure

/-- Reading an extension never leaves its text. -/
theorem parseExtmap_safe [NoCaseEq] (value : Text) : (parseExtmap value).Safe := by
  have hid : ∀ t, (parseExtmapId t).Safe := fun t => by
    simp only [parseExtmapId, cut_eq, Checked.ok_bind]
    repeat' split
    all_goals exact Checked.safe_pure
  simp only [parseExtmap, cut_eq, trim_eq, Checked.ok_bind]
  split
  · exact Checked.safe_pure
  · refine Checked.Safe.ite (fun _ => Checked.safe_pure) fun _ => (hid _).bind fun r _ => ?_
    repeat' split
    all_goals exact Checked.safe_pure

/-- Reading feedback never leaves its text. -/
theorem parseRtcpfb_safe (value : Text) : (parseRtcpfb value).Safe := by
  simp only [parseRtcpfb, cut_eq, trim_eq, Checked.ok_bind]
  repeat' split
  all_goals exact Checked.safe_pure

/-- Reading a source never leaves its text. -/
theorem parseSsrc_safe (value : Text) : (parseSsrc value).Safe := by
  simp only [parseSsrc, cut_eq, Checked.ok_bind]
  repeat' split
  all_goals exact Checked.safe_pure

/-- Reading a group of sources never leaves its text. -/
theorem parseSsrcGroup_safe (value : Text) : (parseSsrcGroup value).Safe := by
  simp only [parseSsrcGroup, cut_eq, splitWhitespace_eq, Checked.ok_bind]
  split
  all_goals exact Checked.safe_pure

/-- A fingerprint is accepted where its value has a blank. -/
theorem parseFingerprint_yields (value : Text) :
    (parseFingerprint value).Yields fun r => r.isSome = true ↔ ' ' ∈ value := by
  rw [← cutOff_isSome]
  simp only [parseFingerprint, cut_eq, trim_eq, Checked.ok_bind]
  cases cutOff value ' ' <;> exact Checked.yields_pure.2 (by simp)

/-- A group is accepted where its value has a blank. -/
theorem parseGroup_yields (value : Text) :
    (parseGroup value).Yields fun r => r.isSome = true ↔ ' ' ∈ value := by
  rw [← cutOff_isSome]
  simp only [parseGroup, cut_eq, trim_eq, splitWhitespace_eq, Checked.ok_bind]
  cases cutOff value ' ' with
  | none => exact Checked.yields_pure.2 (by simp)
  | some p =>
    simp only []
    split <;> exact Checked.yields_pure.2 (by simp)

/-- Reading a bandwidth never leaves its text. -/
theorem parseBandwidth_safe [NoCaseEq] (value : Text) : (parseBandwidth value).Safe := by
  simp only [parseBandwidth, cut_eq, Checked.ok_bind]
  repeat' split
  all_goals exact Checked.safe_pure

/-- Reading a stream never leaves its text. -/
theorem parseMsid_safe (value : Text) : (parseMsid value).Safe := by
  simp only [parseMsid, cut_eq, trim_eq, Checked.ok_bind]
  split
  all_goals exact Checked.safe_pure

/-- **What `parse_msid_semantic` does.**  A value without a word makes it take the front of an
empty list. -/
theorem parseMsidSemantic_eq (value : Text) :
    parseMsidSemantic value =
      match words value with
      | [] => .error .front
      | semantic :: streamIds => .ok { semantic := semantic, streamIds := streamIds } := by
  rw [parseMsidSemantic, splitWhitespace_eq]
  rfl

/-- What is behind the cut is shorter. -/
theorem length_of_cutOff {s a b : Text} {c : Char} (h : cutOff s c = some (a, b)) :
    b.length < s.length := by
  obtain ⟨i, hi, hab⟩ := Option.map_eq_some_iff.1 h
  obtain ⟨-, rfl⟩ := Prod.mk.inj hab
  have := find_lt hi
  rw [List.length_drop]
  omega

/-- Reading a stream of a layer never leaves its text. -/
theorem simulcastStream_safe (token : Text) : (simulcastStream token).Safe := by
  unfold simulcastStream
  split
  · exact Checked.safe_pure
  · rename_i h
    have hlen := List.length_pos_of_ne_nil h
    rw [charAt_ok hlen, removePrefix_ok hlen]
    simp only [Checked.ok_bind]
    split <;> exact Checked.safe_pure

/-- Reading a layer never leaves its text. -/
theorem parseSimulcastGroup_safe (group : Text) : (parseSimulcastGroup group).Safe := by
  refine Checked.safe_iff.2 (Checked.loop_yields (I := fun _ => True) (fun st => st.1.length)
    (fun st _ => ?_) trivial (by simp))
  unfold simulcastGroupTurn
  split
  · exact Checked.yields_pure.2 trivial
  · simp only [cut_eq, trim_eq, Checked.ok_bind]
    cases h : cutOff st.1 ',' with
    | none =>
      exact (Checked.safe_iff.1 (simulcastStream_safe _)).bind fun _ _ =>
        Checked.yields_pure.2 trivial
    | some p =>
      exact (Checked.safe_iff.1 (simulcastStream_safe _)).bind fun _ _ =>
        Checked.yields_pure.2 ⟨trivial, length_of_cutOff h⟩

/-- Reading layers never leaves their text. -/
theorem parseSimulcastLayers_safe (str : Text) : (parseSimulcastLayers str).Safe := by
  refine Checked.safe_iff.2 (Checked.loop_yields (I := fun _ => True) (fun st => st.1.length)
    (fun st _ => ?_) trivial (by simp))
  unfold simulcastLayersTurn
  split
  · exact Checked.yields_pure.2 trivial
  · simp only [cut_eq, Checked.ok_bind]
    cases h : cutOff st.1 ';' with
    | none =>
      exact (Checked.safe_iff.1 (parseSimulcastGroup_safe _)).bind fun _ _ =>
        Checked.yields_pure.2 trivial
    | some p =>
      exact (Checked.safe_iff.1 (parseSimulcastGroup_safe _)).bind fun _ _ =>
        Checked.yields_pure.2 ⟨trivial, length_of_cutOff h⟩

/-- What is left of a simulcast value after one direction is shorter. -/
theorem simulcastSide_yields (other rest : Text) :
    (simulcastSide other rest).Yields fun r => ∀ v, r.2 = some v → v.length < rest.length := by
  unfold simulcastSide
  cases h : findText (' ' :: other) rest with
  | none =>
    simp only [trim_eq, Checked.ok_bind]
    exact (Checked.safe_iff.1 (parseSimulcastLayers_safe _)).bind fun _ _ =>
      Checked.yields_pure.2 (by simp)
  | some next =>
    have hle := findText_le h
    rw [List.length_cons] at hle
    simp only [substr_take, substr_ok (show next + 1 ≤ rest.length by omega), trim_eq,
      Checked.ok_bind]
    refine (Checked.safe_iff.1 (parseSimulcastLayers_safe _)).bind fun _ _ =>
      Checked.yields_pure.2 fun v hv => ?_
    obtain rfl := Option.some.inj hv
    rw [List.length_drop]
    omega

/-- Each turn of `parse_simulcast` ends, or goes on with less. -/
theorem parseSimulcast_safe (value : Text) : (parseSimulcast value).Safe := by
  rw [parseSimulcast, trim_eq, Checked.ok_bind]
  refine Checked.safe_iff.2 (Checked.loop_yields (I := fun _ => True) (fun st => st.1.length)
    (fun st _ => ?_) trivial (by simp))
  have hnext : ∀ attr v, (∀ t, v = some t → t.length < st.1.length) →
      (simulcastNext attr v).Holds (fun s' => True ∧ s'.1.length < st.1.length) fun _ => True := by
    intro attr v hv
    cases v with
    | none => trivial
    | some t => exact ⟨trivial, hv t rfl⟩
  unfold simulcastTurn
  split
  · exact Checked.yields_pure.2 trivial
  · refine (firstToken_yields st.1).bind fun token htoken => ?_
    have hrest : (simulcastRest st.1 token).Yields fun rest => rest.length ≤ st.1.length := by
      unfold simulcastRest
      split
      · exact Checked.yields_pure.2 (Nat.zero_le _)
      · rename_i hne
        simp only [substr_ok (htoken.2 hne), trim_eq, Checked.ok_bind]
        refine Checked.yields_ok.2 ((length_strip_le _).trans ?_)
        rw [List.length_drop]
        omega
    refine hrest.bind fun rest hrest => ?_
    split
    · exact (simulcastSide_yields _ _).bind fun r hr =>
        Checked.yields_pure.2 (hnext _ _ fun t ht => (hr t ht).trans_le hrest)
    · split
      · exact (simulcastSide_yields _ _).bind fun r hr =>
          Checked.yields_pure.2 (hnext _ _ fun t ht => (hr t ht).trans_le hrest)
      · exact Checked.yields_pure.2 trivial

/-- Reading an identifier never leaves its text. -/
theorem parseRid_safe (value : Text) : (parseRid value).Safe := by
  unfold parseRid
  split
  · exact Checked.safe_pure
  · refine (Checked.Safe.foldlM fun st token _ => ?_).bind fun _ _ => Checked.safe_pure
    simp only [ridParam, trim_eq, Checked.ok_bind]
    repeat' split
    all_goals exact Checked.safe_pure

/-- Reading the first line of a section never leaves it. -/
theorem parseMediaLine_safe [NoCaseEq] (value : Text) : (parseMediaLine value).Safe := by
  unfold parseMediaLine
  split
  · split
    · exact Checked.safe_pure
    · have hport : ∀ t, (parseMediaPort t).Safe := fun t => by
        unfold parseMediaPort
        split
        · exact Checked.safe_pure
        · rw [substr_take]
          exact Checked.safe_pure
      refine (hport _).bind fun port _ => ?_
      split <;> exact Checked.safe_pure
  · exact Checked.safe_pure

end Safety

end AsioRtc
