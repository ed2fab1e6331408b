/-
# Offers, answers and descriptions

`create_offer`, `create_answer`, `set_local_description` and
`set_remote_description` of `src/connection_impl.cpp`.

`create_offer` collects one entry for each m-section (`MediaEntry`): a transceiver
that has a mid keeps the section of the current description with that mid, a new one
gets a rejected section or a place behind the others, and what is left of the current
description is offered as rejected.  The entries are sorted by place and get their
mids and sections.  `next_mid` tries the 16-bit counter until it finds a mid that is
free; where none is, it goes on for ever (`Fault.endless`).

`set_local_description` and `set_remote_description` may throw.  `Outcome` has the
state they leave behind then, and the calls of the track callback up to there.
-/

import AsioRtc.Connection.State

namespace AsioRtc

open Lib Text

/-- What the two setters throw. -/
inductive JsepError
  | setLocalState (s : SignalingState)
  | setLocalType (expected : Text)
  | invalidMline (index : ℕ)
  | midMismatch (mid offered : Text)
  | setRemoteState (s : SignalingState)
  | setRemoteType (expected : Text)
  | noBundle
  | notBundled (mid : Text)
  | emptyMid
  deriving DecidableEq, Repr

/-- `to_string` of a signaling state. -/
def SignalingState.toText : SignalingState → Text
  | stable => "stable".toList
  | haveLocalOffer => "have_local_offer".toList
  | haveRemoteOffer => "have_remote_offer".toList
  | haveLocalPranswer => "have_local_pranswer".toList
  | haveRemotePranswer => "have_remote_pranswer".toList
  | closed => "closed".toList

/-- The message of an exception. -/
def JsepError.what : JsepError → Text
  | setLocalState s => "set_local_description: invalid state: ".toList ++ s.toText
  | setLocalType t => "set_local_description: desc.sdp_type != \"".toList ++ t ++ "\"".toList
  | invalidMline i => "Invalid mline ".toList ++ Text.toText i ++ "\n".toList
  | midMismatch mid offered =>
      "MID mismatch ".toList ++ mid ++ " != ".toList ++ offered ++ "\n".toList
  | setRemoteState s => "set_remote_description: invalid state: ".toList ++ s.toText
  | setRemoteType t => "set_remote_description: desc.sdp_type != \"".toList ++ t ++ "\"".toList
  | noBundle => "bundle policy not supported: ".toList
  | notBundled mid =>
      "balanced/max-compat bundle policy not supported: media section mid=".toList ++ mid ++
        " not in BUNDLE group".toList
  | emptyMid => "rm.mid == \"\"".toList

/-- A call of the track callback: the transceiver, and the streams of the section. -/
structure OnTrack where
  transceiver : ℕ
  streamIds : List Text
  deriving DecidableEq, Repr

/-- What a setter leaves behind. -/
structure Outcome where
  state : Connection
  tracks : List OnTrack := []
  thrown : Option JsepError := none

/-! ### `create_offer` -/

/-- `media_entry`; the transceiver by its place in the list. -/
structure MediaEntry where
  tr : Option ℕ
  index : ℕ
  mid : Text
  isSctp : Bool := false
  deriving DecidableEq, Repr

/-- The bookkeeping of `create_offer` over the sections of the current description:
`mid_to_index`, `recyclable_indices`, `sctp_index` and `next_append_index`. -/
structure OfferSlots where
  midToIndex : List (Text × ℕ) := []
  recyclable : List ℕ := []
  sctpIndex : Option ℕ := none
  nextAppend : ℕ := 0
  deriving DecidableEq, Repr

namespace OfferSlots

/-- `mid_to_index[mid] = i`. -/
def assign (s : OfferSlots) (mid : Text) (i : ℕ) : OfferSlots :=
  { s with midToIndex := s.midToIndex.filter (fun e => e.1 ≠ mid) ++ [(mid, i)] }

/-- `mid_to_index.erase(mid)`. -/
def eraseMid (s : OfferSlots) (mid : Text) : OfferSlots :=
  { s with midToIndex := s.midToIndex.filter fun e => e.1 ≠ mid }

/-- One section of the current description. -/
def scan (s : OfferSlots) (i : ℕ) (m : SdpMedia) : OfferSlots :=
  if m.mid = [] then s
  else
    let s := s.assign m.mid i
    if m.mediaType = .application then { s with sctpIndex := some i }
    else if m.port = 0 then { s with recyclable := s.recyclable ++ [i] }
    else s

/-- The bookkeeping before the transceivers. -/
def ofMedias (medias : List SdpMedia) : OfferSlots :=
  medias.zipIdx.foldl (fun s p => s.scan p.2 p.1) { nextAppend := medias.length }

/-- A transceiver that has a mid. -/
def keep (i : ℕ) (t : RtpTransceiver) (s : OfferSlots) : OfferSlots × List MediaEntry :=
  match s.midToIndex.find? fun e => e.1 = t.mid with
  | none => (s, [])
  | some e =>
      if s.sctpIndex = some e.2 then (s, [])
      else
        ({ s.eraseMid t.mid with recyclable := s.recyclable.filter (· ≠ e.2) },
          [⟨some i, e.2, t.mid, false⟩])

/-- `get_index`. -/
def getIndex (medias : List SdpMedia) (s : OfferSlots) : ℕ × OfferSlots :=
  match s.recyclable with
  | idx :: rest =>
      (idx, { s.eraseMid ((medias[idx]?).elim [] SdpMedia.mid) with recyclable := rest })
  | [] => (s.nextAppend, { s with nextAppend := s.nextAppend + 1 })

/-- The entry of the data channels. -/
def sctpEntry (medias : List SdpMedia) (needSctp : Bool) (s : OfferSlots) :
    OfferSlots × List MediaEntry :=
  match s.sctpIndex with
  | some i => (s, [⟨none, i, (medias[i]?).elim [] SdpMedia.mid, true⟩])
  | none =>
      if needSctp then
        let (i, s) := s.getIndex medias
        (s, [⟨none, i, [], true⟩])
      else (s, [])

end OfferSlots

/-- The entries of the transceivers that have a mid. -/
def keptEntries : List (RtpTransceiver × ℕ) → OfferSlots → OfferSlots × List MediaEntry
  | [], s => (s, [])
  | (t, i) :: ts, s =>
      if t.mid = [] then keptEntries ts s
      else
        let (s, es) := s.keep i t
        let (s, es') := keptEntries ts s
        (s, es ++ es')

/-- The entries of the new transceivers that are not stopped. -/
def newEntries (medias : List SdpMedia) :
    List (RtpTransceiver × ℕ) → OfferSlots → OfferSlots × List MediaEntry
  | [], s => (s, [])
  | (t, i) :: ts, s =>
      if t.mid ≠ [] ∨ t.stopped = true then newEntries medias ts s
      else
        let (idx, s) := s.getIndex medias
        let (s, es) := newEntries medias ts s
        (s, ⟨some i, idx, [], false⟩ :: es)

/-- The entries of an offer in the order of their sections, mids still to be given. -/
def offerEntries (medias : List SdpMedia) (needSctp : Bool) (ts : List RtpTransceiver) :
    List MediaEntry :=
  let (s, kept) := keptEntries ts.zipIdx (.ofMedias medias)
  let (s, sctp) := s.sctpEntry medias needSctp
  let (s, new) := newEntries medias ts.zipIdx s
  let gaps : List MediaEntry := s.midToIndex.map fun e => ⟨none, e.2, e.1, false⟩
  (kept ++ sctp ++ new ++ gaps).mergeSort fun a b => a.index ≤ b.index

/-- `next_mid`, for at most `fuel` turns. -/
def nextMid (used : List Text) : ℕ → U16 → Checked (Text × U16)
  | 0, _ => .error .endless
  | fuel + 1, counter =>
      if toText counter.toNat ∈ used then nextMid used fuel (counter + 1)
      else .ok (toText counter.toNat, counter + 1)

/-- The mids of the entries that have none. -/
def assignMids : List MediaEntry → List Text → U16 → Checked (List MediaEntry × U16)
  | [], _, counter => pure ([], counter)
  | e :: es, used, counter =>
      if e.mid = [] then do
        -- All 2^16 values of the counter have been tried by then.
        let (mid, counter) ← nextMid used (2 ^ 16) counter
        let (es, counter) ← assignMids es (mid :: used) counter
        pure ({ e with mid := mid } :: es, counter)
      else do
        let (es, counter) ← assignMids es used counter
        pure (e :: es, counter)

/-- `sync_group`: put `mid` behind the others of `msid`; the groups are in the order of their
`msid`. -/
def syncGroup (msid mid : Text) : List (Text × List Text) → List (Text × List Text)
  | [] => [(msid, [mid])]
  | g :: gs =>
      if g.1 < msid then g :: syncGroup msid mid gs
      else if g.1 = msid then (g.1, g.2 ++ [mid]) :: gs
      else (msid, [mid]) :: g :: gs

/-- The msids of an entry's sender. -/
def MediaEntry.msids (ts : List RtpTransceiver) (e : MediaEntry) : List Text :=
  (e.tr.bind (ts[·]?)).elim [] fun t => t.sender.msids

/-- The `LS` groups of an offer. -/
def lipSyncGroups (ts : List RtpTransceiver) (es : List MediaEntry) : List SdpGroup :=
  let gs := es.foldl (fun gs e => (e.msids ts).foldl (fun gs msid => syncGroup msid e.mid gs) gs) []
  (gs.filter fun g => 1 < g.2.length).map fun g => ⟨"LS".toList, g.2⟩

namespace Connection

variable [NoCaseEq]

/-- The application section of an offer. -/
def sctpSection (c : Connection) (mid : Text) : SdpMedia :=
  SdpMedia.addFormat
    { mid := mid
      mediaType := .application
      port := if c.needSctp then 9 else 0
      proto := .UDP_DTLS_SCTP
      connNettype := "IN".toList
      connAddrtype := "IP4".toList
      connAddr := "0.0.0.0".toList
      direction := .sendrecv
      sctpPort := some 5000
      iceUfrag := c.localUsername
      icePwd := c.localPassword
      fingerprints := [c.fingerprint]
      setup := some .actpass }
    "webrtc-datachannel".toList

/-- The section of a transceiver in an offer. -/
def mediaSection (c : Connection) (t : RtpTransceiver) (mid : Text) : SdpMedia :=
  { t.toOfferSdpMedia mid with
    iceUfrag := c.localUsername
    icePwd := c.localPassword
    fingerprints := [c.fingerprint]
    setup := some .actpass }

/-- The section of an entry. -/
def entrySection (c : Connection) (medias : List SdpMedia) (e : MediaEntry) : Checked SdpMedia :=
  if e.isSctp then pure (c.sctpSection e.mid)
  else
    match e.tr with
    | none =>
        match medias[e.index]? with
        | none => .error (.index e.index medias.length)
        | some m => pure { m with port := 0, direction := .inactive }
    | some i =>
        match c.transceivers[i]? with
        | none => .error (.index i c.transceivers.length)
        | some t => pure (c.mediaSection t e.mid)

/-- `t->set_mline_index` for the transceivers of the entries, in the order of the sections. -/
def setMlineIndices (es : List MediaEntry) (ts : List RtpTransceiver) : List RtpTransceiver :=
  es.zipIdx.foldl (fun ts p =>
    match p.1.isSctp, p.1.tr with
    | false, some i => ts.modify i fun t => { t with mLineIndex := some p.2 }
    | _, _ => ts) ts

/-- The groups of an offer: lip synchronisation, and the bundle of what is not rejected. -/
def offerGroups (ts : List RtpTransceiver) (es : List MediaEntry) (medias : List SdpMedia) :
    List SdpGroup :=
  let mids := (medias.filter fun m => m.port ≠ 0).map SdpMedia.mid
  lipSyncGroups ts es ++ if mids = [] then [] else [⟨"BUNDLE".toList, mids⟩]

/-- `connection_impl::create_offer`. -/
def createOffer (c : Connection) : Checked (Connection × SessionDescription) := do
  let medias := c.localDesc.elim [] SessionDescription.medias
  let es := offerEntries medias c.needSctp c.transceivers
  let used := (es.map MediaEntry.mid).filter (· ≠ [])
  let (es, counter) ← assignMids es used c.midCounter
  let sections ← es.mapM (c.entrySection medias)
  let offer : SessionDescription :=
    { sdpType := "offer".toList
      sessionName := c.localDesc.elim "-".toList SessionDescription.sessionName
      -- The version is assigned to a string as a character, and lost on a first offer.
      origin := c.localDesc.elim {} fun _ =>
        { sessionVersion := [Char.ofNat (c.sessionVersion % 256)] }
      iceUfrag := c.localUsername
      icePwd := c.localPassword
      fingerprints := [c.fingerprint]
      setup := some .actpass
      groups := offerGroups c.transceivers es sections
      msidSemantic := if sections = [] then {} else ⟨"WMS".toList, ["*".toList]⟩
      iceOptions := ["trickle".toList]
      medias := sections }
  pure ({ c with
    transceivers := setMlineIndices es c.transceivers
    sessionVersion := c.sessionVersion + 1
    midCounter := counter }, offer)

/-! ### `create_answer` -/

/-- `setup_from`. -/
def setupFrom (desc : SessionDescription) : SdpSetupRole :=
  (desc.setup.orElse fun _ => desc.medias.head?.bind SdpMedia.setup).getD .passive

/-- `ice_options_trickle_from`. -/
def iceOptionsTrickleFrom (desc : SessionDescription) : Bool :=
  "trickle".toList ∈ desc.iceOptions ∨ desc.medias.any fun m => "trickle".toList ∈ m.iceOptions

/-- The answer to one section. -/
def answerSection (c : Connection) (rm : SdpMedia) : SdpMedia :=
  if rm.mediaType = .application then
    { mid := rm.mid
      mediaType := rm.mediaType
      port := 9
      proto := rm.proto
      formats := match rm.formats with
        | .strings fmts => .strings fmts
        | _ => .strings []
      connNettype := "IN".toList
      connAddrtype := "IP4".toList
      connAddr := "0.0.0.0".toList
      direction := rm.direction
      sctpPort := rm.sctpPort }
  else
    let m : SdpMedia :=
      match c.transceivers.find? fun t => t.mid = rm.mid with
      | some t => t.toAnswerSdpMedia rm
      | none =>
          { mid := rm.mid
            mediaType := rm.mediaType
            port := 0
            proto := rm.proto
            direction := .inactive }
    { m with connNettype := "IN".toList, connAddrtype := "IP4".toList,
             connAddr := "0.0.0.0".toList }

/-- `connection_impl::create_answer`; `none` where it throws. -/
def createAnswer (c : Connection) : Option SessionDescription :=
  match c.remoteDesc with
  | none => none
  | some remote =>
      if c.signalingState ≠ .haveRemoteOffer then none
      else
        let medias := remote.medias.map c.answerSection
        some
          { sdpType := "answer".toList
            iceUfrag := c.localUsername
            icePwd := c.localPassword
            fingerprints := [c.fingerprint]
            setup := some (if setupFrom remote ≠ .active then .active else .passive)
            medias := medias
            groups := if medias = [] then [] else [⟨"BUNDLE".toList, medias.map SdpMedia.mid⟩]
            iceOptions := if iceOptionsTrickleFrom remote then ["trickle".toList] else []
            msidSemantic := ⟨"WMS".toList, ["*".toList]⟩ }

/-! ### `set_local_description` -/

/-- The check of an offer against the sections of the transceivers. -/
def checkMlines (medias : List SdpMedia) : List RtpTransceiver → Option JsepError
  | [] => none
  | t :: ts =>
      match t.mLineIndex with
      | none => checkMlines medias ts
      | some i =>
          match medias[i]? with
          | none => some (.invalidMline i)
          | some m =>
              if t.mid ≠ [] ∧ t.mid ≠ m.mid then some (.midMismatch t.mid m.mid)
              else checkMlines medias ts

/-- The mid of a transceiver by its section. -/
def takeMid (medias : List SdpMedia) (t : RtpTransceiver) : RtpTransceiver :=
  if t.mid = [] then { t with mid := ((t.mLineIndex.bind (medias[·]?)).map SdpMedia.mid).getD [] }
  else t

/-- `connection_impl::set_local_description`. -/
def setLocalDescription (c : Connection) (desc : SessionDescription) : Outcome :=
  match c.signalingState with
  | .haveLocalOffer | .haveLocalPranswer | .haveRemotePranswer =>
      { state := c, thrown := some (.setLocalState c.signalingState) }
  | .stable | .closed =>
      if desc.sdpType ≠ "offer".toList then
        { state := c, thrown := some (.setLocalType "offer".toList) }
      else
        match checkMlines desc.medias c.transceivers with
        | some e => { state := c, thrown := some e }
        | none =>
            { state := { c with
                transceivers := c.transceivers.map (takeMid desc.medias)
                localDesc := some desc
                signalingState := .haveLocalOffer } }
  | .haveRemoteOffer =>
      if desc.sdpType ≠ "answer".toList then
        { state := c, thrown := some (.setLocalType "answer".toList) }
      else { state := { c with localDesc := some desc, signalingState := .haveLocalPranswer } }

/-! ### `set_remote_description` -/

/-- The kind of a section that a transceiver can take. -/
def sectionKind : SdpMediaType → Option MediaKind
  | .audio => some .audio
  | .video => some .video
  | _ => none

/-- The call of the track callback for transceiver `i`. -/
def onTrack (i : ℕ) (rm : SdpMedia) : OnTrack := ⟨i, rm.msids.map SdpMsid.streamId⟩

/-- Transceiver `i`, which is `t`, takes the offered section `rm`. -/
def associate (c : Connection) (i : ℕ) (t : RtpTransceiver) (rm : SdpMedia) :
    Connection × List OnTrack :=
  let t := ({ t with mid := rm.mid } : RtpTransceiver).fromRemoteOffer rm
  let c := { c with transceivers := c.transceivers.set i t }
  if t.direction = .inactive then (c, [])
  else
    let (c, tracks) :=
      if t.direction.receives then (c.buildSsrcMap i rm, [onTrack i rm]) else (c, [])
    match rm.extmaps.find? fun e => e.uri = RtpTransceiver.midUri with
    | some e => ({ c with midExtId := some e.id }, tracks)
    | none => (c, tracks)

/-- The first transceiver that a section of kind `k` can be given to. -/
def freeTransceiver (c : Connection) (k : MediaKind) : Option (ℕ × RtpTransceiver) :=
  let free (t : RtpTransceiver) : Bool := t.mid = [] ∧ t.stopped = false ∧ t.kind = k
  (c.transceivers.findIdx? free).bind fun i => (c.transceivers[i]?).map fun t => (i, t)

/-- The loop over the sections of an offer. -/
def applyOffer : List SdpMedia → Connection → List OnTrack → Outcome
  | [], c, tracks => { state := c, tracks := tracks }
  | rm :: rms, c, tracks =>
      match sectionKind rm.mediaType with
      | none => applyOffer rms c tracks
      | some k =>
          if rm.mid = [] then { state := c, tracks := tracks, thrown := some .emptyMid }
          else
            match c.freeTransceiver k with
            | none => applyOffer rms c tracks
            | some (i, t) =>
                let (c, new) := c.associate i t rm
                applyOffer rms c (tracks ++ new)

/-- Transceiver `i`, which is `t`, takes its section of the answer. -/
def applyAnswerTo (medias : List SdpMedia) (c : Connection) (i : ℕ) (t : RtpTransceiver) :
    Connection × List OnTrack :=
  match medias.find? fun rm => rm.mid = t.mid with
  | none =>
      ({ c with
        transceivers := c.transceivers.set i { t with direction := .inactive }.stop }, [])
  | some rm =>
      let t := t.fromRemoteAnswer rm
      if t.direction = .inactive then
        ({ c with transceivers := c.transceivers.set i t.stop }, [])
      else
        let c := { c with transceivers := c.transceivers.set i t }
        if t.direction.receives then (c.buildSsrcMap i rm, [onTrack i rm]) else (c, [])

/-- The loop over the transceivers of an answer. -/
def applyAnswer (medias : List SdpMedia) : List (RtpTransceiver × ℕ) → Connection →
    List OnTrack → Outcome
  | [], c, tracks => { state := c, tracks := tracks }
  | (t, i) :: ts, c, tracks =>
      let (c, new) := applyAnswerTo medias c i t
      applyAnswer medias ts c (tracks ++ new)

/-- The checks of an offer before its sections. -/
def checkBundle (desc : SessionDescription) : Option JsepError :=
  match desc.groups.find? fun g => g.semantic = "BUNDLE".toList with
  | none => some .noBundle
  | some bundle =>
      (desc.medias.find? fun rm => rm.mediaType = .application ∧ rm.mid ∉ bundle.items).map
        fun rm => .notBundled rm.mid

/-- `connection_impl::set_remote_description`. -/
def setRemoteDescription (c : Connection) (desc : SessionDescription) : Outcome :=
  match c.signalingState with
  | .haveRemoteOffer | .haveLocalPranswer | .haveRemotePranswer =>
      { state := c, thrown := some (.setRemoteState c.signalingState) }
  | .stable | .closed =>
      if desc.sdpType ≠ "offer".toList then
        { state := c, thrown := some (.setRemoteType "offer".toList) }
      else
        match checkBundle desc with
        | some e => { state := c, thrown := some e }
        | none =>
            let r := applyOffer desc.medias c []
            if r.thrown.isSome then r
            else
              { r with state := { r.state with
                  remoteDesc := some desc, signalingState := .haveRemoteOffer } }
  | .haveLocalOffer =>
      if desc.sdpType ≠ "answer".toList then
        { state := c, thrown := some (.setRemoteType "answer".toList) }
      else
        let r := applyAnswer desc.medias c.transceivers.zipIdx c []
        { r with state := { r.state with
            remoteDesc := some desc, signalingState := .haveRemotePranswer } }

end Connection
end AsioRtc
