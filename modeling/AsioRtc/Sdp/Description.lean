/-
# Session descriptions

`src/sdp.hpp`, with `sdp_direction` and `sdp_extmap` of
`include/asiortc/session_description.hpp`, and the members of `sdp_rtpmap` and
`sdp_media` at the end of `src/sdp.cpp`.  The formats of a section are payload types
or strings, never both: `add_rtpmap` and `add_format` each start over where the
other one was before.

A direction is two bits, one for each way; `negotiate_direction` keeps the ways that
both sides want (`negotiateDirection_eq`).  `is_match` compares the codecs of two
payload types.
-/

import AsioRtc.Lib.OrdMap
import AsioRtc.Text
import Mathlib.Data.Char
import Mathlib.Data.List.Lex

namespace AsioRtc

open Lib Text

/-- `sdp_media_type`. -/
inductive SdpMediaType
  | audio
  | video
  | application
  | text
  | message
  deriving DecidableEq, Repr

/-- `sdp_proto`. -/
inductive SdpProto
  | UDP
  | RTP_AVP
  | RTP_SAVP
  | RTP_SAVPF
  | UDP_TLS_RTP_SAVPF
  | DTLS_SCTP
  | UDP_DTLS_SCTP
  | TCP_DTLS_SCTP
  deriving DecidableEq, Repr

/-- `sdp_setup_role`. -/
inductive SdpSetupRole
  | active
  | passive
  | actpass
  | holdconn
  deriving DecidableEq, Repr

/-- `sdp_rid_direction`. -/
inductive SdpRidDirection
  | send
  | recv
  deriving DecidableEq, Repr

/-! ### Directions -/

/-- `sdp_direction`; the values are two bits, one for sending and one for receiving. -/
inductive SdpDirection
  | inactive
  | sendonly
  | recvonly
  | sendrecv
  deriving DecidableEq, Repr

namespace SdpDirection

/-- `std::to_underlying`. -/
def toUnderlying : SdpDirection → ℕ
  | inactive => 0
  | sendonly => 1
  | recvonly => 2
  | sendrecv => 3

/-- The cast back from a number. -/
def ofUnderlying : ℕ → SdpDirection
  | 0 => inactive
  | 1 => sendonly
  | 2 => recvonly
  | _ => sendrecv

/-- `reverse_direction`. -/
def reverse : SdpDirection → SdpDirection
  | inactive => inactive
  | sendrecv => sendrecv
  | sendonly => recvonly
  | recvonly => sendonly

/-- This side sends. -/
def sends : SdpDirection → Bool
  | sendonly | sendrecv => true
  | _ => false

/-- This side receives. -/
def receives : SdpDirection → Bool
  | recvonly | sendrecv => true
  | _ => false

/-- Seen from the other side twice, a direction is itself. -/
@[simp] theorem reverse_reverse (d : SdpDirection) : d.reverse.reverse = d := by
  cases d <;> rfl

/-- The other side sends where this one receives. -/
@[simp] theorem sends_reverse (d : SdpDirection) : d.reverse.sends = d.receives := by
  cases d <;> rfl

/-- The other side receives where this one sends. -/
@[simp] theorem receives_reverse (d : SdpDirection) : d.reverse.receives = d.sends := by
  cases d <;> rfl

/-- A direction is what it sends and what it receives. -/
theorem ext_iff {d e : SdpDirection} : d = e ↔ d.sends = e.sends ∧ d.receives = e.receives := by
  cases d <;> cases e <;> simp [sends, receives]

end SdpDirection

/-- `negotiate_direction`. -/
def negotiateDirection (l remote : SdpDirection) : SdpDirection :=
  .ofUnderlying (l.toUnderlying &&& remote.reverse.toUnderlying)

/-- What is kept is sent where this side sends and the other one receives. -/
@[simp] theorem sends_negotiateDirection (l r : SdpDirection) :
    (negotiateDirection l r).sends = (l.sends && r.receives) := by
  cases l <;> cases r <;> rfl

/-- What is kept is received where this side receives and the other one sends. -/
@[simp] theorem receives_negotiateDirection (l r : SdpDirection) :
    (negotiateDirection l r).receives = (l.receives && r.sends) := by
  cases l <;> cases r <;> rfl

/-! ### Attributes -/

/-- `sdp_extmap`. -/
structure SdpExtmap where
  id : U16 := 0
  uri : Text := []
  direction : Option SdpDirection := none
  attributes : Text := []
  deriving DecidableEq, Repr

/-- `sdp_rtcp_fb`; without a payload type it holds for all of them. -/
structure SdpRtcpFb where
  payloadType : Option U8 := none
  type : Text := []
  subtype : Text := []
  deriving DecidableEq, Repr

/-- `sdp_msid`. -/
structure SdpMsid where
  streamId : Text := []
  trackId : Text := []
  deriving DecidableEq, Repr

/-- `sdp_msid_semantic`. -/
structure SdpMsidSemantic where
  semantic : Text := []
  streamIds : List Text := []
  deriving DecidableEq, Repr

/-- `sdp_rtpmap`; `params` is `_params`. -/
structure SdpRtpmap where
  payloadType : U8 := 0
  name : Text := []
  clockRate : U32 := 0
  channels : Option U8 := none
  params : Text := []
  deriving DecidableEq, Repr

/-- `sdp_ssrc`. -/
structure SdpSsrc where
  ssrc : U32 := 0
  attr : Text := []
  value : Text := []
  deriving DecidableEq, Repr

/-- `sdp_ssrc_group`. -/
structure SdpSsrcGroup where
  semantics : Text := []
  ssrcs : List U32 := []
  deriving DecidableEq, Repr

/-- `sdp_fingerprint`. -/
structure SdpFingerprint where
  algorithm : Text := []
  value : Text := []
  deriving DecidableEq, Repr

/-- `sdp_rtcp`. -/
structure SdpRtcp where
  nettype : Text := []
  addrtype : Text := []
  addr : Text := []
  port : U16 := 0
  deriving DecidableEq, Repr

/-- `sdp_crypto`. -/
structure SdpCrypto where
  tag : U32 := 0
  suite : Text := []
  keyParams : Text := []
  sessionParams : Text := []
  deriving DecidableEq, Repr

/-- `sdp_simulcast_stream`. -/
structure SdpSimulcastStream where
  rid : Text := []
  paused : Bool := false
  deriving DecidableEq, Repr

/-- `sdp_simulcast`; a layer is the list of its streams. -/
structure SdpSimulcast where
  sendLayers : List (List SdpSimulcastStream) := []
  recvLayers : List (List SdpSimulcastStream) := []
  deriving DecidableEq, Repr

/-- `sdp_rid`. -/
structure SdpRid where
  id : Text := []
  direction : SdpRidDirection := .send
  payloadTypes : List U8 := []
  params : OrdMap Text Text := .empty

/-- `sdp_origin`. -/
structure SdpOrigin where
  username : Text := "-".toList
  sessionId : Text := "0".toList
  sessionVersion : Text := "0".toList
  nettype : Text := "IN".toList
  addrtype : Text := "IP4".toList
  addr : Text := "0.0.0.0".toList
  deriving DecidableEq, Repr

/-- `sdp_bandwidth_type`. -/
inductive SdpBandwidthType
  | CT
  | AS
  | TIAS
  | RS
  | RR
  deriving DecidableEq, Repr

/-- `sdp_bandwidth`. -/
structure SdpBandwidth where
  type : SdpBandwidthType := .AS
  bandwidth : U32 := 0
  deriving DecidableEq, Repr

/-- `sdp_group`. -/
structure SdpGroup where
  semantic : Text := []
  items : List Text := []
  deriving DecidableEq, Repr

/-- `sdp_media::_formats`. -/
inductive SdpFormats
  | none
  | payloadTypes (pts : List U8)
  | strings (fmts : List Text)
  deriving DecidableEq, Repr

/-- `sdp_media`, less `ptime`, `maxptime` and `framerate`, which are only declared: the parser, the
printer and the negotiation never read or set them. -/
structure SdpMedia where
  mediaType : SdpMediaType
  port : U16 := 9
  proto : SdpProto := .RTP_AVP
  mid : Text := []
  direction : SdpDirection := .sendrecv
  extmaps : List SdpExtmap := []
  ssrcs : List SdpSsrc := []
  ssrcGroups : List SdpSsrcGroup := []
  candidates : List Text := []
  fingerprints : List SdpFingerprint := []
  setup : Option SdpSetupRole := none
  iceUfrag : Text := []
  icePwd : Text := []
  iceOptions : List Text := []
  rtcpMux : Bool := false
  rtcpMuxOnly : Bool := false
  rtcpRsize : Bool := false
  rtcp : Option SdpRtcp := none
  msids : List SdpMsid := []
  cryptos : List SdpCrypto := []
  sctpPort : Option U16 := none
  maxMessageSize : Option U32 := none
  simulcast : SdpSimulcast := {}
  rids : List SdpRid := []
  endOfCandidates : Bool := false
  extmapAllowMixed : Bool := false
  connNettype : Text := []
  connAddrtype : Text := []
  connAddr : Text := []
  attributes : List (Text × Text) := []
  formats : SdpFormats := .none
  rtpmaps : List SdpRtpmap := []
  rtcpFbs : List SdpRtcpFb := []

/-- `session_description`. -/
structure SessionDescription where
  sdpType : Text := []
  version : U8 := 0
  origin : SdpOrigin := {}
  sessionName : Text := "-".toList
  uri : Text := []
  email : Text := []
  phoneNumber : Text := []
  connNettype : Text := []
  connAddrtype : Text := []
  connAddr : Text := []
  direction : Option SdpDirection := none
  bandwidths : List SdpBandwidth := []
  attributes : List (Text × Text) := []
  groups : List SdpGroup := []
  iceUfrag : Text := []
  icePwd : Text := []
  iceOptions : List Text := []
  iceLite : Bool := false
  fingerprints : List SdpFingerprint := []
  setup : Option SdpSetupRole := none
  extmapAllowMixed : Bool := false
  msidSemantic : SdpMsidSemantic := {}
  candidates : List Text := []
  medias : List SdpMedia := []

/-! ### Codecs -/

namespace SdpRtpmap

/-- `sdp_rtpmap::find_param`. -/
def findParam (c : SdpRtpmap) (name : Text) : Option Text :=
  match findText name c.params with
  | none => none
  | some pos =>
      if c.params[pos + name.length]? = some '=' then
        some ((c.params.drop (pos + name.length + 1)).takeWhile (· ≠ ';'))
      else none

/-- `sdp_rtpmap::add_param`. -/
def addParam (c : SdpRtpmap) (name value : Text) : SdpRtpmap :=
  if c.params = [] then { c with params := name ++ '=' :: value }
  else
    match findText name c.params with
    | none => { c with params := c.params ++ ';' :: name ++ '=' :: value }
    | some pos =>
        if c.params[pos + name.length]? = some '=' then
          { c with
            params := c.params.take (pos + name.length + 1) ++ value ++
              (c.params.drop (pos + name.length + 1)).dropWhile (· ≠ ';') }
        else c

/-- A parameter does not change the name of the codec. -/
@[simp] theorem addParam_name (c : SdpRtpmap) (name value : Text) :
    (c.addParam name value).name = c.name := by
  unfold addParam
  repeat' split
  all_goals rfl

/-- `sdp_rtpmap::remove_param`. -/
def removeParam (c : SdpRtpmap) (name : Text) : SdpRtpmap :=
  match findText name c.params with
  | none => c
  | some pos =>
      let stop := (findIf (· == ';') c.params (pos + name.length)).elim c.params.length (· + 1)
      { c with params := c.params.take pos ++ c.params.drop stop }

/-- `sdp_rtpmap::is_match`. -/
def isMatch [NoCaseEq] (a b : SdpRtpmap) : Bool :=
  if !nceq a.name b.name || a.clockRate ≠ b.clockRate || a.channels ≠ b.channels then false
  else if nceq a.name "H264".toList &&
      a.findParam "profile-level-id".toList ≠ b.findParam "profile-level-id".toList then false
  else true

end SdpRtpmap

namespace SdpMedia

/-- `sdp_media::payload_types`. -/
def payloadTypes (m : SdpMedia) : List U8 :=
  match m.formats with
  | .payloadTypes pts => pts
  | _ => []

/-- `sdp_media::add_format`. -/
def addFormat (m : SdpMedia) (f : Text) : SdpMedia :=
  match m.formats with
  | .strings fmts => { m with formats := .strings (fmts ++ [f]) }
  | _ => { m with formats := .strings [f] }

/-- `sdp_media::find_rtpmap`. -/
def findRtpmap (m : SdpMedia) (pt : U8) : Option SdpRtpmap :=
  m.rtpmaps.find? fun c => c.payloadType = pt

/-- `sdp_media::add_rtpmap`. -/
def addRtpmap (m : SdpMedia) (c : SdpRtpmap) : SdpMedia :=
  if (m.findRtpmap c.payloadType).isSome then m
  else
    { m with
      rtpmaps := m.rtpmaps ++ [c]
      formats := .payloadTypes (m.payloadTypes ++ [c.payloadType]) }

/-- `find_rtpmap(pt)->set_params_string(params)`. -/
def setParams (m : SdpMedia) (pt : U8) (params : Text) : SdpMedia :=
  { m with
    rtpmaps := m.rtpmaps.set (m.rtpmaps.findIdx fun c => c.payloadType = pt)
      { (m.findRtpmap pt).getD {} with params := params } }

/-- The comparison of `add_feedback`. -/
def sameFeedback (a b : SdpRtcpFb) : Bool := a.type = b.type && a.subtype = b.subtype

/-- `sdp_media::add_feedback`. -/
def addFeedback (m : SdpMedia) (fb : SdpRtcpFb) : SdpMedia :=
  if fb.type = [] then m
  else
    match fb.payloadType with
    | some pt =>
        if m.rtcpFbs.any fun f => sameFeedback f fb && f.payloadType.all (· = pt) then m
        else { m with rtcpFbs := m.rtcpFbs ++ [fb] }
    | none => { m with rtcpFbs := m.rtcpFbs.filter (fun f => !sameFeedback f fb) ++ [fb] }

section

variable (m : SdpMedia) (c : SdpRtpmap) (fb : SdpRtcpFb)

/-- `add_rtpmap` leaves the other fields of a section alone. -/
theorem addRtpmap_frame : m.addRtpmap c =
    { m with rtpmaps := (m.addRtpmap c).rtpmaps, formats := (m.addRtpmap c).formats } := by
  unfold addRtpmap
  split <;> rfl

/-- The mid stays. -/
@[simp] theorem addRtpmap_mid : (m.addRtpmap c).mid = m.mid := by
  rw [addRtpmap_frame]

/-- The direction stays. -/
@[simp] theorem addRtpmap_direction : (m.addRtpmap c).direction = m.direction := by
  rw [addRtpmap_frame]

/-- The port stays. -/
@[simp] theorem addRtpmap_port : (m.addRtpmap c).port = m.port := by
  rw [addRtpmap_frame]

/-- The media type stays. -/
@[simp] theorem addRtpmap_mediaType : (m.addRtpmap c).mediaType = m.mediaType := by
  rw [addRtpmap_frame]

/-- The protocol stays. -/
@[simp] theorem addRtpmap_proto : (m.addRtpmap c).proto = m.proto := by
  rw [addRtpmap_frame]

/-- The other attributes stay. -/
@[simp] theorem addRtpmap_attributes : (m.addRtpmap c).attributes = m.attributes := by
  rw [addRtpmap_frame]

/-- The sources stay. -/
@[simp] theorem addRtpmap_ssrcs : (m.addRtpmap c).ssrcs = m.ssrcs := by
  rw [addRtpmap_frame]

/-- The feedback stays. -/
@[simp] theorem addRtpmap_rtcpFbs : (m.addRtpmap c).rtcpFbs = m.rtcpFbs := by
  rw [addRtpmap_frame]

/-- The streams stay. -/
@[simp] theorem addRtpmap_msids : (m.addRtpmap c).msids = m.msids := by
  rw [addRtpmap_frame]

/-- `add_feedback` leaves the other fields of a section alone. -/
theorem addFeedback_frame : m.addFeedback fb =
    { m with rtcpFbs := (m.addFeedback fb).rtcpFbs } := by
  unfold addFeedback
  repeat' split
  all_goals rfl

/-- The mid stays. -/
@[simp] theorem addFeedback_mid : (m.addFeedback fb).mid = m.mid := by
  rw [addFeedback_frame]

/-- The direction stays. -/
@[simp] theorem addFeedback_direction : (m.addFeedback fb).direction = m.direction := by
  rw [addFeedback_frame]

/-- The port stays. -/
@[simp] theorem addFeedback_port : (m.addFeedback fb).port = m.port := by
  rw [addFeedback_frame]

/-- The media type stays. -/
@[simp] theorem addFeedback_mediaType : (m.addFeedback fb).mediaType = m.mediaType := by
  rw [addFeedback_frame]

/-- The codecs stay. -/
@[simp] theorem addFeedback_rtpmaps : (m.addFeedback fb).rtpmaps = m.rtpmaps := by
  rw [addFeedback_frame]

/-- The other attributes stay. -/
@[simp] theorem addFeedback_attributes : (m.addFeedback fb).attributes = m.attributes := by
  rw [addFeedback_frame]

/-- The sources stay. -/
@[simp] theorem addFeedback_ssrcs : (m.addFeedback fb).ssrcs = m.ssrcs := by
  rw [addFeedback_frame]

/-- The streams stay. -/
@[simp] theorem addFeedback_msids : (m.addFeedback fb).msids = m.msids := by
  rw [addFeedback_frame]

end

/-- A codec goes behind those whose payload types are others. -/
theorem addRtpmap_rtpmaps {m : SdpMedia} {c : SdpRtpmap}
    (h : ∀ d ∈ m.rtpmaps, d.payloadType ≠ c.payloadType) :
    (m.addRtpmap c).rtpmaps = m.rtpmaps ++ [c] := by
  have hnone : m.findRtpmap c.payloadType = none := by
    simpa [findRtpmap, List.find?_eq_none] using h
  rw [addRtpmap, hnone]
  rfl

end SdpMedia

end AsioRtc
