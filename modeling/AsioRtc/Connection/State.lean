/-
# The state of a connection

`src/connection_impl.hpp`: what `connection_impl` keeps for signaling (the
descriptions, the transceivers, the counters of its offers) and for the media it
receives (the contexts by SSRC, the maps for retransmissions, the transport-cc
state and the statistics).  The ICE agent, the DTLS certificate and the transports
are outside; of them there is the name and password of the agent, the fingerprint,
and whether there is an SRTP transport.

`build_ssrc_map` and `create_ssrc_context` of `src/connection_impl.cpp` and
`src/rtp_transceiver.cpp` are here too, since both sides of a negotiation use them.
A context is known by its receiver, that is, by the place of its transceiver in
the list.  One that is used again after it has left the set is reset, so it is the
same as a new one.
-/

import AsioRtc.Connection.Transceiver
import AsioRtc.Ssrc.Context
import AsioRtc.Twcc.TransportCc

namespace AsioRtc

open Lib Text

/-- `signaling_state_t`. -/
inductive SignalingState
  | stable
  | haveLocalOffer
  | haveRemoteOffer
  | haveLocalPranswer
  | haveRemotePranswer
  | closed
  deriving DecidableEq, Repr

/-- An entry of `_ssrc_set`: the transceiver whose receiver owns the context. -/
structure SsrcEntry where
  receiver : ℕ
  ctx : SsrcContext

/-- `rtc_remote_outbound_rtp_stream_stats`, as a sender report fills it in. -/
structure RemoteOutbound where
  timestamp : ℤ := 0
  packetsSent : U32 := 0
  bytesSent : U32 := 0
  remoteTimestamp : U64 := 0
  deriving DecidableEq, Repr

/-- `rtc_remote_inbound_rtp_stream_stats`, as a receiver report fills it in.  The fraction is in
256ths, the round-trip time in microseconds. -/
structure RemoteInbound where
  timestamp : ℤ := 0
  packetsLost : U32 := 0
  jitter : U32 := 0
  fractionLost : U8 := 0
  roundTripTime : ℤ := 0
  deriving DecidableEq, Repr

/-- `connection_impl`. -/
structure Connection where
  localUsername : Text := []
  localPassword : Text := []
  fingerprint : SdpFingerprint := {}
  srtpTransport : Bool := false
  transceivers : List RtpTransceiver := []
  needSctp : Bool := false
  sessionVersion : ℕ := 0
  midCounter : U16 := 0
  localDesc : Option SessionDescription := none
  remoteDesc : Option SessionDescription := none
  signalingState : SignalingState := .stable
  midExtId : Option U16 := none
  ssrcSet : U32 → Option SsrcEntry := fun _ => none
  rtxPtToPt : U8 → Option U8 := fun _ => none
  rtxSsrcToSsrc : U32 → Option U32 := fun _ => none
  rxPackets : U64 := 0
  rxBytes : U64 := 0
  remoteOutbound : U32 → Option RemoteOutbound := fun _ => none
  remoteInbound : U32 → Option RemoteInbound := fun _ => none
  twcc : TransportCc := {}

namespace Connection

/-- `rtp_receiver::create_ssrc_context`, for the receiver of transceiver `i`. -/
def createSsrcContext (i : ℕ) (c : Connection) (ssrc : U32) : Connection :=
  if (c.ssrcSet ssrc).isSome then c
  else { c with ssrcSet := Function.update c.ssrcSet ssrc (some ⟨i, { ssrc := ssrc }⟩) }

/-- `from_chars` into a `uint8_t`, which may leave characters behind. -/
def leadingUint8 (s : Text) : Option U8 := parseUint 8 (s.takeWhile Char.isDigit)

/-- The payload type that an `rtx` codec repairs. -/
def aptOf [NoCaseEq] (c : SdpRtpmap) : Option U8 :=
  if nceq "rtx".toList c.name then (c.findParam "apt".toList).bind leadingUint8 else none

/-- The two SSRCs of a group with semantics `semantics`. -/
def groupPair (semantics : Text) (g : SdpSsrcGroup) : Option (U32 × U32) :=
  match g.ssrcs with
  | [a, b] => if g.semantics = semantics then some (a, b) else none
  | _ => none

/-- The SSRCs of a section that carry repair packets. -/
def repairSsrcs (rm : SdpMedia) : List U32 :=
  rm.ssrcGroups.filterMap fun g =>
    ((groupPair "FID".toList g).orElse fun _ => groupPair "FEC".toList g).map Prod.snd

/-- `connection_impl::build_ssrc_map`, for the receiver of transceiver `i`. -/
def buildSsrcMap [NoCaseEq] (c : Connection) (i : ℕ) (rm : SdpMedia) : Connection :=
  if rm.port = 0 ∨ rm.direction = .recvonly then c
  else
    let c :=
      { c with
        rtxPtToPt := rm.rtpmaps.foldl (fun m codec =>
          (aptOf codec).elim m fun pt => Function.update m codec.payloadType (some pt)) c.rtxPtToPt
        rtxSsrcToSsrc := rm.ssrcGroups.foldl (fun m g =>
          (groupPair "FID".toList g).elim m fun p => Function.update m p.2 (some p.1))
          c.rtxSsrcToSsrc }
    ((rm.ssrcs.map SdpSsrc.ssrc).filter (· ∉ repairSsrcs rm)).foldl (createSsrcContext i) c

end Connection
end AsioRtc
