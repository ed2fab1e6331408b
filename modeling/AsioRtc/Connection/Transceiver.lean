/-
# Transceivers

`src/rtp_transceiver.hpp`, `src/rtp_transceiver.cpp` and `src/rtp_stream.hpp`: a
sender and a receiver that share an m-section, and the four functions that turn a
transceiver into a section and a remote section back into its state.

Both sides of a negotiation look for the first remote codec that matches their own.
What the functions do to the direction is `fromRemoteOffer_direction` and
`fromRemoteAnswer_direction`; where the result is not inactive, they say which codec
was found (`fromRemoteOffer_codec`).
-/

import AsioRtc.Jitter.Buffer
import AsioRtc.Sdp.Description

namespace AsioRtc

open Lib Text

/-- `media_kind`. -/
inductive MediaKind
  | audio
  | video
  deriving DecidableEq, Repr

/-- `media_format`. -/
inductive MediaFormat
  | unknown
  | opus
  | vp8
  | h264
  | vp9
  deriving DecidableEq, Repr

/-- `media_description`. -/
structure MediaDescription where
  format : MediaFormat := .unknown
  clockRate : U32 := 90000
  encodingParams : Text := []
  channels : Option U8 := none
  deriving DecidableEq, Repr

/-- `sdp_rtpmap::from_media_description`; `none` where it throws. -/
def SdpRtpmap.fromMediaDescription (desc : MediaDescription) : Option SdpRtpmap :=
  let c : SdpRtpmap :=
    { clockRate := desc.clockRate, channels := desc.channels, params := desc.encodingParams }
  match desc.format with
  | .opus => some { c with name := "opus".toList, payloadType := 111 }
  | .vp8 => some { c with name := "vp8".toList, payloadType := 96 }
  | .h264 =>
      some ({ c with name := "h264".toList, payloadType := 102 }.addParam
        "profile-level-id".toList "42001f".toList)
  | .vp9 => some { c with name := "vp9".toList, payloadType := 98 }
  | .unknown => none

/-- `rtp_stream::history_entry`. -/
structure HistoryEntry where
  payload : Bytes := []
  seq : U16 := 0
  timestamp : U32 := 0
  deriving DecidableEq, Repr

/-- `rtp_stream`: what the handlers of the connection read; the history has 128 slots. -/
structure RtpStream where
  ssrc : U32 := 0
  rtxSsrc : U32 := 0
  rtxPt : U8 := 97
  rtxSeq : U16 := 0
  history : ℕ → Option HistoryEntry := fun _ => none

/-- `rtp_stream::HISTORY_SIZE`. -/
def historySize : ℕ := 128

/-- `rtp_sender`: the id of its track, the rids of its encodings, and its streams. -/
structure RtpSender where
  trackId : Option Text := none
  msids : List Text := []
  rids : List Text := []
  streams : List RtpStream := []
  stopped : Bool := false

/-- `media_track_impl`: its codec and its jitter buffer. -/
structure MediaTrack where
  rtpmap : SdpRtpmap
  jitter : JitterBuffer

/-- `media_track_impl::media_track_impl`. -/
def MediaTrack.create [NoCaseEq] (codec : SdpRtpmap) : MediaTrack :=
  { rtpmap := codec, jitter := .create 500 (!nceq codec.name "opus".toList) }

/-- `media_track_impl::push_frame`. -/
def MediaTrack.pushFrame (t : MediaTrack) (pkt : RtpPacket) : MediaTrack :=
  { t with jitter := t.jitter.push pkt }

/-- `rtp_receiver`.  The callback gets the packet by reference: it may change it, and `false`
drops it. -/
structure RtpReceiver where
  track : Option MediaTrack := none
  headerExtensions : List SdpExtmap := []
  onRtp : Option (RtpPacket → RtpPacket × Bool) := none
  stopped : Bool := false

/-- `rtp_transceiver`; its codec is `_codec`. -/
structure RtpTransceiver where
  mLineIndex : Option ℕ := none
  mid : Text := []
  direction : SdpDirection := .sendrecv
  codec : SdpRtpmap := {}
  stopped : Bool := false
  sender : RtpSender := {}
  receiver : RtpReceiver := {}

variable [NoCaseEq]

namespace RtpTransceiver

/-- `rtp_transceiver::kind`. -/
def kind (t : RtpTransceiver) : MediaKind :=
  if nceq t.codec.name "opus".toList then .audio else .video

/-- `get_media_type`. -/
def getMediaType : MediaKind → SdpMediaType
  | .audio => .audio
  | .video => .video

/-- `rtp_transceiver::stop`. -/
def stop (t : RtpTransceiver) : RtpTransceiver :=
  if t.stopped then t
  else
    { t with stopped := true, sender.stopped := true, receiver.stopped := true }

/-- The extension that carries the mid. -/
def midUri : Text := "urn:ietf:params:rtp-hdrext:sdes:mid".toList

/-- The extension that carries the rid. -/
def ridUri : Text := "urn:ietf:params:rtp-hdrext:sdes:rtp-stream-id".toList

/-- The extension that carries the time of sending. -/
def absSendTimeUri : Text := "http://www.webrtc.org/experiments/rtp-hdrext/abs-send-time".toList

/-- The extension that carries the transport-wide number. -/
def transportCcUri : Text :=
  "http://www.ietf.org/id/draft-holmer-rmcat-transport-wide-cc-extensions-01".toList

/-- The codec that carries retransmissions of `codec`. -/
def rtxRtpmap (codec : SdpRtpmap) : SdpRtpmap :=
  SdpRtpmap.addParam
    { payloadType := codec.payloadType + 1, name := "rtx".toList, clockRate := codec.clockRate }
    "apt".toList (toText codec.payloadType.toNat)

omit [NoCaseEq] in
/-- The repair codec has the next payload type. -/
theorem rtxRtpmap_payloadType (codec : SdpRtpmap) :
    (rtxRtpmap codec).payloadType = codec.payloadType + 1 := rfl

omit [NoCaseEq] in
/-- The name of the repair codec. -/
theorem rtxRtpmap_name (codec : SdpRtpmap) : (rtxRtpmap codec).name = "rtx".toList := rfl

/-- The section of an offer before it is known whether the transceiver is stopped. -/
def offerBase (t : RtpTransceiver) (mid : Text) : SdpMedia :=
  SdpMedia.addRtpmap
    { mid := mid
      port := 9
      proto := .UDP_TLS_RTP_SAVPF
      connNettype := "IN".toList
      connAddrtype := "IP4".toList
      connAddr := "0.0.0.0".toList
      mediaType := getMediaType t.kind
      rtcpMux := true }
    t.codec

/-- The msids of an offered section. -/
def offerMsids (t : RtpTransceiver) : List SdpMsid :=
  t.sender.trackId.elim [] fun id => t.sender.msids.map fun ms => ⟨ms, id⟩

/-- What an offered section of video has besides. -/
def offerVideo (codec : SdpRtpmap) (m : SdpMedia) : SdpMedia :=
  let m := { m.addRtpmap (rtxRtpmap codec) with
    extmaps := [{ id := 1, uri := midUri }, { id := 2, uri := ridUri },
      { id := 3, uri := absSendTimeUri }, { id := 4, uri := transportCcUri }] }
  [{ payloadType := some codec.payloadType, type := "nack".toList },
    { payloadType := some codec.payloadType, type := "nack".toList, subtype := "pli".toList },
    { payloadType := some codec.payloadType, type := "goog-remb".toList }].foldl
      SdpMedia.addFeedback m

/-- What an offered section of audio has besides. -/
def offerAudio (m : SdpMedia) : SdpMedia :=
  { m with extmaps := [{ id := 1, uri := midUri }, { id := 4, uri := transportCcUri }] }

/-- The section of an offer of a transceiver that is not stopped. -/
def offerLive (t : RtpTransceiver) (mid : Text) : SdpMedia :=
  let m := { t.offerBase mid with direction := t.direction, msids := t.offerMsids }
  if t.kind = .video then offerVideo t.codec m else offerAudio m

/-- `rtp_transceiver::to_offer_sdp_media`. -/
def toOfferSdpMedia (t : RtpTransceiver) (mid : Text) : SdpMedia :=
  if t.stopped then { t.offerBase mid with port := 0, direction := .inactive }
  else
    let m := t.offerLive mid
    if t.direction.sends then
      { m with rids := (t.sender.rids.filter (· ≠ [])).map fun rid => { id := rid } }
    else m

/-- `rtp_transceiver::match_offer_rtpmaps`. -/
def matchOfferRtpmaps (t : RtpTransceiver) (offer : SdpMedia) : List SdpRtpmap :=
  (offer.rtpmaps.find? fun c => SdpRtpmap.isMatch t.codec c).toList

/-- The section of an answer before its direction is looked at.  Where no codec matches, it has
the first offered one. -/
def answerBase (t : RtpTransceiver) (remote : SdpMedia) : SdpMedia :=
  let m := (t.matchOfferRtpmaps remote).foldl SdpMedia.addRtpmap
    { mid := t.mid
      mediaType := remote.mediaType
      proto := remote.proto
      connNettype := "IN".toList
      connAddrtype := "IP4".toList
      connAddr := "0.0.0.0".toList
      rtcpMux := remote.rtcpMux
      msids := remote.msids
      direction := negotiateDirection t.direction remote.direction }
  if m.rtpmaps = [] then remote.rtpmaps.head?.elim m m.addRtpmap else m

/-- The SSRC lines of an answered section. -/
def answerSsrcs (t : RtpTransceiver) : List SdpSsrc :=
  match t.sender.streams with
  | [] => []
  | s :: _ =>
      { ssrc := s.ssrc, attr := "cname".toList, value := "asiortc".toList } ::
        t.sender.msids.map fun ms =>
          { ssrc := s.ssrc, attr := "msid".toList,
            value := ms ++ ' ' :: t.sender.trackId.getD t.mid }

/-- `rtp_transceiver::to_answer_sdp_media`. -/
def toAnswerSdpMedia (t : RtpTransceiver) (remote : SdpMedia) : SdpMedia :=
  let m := t.answerBase remote
  if t.stopped ∨ m.direction = .inactive then { m with port := 0, direction := .inactive }
  else
    { m with
      ssrcs := t.answerSsrcs
      port := 9
      extmaps := remote.extmaps
      msids := remote.msids }

/-- The first remote codec that matches the transceiver's own. -/
def remoteCodec (t : RtpTransceiver) (remote : SdpMedia) : Option SdpRtpmap :=
  remote.rtpmaps.find? fun c => SdpRtpmap.isMatch c t.codec

/-- `rtp_transceiver::from_remote_offer`. -/
def fromRemoteOffer (t : RtpTransceiver) (remote : SdpMedia) : RtpTransceiver :=
  let t := { t with direction := negotiateDirection t.direction remote.direction }
  if t.direction = .inactive then t
  else
    match t.remoteCodec remote with
    | none => { t with direction := .inactive }
    | some c =>
        let t :=
          if t.direction.receives then
            { t with
              receiver.track := some
                (t.receiver.track.elim (MediaTrack.create c) fun track => { track with rtpmap := c })
              receiver.headerExtensions := remote.extmaps }
          else t
        { t with codec.payloadType := c.payloadType }

/-- `rtp_transceiver::from_remote_answer`. -/
def fromRemoteAnswer (t : RtpTransceiver) (remote : SdpMedia) : RtpTransceiver :=
  let t := { t with direction := negotiateDirection t.direction remote.direction }
  if t.direction = .inactive then t
  else
    match t.remoteCodec remote with
    | none => { t with direction := .inactive }
    | some _ =>
        if t.direction.receives then
          { t with receiver.track := some (t.receiver.track.getD (MediaTrack.create t.codec)) }
        else t

/-! ### What the four functions keep -/

omit [NoCaseEq] in
/-- A transceiver that is stopped keeps its mid. -/
@[simp] theorem stop_mid (t : RtpTransceiver) : t.stop.mid = t.mid := by
  unfold stop
  split <;> rfl

omit [NoCaseEq] in
/-- It keeps its direction. -/
@[simp] theorem stop_direction (t : RtpTransceiver) : t.stop.direction = t.direction := by
  unfold stop
  split <;> rfl

omit [NoCaseEq] in
/-- It keeps its codec. -/
@[simp] theorem stop_codec (t : RtpTransceiver) : t.stop.codec = t.codec := by
  unfold stop
  split <;> rfl

omit [NoCaseEq] in
/-- It is stopped. -/
@[simp] theorem stop_stopped (t : RtpTransceiver) : t.stop.stopped = true := by
  unfold stop
  split
  · assumption
  · rfl

/-- **What `from_remote_offer` does.**  The direction is negotiated; it stays where a codec
matches, whose payload type is taken, and is inactive otherwise. -/
theorem fromRemoteOffer_cases (t : RtpTransceiver) (remote : SdpMedia) :
    (t.fromRemoteOffer remote).mid = t.mid ∧ (t.fromRemoteOffer remote).stopped = t.stopped ∧
      ((t.fromRemoteOffer remote).direction = .inactive ∨
        ∃ c, t.remoteCodec remote = some c ∧
          (t.fromRemoteOffer remote).direction =
            negotiateDirection t.direction remote.direction ∧
          (t.fromRemoteOffer remote).codec = { t.codec with payloadType := c.payloadType }) := by
  unfold fromRemoteOffer
  simp only []
  split
  · rename_i h
    exact ⟨rfl, rfl, Or.inl h⟩
  · have hc : ({ t with direction := negotiateDirection t.direction remote.direction } :
        RtpTransceiver).remoteCodec remote = t.remoteCodec remote := rfl
    rw [hc]
    cases t.remoteCodec remote with
    | none => exact ⟨rfl, rfl, Or.inl rfl⟩
    | some c =>
      simp only []
      split <;> exact ⟨rfl, rfl, Or.inr ⟨c, rfl, rfl, rfl⟩⟩

/-- **What `from_remote_answer` does.**  The direction is negotiated; it stays where a codec
matches, and is inactive otherwise.  The codec is left alone. -/
theorem fromRemoteAnswer_cases (t : RtpTransceiver) (remote : SdpMedia) :
    (t.fromRemoteAnswer remote).mid = t.mid ∧ (t.fromRemoteAnswer remote).codec = t.codec ∧
      (t.fromRemoteAnswer remote).direction =
        if (t.remoteCodec remote).isSome then negotiateDirection t.direction remote.direction
        else .inactive := by
  unfold fromRemoteAnswer
  simp only []
  split
  · rename_i h
    exact ⟨rfl, rfl, by split <;> simp [h]⟩
  · have hc : ({ t with direction := negotiateDirection t.direction remote.direction } :
        RtpTransceiver).remoteCodec remote = t.remoteCodec remote := rfl
    rw [hc]
    cases t.remoteCodec remote with
    | none => exact ⟨rfl, rfl, rfl⟩
    | some c =>
      simp only []
      split <;> exact ⟨rfl, rfl, rfl⟩

/-- The codecs of an answer, and its direction before it is looked at. -/
theorem answerBase_cases (t : RtpTransceiver) (remote : SdpMedia) :
    (t.answerBase remote).mid = t.mid ∧
      (t.answerBase remote).direction = negotiateDirection t.direction remote.direction ∧
      ∀ c ∈ t.matchOfferRtpmaps remote, (t.answerBase remote).rtpmaps = [c] := by
  unfold answerBase matchOfferRtpmaps
  cases remote.rtpmaps.find? fun c => SdpRtpmap.isMatch t.codec c with
  | none =>
    simp only [Option.toList_none, List.foldl_nil, if_true]
    cases remote.rtpmaps.head? <;> simp
  | some c =>
    have hmaps : ∀ m : SdpMedia, m.rtpmaps = [] → (m.addRtpmap c).rtpmaps = [c] := fun m hm => by
      rw [SdpMedia.addRtpmap_rtpmaps (by simp [hm]), hm, List.nil_append]
    simp [hmaps]

/-- **What an answer says.**  Its direction, and the one codec it has where one matches. -/
theorem toAnswerSdpMedia_cases (t : RtpTransceiver) (remote : SdpMedia) :
    (t.toAnswerSdpMedia remote).mid = t.mid ∧
      (t.toAnswerSdpMedia remote).direction =
        (if t.stopped then .inactive else negotiateDirection t.direction remote.direction) ∧
      ∀ c ∈ t.matchOfferRtpmaps remote, (t.toAnswerSdpMedia remote).rtpmaps = [c] := by
  obtain ⟨hmid, hdir, hmaps⟩ := t.answerBase_cases remote
  unfold toAnswerSdpMedia
  simp only [hdir]
  split
  · rename_i h
    refine ⟨hmid, ?_, hmaps⟩
    rcases h with h | h <;> simp [h]
  · rename_i h
    obtain ⟨hs, -⟩ := not_or.1 h
    exact ⟨hmid, by rw [if_neg hs], hmaps⟩

/-- What is offered has the codec of the transceiver. -/
theorem offerBase_rtpmaps (t : RtpTransceiver) (mid : Text) :
    (t.offerBase mid).rtpmaps = [t.codec] := by
  rw [offerBase, SdpMedia.addRtpmap_rtpmaps (by simp)]
  rfl

omit [NoCaseEq] in
/-- The codec of the retransmissions goes behind the codec they are for. -/
theorem offerVideo_rtpmaps {m : SdpMedia} {codec : SdpRtpmap} (h : m.rtpmaps = [codec]) :
    (offerVideo codec m).rtpmaps = [codec, rtxRtpmap codec] := by
  have hne : ∀ d ∈ m.rtpmaps, d.payloadType ≠ (rtxRtpmap codec).payloadType := by
    intro d hd
    rw [h, List.mem_singleton] at hd
    rw [hd, rtxRtpmap_payloadType]
    bv_omega
  simp [offerVideo, SdpMedia.addRtpmap_rtpmaps hne, h]

/-- **What an offer says.**  Of a transceiver that is not stopped: its direction, its codec and,
for video, the codec of the retransmissions. -/
theorem toOfferSdpMedia_cases {t : RtpTransceiver} (ht : t.stopped = false) (mid : Text) :
    (t.toOfferSdpMedia mid).mid = mid ∧ (t.toOfferSdpMedia mid).direction = t.direction ∧
      (t.toOfferSdpMedia mid).port = 9 ∧
      (t.toOfferSdpMedia mid).mediaType = getMediaType t.kind ∧
      ∃ rest, (t.toOfferSdpMedia mid).rtpmaps = t.codec :: rest ∧
        ∀ c ∈ rest, c = rtxRtpmap t.codec := by
  have hlive : (t.offerLive mid).mid = mid ∧ (t.offerLive mid).direction = t.direction ∧
      (t.offerLive mid).port = 9 ∧ (t.offerLive mid).mediaType = getMediaType t.kind ∧
      ∃ rest, (t.offerLive mid).rtpmaps = t.codec :: rest ∧ ∀ c ∈ rest, c = rtxRtpmap t.codec := by
    unfold offerLive
    simp only []
    split
    · exact ⟨by simp [offerVideo, offerBase], by simp [offerVideo], by simp [offerVideo, offerBase],
        by simp [offerVideo, offerBase], _, offerVideo_rtpmaps (t.offerBase_rtpmaps mid), by simp⟩
    · exact ⟨SdpMedia.addRtpmap_mid _ _, rfl, SdpMedia.addRtpmap_port _ _,
        SdpMedia.addRtpmap_mediaType _ _, [], t.offerBase_rtpmaps mid, by simp⟩
  simp only [toOfferSdpMedia, ht, Bool.false_eq_true, if_false]
  split <;> exact hlive

/-- Stopped or not, the section has the mid and is of the transceiver's kind. -/
theorem toOfferSdpMedia_layout (t : RtpTransceiver) (mid : Text) :
    (t.toOfferSdpMedia mid).mid = mid ∧ (t.toOfferSdpMedia mid).mediaType = getMediaType t.kind := by
  cases ht : t.stopped with
  | true => exact ⟨by simp [toOfferSdpMedia, ht, offerBase], by simp [toOfferSdpMedia, ht, offerBase]⟩
  | false =>
    obtain ⟨hmid, -, -, htype, -⟩ := toOfferSdpMedia_cases ht mid
    exact ⟨hmid, htype⟩

end RtpTransceiver
end AsioRtc
