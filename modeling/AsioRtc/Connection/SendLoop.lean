/-
# The sender of a transceiver at work

What `src/connection_impl.cpp` and `include/asiortc/peer_connection.hpp` do for one
`rtp_sender`: `_sender_send_loop` packs each frame of the track and sends the payloads
one by one; `peer_connection::send_rtp` sends a packet of the user on the first stream;
and a NACK sends packets of the history again.  The track, the SRTP transport and the
clocks are outside: a call is told what they gave (`Handover`).

What goes out is written down with what the sender meant by it (`SentRtp`), so that
later modules can compare what arrives with what was sent.  A loop that fails once
stays stopped; the packet it failed at is in the history all the same.

The loop waits at every payload it sends, and others may run meanwhile.  A call is therefore
either a whole turn (`SenderCall.frames`), in which nothing comes in between, or a single
payload of a turn that is under way (`SenderCall.payload`).
-/

import AsioRtc.Connection.Retransmit
import AsioRtc.Connection.SendTime
import AsioRtc.H264.Packetizer
import AsioRtc.Vpx.Packetizer

namespace AsioRtc

open Lib Text

/-- `Vp9Packetizer`, which packs as `Vp8Packetizer` does. -/
structure Vp9Packetizer where
  pictureId : U16 := 0
  deriving DecidableEq, Repr

/-- `Vp9Packetizer::pack`. -/
def Vp9Packetizer.pack (p : Vp9Packetizer) (data : Bytes) (timestamp : U32) :
    (List Bytes × U32) × Vp9Packetizer :=
  ((Vpx.fragments { partitionStart := true, pictureId := some p.pictureId } data, timestamp),
    { pictureId := (p.pictureId + 1) &&& 0x7FFF })

/-- `OpusPacketizer::pack`. -/
def opusPack (data : Bytes) (timestamp : U32) : List Bytes × U32 := ([data], timestamp)

/-- `rtp_packetizer_base`: the packetizers that `add_transceiver` makes. -/
inductive RtpPacketizer
  | h264
  | vp8 (p : Vp8Packetizer)
  | vp9 (p : Vp9Packetizer)
  | opus
  deriving DecidableEq, Repr

/-- `rtp_packetizer_base::pack`. -/
def RtpPacketizer.pack (data : Bytes) (timestamp : U32) :
    RtpPacketizer → (List Bytes × U32) × RtpPacketizer
  | .h264 => (H264.pack data timestamp, .h264)
  | .vp8 p => ((p.pack data timestamp).1, .vp8 (p.pack data timestamp).2)
  | .vp9 p => ((p.pack data timestamp).1, .vp9 (p.pack data timestamp).2)
  | .opus => (opusPack data timestamp, .opus)

/-- `rtp_stream`, with all its fields. -/
structure LoopStream extends SendingStream where
  packetCount : U32 := 0
  octetCount : U32 := 0
  rtpTimestamp : U32 := 0

/-- What `update_send_stats` reads of a stream. -/
def LoopStream.toSent (s : LoopStream) : SentStream :=
  { s.toSendStream with
    packetCount := s.packetCount, octetCount := s.octetCount, rtpTimestamp := s.rtpTimestamp }

/-- The stream behind `update_send_stats`. -/
def LoopStream.withSent (s : LoopStream) (sent : SentStream) : LoopStream :=
  { s with
    packetCount := sent.packetCount, octetCount := sent.octetCount
    ntpTimestamp := sent.ntpTimestamp, rtpTimestamp := sent.rtpTimestamp }

/-- What comes of a packet that is handed on: the size of the protected datagram, or `none` where
protecting or sending it fails; and the clocks behind it, in nanoseconds and microseconds. -/
structure Handover where
  size : Option ℕ := some 0
  now : ℤ := 0
  us : ℤ := 0

/-- A datagram that goes out, before it is protected, or `none` where handing it on fails; and,
where it is not a retransmission, the index of its stream and the packet it stands for. -/
structure SentRtp where
  data : Option Bytes
  media : Option (ℕ × SentPacket) := none

/-- The sender of a transceiver: `rtp_sender` with the parts of `connection_impl` that its loop
writes. -/
structure RtpSending where
  transceiver : Option RtpTransceiver := none
  packetizer : RtpPacketizer := .opus
  streams : List LoopStream := []
  transportWideSeq : U16 := 1
  stats : SendStats := {}
  running : Bool := true

namespace RtpSending

variable [NoCaseEq]

/-- A payload in `_sender_send_loop`, for the stream with index `k`. -/
def sendPayload (k : ℕ) (payload : Bytes) (timestamp : U32) (marker : Bool) (o : Handover)
    (x : RtpSending) : RtpSending × List SentRtp :=
  match x.streams[k]? with
  | none => (x, [])
  | some s =>
      match makeRtp x.transportWideSeq x.transceiver (x.streams.map fun s => s.toSendStream)
          s.toSendStream ⟨payload, timestamp, s.seq + 1, marker⟩ with
      -- There is a stream, so `make_rtp` makes no fault.
      | .error _ => (x, [])
      | .ok made =>
          let s := { s with toSendingStream := s.sendLoop payload timestamp }
          let media := (k, ⟨s.seq, payload, timestamp, marker, true⟩)
          let x := { x with transportWideSeq := made.transportWideSeq }
          match o.size with
          | none => ({ x with streams := x.streams.set k s, running := false }, [⟨none, some media⟩])
          | some size =>
              let (stats, sent) :=
                updateSendStats x.stats s.toSent payload size made.twccSeq timestamp o.now o.us
              ({ x with stats := stats, streams := x.streams.set k (s.withSent sent) },
                [⟨some made.buf, some media⟩])

/-- The payloads of a frame; the last one gets the marker bit. -/
def sendPayloads (k : ℕ) (timestamp : U32) :
    List Bytes → (ℕ → Handover) → RtpSending → RtpSending × List SentRtp
  | [], _, x => (x, [])
  | payload :: payloads, o, x =>
      let (x, out) := x.sendPayload k payload timestamp payloads.isEmpty (o 0)
      if x.running then
        let (x, more) := x.sendPayloads k timestamp payloads fun i => o (i + 1)
        (x, out ++ more)
      else (x, out)

/-- The frames of the layers, from the stream with index `k` on. -/
def sendFrames : ℕ → List (Bytes × U32) → (ℕ → ℕ → Handover) → RtpSending →
    RtpSending × List SentRtp
  | _, [], _, x => (x, [])
  | k, (data, timestamp) :: frames, o, x =>
      if x.streams.length ≤ k then (x, [])
      else if data = [] then x.sendFrames (k + 1) frames o
      else
        let ((payloads, timestamp), packetizer) := x.packetizer.pack data timestamp
        let (x, out) := { x with packetizer := packetizer }.sendPayloads k timestamp payloads (o k)
        if x.running then
          let (x, more) := x.sendFrames (k + 1) frames o
          (x, out ++ more)
        else (x, out)

/-- A turn of `_sender_send_loop`, with what the track gives: no frame ends the loop. -/
def turn (frames : List (Bytes × U32)) (o : ℕ → ℕ → Handover) (x : RtpSending) :
    RtpSending × List SentRtp :=
  if !x.running then (x, [])
  else if frames = [] then ({ x with running := false }, [])
  else x.sendFrames 0 frames o

omit [NoCaseEq] in
/-- `connection_impl::update_sender_status_after_send_rtp`. -/
def updateSenderStatusAfterSendRtp (octet encrypted : ℕ) (x : RtpSending) : RtpSending :=
  let stats := { x.stats with
    txPackets := x.stats.txPackets + 1, txBytes := x.stats.txBytes + BitVec.ofNat 64 encrypted }
  match x.streams with
  | [] => { x with stats := stats }
  | s :: ss =>
      { x with
        stats := stats
        streams := { s with
          packetCount := s.packetCount + 1
          octetCount := s.octetCount + BitVec.ofNat 32 octet } :: ss }

omit [NoCaseEq] in
/-- `peer_connection::send_rtp`; `o` is what protecting the datagram and writing it to the queue
of the connection come to. -/
def sendRtp (pkt : RtpPacket) (o : Handover) (x : RtpSending) : RtpSending × List SentRtp :=
  match pkt.writeTo SendingStream.sendRtpCapacity with
  | none => (x, [])
  | some data =>
      match x.streams with
      | [] =>
          match o.size with
          | none => (x, [])
          | some size =>
              (x.updateSenderStatusAfterSendRtp pkt.payload.length size, [⟨some data, none⟩])
      | s :: ss =>
          let (data, s') := s.toSendingStream.rewriteRtpPacket data
          let x := { x with streams := { s with toSendingStream := s' } :: ss }
          let media := (0, ⟨s'.seq, pkt.payload, pkt.timestamp, pkt.marker = 1, false⟩)
          match o.size with
          | none => (x, [⟨none, some media⟩])
          | some size =>
              (x.updateSenderStatusAfterSendRtp pkt.payload.length size, [⟨some data, some media⟩])

omit [NoCaseEq] in
/-- A lost number of a NACK, at this sender. -/
def nack (mediaSsrc : U32) (seq : U16) (x : RtpSending) : RtpSending × List SentRtp :=
  let (ss, out) := resend mediaSsrc seq (x.streams.map fun s => s.toRtpStream)
  ({ x with streams := List.zipWith (fun s r => { s with toRtpStream := r }) x.streams ss },
    out.toList.map fun data => ⟨some data, none⟩)

end RtpSending

/-- What happens at a sender: the track gives the frames of its layers, and the loop sends all
their payloads; or it goes on with one payload of a frame for the stream with index `k`; the user
sends a packet, a lost number of a NACK, or the sender is stopped. -/
inductive SenderCall
  | frames (frames : List (Bytes × U32)) (o : ℕ → ℕ → Handover)
  | payload (k : ℕ) (payload : Bytes) (timestamp : U32) (marker : Bool) (o : Handover)
  | sendRtp (pkt : RtpPacket) (o : Handover)
  | nack (mediaSsrc : U32) (seq : U16)
  | stop

/-- A call at a sender: the sender behind it, and what goes out. -/
def RtpSending.call [NoCaseEq] (x : RtpSending) : SenderCall → RtpSending × List SentRtp
  | .frames fs o => x.turn fs o
  | .payload k payload timestamp marker o =>
      if x.running then x.sendPayload k payload timestamp marker o else (x, [])
  | .sendRtp pkt o => x.sendRtp pkt o
  | .nack mediaSsrc seq => x.nack mediaSsrc seq
  | .stop => ({ x with running := false }, [])

/-- A sender over time, from `x₀` on; its messages are the datagrams. -/
def senderMachine [NoCaseEq] (x₀ : RtpSending) : Machine RtpSending SenderCall (List Bytes) where
  init := x₀
  step x c := ((x.call c).1, (x.call c).2.filterMap SentRtp.data)

/-- The packets of the stream with index `k` among what goes out. -/
def mediaOf (k : ℕ) (out : List SentRtp) : List SentPacket :=
  out.filterMap fun d => (d.media.filter fun m => m.1 = k).map Prod.snd

/-- The packets that the calls of a history made for the stream with index `k`, oldest first. -/
def madeBy [NoCaseEq] (k : ℕ) : List (RtpSending × SenderCall) → List SentPacket
  | [] => []
  | (x, c) :: h => madeBy k h ++ mediaOf k (x.call c).2

/-! ### What `make_rtp` makes -/

/-- A packet whose extension has whole words and fits its length field is read as it was meant. -/
theorem parse_rtpPacketOf_fits (pt : U8) (ssrc : U32) (out : Outgoing) {ext : Bytes}
    (hwords : 4 ∣ ext.length) (hsize : ext.length ≤ 4 * 65535) :
    RtpPacket.parse (rtpPacketOf pt ssrc out ext).unpadded =
      .ok (some (rtpPacketOf (pt &&& 0x7F) ssrc out ext)) := by
  have hfits := rtpPacketOf_fits pt ssrc out ext
  have hwf : (rtpPacketOf (pt &&& 0x7F) ssrc out ext).WellFormed := by
    unfold rtpPacketOf at hfits ⊢
    by_cases hext : ext = []
    · rw [if_pos hext] at hfits ⊢
      exact ⟨rfl, hfits.padding, hfits.extension, hfits.marker, hfits.payloadType, rfl,
        Nat.zero_le _, fun _ => ⟨rfl, rfl⟩, Nat.dvd_zero 4, Nat.zero_le _⟩
    · rw [if_neg hext] at hfits ⊢
      exact ⟨rfl, hfits.padding, hfits.extension, hfits.marker, hfits.payloadType, rfl,
        Nat.zero_le _, fun h => absurd h (show (1 : U8) ≠ 0 by decide), hwords, hsize⟩
  obtain ⟨data, hwrite, -, hparse⟩ := RtpPacket.parse_writeTo hwf
  have hdata := rtpPacketOf_written (pt &&& 0x7F) ssrc out ext
  rw [hwrite, Option.getD_some] at hdata
  rw [rtpPacketOf_unpadded, ← hdata, hparse]

/-- The fields of a packet of `make_rtp` but its payload type and extension. -/
theorem rtpPacketOf_fields (pt : U8) (ssrc : U32) (out : Outgoing) (ext : Bytes) :
    (rtpPacketOf pt ssrc out ext).ssrc = ssrc ∧
      (rtpPacketOf pt ssrc out ext).sequenceNumber = out.sequenceNumber ∧
      (rtpPacketOf pt ssrc out ext).timestamp = out.timestamp ∧
      (rtpPacketOf pt ssrc out ext).marker = (if out.marker then 1 else 0) ∧
      (rtpPacketOf pt ssrc out ext).payload = out.payload := by
  unfold rtpPacketOf
  simp only []
  split <;> exact ⟨rfl, rfl, rfl, rfl, rfl⟩

/-- **`make_rtp`.**  For a sender with a stream whose rid is not absurdly long, the peer reads the
number, timestamp, marker bit and payload that went in. -/
theorem makeRtp_parses [NoCaseEq] (seq : U16) (t : Option RtpTransceiver)
    {streams : List SendStream} {stream : SendStream} (out : Outgoing) (hstreams : streams ≠ [])
    (hrid : stream.rid.length < 2 ^ 16) :
    ∃ made pkt, makeRtp seq t streams stream out = .ok made ∧
      RtpPacket.parse made.buf = .ok (some pkt) ∧ pkt.ssrc = stream.ssrc ∧
      pkt.sequenceNumber = out.sequenceNumber ∧ pkt.timestamp = out.timestamp ∧
      pkt.marker = (if out.marker then 1 else 0) ∧ pkt.payload = out.payload := by
  cases t with
  | none =>
    refine ⟨⟨_, _, _⟩, _, rfl, ?_, rtpPacketOf_fields (0 &&& 0x7F) stream.ssrc out []⟩
    show RtpPacket.parse (((rtpPacketOf 0 stream.ssrc out []).writeTo _).getD []) = _
    rw [rtpPacketOf_written]
    exact parse_rtpPacketOf_fits 0 stream.ssrc out (Nat.dvd_zero 4) (Nat.zero_le _)
  | some t =>
    obtain ⟨abs, habs, hlen⟩ := absElement_yields (t := t) hstreams
    generalize hext : fillWords (midElement t ++ ridElement t stream.rid ++ abs ++
      (tccElement t seq).1) = ext
    have hsize : ext.length = ((midElement t ++ ridElement t stream.rid ++ abs ++
        (tccElement t seq).1).length + 3) / 4 * 4 := by
      rw [← hext, length_fillWords]
    have hparts : (midElement t ++ ridElement t stream.rid ++ abs ++ (tccElement t seq).1).length ≤
        2 + (1 + stream.rid.length) + 4 + 3 := by
      simp only [List.length_append, length_midElement, length_ridElement, hlen, length_tccElement]
      refine Nat.add_le_add (Nat.add_le_add (Nat.add_le_add ?_ ?_) ?_) ?_ <;> split <;> omega
    refine ⟨⟨(rtpPacketOf t.codec.payloadType stream.ssrc out ext).unpadded, (tccElement t seq).2.1,
      (tccElement t seq).2.2⟩, _, ?_, ?_,
      rtpPacketOf_fields (t.codec.payloadType &&& 0x7F) stream.ssrc out ext⟩
    · simp only [makeRtp, habs, Checked.ok_bind, hext, rtpPacketOf_written]
      rfl
    · exact parse_rtpPacketOf_fits _ _ _ (by rw [hsize]; exact Nat.dvd_mul_left ..)
        (by rw [hsize]; omega)

end AsioRtc
