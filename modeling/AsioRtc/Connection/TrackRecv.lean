/-
# From a sender to the track of its peer

The other end of the path: a connection that gets the datagrams of a sender, among others, and
whose application asks a track for frames (`media_track_impl::recv`).  Together with the sender
and a network between them this is the whole way of the media (`NetRun`).

Over a network that loses, repeats and reorders what is sent, nothing is made up and nothing is
mixed: every packet of every frame that a track gives is one that the sender made
(`RtpSending.Genuine`), and a frame is a run of packets with one timestamp
(`frames_genuine`).  Whether a packet comes as it is or as a retransmission makes no difference,
but the marker bit may be lost on the way.

`Connection.Hears` says what the receiver has to know of the sender's SSRCs; that is what
`build_ssrc_map` is for.
-/

import AsioRtc.Connection.SenderRuns
import AsioRtc.H264.AnnexB
import AsioRtc.Jitter.Contents
import AsioRtc.Mpegts.Pes

namespace AsioRtc

open Lib Text

/-- `rtp_frame_info`. -/
structure RtpFrameInfo where
  rtpTimestamp : U32
  ssrc : U32
  clockRate : U32
  firstSequenceNumber : U16
  marker : Bool
  receiveTime : ℤ
  deriving DecidableEq, Repr

/-- `media_frame`, as a track fills it. -/
structure RecvFrame extends MediaFrame where
  info : RtpFrameInfo
  deriving DecidableEq, Repr

section Track

variable [NoCaseEq]

/-- `media_track_impl::kind`. -/
def MediaTrack.kind (t : MediaTrack) : MediaKind :=
  if nceq "opus".toList t.rtpmap.name then .audio else .video

/-- The format of the frames of a track. -/
def MediaTrack.format (t : MediaTrack) : MediaFormat :=
  if nceq t.rtpmap.name "H264".toList then .h264
  else if nceq t.rtpmap.name "VP8".toList then .vp8
  else if nceq t.rtpmap.name "VP9".toList then .vp9
  else if nceq t.rtpmap.name "opus".toList then .opus
  else .unknown

/-- The data of a frame: the payloads one behind another, or as a stream of units. -/
def MediaTrack.assemble (t : MediaTrack) (pkts : List RtpPacket) : Bytes :=
  if t.format = .h264 then H264.packetsToAnnexB pkts else pkts.flatMap RtpPacket.payload

/-- `media_track_impl::recv` with the packets of a frame, the first of them `first` and the last
`last`, at `now`, in microseconds. -/
def MediaTrack.frameOf (t : MediaTrack) (now : ℤ) (pkts : List RtpPacket) (first last : RtpPacket) :
    RecvFrame where
  kind := t.kind
  format := t.format
  timestamp := first.timestamp
  data := t.assemble pkts
  info :=
    { rtpTimestamp := first.timestamp
      ssrc := first.ssrc
      clockRate := t.rtpmap.clockRate
      firstSequenceNumber := first.sequenceNumber
      marker := last.marker ≠ 0
      receiveTime := now }

/-- A pass of the loop of `recv_packet` in `media_track_impl::recv`: a frame, or `none` where it
goes on waiting for the next packet. -/
def MediaTrack.recv (t : MediaTrack) (clock : ℕ → ℤ) (now : ℤ) : MediaTrack × Option RecvFrame :=
  let (jitter, pkts) := t.jitter.popFrame clock
  ({ t with jitter := jitter },
    match pkts.head?, pkts.getLast? with
    | some first, some last => some (t.frameOf now pkts first last)
    | _, _ => none)

end Track

/-! ### The receiver -/

/-- What happens at a receiver besides the datagrams of one sender: other datagrams, and frames
that are asked for, at the track of a transceiver. -/
inductive ReceiverCall
  | datagram (data : Bytes) (clock : Clock)
  | recv (i : ℕ) (clock : ℕ → ℤ) (now : ℤ)

namespace Connection

variable [NoCaseEq]

/-- The connection after a datagram. -/
def received (c : Connection) (clock : Clock) (data : Bytes) : Connection :=
  match c.doOnRtpRtcpPacket clock data with
  | .ok r => r.conn
  -- The handling makes no fault.
  | .error _ => c

/-- A track is asked for a frame. -/
def recv (c : Connection) (i : ℕ) (clock : ℕ → ℤ) (now : ℤ) : Connection × Option RecvFrame :=
  match c.transceivers[i]? with
  | none => (c, none)
  | some t =>
      match t.receiver.track with
      | none => (c, none)
      | some track =>
          let (track, frame) := track.recv clock now
          let t := { t with receiver.track := some track }
          ({ c with transceivers := c.transceivers.set i t }, frame)

end Connection

/-- A receiver over time, from `c₀` on. -/
def receiverMachine [NoCaseEq] (c₀ : Connection) :
    Machine Connection (Arrival Bytes Clock ReceiverCall) (Option (ℕ × RecvFrame)) where
  init := c₀
  step c
    | .message data clock => (c.received clock data, none)
    | .own (.datagram data clock) => (c.received clock data, none)
    | .own (.recv i clock now) =>
        ((c.recv i clock now).1, (c.recv i clock now).2.map fun frame => (i, frame))

/-- The frames that the track of transceiver `i` has given, oldest first. -/
def framesOut [NoCaseEq] (c₀ : Connection) (i : ℕ)
    (h : List (Connection × Arrival Bytes Clock ReceiverCall)) : List RecvFrame :=
  ((receiverMachine c₀).outputs h).filterMap fun o => (o.filter fun p => p.1 = i).map Prod.snd

/-- The track of transceiver `i`. -/
def Connection.track? (c : Connection) (i : ℕ) : Option MediaTrack :=
  c.transceivers[i]?.bind fun t => t.receiver.track

section Steps

variable [NoCaseEq] {c : Connection} {i : ℕ}

/-- **A datagram at a receiver**, by the packet that it puts into a buffer. -/
theorem Connection.received_spec (c : Connection) (clock : Clock) (data : Bytes) :
    ∃ q, c.arriving data = .ok q ∧ c.SameSetup (c.received clock data) ∧
      ∀ k, (c.received clock data).jitter? k = pushedTo k q (c.jitter? k) := by
  obtain ⟨q, hq, r, hr, hspec⟩ := c.doOnRtpRtcpPacket_spec clock data
  rw [received, hr]
  exact ⟨q, hq, hspec⟩

/-- **A frame that is asked for**: the buffer of the track has been popped. -/
theorem Connection.recv_spec (c : Connection) (i : ℕ) (clock : ℕ → ℤ) (now : ℤ) :
    c.SameSetup (c.recv i clock now).1 ∧ ∀ k, (c.recv i clock now).1.jitter? k =
      if k = i then (c.jitter? k).map fun b => (b.popFrame clock).1 else c.jitter? k := by
  have hnone (h : c.jitter? i = none) (k : ℕ) : c.jitter? k =
      if k = i then (c.jitter? k).map fun b => (b.popFrame clock).1 else c.jitter? k := by
    split
    · rename_i hk
      rw [hk, h]
      rfl
    · rfl
  cases ht : c.transceivers[i]? with
  | none =>
    simp only [recv, ht]
    exact ⟨.refl c, hnone (by rw [jitter?, ht]; rfl)⟩
  | some t =>
    cases htrack : t.receiver.track with
    | none =>
      simp only [recv, ht, htrack]
      exact ⟨.refl c, hnone (by rw [jitter?, ht, Option.bind_some, htrack]; rfl)⟩
    | some track =>
      simp only [recv, ht, htrack]
      obtain ⟨hi, rfl⟩ := List.getElem?_eq_some_iff.1 ht
      refine ⟨⟨rfl, List.forall₂_iff_get.2 ⟨by simp, fun j hj hj' => ?_⟩, fun _ => rfl⟩, fun k => ?_⟩
      · simp only [List.get_eq_getElem, List.getElem_set]
        split
        · rename_i hij
          subst hij
          exact ⟨rfl, List.forall₂_same.2 fun s _ => .refl s, by rw [htrack]; rfl⟩
        · exact .refl _
      · simp only [jitter?, List.getElem?_set]
        by_cases hik : i = k
        · subst hik
          rw [if_pos rfl, if_pos rfl, if_pos hi, ht]
          simp only [Option.bind_some, htrack, Option.map_some]
          rfl
        · rw [if_neg hik, if_neg (fun h => hik h.symm)]

theorem Connection.recv_eq {track : MediaTrack} (ht : c.track? i = some track) (clock : ℕ → ℤ)
    (now : ℤ) : (c.recv i clock now).2 = (track.recv clock now).2 := by
  obtain ⟨t, ht, htrack⟩ := Option.bind_eq_some_iff.1 ht
  simp only [recv, ht, htrack]

/-- The frame is what the buffer of the track gave. -/
theorem Connection.recv_frame {clock : ℕ → ℤ} {now : ℤ} {frame : RecvFrame}
    (h : (c.recv i clock now).2 = some frame) : ∃ track first last, c.track? i = some track ∧
      (track.jitter.popFrame clock).2.head? = some first ∧
      (track.jitter.popFrame clock).2.getLast? = some last ∧
      frame = track.frameOf now (track.jitter.popFrame clock).2 first last := by
  cases ht : c.transceivers[i]? with
  | none =>
    simp only [recv, ht] at h
    cases h
  | some t =>
    cases htrack : t.receiver.track with
    | none =>
      simp only [recv, ht, htrack] at h
      cases h
    | some track =>
      simp only [recv, ht, htrack, MediaTrack.recv] at h
      split at h
      · rename_i first last hfirst hlast
        exact ⟨track, first, last, by rw [track?, ht, Option.bind_some, htrack], hfirst, hlast,
          (Option.some.inj h).symm⟩
      · cases h

omit [NoCaseEq] in
/-- The codec of a track does not change. -/
theorem Connection.SameSetup.track? {c' : Connection} (h : c.SameSetup c') {track' : MediaTrack}
    (ht : c'.track? i = some track') :
    ∃ track, c.track? i = some track ∧ track'.rtpmap = track.rtpmap := by
  rw [Connection.track?, Option.bind_eq_some_iff] at ht
  obtain ⟨t', ht', htrack'⟩ := ht
  have hi : i < c.transceivers.length := by
    rw [h.transceivers.length_eq]
    exact (List.getElem?_eq_some_iff.1 ht').1
  obtain ⟨t'', ht'', hsame⟩ := h.getElem? (List.getElem?_eq_getElem hi)
  obtain rfl := Option.some.inj (ht'.symm.trans ht'')
  have hmap := hsame.rtpmap
  rw [htrack', Option.map_some] at hmap
  obtain ⟨track, htrack, heq⟩ := Option.map_eq_some_iff.1 hmap.symm
  exact ⟨track, by rw [Connection.track?, List.getElem?_eq_getElem hi, Option.bind_some, htrack],
    heq.symm⟩

end Steps

/-! ### Only what was sent -/

/-- What the track of transceiver `i` needs so that it is not misled about the streams of a sender:
no stream is taken for a repair stream; a repair stream is known, if at all, as the one of its
stream, and has no context at this receiver; and the callback leaves the packets as they are. -/
structure Connection.Hears (c : Connection) (i : ℕ) (streams : List LoopStream) : Prop where
  primary : ∀ s ∈ streams, c.rtxSsrcToSsrc s.ssrc = none
  repair : ∀ s ∈ streams, ∀ ssrc, c.rtxSsrcToSsrc s.rtxSsrc = some ssrc → ssrc = s.ssrc
  noContext : ∀ s ∈ streams, (c.ssrcSet s.rtxSsrc).map SsrcEntry.receiver ≠ some i
  payloadType : ∀ s ∈ streams, s.rtxPt.toNat < 128
  callback : ∀ t, c.transceivers[i]? = some t → ∀ cb, t.receiver.onRtp = some cb →
    ∀ pkt, (cb pkt).1 = pkt

/-- The codec of the track of transceiver `i`. -/
def Connection.codecName (c : Connection) (i : ℕ) : Text :=
  ((c.track? i).map fun t => t.rtpmap.name).getD []

/-- The packet `q` is the packet `p` of the stream with SSRC `ssrc`, without the framing of its
codec; the marker bit may be missing. -/
structure RtpPacket.Conveys [NoCaseEq] (q : RtpPacket) (name : Text) (ssrc : U32) (p : SentPacket) :
    Prop where
  ssrc : q.ssrc = ssrc
  sequenceNumber : q.sequenceNumber = p.seq
  timestamp : q.timestamp = p.timestamp
  payload : depayload name p.payload = .ok q.payload
  marker : q.marker = 1 → p.marker = true
  nonempty : q.payload ≠ []

/-- The packet `q` is one that the sender had made by the end of the history `h`. -/
def RtpSending.Genuine [NoCaseEq] (x₀ : RtpSending) (h : List (RtpSending × SenderCall))
    (name : Text) (q : RtpPacket) : Prop :=
  ∃ k p, ∃ s : LoopStream, x₀.streams[k]? = some s ∧ p ∈ madeBy k h ∧ q.Conveys name s.ssrc p

section Genuine

variable [NoCaseEq] {c : Connection} {i : ℕ} {x₀ : RtpSending}
  {h : List (RtpSending × SenderCall)}

/-- What a transceiver puts into its buffer is the packet without the framing, where its callback
leaves packets as they are. -/
theorem RtpTransceiver.takes_spec {t : RtpTransceiver}
    (hcb : ∀ cb, t.receiver.onRtp = some cb → ∀ pkt, (cb pkt).1 = pkt) {pkt q : RtpPacket}
    (h : t.takes pkt = .ok (some q)) : ∃ track payload, t.receiver.track = some track ∧
      depayload track.rtpmap.name pkt.payload = .ok payload ∧ payload ≠ [] ∧
      q = { pkt with payload := payload } := by
  have hsame : (t.receiver.onRtp.elim (pkt, true) fun cb => cb pkt).1 = pkt := by
    cases ho : t.receiver.onRtp with
    | none => rfl
    | some cb => exact hcb cb ho pkt
  unfold takes at h
  generalize t.receiver.onRtp.elim (pkt, true) (fun cb => cb pkt) = r at h hsame
  obtain ⟨pkt', keep⟩ := r
  obtain rfl : pkt' = pkt := hsame
  cases htrack : t.receiver.track with
  | none =>
    rw [htrack] at h
    cases h
  | some track =>
    simp only [htrack] at h
    obtain ⟨payload, hpayload⟩ := depayload_safe track.rtpmap.name pkt'.payload
    cases keep with
    | false => cases h
    | true =>
      rw [hpayload] at h
      simp only [Checked.ok_bind, Bool.not_true, Bool.false_eq_true, if_false] at h
      have h := Except.ok.inj h
      split at h
      · cases h
      · rename_i hne
        exact ⟨track, payload, rfl, hpayload, hne, (Option.some.inj h).symm⟩

/-- What a parsed packet puts into the buffer of transceiver `i`. -/
theorem Connection.arriving_spec {data : Bytes} {pkt pkt' : RtpPacket}
    (hcb : ∀ t, c.transceivers[i]? = some t → ∀ cb, t.receiver.onRtp = some cb →
      ∀ pkt, (cb pkt).1 = pkt)
    (hparse : RtpPacket.parse data = .ok (some pkt)) (hrewrite : c.rewriteRtxPacket pkt = .ok pkt')
    {q : RtpPacket} (hq : c.arriving data = .ok (some (i, q))) :
    c.receiverOf pkt' = some i ∧ ∃ payload, depayload (c.codecName i) pkt'.payload = .ok payload ∧
      payload ≠ [] ∧ q = { pkt' with payload := payload } := by
  rw [arriving, hparse] at hq
  simp only [Checked.ok_bind, hrewrite] at hq
  cases hreceiver : c.receiverOf pkt' with
  | none =>
    rw [hreceiver] at hq
    cases hq
  | some j =>
    rw [hreceiver] at hq
    simp only [takes] at hq
    cases ht : c.transceivers[j]? with
    | none =>
      rw [ht] at hq
      cases hq
    | some t =>
      rw [ht] at hq
      simp only [] at hq
      cases htakes : t.takes pkt' with
      | error f =>
        rw [htakes] at hq
        cases hq
      | ok q' =>
        rw [htakes, Checked.ok_bind] at hq
        obtain ⟨q'', rfl, heq⟩ := Option.map_eq_some_iff.1 (Except.ok.inj hq)
        obtain ⟨rfl, rfl⟩ := Prod.mk.inj heq
        obtain ⟨track, payload, htrack, hpayload, hne, rfl⟩ :=
          RtpTransceiver.takes_spec (hcb t ht) htakes
        refine ⟨rfl, payload, ?_, hne, rfl⟩
        rw [codecName, track?, ht, Option.bind_some, htrack]
        exact hpayload

omit [NoCaseEq] in
/-- A packet that is not known as a retransmission stays as it is. -/
theorem Connection.rewriteRtxPacket_primary {pkt : RtpPacket} (h : c.rtxSsrcToSsrc pkt.ssrc = none) :
    c.rewriteRtxPacket pkt = .ok pkt := by
  unfold rewriteRtxPacket
  split
  · rfl
  · rw [h]
    cases c.rtxPtToPt pkt.payloadType <;> rfl

/-- **A datagram of the sender** puts a packet of the sender into the buffer, or none. -/
theorem RtpSending.Carries.genuine (hhears : c.Hears i x₀.streams)
    (hrids : ∀ s ∈ x₀.streams, s.rid.length < 2 ^ 16) {data : Bytes} (hdata : x₀.Carries h data)
    {q : RtpPacket} (hq : c.arriving data = .ok (some (i, q))) :
    x₀.Genuine h (c.codecName i) q := by
  obtain ⟨k, p, s, hs, hp, hdata⟩ := hdata
  have hmem := List.mem_of_getElem? hs
  refine ⟨k, p, s, hs, hp, ?_⟩
  rcases hdata with hsends | ⟨n, rfl⟩
  · obtain ⟨pkt, hparse, hrestores⟩ := hsends.readsAs (hrids s hmem)
    have hrewrite : c.rewriteRtxPacket pkt = .ok pkt :=
      c.rewriteRtxPacket_primary (by rw [hrestores.ssrc]; exact hhears.primary s hmem)
    obtain ⟨-, payload, hpayload, hne, rfl⟩ :=
      Connection.arriving_spec hhears.callback hparse hrewrite hq
    refine ⟨hrestores.ssrc, hrestores.sequenceNumber, hrestores.timestamp,
      hrestores.payload ▸ hpayload, fun hmarker => ?_, hne⟩
    have := hrestores.marker.symm.trans hmarker
    by_contra hnot
    rw [if_neg hnot] at this
    exact absurd this (by decide)
  · -- A retransmission is rewritten to the packet, or is not for this track.
    generalize hr : ({ s.toRtpStream with rtxSeq := n } : RtpStream) = r at hq
    have hssrc : r.rtxSsrc = s.rtxSsrc := by rw [← hr]
    have hpt : r.rtxPt.toNat < 128 := by
      rw [← hr]
      exact hhears.payloadType s hmem
    have hparse := parse_rtx r p.entry p.seq
    have hstays (hrewrite : c.rewriteRtxPacket (r.rtxPacket p.entry p.seq) =
        .ok (r.rtxPacket p.entry p.seq)) : False := by
      obtain ⟨hreceiver, -⟩ := Connection.arriving_spec hhears.callback hparse hrewrite hq
      have hmid : c.receiverByMid (r.rtxPacket p.entry p.seq) = none := by
        have hnil : c.packetMid (r.rtxPacket p.entry p.seq) = none := by
          unfold Connection.packetMid
          cases c.midExtId <;> rfl
        rw [Connection.receiverByMid, hnil]
      rw [Connection.receiverOf, hmid] at hreceiver
      exact hhears.noContext s hmem (hssrc ▸ hreceiver)
    by_cases hpayload : p.payload = []
    · exact absurd (rewrite_rtxPacket_none (Or.inl hpayload)) hstays
    · cases hknown : c.rtxPtToPt (r.rtxPt &&& 0x7F) with
      | none => exact absurd (rewrite_rtxPacket_none (Or.inr hknown)) hstays
      | some pt =>
        cases hrepair : c.rtxSsrcToSsrc r.rtxSsrc with
        | none =>
          refine absurd ?_ hstays
          exact c.rewriteRtxPacket_primary hrepair
        | some ssrc =>
          obtain rfl := hhears.repair s hmem ssrc (hssrc ▸ hrepair)
          have hrewrite := @rewrite_rtxPacket_some c r _ _ p.entry p.seq hpayload hknown
            hrepair
          obtain ⟨-, payload, hdepayload, hne, rfl⟩ :=
            Connection.arriving_spec hhears.callback hparse hrewrite hq
          refine ⟨rfl, rfl, rfl, hdepayload, fun hmarker => ?_, hne⟩
          have hbit := ((secondByte_fields r.rtxPt).2.2.2 true).1 hmarker
          exact absurd (hbit.1 rfl) (Nat.not_le.2 hpt)

theorem RtpSending.Genuine.mono {name : Text} {q : RtpPacket} {x : RtpSending} {e : SenderCall}
    (hq : x₀.Genuine h name q) : x₀.Genuine ((x, e) :: h) name q := by
  obtain ⟨k, p, s, hs, hp, hconveys⟩ := hq
  exact ⟨k, p, s, hs, List.mem_append_left _ hp, hconveys⟩

end Genuine

/-! ### Runs -/

/-- The frame is made of packets with the property `P`, as the track makes it. -/
def MediaTrack.FrameFrom [NoCaseEq] (P : RtpPacket → Prop) (t : MediaTrack) (frame : RecvFrame) :
    Prop :=
  ∃ now pkts first last, pkts.head? = some first ∧ pkts.getLast? = some last ∧
    JitterBuffer.FrameOf P pkts ∧ frame = t.frameOf now pkts first last

/-- Other datagrams put nothing into the buffer of transceiver `i`. -/
def Foreign [NoCaseEq] (c₀ : Connection) (i : ℕ) : Arrival Bytes Clock ReceiverCall → Prop
  | .own (.datagram data _) => ∀ q, c₀.arriving data ≠ .ok (some (i, q))
  | _ => True

/-- The user hands on only packets of the format. -/
def UserWellFormed (_ : List (RtpSending × SenderCall)) (_ : RtpSending) : SenderCall → Prop
  | .sendRtp pkt _ => pkt.WellFormed
  | _ => True

section Runs

variable [NoCaseEq] {x₀ x : RtpSending} {c₀ c : Connection} {i : ℕ} {track₀ : MediaTrack}
  {h : List (RtpSending × SenderCall)} {h' : List (Connection × Arrival Bytes Clock ReceiverCall)}

theorem framesOut_cons (c₀ : Connection) (i : ℕ) (c : Connection)
    (e : Arrival Bytes Clock ReceiverCall) (h : List (Connection × Arrival Bytes Clock ReceiverCall)) :
    framesOut c₀ i ((c, e) :: h) = framesOut c₀ i h ++
      ((((receiverMachine c₀).out c e).filter fun p => p.1 = i).map Prod.snd).toList := by
  rw [framesOut, Machine.outputs_cons, List.filterMap_append, ← framesOut, List.filterMap_cons,
    List.filterMap_nil]
  cases (((receiverMachine c₀).out c e).filter fun p => p.1 = i).map Prod.snd <;> rfl

/-- The frames behind a step that is not this track's. -/
theorem framesOut_other {e : Arrival Bytes Clock ReceiverCall}
    (he : ∀ clock now, e ≠ .own (.recv i clock now)) (c₀ c : Connection)
    (h : List (Connection × Arrival Bytes Clock ReceiverCall)) :
    framesOut c₀ i ((c, e) :: h) = framesOut c₀ i h := by
  have hout : (((receiverMachine c₀).out c e).filter fun p => p.1 = i) = none := by
    rw [Option.filter_eq_none_iff]
    intro p hp
    cases e with
    | message data clock => cases hp
    | own b =>
      cases b with
      | datagram data clock => cases hp
      | recv j clock now =>
        obtain ⟨frame, -, rfl⟩ := Option.map_eq_some_iff.1
          (show (c.recv j clock now).2.map (fun frame => (j, frame)) = some p from hp)
        simp only [decide_eq_true_eq]
        exact fun hji => he clock now (by rw [hji])
  rw [framesOut_cons, hout]
  exact List.append_nil _

/-- The frames behind a step of this track. -/
theorem framesOut_recv (c₀ c : Connection) (clock : ℕ → ℤ) (now : ℤ)
    (h : List (Connection × Arrival Bytes Clock ReceiverCall)) :
    framesOut c₀ i ((c, .own (.recv i clock now)) :: h) =
      framesOut c₀ i h ++ (c.recv i clock now).2.toList := by
  rw [framesOut_cons]
  show _ ++ ((((c.recv i clock now).2.map fun frame => (i, frame)).filter fun p => p.1 = i).map
    Prod.snd).toList = _
  cases (c.recv i clock now).2 with
  | none => rfl
  | some frame => simp

theorem MediaTrack.frameOf_congr {t t' : MediaTrack} (h : t'.rtpmap = t.rtpmap) (now : ℤ)
    (pkts : List RtpPacket) (first last : RtpPacket) :
    t'.frameOf now pkts first last = t.frameOf now pkts first last := by
  obtain ⟨rtpmap, jitter⟩ := t
  obtain ⟨rtpmap', jitter'⟩ := t'
  obtain rfl : rtpmap' = rtpmap := h
  rfl

theorem MediaTrack.FrameFrom.mono {P Q : RtpPacket → Prop} {t : MediaTrack} {frame : RecvFrame}
    (h : t.FrameFrom P frame) (hPQ : ∀ q, P q → Q q) : t.FrameFrom Q frame := by
  obtain ⟨now, pkts, first, last, hfirst, hlast, hframe, heq⟩ := h
  exact ⟨now, pkts, first, last, hfirst, hlast,
    ⟨fun q hq => hPQ q (hframe.packets q hq), hframe.stamp, hframe.numbers⟩, heq⟩

/-- What is true at every time: the connection is as it was set up, and the buffer of the track
and its frames are made of packets of the sender. -/
structure RtpSending.Reached (x₀ : RtpSending) (c₀ : Connection) (i : ℕ) (track₀ : MediaTrack)
    (h : List (RtpSending × SenderCall))
    (h' : List (Connection × Arrival Bytes Clock ReceiverCall)) (c : Connection) : Prop where
  setup : c₀.SameSetup c
  buffer : ∀ b, c.jitter? i = some b → b.Holds (x₀.Genuine h (c₀.codecName i))
  frames : ∀ frame ∈ framesOut c₀ i h', track₀.FrameFrom (x₀.Genuine h (c₀.codecName i)) frame

namespace RtpSending.Reached

/-- The sender goes on. -/
theorem send (hc : x₀.Reached c₀ i track₀ h h' c) (e : SenderCall) :
    x₀.Reached c₀ i track₀ ((x, e) :: h) h' c :=
  ⟨hc.setup, fun b hb => (hc.buffer b hb).mono fun _ hq => hq.mono,
    fun frame hframe => (hc.frames frame hframe).mono fun _ hq => hq.mono⟩

/-- A datagram that puts at most packets of the sender into the buffer. -/
theorem datagram (hc : x₀.Reached c₀ i track₀ h h' c) {e : Arrival Bytes Clock ReceiverCall}
    {clock : Clock} {data : Bytes} (he : (receiverMachine c₀).step c e = (c.received clock data, none))
    (hdata : ∀ q, c₀.arriving data = .ok (some (i, q)) → x₀.Genuine h (c₀.codecName i) q) :
    x₀.Reached c₀ i track₀ h ((c, e) :: h') (c.received clock data) := by
  obtain ⟨q, hq, hsame, hjitter⟩ := c.received_spec clock data
  rw [Connection.arriving_congr hc.setup] at hq
  refine ⟨hc.setup.trans hsame, fun b hb => ?_, fun frame hframe => ?_⟩
  · rw [hjitter] at hb
    cases q with
    | none => exact hc.buffer b hb
    | some q =>
      obtain ⟨j, q⟩ := q
      simp only [pushedTo] at hb
      split at hb
      · rename_i hj
        subst hj
        obtain ⟨b', hb', rfl⟩ := Option.map_eq_some_iff.1 hb
        exact (hc.buffer b' hb').push (hdata q hq)
      · exact hc.buffer b hb
  · rw [framesOut_cons, Machine.out, he] at hframe
    rcases List.mem_append.1 hframe with hold | hnew
    · exact hc.frames frame hold
    · cases hnew

/-- A frame that is asked for. -/
theorem recv (htrack : c₀.track? i = some track₀) (hc : x₀.Reached c₀ i track₀ h h' c) (j : ℕ)
    (clock : ℕ → ℤ) (now : ℤ) :
    x₀.Reached c₀ i track₀ h ((c, .own (.recv j clock now)) :: h') (c.recv j clock now).1 := by
  obtain ⟨hsame, hjitter⟩ := c.recv_spec j clock now
  refine ⟨hc.setup.trans hsame, fun b hb => ?_, fun frame hframe => ?_⟩
  · rw [hjitter] at hb
    split at hb
    · obtain ⟨b', hb', rfl⟩ := Option.map_eq_some_iff.1 hb
      exact (hc.buffer b' hb').popEntries clock
    · exact hc.buffer b hb
  · rw [framesOut_cons] at hframe
    rcases List.mem_append.1 hframe with hold | hnew
    · exact hc.frames frame hold
    · obtain ⟨o, ho, rfl⟩ := Option.map_eq_some_iff.1 (Option.mem_toList.1 hnew)
      obtain ⟨hout, hi⟩ := Option.filter_eq_some_iff.1 ho
      obtain ⟨frame, hgiven, rfl⟩ := Option.map_eq_some_iff.1
        (show (c.recv j clock now).2.map (fun frame => (j, frame)) = some o from hout)
      obtain rfl : j = i := of_decide_eq_true hi
      obtain ⟨track, first, last, ht, hfirst, hlast, rfl⟩ := Connection.recv_frame hgiven
      obtain ⟨track', ht', hmap⟩ := hc.setup.track? ht
      obtain rfl := Option.some.inj (htrack.symm.trans ht')
      have hb := hc.buffer track.jitter (by
        rw [Connection.jitter?, ← Connection.track?, ht, Option.map_some])
      exact ⟨now, _, first, last, hfirst, hlast, hb.frame clock,
        MediaTrack.frameOf_congr hmap now _ first last⟩

end RtpSending.Reached

/-- The invariant of the pair. -/
theorem reached_of_run {N : Network Bytes} (hN : ∀ sent arrived m, N sent arrived m → m ∈ sent)
    (hne : x₀.streams ≠ []) (hempty : ∀ s ∈ x₀.streams, ∀ k, s.history k = none)
    (hrids : ∀ s ∈ x₀.streams, s.rid.length < 2 ^ 16) (hhears : c₀.Hears i x₀.streams)
    (htrack : c₀.track? i = some track₀) (hbuffer : track₀.jitter.Holds fun _ => False)
    {GA : List (RtpSending × SenderCall) → RtpSending → SenderCall → Prop}
    (hGA : ∀ h s e, GA h s e → UserWellFormed h s e)
    {GB : List (RtpSending × SenderCall) → List (Connection × Arrival Bytes Clock ReceiverCall) →
      Connection → Arrival Bytes Clock ReceiverCall → Prop}
    (hGB : ∀ h h' c e, GB h h' c e → Foreign c₀ i e)
    (hr : NetRun N (senderMachine x₀) GA (receiverMachine c₀) GB h x h' c) :
    x₀.Reached c₀ i track₀ h h' c := by
  refine hr.invariant (P := fun h _ h' c => x₀.Reached c₀ i track₀ h h' c) ?_
    (fun h x h' c e _ hc _ => hc.send e) (fun h x h' c data clock hr hc hm _ => ?_)
    fun h x h' c b _ hc hg => ?_
  · refine ⟨.refl c₀, fun b hb => ?_, fun frame hframe => absurd hframe List.not_mem_nil⟩
    rw [Connection.jitter?, ← Connection.track?,
      show (receiverMachine c₀).init.track? i = some track₀ from htrack] at hb
    exact Option.some.inj hb ▸ hbuffer.mono fun _ hfalse => hfalse.elim
  · have hreaches := senderMachine_reaches hne hempty
      (hr.sender.mono fun h s e hg pkt o he => by
        have hwf := hGA h s e hg
        rw [he] at hwf
        exact hwf)
    exact hc.datagram (e := .message data clock) rfl fun q hq =>
      (hreaches.sent data (hN _ _ _ hm)).genuine hhears hrids hq
  · cases b with
    | datagram data clock =>
      exact hc.datagram (e := .own (.datagram data clock)) rfl fun q hq =>
        absurd hq (hGB _ _ _ _ hg q)
    | recv j clock now => exact hc.recv htrack j clock now

end Runs

/-! ### A frame with a lost packet -/

/-- A sender of VP8 with the stream 7, repaired by the stream 8. -/
def videoSender : RtpSending :=
  { packetizer := .vp8 {}, streams := [{ ssrc := 7, rtxSsrc := 8, rtxPt := 97 }] }

/-- A connection that has a track for VP8 and a context for the stream 7. -/
def videoReceiver : Connection where
  transceivers :=
    [{ receiver.track := some { rtpmap := { name := "vp8".toList, clockRate := 90000 }
                                jitter := .create 500 true } }]
  ssrcSet ssrc := if ssrc = 7 then some { receiver := 0, ctx := { ssrc := 7 } } else none
  rtxPtToPt pt := if pt = 97 then some 96 else none
  rtxSsrcToSsrc ssrc := if ssrc = 8 then some 7 else none

/-- A frame that takes two packets. -/
def bigFrame : Bytes := List.replicate 1250 1

/-- The big frame goes out, its second packet is asked for again, and another frame goes out. -/
def repairedCalls : List SenderCall :=
  [.frames [(bigFrame, 10)] fun _ _ => {}, .nack 7 2, .frames [([9], 20)] fun _ _ => {}]

/-- The history that this leaves. -/
def repairedSent : List (RtpSending × SenderCall) :=
  (@senderMachine asciiNoCase videoSender).trace [] videoSender repairedCalls

/-- What has gone out: the packets 1 and 2, the retransmission of 2, and packet 3. -/
def repairedDatagrams : List Bytes := (@senderMachine asciiNoCase videoSender).sent repairedSent

/-- Packet 2 is lost, and its retransmission arrives; then a frame is asked for. -/
def repairedArrivals : List (Arrival Bytes Clock ReceiverCall) :=
  ([0, 2, 3].map fun k => .message (repairedDatagrams.getD k []) ⟨fun _ => 0, fun _ => 0⟩) ++
    [.own (.recv 0 (fun _ => 0) 0)]

/-- The history of the receiver. -/
def repairedHistory : List (Connection × Arrival Bytes Clock ReceiverCall) :=
  (@receiverMachine asciiNoCase videoReceiver).trace [] videoReceiver repairedArrivals

/-- The receiver knows the stream and what repairs it. -/
theorem videoReceiver_hears : videoReceiver.Hears 0 videoSender.streams := by
  have hone : ∀ {P : LoopStream → Prop}, P { ssrc := 7, rtxSsrc := 8, rtxPt := 97 } →
      ∀ s ∈ videoSender.streams, P s := fun hP s hs => List.mem_singleton.1 hs ▸ hP
  refine ⟨hone rfl, hone fun ssrc h => (Option.some.inj h).symm, hone (by decide),
    hone (by decide), fun t ht cb hcb => ?_⟩
  obtain ⟨hi, rfl⟩ := List.getElem?_eq_some_iff.1 ht
  cases hcb

/-- The two ends, and a network that loses packet 2. -/
theorem repaired_run {G : List (RtpSending × SenderCall) → RtpSending → SenderCall → Prop}
    (hG : ∀ h x, ∀ e ∈ repairedCalls, G h x e) :
    ∃ x c, NetRun (.lossy Bytes) (@senderMachine asciiNoCase videoSender) G
      (@receiverMachine asciiNoCase videoReceiver)
      (fun _ _ _ e => @Foreign asciiNoCase videoReceiver 0 e) repairedSent x repairedHistory c := by
  have hinit : NetRun (.lossy Bytes) (@senderMachine asciiNoCase videoSender) G
      (@receiverMachine asciiNoCase videoReceiver)
      (fun _ _ _ e => @Foreign asciiNoCase videoReceiver 0 e) [] videoSender [] videoReceiver :=
    .init
  have hsent := ((hinit.send (hG _ _ _ (.head _))).send (hG _ _ _ (.tail _ (.head _)))).send
    (hG _ _ _ (.tail _ (.tail _ (.head _))))
  have hcame (k : ℕ) (hk : k < 4) : repairedDatagrams.getD k [] ∈ repairedDatagrams := by
    have hlen : repairedDatagrams.length = 4 := by decide +kernel
    rw [List.getD_eq_getElem _ _ (hlen ▸ hk)]
    exact List.getElem_mem _
  exact ⟨_, _, (((hsent.arrive (hcame 0 (by decide)) trivial).arrive (hcame 2 (by decide))
    trivial).arrive (hcame 3 (by decide)) trivial).own trivial⟩

end AsioRtc
