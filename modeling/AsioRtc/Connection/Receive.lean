/-
# What a connection does with a datagram

`do_on_rtp_rtcp_packet`, `rewrite_rtx_packet`, `dispatch_rtp` and `depayload` of
`src/connection_impl.cpp`: the handling of a decrypted datagram.  Where
`rtp_packet::parse` accepts it, it is RTP, and its packet goes to the transport-cc
state and to a receiver; only where it does not is it taken for RTCP.

`Reception` is what the handling has come to so far: the connection, what has been
called (`ReceiveEvent`), and how often the clocks have been read.  The `i`-th
reading of the steady and of the system clock are `Clock.steady i` and
`Clock.system i`.

A report without blocks reads as an RTP packet, so the order of the two parsers
matters: `demultiplexed_iff` says for which datagrams it comes to the right branch.
-/

import Mathlib
import AsioRtc.Connection.State
import AsioRtc.Rtcp.Messages

namespace AsioRtc

open Lib Text

/-- The readings of the two clocks, in nanoseconds. -/
structure Clock where
  steady : ℕ → ℤ
  system : ℕ → ℤ

/-- What the handling of a datagram calls. -/
inductive ReceiveEvent
  | handleIncoming (ext : Bytes)
  | dispatchRtp (pkt : RtpPacket)
  | parseCompound (data : Bytes)
  | sendRtp (data : Bytes)
  | sendRtcp (data : Bytes)
  deriving DecidableEq, Repr

/-- A call of `sync_send_rtp` or `sync_send_rtcp`. -/
def ReceiveEvent.isSend : ReceiveEvent → Bool
  | sendRtp _ => true
  | sendRtcp _ => true
  | _ => false

/-- The handling of a datagram so far. -/
structure Reception where
  conn : Connection
  events : List ReceiveEvent := []
  reads : ℕ := 0

/-! ### RTP -/

/-- The bitstream begins behind the picture id, if there is one. -/
def pictureIdEnd (d : Bytes) (ext : U8) (pos : ℕ) : Checked ℕ :=
  if ext &&& 0x80 ≠ 0 ∧ pos < d.length then do
    let b ← byteAt d pos
    pure (if b &&& 0x80 ≠ 0 then pos + 2 else pos + 1)
  else pure pos

/-- The payload descriptor of VP8 and VP9: the position behind it. -/
def descriptorEnd (d : Bytes) : Checked ℕ := do
  let b0 ← byteAt d 0
  if (b0 >>> 7) &&& 1 = 1 ∧ 1 < d.length then do
    let ext ← byteAt d 1
    let pos ← pictureIdEnd d ext 2
    let pos := if ext &&& 0x40 ≠ 0 ∧ pos < d.length then pos + 1 else pos
    pure (if ext &&& 0x30 ≠ 0 ∧ pos < d.length then pos + 1 else pos)
  else pure 1

/-- `depayload`. -/
def depayload [NoCaseEq] (codecName : Text) (payload : Bytes) : Checked Bytes :=
  if (nceq codecName "VP8".toList || nceq codecName "VP9".toList) && payload ≠ [] then do
    let pos ← descriptorEnd payload
    pure (if pos ≤ payload.length then payload.drop pos else payload)
  else pure payload

namespace Connection

/-- `connection_impl::rewrite_rtx_packet`. -/
def rewriteRtxPacket (c : Connection) (pkt : RtpPacket) : Checked RtpPacket :=
  if pkt.payload.length ≤ 2 then pure pkt
  else
    match c.rtxPtToPt pkt.payloadType, c.rtxSsrcToSsrc pkt.ssrc with
    | some pt, some ssrc => do
        let seq ← readBig16 pkt.payload 0
        pure { pkt with
          payloadType := pt, ssrc := ssrc, sequenceNumber := seq, payload := pkt.payload.drop 2 }
    | _, _ => pure pkt

/-- The mid in the header extension of a packet, if it has one. -/
def packetMid (c : Connection) (pkt : RtpPacket) : Option Text :=
  match c.midExtId with
  | none => none
  | some id =>
      ((extElements pkt.extensionData).find? fun e => e.id.setWidth 16 = id).map fun e =>
        e.data.map fun b => Char.ofNat b.toNat

/-- The receiver whose transceiver has the packet's mid. -/
def receiverByMid (c : Connection) (pkt : RtpPacket) : Option ℕ :=
  match c.packetMid pkt with
  | none => none
  | some mid => if mid = [] then none else c.transceivers.findIdx? fun t => t.mid = mid

/-- The receiver a packet goes to: by its mid, else by its SSRC. -/
def receiverOf (c : Connection) (pkt : RtpPacket) : Option ℕ :=
  (c.receiverByMid pkt).orElse fun _ => (c.ssrcSet pkt.ssrc).map SsrcEntry.receiver

/-- A change of the context of `ssrc`. -/
def setCtx (c : Connection) (ssrc : U32) (e : SsrcEntry) (ctx : SsrcContext) : Connection :=
  { c with ssrcSet := Function.update c.ssrcSet ssrc (some { e with ctx := ctx }) }

end Connection

namespace Reception

/-- A call. -/
def call (r : Reception) (e : ReceiveEvent) : Reception := { r with events := r.events ++ [e] }

/-- The context of the packet's SSRC, if there is one, gets the packet.  Every third gap in a
row asks for a key frame. -/
def trackStream (clock : Clock) (pkt : RtpPacket) (r : Reception) : Reception :=
  match r.conn.ssrcSet pkt.ssrc with
  | none => r
  | some e =>
      let prev := e.ctx.packetsExpectedCount
      let ctx := e.ctx.trackPacket pkt.sequenceNumber pkt.timestamp (clock.steady r.reads)
      let r := { r with reads := r.reads + 1 }
      if ctx.checkGap prev then
        let ctx := { ctx with
          consecutiveLost := ctx.consecutiveLost + 1
          nackGen := ctx.nackGen.receivePacket pkt.sequenceNumber }
        if (3 : ℤ) ≤ ctx.consecutiveLost ∧ r.conn.srtpTransport = true then
          { r with conn := r.conn.setCtx pkt.ssrc e { ctx with consecutiveLost := 0 } }.call
            (.sendRtcp (RtcpMessage.pli pkt.ssrc).bytes)
        else { r with conn := r.conn.setCtx pkt.ssrc e ctx }
      else
        { r with conn := r.conn.setCtx pkt.ssrc e { ctx with
            consecutiveLost := 0
            nackGen := ctx.nackGen.receivePacket pkt.sequenceNumber } }

/-- The receiver of transceiver `i` gets the packet: its callback, then its track. -/
def deliver [NoCaseEq] (i : ℕ) (pkt : RtpPacket) (r : Reception) : Checked (Reception × Bool) :=
  match r.conn.transceivers[i]? with
  -- A context refers to a receiver that is there.
  | none => pure (r, false)
  | some t =>
      let (pkt, keep) := t.receiver.onRtp.elim (pkt, true) fun cb => cb pkt
      if !keep then pure (r, false)
      else
        match t.receiver.track with
        | none => pure (r, false)
        | some track => do
            let payload ← depayload track.rtpmap.name pkt.payload
            if payload = [] then pure (r, false)
            else
              let t := { t with receiver.track := some (track.pushFrame { pkt with payload := payload }) }
              pure ({ r with conn := { r.conn with transceivers := r.conn.transceivers.set i t } },
                true)

/-- `connection_impl::dispatch_rtp`. -/
def dispatchRtp [NoCaseEq] (clock : Clock) (pkt : RtpPacket) (r : Reception) :
    Checked (Reception × Bool) := do
  let r := r.call (.dispatchRtp pkt)
  let pkt ← r.conn.rewriteRtxPacket pkt
  match r.conn.receiverOf pkt with
  | none => pure (r, false)
  | some i => (r.trackStream clock pkt).deliver i pkt

/-- The transport-cc state gets the header extension of a packet. -/
def incoming (clock : Clock) (pkt : RtpPacket) (r : Reception) : Reception :=
  let (twcc, reports) :=
    { r.conn.twcc with mediaSsrc := pkt.ssrc }.handleIncoming pkt.extensionData
      fun i => clock.steady (r.reads + i)
  { conn := { r.conn with twcc := twcc }
    events := r.events ++ .handleIncoming pkt.extensionData :: reports.map .sendRtcp
    reads := r.reads + (transportSeqs pkt.extensionData).length }

/-! ### RTCP -/

/-- A sender report. -/
def senderReport (clock : Clock) (cp : RtcpPacket) (r : Reception) : Reception :=
  let r :=
    match r.conn.ssrcSet cp.ssrc with
    | none => r
    | some e =>
        { r with
          conn := r.conn.setCtx cp.ssrc e (e.ctx.recordSr cp.ntpTimestamp (clock.steady r.reads))
          reads := r.reads + 1 }
  { r with
    conn := { r.conn with
      remoteOutbound := Function.update r.conn.remoteOutbound cp.ssrc (some
        { timestamp := clock.system r.reads
          packetsSent := cp.senderPacketCount
          bytesSent := cp.senderOctetCount
          remoteTimestamp := cp.ntpTimestamp }) }
    reads := r.reads + 1 }

/-- The round-trip time of a report block in microseconds, where it can be told. -/
def roundTrip (c : Connection) (b : ReportBlock) (now : ℤ) : Option (SsrcEntry × ℤ) :=
  match c.ssrcSet b.ssrc with
  | none => none
  | some e =>
      if 0 < e.ctx.lsrTime then
        let rtt := (now - e.ctx.lsrTime).tdiv 1000 - (b.dlsr.toNat * 1000000 / 65536 : ℕ)
        if 0 < rtt then some (e, rtt) else none
      else none

/-- One block of a receiver report. -/
def receiverBlock (clock : Clock) (r : Reception) (b : ReportBlock) : Reception :=
  let ri : RemoteInbound :=
    { (r.conn.remoteInbound b.ssrc).getD {} with
      timestamp := clock.system r.reads
      packetsLost := b.cumulativeLost
      jitter := b.jitter
      fractionLost := b.fractionLost }
  let r := { r with reads := r.reads + 1 }
  let store (c : Connection) (ri : RemoteInbound) : Connection :=
    { c with remoteInbound := Function.update c.remoteInbound b.ssrc (some ri) }
  if b.lsr ≠ 0 ∧ b.dlsr ≠ 0 then
    let now := clock.steady r.reads
    let r := { r with reads := r.reads + 1 }
    match roundTrip r.conn b now with
    | none => { r with conn := store r.conn ri }
    | some (e, rtt) =>
        let ctx := { e.ctx with nackGen := e.ctx.nackGen.updateRtt (rtt.tdiv 1000) }
        { r with conn := store (r.conn.setCtx b.ssrc e ctx) { ri with roundTripTime := rtt } }
  else { r with conn := store r.conn ri }

end Reception

/-- The retransmission of an entry of the history: a header, the original number, the payload. -/
def RtpStream.rtx (s : RtpStream) (e : HistoryEntry) (seq : U16) : Bytes :=
  [0x80, s.rtxPt] ++ big16 (s.rtxSeq + 1) ++ big32 e.timestamp ++ big32 s.rtxSsrc ++ big16 seq ++
    e.payload

/-- What a lost number brings out of the streams of a sender: the first one that has it in its
history sends it again. -/
def resend (mediaSsrc : U32) (seq : U16) : List RtpStream → List RtpStream × Option Bytes
  | [] => ([], none)
  | s :: ss =>
      let skip := let (ss, out) := resend mediaSsrc seq ss; (s :: ss, out)
      if mediaSsrc ≠ 0 ∧ s.ssrc ≠ mediaSsrc then skip
      else
        match s.history (seq.toNat % historySize) with
        | none => skip
        | some e =>
            if e.seq = seq then ({ s with rtxSeq := s.rtxSeq + 1 } :: ss, some (s.rtx e seq))
            else skip

/-- A lost number at a transceiver. -/
def RtpTransceiver.resend (mediaSsrc : U32) (seq : U16) (t : RtpTransceiver) :
    RtpTransceiver × Option Bytes :=
  let (ss, out) := AsioRtc.resend mediaSsrc seq t.sender.streams
  ({ t with sender.streams := ss }, out)

namespace Reception

/-- A lost number of a NACK. -/
def resend (mediaSsrc : U32) (r : Reception) (seq : U16) : Reception :=
  let ts := r.conn.transceivers.map (RtpTransceiver.resend mediaSsrc seq)
  { r with
    conn := { r.conn with transceivers := ts.map Prod.fst }
    events := r.events ++ (ts.filterMap Prod.snd).map .sendRtp }

/-- One packet of a compound. -/
def handleRtcp (clock : Clock) (r : Reception) (cp : RtcpPacket) : Checked Reception :=
  if cp.type = PacketType.SR then pure (r.senderReport clock cp)
  else if cp.type = PacketType.RR then pure (cp.blocks.foldl (receiverBlock clock) r)
  else if cp.type = PacketType.RTPFB ∧ cp.reportCount = PacketType.RTPFB_NACK then do
    let lost ← parseNack cp.payload
    pure (lost.foldl (resend cp.mediaSsrc) r)
  -- Nothing is done about the payload-specific and the transport-cc feedback yet.
  else pure r

end Reception

/-- `connection_impl::do_on_rtp_rtcp_packet`. -/
def Connection.doOnRtpRtcpPacket [NoCaseEq] (clock : Clock) (c : Connection) (buf : Bytes) :
    Checked Reception := do
  let r : Reception :=
    { conn := { c with rxPackets := c.rxPackets + 1, rxBytes := c.rxBytes + BitVec.ofNat 64 buf.length } }
  match ← RtpPacket.parse buf with
  | some pkt => do
      let (r, _) ← (r.incoming clock pkt).dispatchRtp clock pkt
      pure r
  | none => do
      let cps ← parseCompound buf
      cps.foldlM (Reception.handleRtcp clock) (r.call (.parseCompound buf))

/-! ### The handlers of a branch only send -/

/-- From `r` to `r'` nothing has been called but what sends, and the transport-cc state has been
left alone. -/
structure Reception.OnlySends (r r' : Reception) : Prop where
  twcc : r'.conn.twcc = r.conn.twcc
  events : ∃ sent, r'.events = r.events ++ sent ∧ ∀ e ∈ sent, e.isSend = true

namespace Reception

/-- The calls of the other kinds are those of before. -/
theorem OnlySends.mem_iff {r r' : Reception} (h : OnlySends r r') {e : ReceiveEvent}
    (he : e.isSend = false) : e ∈ r'.events ↔ e ∈ r.events := by
  obtain ⟨sent, hevents, hsent⟩ := h.events
  have hnot : e ∉ sent := fun hin => absurd (hsent e hin) (by simp [he])
  simp [hevents, hnot]

/-- Nothing is sent. -/
theorem OnlySends.refl (r : Reception) : OnlySends r r := ⟨rfl, [], by simp, by simp⟩

/-- One handler after the other. -/
theorem OnlySends.trans {r₁ r₂ r₃ : Reception} (h₁ : OnlySends r₁ r₂) (h₂ : OnlySends r₂ r₃) :
    OnlySends r₁ r₃ := by
  obtain ⟨sent₁, he₁, hs₁⟩ := h₁.events
  obtain ⟨sent₂, he₂, hs₂⟩ := h₂.events
  refine ⟨h₂.twcc.trans h₁.twcc, sent₁ ++ sent₂, by rw [he₂, he₁, List.append_assoc], ?_⟩
  exact List.forall_mem_append.2 ⟨hs₁, hs₂⟩

/-- No call. -/
theorem OnlySends.of_eq {r r' : Reception} (ht : r'.conn.twcc = r.conn.twcc)
    (he : r'.events = r.events) : OnlySends r r' := ⟨ht, [], by simp [he], by simp⟩

/-- A handler for each element of a list. -/
theorem OnlySends.foldl {α : Type} {f : Reception → α → Reception}
    (hf : ∀ r a, OnlySends r (f r a)) (l : List α) (r : Reception) :
    OnlySends r (l.foldl f r) := by
  induction l generalizing r with
  | nil => exact OnlySends.refl r
  | cons a l ih => exact (hf r a).trans (ih _)

/-- The statistics of a stream only send. -/
theorem trackStream_onlySends (clock : Clock) (pkt : RtpPacket) (r : Reception) :
    OnlySends r (r.trackStream clock pkt) := by
  unfold trackStream
  split
  · exact OnlySends.refl r
  · simp only []
    split
    · split
      · exact ⟨rfl, [_], rfl, by simp [ReceiveEvent.isSend]⟩
      · exact OnlySends.of_eq rfl rfl
    · exact OnlySends.of_eq rfl rfl

/-- A sender report is only noted. -/
theorem senderReport_onlySends (clock : Clock) (cp : RtcpPacket) (r : Reception) :
    OnlySends r (r.senderReport clock cp) := by
  unfold senderReport
  simp only []
  split <;> exact OnlySends.of_eq rfl rfl

/-- A block of a report is only noted. -/
theorem receiverBlock_onlySends (clock : Clock) (r : Reception) (b : ReportBlock) :
    OnlySends r (r.receiverBlock clock b) := by
  unfold receiverBlock
  simp only []
  split
  · split <;> exact OnlySends.of_eq rfl rfl
  · exact OnlySends.of_eq rfl rfl

/-- A packet that is asked for is sent again. -/
theorem resend_onlySends (mediaSsrc : U32) (r : Reception) (seq : U16) :
    OnlySends r (r.resend mediaSsrc seq) := by
  refine ⟨rfl, _, rfl, fun e he => ?_⟩
  obtain ⟨d, -, rfl⟩ := List.mem_map.1 he
  rfl

/-- A report is handled safely, and only sending follows from it. -/
theorem handleRtcp_yields (clock : Clock) (r : Reception) (cp : RtcpPacket) :
    (r.handleRtcp clock cp).Yields (OnlySends r) := by
  unfold handleRtcp
  split
  · exact Checked.yields_pure.2 (senderReport_onlySends clock cp r)
  · split
    · exact Checked.yields_pure.2 (OnlySends.foldl (receiverBlock_onlySends clock) _ r)
    · split
      · obtain ⟨lost, hlost⟩ := parseNack_safe cp.payload
        rw [hlost]
        exact Checked.yields_pure.2 (OnlySends.foldl (resend_onlySends cp.mediaSsrc) lost r)
      · exact Checked.yields_pure.2 (OnlySends.refl r)

/-- So are the reports of a compound packet, one after the other. -/
theorem handleRtcps_yields (clock : Clock) (r : Reception) (cps : List RtcpPacket) :
    (cps.foldlM (handleRtcp clock) r).Yields (OnlySends r) := by
  induction cps generalizing r with
  | nil => exact Checked.yields_pure.2 (OnlySends.refl r)
  | cons cp cps ih =>
    rw [List.foldlM_cons]
    exact (handleRtcp_yields clock r cp).bind fun r' hr' => (ih r').mono fun _ h => hr'.trans h

end Reception

/-- The picture identifier is inside the payload. -/
theorem pictureIdEnd_safe (d : Bytes) (ext : U8) (pos : ℕ) : (pictureIdEnd d ext pos).Safe := by
  unfold pictureIdEnd
  split
  · rename_i h
    exact (safe_byteAt.2 h.2).bind fun _ _ => Checked.safe_pure
  · exact Checked.safe_pure

/-- The descriptor is inside the payload. -/
theorem descriptorEnd_safe {d : Bytes} (hd : d ≠ []) : (descriptorEnd d).Safe := by
  unfold descriptorEnd
  refine (safe_byteAt.2 (List.length_pos_of_ne_nil hd)).bind fun b0 _ => ?_
  split
  · rename_i h
    refine (safe_byteAt.2 h.2).bind fun ext _ => ?_
    exact (pictureIdEnd_safe d ext 2).bind fun _ _ => Checked.safe_pure
  · exact Checked.safe_pure

section Branches

variable [NoCaseEq]

/-- The payload is taken out of the packet safely. -/
theorem depayload_safe (codecName : Text) (payload : Bytes) :
    (depayload codecName payload).Safe := by
  unfold depayload
  split
  · rename_i h
    have hne : payload ≠ [] := by simpa using (Bool.and_eq_true_iff.1 h).2
    exact (descriptorEnd_safe hne).bind fun _ _ => Checked.safe_pure
  · exact Checked.safe_pure

omit [NoCaseEq] in
/-- A packet of the retransmissions is rewritten safely. -/
theorem Connection.rewriteRtxPacket_safe (c : Connection) (pkt : RtpPacket) :
    (c.rewriteRtxPacket pkt).Safe := by
  unfold rewriteRtxPacket
  split
  · exact Checked.safe_pure
  · rename_i hlen
    split
    · exact (readBig16_safe (by omega)).bind fun _ _ => Checked.safe_pure
    · exact Checked.safe_pure

namespace Reception

/-- A packet goes to its receiver safely, and only sending follows from it. -/
theorem deliver_yields (i : ℕ) (pkt : RtpPacket) (r : Reception) :
    (r.deliver i pkt).Yields fun p => OnlySends r p.1 := by
  unfold deliver
  cases r.conn.transceivers[i]? with
  | none => exact Checked.yields_pure.2 (OnlySends.refl r)
  | some t =>
    simp only []
    split
    · exact Checked.yields_pure.2 (OnlySends.refl r)
    · cases t.receiver.track with
      | none => exact Checked.yields_pure.2 (OnlySends.refl r)
      | some track =>
        refine (Checked.safe_iff.1 (depayload_safe _ _)).bind fun payload _ => ?_
        split
        · exact Checked.yields_pure.2 (OnlySends.refl r)
        · exact Checked.yields_pure.2 (OnlySends.of_eq rfl rfl)

/-- **`dispatch_rtp` only sends.** -/
theorem dispatchRtp_yields (clock : Clock) (pkt : RtpPacket) (r : Reception) :
    (r.dispatchRtp clock pkt).Yields fun p => OnlySends (r.call (.dispatchRtp pkt)) p.1 := by
  unfold dispatchRtp
  refine (Checked.safe_iff.1 (Connection.rewriteRtxPacket_safe _ pkt)).bind fun pkt' _ => ?_
  cases (r.call (.dispatchRtp pkt)).conn.receiverOf pkt' with
  | none => exact Checked.yields_pure.2 (OnlySends.refl _)
  | some i =>
    exact (deliver_yields i pkt' _).mono fun p hp => (trackStream_onlySends clock pkt' _).trans hp

end Reception

/-! ### Which branch -/

/-- A datagram of RTCP: version 2, and one of the packet types 192 to 223. -/
def IsRtcp (data : Bytes) : Prop :=
  (data.getD 0 0).toNat / 64 = 2 ∧ 192 ≤ (data.getD 1 0).toNat ∧ (data.getD 1 0).toNat ≤ 223

/-- Whether a datagram is RTCP is decided by its first two bytes. -/
instance (data : Bytes) : Decidable (IsRtcp data) := inferInstanceAs (Decidable (_ ∧ _ ∧ _))

/-- The datagram has gone through the RTCP branch, and not to the transport-cc state. -/
structure Reception.IsRtcpOf (c : Connection) (data : Bytes) (r : Reception) : Prop where
  parsed : .parseCompound data ∈ r.events
  notDispatched : ∀ pkt, .dispatchRtp pkt ∉ r.events
  notIncoming : ∀ ext, .handleIncoming ext ∉ r.events
  twcc : r.conn.twcc = c.twcc

/-- The packet of the datagram has gone to the transport-cc state and to `dispatch_rtp`. -/
structure Reception.IsRtpOf (data : Bytes) (r : Reception) : Prop where
  packet : ∃ pkt, RtpPacket.parse data = .ok (some pkt) ∧
    .handleIncoming pkt.extensionData ∈ r.events ∧ .dispatchRtp pkt ∈ r.events
  notParsed : ∀ d, .parseCompound d ∉ r.events

/-- **Both branches.**  The datagram is handled as RTP exactly where it reads as RTP. -/
theorem Connection.doOnRtpRtcpPacket_yields (clock : Clock) (c : Connection) (data : Bytes) :
    (c.doOnRtpRtcpPacket clock data).Yields fun r =>
      (RtpPacket.ReadsAsRtp data → r.IsRtpOf data) ∧
        (¬ RtpPacket.ReadsAsRtp data → r.IsRtcpOf c data) := by
  obtain ⟨pkt?, hparse, hreads⟩ := RtpPacket.parse_yields data
  rw [doOnRtpRtcpPacket, hparse]
  cases pkt? with
  | some pkt =>
    refine (Reception.dispatchRtp_yields clock pkt _).bind fun p hp => Checked.yields_pure.2
      ⟨fun _ => ?_, fun hnot => absurd (hreads.1 rfl) hnot⟩
    refine ⟨⟨pkt, hparse, ?_, ?_⟩, fun d => ?_⟩ <;> rw [hp.mem_iff rfl] <;>
      simp [Reception.call, Reception.incoming]
  | none =>
    obtain ⟨cps, hcps⟩ := parseCompound_safe data
    simp only [Checked.ok_bind, hcps]
    refine (Reception.handleRtcps_yields clock _ cps).mono fun r hr =>
      ⟨fun h => absurd (hreads.2 h) Bool.false_ne_true, fun _ => ?_⟩
    refine ⟨?_, fun pkt => ?_, fun ext => ?_, hr.twcc⟩ <;> rw [hr.mem_iff rfl] <;>
      simp [Reception.call]

/-- The datagram is handled as what it is. -/
def Connection.Demultiplexes (clock : Clock) (c : Connection) (data : Bytes) : Prop :=
  ∃ r, c.doOnRtpRtcpPacket clock data = .ok r ∧ (IsRtcp data → r.IsRtcpOf c data) ∧
    (¬ IsRtcp data → RtpPacket.ReadsAsRtp data → r.IsRtpOf data)

/-- **Which datagrams are handled as what they are.**  All but RTCP that reads as RTP. -/
theorem Connection.demultiplexes_iff (clock : Clock) (c : Connection) (data : Bytes) :
    c.Demultiplexes clock data ↔ ¬ (IsRtcp data ∧ RtpPacket.ReadsAsRtp data) := by
  obtain ⟨r, hr, hrtp, hrtcp⟩ := c.doOnRtpRtcpPacket_yields clock data
  constructor
  · rintro ⟨r', hr', hdemux, -⟩ ⟨his, hreads⟩
    obtain rfl := Except.ok.inj (hr.symm.trans hr')
    exact (hrtp hreads).notParsed data (hdemux his).parsed
  · intro hnot
    exact ⟨r, hr, fun his => hrtcp fun hreads => hnot ⟨his, hreads⟩, fun _ => hrtp⟩

end Branches

/-- **A sender report is taken for RTP.**  It is one that this side itself makes: one stream, and
the SDES chunk. -/
theorem Connection.senderReport_not_demultiplexed :
    ¬ @Connection.Demultiplexes asciiNoCase ⟨fun _ => 0, fun _ => 0⟩ {}
      (RtcpMessage.senderReports [{ ssrc := 7 }]).bytes := by
  rintro ⟨r, hr, hdemux, -⟩
  obtain ⟨r', hr', hrtp, -⟩ := @Connection.doOnRtpRtcpPacket_yields asciiNoCase
    ⟨fun _ => 0, fun _ => 0⟩ {} (RtcpMessage.senderReports [{ ssrc := 7 }]).bytes
  obtain rfl := Except.ok.inj (hr.symm.trans hr')
  exact (hrtp (by decide)).notParsed _ (hdemux (by decide)).parsed

end AsioRtc
