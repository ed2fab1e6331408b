/-
# A connection that has heard of no report

The statistics of the other end are empty, and every context is as it was made where reports would
change it (`Connection.Unheard`).  Only a report changes that: not a datagram that is taken for RTP
or whose packets are not acted on (`Connection.Unheard.datagram`), not a turn of one of the loops
that send RTCP, not a call of the application and not the connect task (`Peer.unheard_step`).
-/

import AsioRtc.Connection.Connect
import AsioRtc.Connection.RtcpLoops
import AsioRtc.Rtcp.Inert

namespace AsioRtc

open Lib Text

/-! ### Nothing has been heard -/

/-- A context that no report has come to. -/
structure SsrcContext.Unheard (c : SsrcContext) : Prop where
  lsr : c.lsr = 0
  lsrTime : c.lsrTime = 0
  rttMs : c.nackGen.rttMs = 100

/-- A connection that no report has come to. -/
structure Connection.Unheard (c : Connection) : Prop where
  outbound : ∀ ssrc, c.remoteOutbound ssrc = none
  inbound : ∀ ssrc, c.remoteInbound ssrc = none
  contexts : ∀ ssrc e, c.ssrcSet ssrc = some e → e.ctx.Unheard

/-- A call that repeats no packet and sends nothing that is acted on. -/
def ReceiveEvent.Quiet : ReceiveEvent → Prop
  | sendRtp _ => False
  | sendRtcp data => Inert data
  | _ => True

/-- A datagram has been handled so far, and nothing has been heard. -/
structure Reception.Quiet (r : Reception) : Prop where
  unheard : r.conn.Unheard
  events : ∀ e ∈ r.events, e.Quiet

namespace NackGenerator

variable (g : NackGenerator)

/-- A jump to a newer number leaves the round-trip time alone. -/
@[simp] theorem skipTo_rttMs (seq : U16) (diff : ℤ) : (g.skipTo seq diff).rttMs = g.rttMs := by
  unfold skipTo
  split <;> rfl

/-- So does a packet, -/
@[simp] theorem receivePacket_rttMs (seq : U16) : (g.receivePacket seq).rttMs = g.rttMs := by
  unfold receivePacket
  simp only []
  split
  · rfl
  · split
    · split <;> rfl
    · split <;> exact g.skipTo_rttMs seq _

/-- and so do the numbers that are asked for. -/
@[simp] theorem getNacks_rttMs (now : ℤ) : (g.getNacks now).1.rttMs = g.rttMs := by
  unfold getNacks
  split <;> rfl

end NackGenerator

namespace SsrcContext

/-- A packet leaves alone what a sender report sets, and the NACK generator. -/
theorem trackPacket_report (c : SsrcContext) (seq : U16) (rtpTs : U32) (now : ℤ) :
    (c.trackPacket seq rtpTs now).lsr = c.lsr ∧ (c.trackPacket seq rtpTs now).lsrTime = c.lsrTime ∧
      (c.trackPacket seq rtpTs now).nackGen = c.nackGen := by
  show (c.trackSeq seq).lsr = _ ∧ (c.trackSeq seq).lsrTime = _ ∧ (c.trackSeq seq).nackGen = _
  unfold trackSeq
  simp only []
  split_ifs <;> exact ⟨rfl, rfl, rfl⟩

/-- A context that gets a packet has heard no more than before. -/
theorem Unheard.receive {c : SsrcContext} (h : c.Unheard) (seq : U16) (rtpTs : U32) (now n : ℤ) :
    SsrcContext.Unheard { c.trackPacket seq rtpTs now with
      consecutiveLost := n
      nackGen := (c.trackPacket seq rtpTs now).nackGen.receivePacket seq } := by
  obtain ⟨hlsr, htime, hnack⟩ := c.trackPacket_report seq rtpTs now
  refine ⟨hlsr.trans h.lsr, htime.trans h.lsrTime, ?_⟩
  rw [NackGenerator.receivePacket_rttMs, hnack, h.rttMs]

end SsrcContext

namespace Connection.Unheard

variable {c c' : Connection}

/-- The statistics and the contexts are the same. -/
theorem of_eq (h : c.Unheard) (houtbound : c'.remoteOutbound = c.remoteOutbound)
    (hinbound : c'.remoteInbound = c.remoteInbound) (hset : c'.ssrcSet = c.ssrcSet) : c'.Unheard :=
  ⟨houtbound ▸ h.outbound, hinbound ▸ h.inbound, hset ▸ h.contexts⟩

/-- A context becomes another one. -/
theorem setCtx (h : c.Unheard) (ctx : SsrcContext) (hctx : ctx.Unheard) (ssrc : U32)
    (e : SsrcEntry) : (c.setCtx ssrc e ctx).Unheard := by
  refine ⟨h.outbound, h.inbound, fun s d hd => ?_⟩
  rw [Connection.setCtx_eq, withSet_ssrcSet] at hd
  by_cases hs : s = ssrc
  · rw [hs, Function.update_self] at hd
    exact Option.some.inj hd ▸ hctx
  · rw [Function.update_of_ne hs] at hd
    exact h.contexts s d hd

end Connection.Unheard

/-! ### A datagram -/

/-- Transport-cc feedback is not acted on. -/
theorem TransportCc.inert_report (t : TransportCc) (h : t.report.2 ≠ []) : Inert t.report.2 := by
  unfold report at h ⊢
  cases hrecv : t.recv with
  | nil =>
    simp only [hrecv] at h
    exact absurd rfl h
  | cons e es => exact RtcpMessage.inert_buildTransportCc _

/-- The queue is not empty where it is too long. -/
theorem TransportCc.inert_drain (t : TransportCc) : ∀ r ∈ t.drain.1, Inert r.report.2 := by
  induction t using drain.induct with
  | case1 t hlen ih =>
    rw [drain, dif_pos hlen]
    refine List.forall_mem_cons.2 ⟨t.inert_report ?_, ih⟩
    obtain ⟨e, es, hrecv⟩ := List.exists_cons_of_length_pos (Nat.zero_lt_of_lt hlen)
    unfold report
    simp only [hrecv]
    rw [buildTransportCc_eq]
    exact List.cons_ne_nil _ _
  | case2 t hlen =>
    rw [drain, dif_neg hlen]
    exact fun r hr => absurd hr List.not_mem_nil

namespace Reception

variable {r : Reception} {clock : Clock} {pkt : RtpPacket}

/-- A call more. -/
theorem Quiet.call (h : r.Quiet) {e : ReceiveEvent} (he : e.Quiet) : (r.call e).Quiet :=
  ⟨h.unheard, List.forall_mem_append.2 ⟨h.events, List.forall_mem_singleton.2 he⟩⟩

/-- `handle_incoming` sends transport-cc feedback only. -/
theorem Quiet.incoming (h : r.Quiet) : (r.incoming clock pkt).Quiet := by
  refine ⟨h.unheard.of_eq rfl rfl rfl, List.forall_mem_append.2 ⟨h.events, ?_⟩⟩
  refine List.forall_mem_cons.2 ⟨trivial, fun e he => ?_⟩
  obtain ⟨data, hdata, rfl⟩ := List.mem_map.1 he
  obtain ⟨t, ht, rfl⟩ := List.mem_map.1 hdata
  exact TransportCc.inert_drain _ t ht

/-- `track_stream` sends a PLI at most. -/
theorem Quiet.trackStream (h : r.Quiet) : (r.trackStream clock pkt).Quiet := by
  unfold Reception.trackStream
  cases he : r.conn.ssrcSet pkt.ssrc with
  | none => exact h
  | some e =>
    have hctx := (h.unheard.contexts _ e he).receive pkt.sequenceNumber pkt.timestamp
      (clock.steady r.reads)
    simp only []
    split
    · split
      · refine ⟨h.unheard.setCtx _ (hctx 0) pkt.ssrc e, List.forall_mem_append.2 ⟨h.events, ?_⟩⟩
        exact List.forall_mem_singleton.2 (RtcpMessage.inert_pli pkt.ssrc)
      · exact ⟨h.unheard.setCtx _ (hctx _) pkt.ssrc e, h.events⟩
    · exact ⟨h.unheard.setCtx _ (hctx 0) pkt.ssrc e, h.events⟩

/-- The packet that is delivered goes into a buffer. -/
theorem Quiet.deliver [NoCaseEq] (h : r.Quiet) (i : ℕ) :
    (r.deliver i pkt).Yields fun p => p.1.Quiet := by
  unfold Reception.deliver
  cases r.conn.transceivers[i]? with
  | none => exact Checked.yields_pure.2 h
  | some t =>
    simp only []
    split
    · exact Checked.yields_pure.2 h
    · cases t.receiver.track with
      | none => exact Checked.yields_pure.2 h
      | some track =>
        refine (Checked.safe_iff.1 (depayload_safe _ _)).bind fun payload _ => ?_
        split
        · exact Checked.yields_pure.2 h
        · exact Checked.yields_pure.2 ⟨h.unheard.of_eq rfl rfl rfl, h.events⟩

/-- **A packet of RTP** is not a report. -/
theorem Quiet.dispatchRtp [NoCaseEq] (h : r.Quiet) :
    (r.dispatchRtp clock pkt).Yields fun p => p.1.Quiet := by
  unfold Reception.dispatchRtp
  refine (Checked.safe_iff.1 (Connection.rewriteRtxPacket_safe _ pkt)).bind fun pkt' _ => ?_
  have hcall : (r.call (.dispatchRtp pkt)).Quiet := h.call trivial
  cases (r.call (.dispatchRtp pkt)).conn.receiverOf pkt' with
  | none => exact Checked.yields_pure.2 hcall
  | some i => exact hcall.trackStream.deliver i

/-- A packet that is not acted on. -/
theorem handleRtcp_of_not_actedOn {cp : RtcpPacket} (h : ¬ cp.ActedOn) (r : Reception) :
    r.handleRtcp clock cp = .ok r := by
  rw [RtcpPacket.ActedOn, not_or, not_or] at h
  rw [handleRtcp, if_neg h.1, if_neg h.2.1, if_neg h.2.2]
  rfl

/-- Nothing comes of packets none of which is acted on. -/
theorem handleRtcps_of_not_actedOn {cps : List RtcpPacket} (h : ∀ cp ∈ cps, ¬ cp.ActedOn)
    (r : Reception) : cps.foldlM (handleRtcp clock) r = .ok r := by
  induction cps with
  | nil => rfl
  | cons cp cps ih =>
    obtain ⟨hcp, hcps⟩ := List.forall_mem_cons.1 h
    rw [List.foldlM_cons, handleRtcp_of_not_actedOn hcp, Checked.ok_bind]
    exact ih hcps

end Reception

/-- **A datagram that is not acted on** leaves a connection that has heard nothing so. -/
theorem Connection.Unheard.datagram [NoCaseEq] {c : Connection} (h : c.Unheard) {data : Bytes}
    (hdata : Inert data) (clock : Clock) :
    (c.doOnRtpRtcpPacket clock data).Yields Reception.Quiet := by
  obtain ⟨pkt?, hparse, hreads⟩ := RtpPacket.parse_yields data
  have hstart : Reception.Quiet { conn := { c with
      rxPackets := c.rxPackets + 1, rxBytes := c.rxBytes + BitVec.ofNat 64 data.length } } :=
    ⟨h.of_eq rfl rfl rfl, fun _ he => absurd he List.not_mem_nil⟩
  rw [doOnRtpRtcpPacket, hparse]
  cases pkt? with
  | some pkt =>
    exact hstart.incoming.dispatchRtp.bind fun p hp => Checked.yields_pure.2 hp
  | none =>
    have hnot : ¬ RtpPacket.ReadsAsRtp data := fun hr => Bool.false_ne_true (hreads.2 hr)
    obtain ⟨cps, hcps⟩ := parseCompound_safe data
    simp only [Checked.ok_bind, hcps]
    rw [Reception.handleRtcps_of_not_actedOn (hdata.resolve_left hnot cps hcps)]
    exact Checked.yields_ok.2 (hstart.call trivial)

/-! ### A turn of a loop -/

namespace Connection.Unheard

variable {c : Connection}

/-- The end of a report interval. -/
theorem reportBlocks (h : c.Unheard) (i : ℕ) (now : U32 → ℤ) (ssrcs : List U32) :
    (c.reportBlocks i now ssrcs).1.Unheard := by
  induction ssrcs generalizing c with
  | nil => exact h
  | cons ssrc ssrcs ih =>
    rw [Connection.reportBlocks]
    cases he : c.ssrcSet ssrc with
    | none => exact ih h
    | some e =>
      obtain ⟨hlsr, htime, hrtt⟩ := h.contexts ssrc e he
      simp only []
      split
      · exact ih (h.setCtx e.ctx.advancePrior ⟨hlsr, htime, hrtt⟩ ssrc e)
      · exact ih h

/-- A turn of `_receiver_rtcp_loop`. -/
theorem receiverTurn (h : c.Unheard) (i : ℕ) (now : U32 → ℤ) (ssrcs : List U32) :
    (c.receiverTurn i now ssrcs).1.Unheard ∧
      ∀ m ∈ (c.receiverTurn i now ssrcs).2, Inert m.bytes := by
  have hblocks := h.reportBlocks i now ssrcs
  unfold Connection.receiverTurn
  split
  · rename_i c' heq
    rw [heq] at hblocks
    exact ⟨hblocks, fun m hm => by cases hm⟩
  · rename_i c' b bs heq
    rw [heq] at hblocks
    refine ⟨hblocks, fun m hm => ?_⟩
    obtain rfl := Option.some.inj hm
    exact RtcpMessage.inert trivial

/-- The messages about lost packets, which are sent only where there are some. -/
theorem nacks (h : c.Unheard) (nowMs : ℤ) (ssrcs : List U32) :
    (c.nacks nowMs ssrcs).1.Unheard ∧ ∀ m ∈ (c.nacks nowMs ssrcs).2, m.Asks := by
  induction ssrcs generalizing c with
  | nil => exact ⟨h, fun m hm => absurd hm List.not_mem_nil⟩
  | cons ssrc ssrcs ih =>
    rw [Connection.nacks]
    cases he : c.ssrcSet ssrc with
    | none => exact ih h
    | some e =>
      obtain ⟨hlsr, htime, hrtt⟩ := h.contexts ssrc e he
      obtain ⟨hrest, hasks⟩ := ih (h.setCtx
        { e.ctx with nackGen := (e.ctx.nackGen.getNacks nowMs).1 }
        ⟨hlsr, htime, (e.ctx.nackGen.getNacks_rttMs nowMs).trans hrtt⟩ ssrc e)
      refine ⟨hrest, ?_⟩
      simp only []
      split
      · exact hasks
      · rename_i hlost
        exact List.forall_mem_cons.2 ⟨hlost, hasks⟩

/-- A turn of `_nack_loop`. -/
theorem nackTurn (h : c.Unheard) (nowMs : ℤ) (ssrcs : List U32) :
    (c.nackTurn nowMs ssrcs).1.Unheard ∧ ∀ data ∈ (c.nackTurn nowMs ssrcs).2, Inert data := by
  obtain ⟨hunheard, hasks⟩ := h.nacks nowMs ssrcs
  refine ⟨hunheard.of_eq rfl rfl rfl, List.forall_mem_append.2 ⟨fun data hdata => ?_, ?_⟩⟩
  · obtain ⟨m, hm, rfl⟩ := List.mem_map.1 hdata
    exact RtcpMessage.inert (hasks m hm)
  · split
    · exact fun data hdata => absurd hdata List.not_mem_nil
    · rename_i hne
      exact List.forall_mem_singleton.2 (TransportCc.inert_report _ hne)

end Connection.Unheard

/-! ### A call of the application -/

namespace Connection.Unheard

variable [NoCaseEq] {c : Connection}

omit [NoCaseEq] in
/-- A new context has heard nothing. -/
theorem createSsrcContext (h : c.Unheard) (i : ℕ) (ssrc : U32) :
    (Connection.createSsrcContext i c ssrc).Unheard := by
  unfold Connection.createSsrcContext
  split
  · exact h
  · refine ⟨h.outbound, h.inbound, fun s d hd => ?_⟩
    change Function.update c.ssrcSet ssrc (some ⟨i, { ssrc := ssrc }⟩) s = some d at hd
    by_cases hs : s = ssrc
    · rw [hs, Function.update_self] at hd
      obtain rfl := Option.some.inj hd
      exact ⟨rfl, rfl, rfl⟩
    · rw [Function.update_of_ne hs] at hd
      exact h.contexts s d hd

/-- The contexts of a section are new. -/
theorem buildSsrcMap (h : c.Unheard) (i : ℕ) (rm : SdpMedia) : (c.buildSsrcMap i rm).Unheard := by
  have hfold (ssrcs : List U32) (c : Connection) (h : c.Unheard) :
      (ssrcs.foldl (Connection.createSsrcContext i) c).Unheard := by
    induction ssrcs generalizing c with
    | nil => exact h
    | cons ssrc ssrcs ih => exact ih _ (h.createSsrcContext i ssrc)
  unfold Connection.buildSsrcMap
  simp only []
  split
  · exact h
  · exact hfold _ _ (h.of_eq rfl rfl rfl)

/-- A section of an offer that meets its transceiver. -/
theorem associate (h : c.Unheard) (i : ℕ) (t : RtpTransceiver) (rm : SdpMedia) :
    (c.associate i t rm).1.Unheard := by
  have hset : Connection.Unheard { c with
      transceivers := c.transceivers.set i
        (({ t with mid := rm.mid } : RtpTransceiver).fromRemoteOffer rm) } := h.of_eq rfl rfl rfl
  unfold Connection.associate
  simp only []
  split
  · exact hset
  · have hmap := hset.buildSsrcMap i rm
    split <;> split
    · exact hmap.of_eq rfl rfl rfl
    · exact h.of_eq rfl rfl rfl
    · exact hmap
    · exact hset

/-- All sections of an offer. -/
theorem applyOffer (rms : List SdpMedia) (h : c.Unheard) (tracks : List OnTrack) :
    (Connection.applyOffer rms c tracks).state.Unheard := by
  induction rms generalizing c tracks with
  | nil => exact h
  | cons rm rms ih =>
    rw [Connection.applyOffer]
    split
    · exact ih h tracks
    · split
      · exact h
      · split
        · exact ih h tracks
        · exact ih (h.associate _ _ rm) _

/-- An answer, transceiver by transceiver. -/
theorem applyAnswer (medias : List SdpMedia) (ts : List (RtpTransceiver × ℕ)) (h : c.Unheard)
    (tracks : List OnTrack) : (Connection.applyAnswer medias ts c tracks).state.Unheard := by
  have hone {c : Connection} (h : c.Unheard) (i : ℕ) (t : RtpTransceiver) :
      (Connection.applyAnswerTo medias c i t).1.Unheard := by
    have hset (t' : RtpTransceiver) :
        Connection.Unheard { c with transceivers := c.transceivers.set i t' } := h.of_eq rfl rfl rfl
    unfold Connection.applyAnswerTo
    split
    · exact hset _
    · simp only []
      split
      · exact hset _
      · split
        · exact (hset _).buildSsrcMap i _
        · exact hset _
  induction ts generalizing c tracks with
  | nil => exact h
  | cons t ts ih =>
    rw [Connection.applyAnswer]
    exact ih (hone h t.2 t.1) _

omit [NoCaseEq] in
/-- A local description changes no context and no statistics. -/
theorem setLocalDescription (h : c.Unheard) (desc : SessionDescription) :
    (c.setLocalDescription desc).state.Unheard := by
  unfold Connection.setLocalDescription
  split
  case h_4 | h_5 =>
    split
    · exact h
    · split
      · exact h
      · exact h.of_eq rfl rfl rfl
  case h_6 =>
    split
    · exact h
    · exact h.of_eq rfl rfl rfl
  all_goals exact h

/-- A remote description adds contexts at most. -/
theorem setRemoteDescription (h : c.Unheard) (desc : SessionDescription) :
    (c.setRemoteDescription desc).state.Unheard := by
  unfold Connection.setRemoteDescription
  split
  case h_4 | h_5 =>
    split
    · exact h
    · split
      · exact h
      · simp only []
        split
        · exact h.applyOffer _ []
        · exact (h.applyOffer _ []).of_eq rfl rfl rfl
  case h_6 =>
    split
    · exact h
    · exact (h.applyAnswer _ _ []).of_eq rfl rfl rfl
  all_goals exact h

/-- An offer moves the counters of mids and sections only. -/
theorem createOffer (h : c.Unheard) {c' : Connection} {offer : SessionDescription}
    (hoffer : c.createOffer = .ok (c', offer)) : c'.Unheard := by
  unfold Connection.createOffer at hoffer
  obtain ⟨⟨es, counter⟩, -, hoffer⟩ := Checked.bind_eq_ok.1 hoffer
  obtain ⟨sections, -, hoffer⟩ := Checked.bind_eq_ok.1 hoffer
  cases hoffer
  exact h.of_eq rfl rfl rfl

/-- A new transceiver has no context. -/
theorem addTransceiver (h : c.Unheard) {desc : MediaDescription} {init : TransceiverInit}
    {draws : ℕ → U32} {c' : Connection} (hadd : c.addTransceiver desc init draws = .ok c') :
    c'.Unheard := by
  obtain ⟨codec, -, -, rfl⟩ := addTransceiver_ok hadd
  exact h.of_eq rfl rfl rfl

/-- A track is sent, not received. -/
theorem addTrack (h : c.Unheard) {id : Text} {desc : MediaDescription} {streams : List Text}
    {draws : ℕ → U32} {c' : Connection} (hadd : c.addTrack id desc streams draws = .ok c') :
    c'.Unheard := by
  unfold Connection.addTrack at hadd
  split at hadd
  · unfold addTransceiverWithTrack at hadd
    cases hnew : c.addTransceiver desc { streams := streams } draws with
    | error e =>
      rw [hnew] at hadd
      cases hadd
    | ok d =>
      rw [hnew] at hadd
      cases hadd
      exact (h.addTransceiver hnew).of_eq rfl rfl rfl
  · cases hadd
    exact h.of_eq rfl rfl rfl

end Connection.Unheard

namespace Session

variable [NoCaseEq] {s : Session}

/-- **A call of the signaling** brings no report. -/
theorem unheard_signal (h : s.conn.Unheard) (e : SignalingCall) : (s.signal e).1.conn.Unheard := by
  cases e with
  | setLocal desc b =>
    show (s.setLocal desc b).1.conn.Unheard
    rw [setLocal_conn]
    exact h.setLocalDescription desc
  | setRemote desc b =>
    show (s.setRemote desc b).1.conn.Unheard
    rw [setRemote_conn]
    exact h.setRemoteDescription desc
  | createOffer =>
    unfold signal
    simp only []
    split
    · rename_i c offer hoffer
      exact h.createOffer hoffer
    · exact h
  | createAnswer => exact h

/-- **A call of the application** brings none either. -/
theorem unheard_call (h : s.conn.Unheard) (e : ApplicationCall) : (s.call e).conn.Unheard := by
  cases e with
  | session e =>
    cases e with
    | signal e => exact unheard_signal h e
    | close => exact ⟨h.outbound, h.inbound, fun _ _ hd => by cases hd⟩
  | addTransceiver desc init draws =>
    unfold call withConn
    simp only []
    split
    · rename_i c hc
      exact h.addTransceiver hc
    · exact h
  | addTrack id desc streams draws =>
    unfold call withConn
    simp only []
    split
    · rename_i c hc
      exact h.addTrack hc
    · exact h
  | createDataChannel hasSctp =>
    unfold call
    simp only []
    split
    · exact h
    · exact h.of_eq rfl rfl rfl
  | _ => exact h.of_eq rfl rfl rfl

end Session

namespace Peer

variable [NoCaseEq] {p : Peer}

omit [NoCaseEq] in
/-- The connect task that starts leaves the connection as it is. -/
theorem startConnect_conn (p : Peer) : p.startConnect.1.conn = p.conn := by
  unfold startConnect
  simp only []
  split <;> rfl

omit [NoCaseEq] in
/-- The connect task, on whatever it has waited for, brings no report. -/
theorem unheard_resume (h : p.conn.Unheard) (e : ConnectEvent) : (p.resume e).1.conn.Unheard := by
  have hfinish (active keys : Bool) : (p.handshaken active keys).1.conn.Unheard := by
    have hsrtp : (if p.conn.needsSrtp && keys then { p with conn.srtpTransport := true }
        else p).conn.Unheard := by
      split
      · exact h.of_eq rfl rfl rfl
      · exact h
    unfold handshaken
    simp only []
    split
    · exact hsrtp
    · exact hsrtp
  unfold resume
  split
  · exact h
  · split <;> exact h
  · split
    · exact hfinish _ _
    · exact h
  · split <;> exact h
  · exact h

/-- **No call of the application or of the connect task** is a report. -/
theorem unheard_step (h : p.conn.Unheard) (e : PeerCall) : (p.step e).1.conn.Unheard := by
  cases e with
  | app e =>
    have hcall : (p.toSession.call (p.told e)).conn.Unheard := Session.unheard_call h _
    unfold step
    simp only []
    split
    · rw [startConnect_conn]
      exact hcall
    · exact hcall
  | candidates lines => exact h.of_eq rfl rfl rfl
  | resume e => exact unheard_resume h e

end Peer

end AsioRtc
