/-
# What a datagram can change

`do_on_rtp_rtcp_packet` hands what the peer sends to most parts of a connection.
Whatever the bytes, it only touches the media: counters, the contexts of streams
that are already there, the transport-cc state, the numbers of retransmissions and
the jitter buffers.  What has been negotiated stays as it is, and so does the
receiver each context belongs to (`Connection.SameSetup`, kept by
`doOnRtpRtcpPacket_sameSetup`).

A jitter buffer changes in one way: the packet of the datagram, if it is RTP and is
routed to that track, is pushed (`Connection.arriving`).  `doOnRtpRtcpPacket_spec`
says both, and later modules know a datagram by it alone.
-/

import AsioRtc.Connection.Receive

namespace AsioRtc

open Lib Text

/-- The same stream, up to the number of its next retransmission. -/
def RtpStream.SameButRtxSeq (s s' : RtpStream) : Prop := s' = { s with rtxSeq := s'.rtxSeq }

/-- The same transceiver, up to the numbers of retransmissions and what is in the jitter
buffer. -/
structure RtpTransceiver.SameButMedia (t t' : RtpTransceiver) : Prop where
  rest : t' = { t with sender.streams := t'.sender.streams, receiver.track := t'.receiver.track }
  streams : List.Forall₂ RtpStream.SameButRtxSeq t.sender.streams t'.sender.streams
  rtpmap : t'.receiver.track.map MediaTrack.rtpmap = t.receiver.track.map MediaTrack.rtpmap

/-- Everything that has been negotiated is the same, and each context is still there and belongs
to the same receiver. -/
structure Connection.SameSetup (c c' : Connection) : Prop where
  rest : c' = { c with
    transceivers := c'.transceivers, ssrcSet := c'.ssrcSet, rxPackets := c'.rxPackets
    rxBytes := c'.rxBytes, remoteOutbound := c'.remoteOutbound
    remoteInbound := c'.remoteInbound, twcc := c'.twcc }
  transceivers : List.Forall₂ RtpTransceiver.SameButMedia c.transceivers c'.transceivers
  owners : ∀ ssrc, (c'.ssrcSet ssrc).map SsrcEntry.receiver = (c.ssrcSet ssrc).map SsrcEntry.receiver

/-- The tracks are the same too. -/
structure Connection.SameTracks (c c' : Connection) : Prop extends c.SameSetup c' where
  tracks : c'.transceivers.map (fun t => t.receiver.track) =
    c.transceivers.map fun t => t.receiver.track

/-- A stream is the same as itself. -/
theorem RtpStream.SameButRtxSeq.refl (s : RtpStream) : s.SameButRtxSeq s := rfl

/-- Two changes of that number are one. -/
theorem RtpStream.SameButRtxSeq.trans {s s' s'' : RtpStream} (h : s.SameButRtxSeq s')
    (h' : s'.SameButRtxSeq s'') : s.SameButRtxSeq s'' := by
  rw [RtpStream.SameButRtxSeq, h', h]

/-- A transitive relation is transitive on lists, place by place. -/
theorem forall₂_trans {α : Type*} {R : α → α → Prop} (hR : ∀ a b c, R a b → R b c → R a c)
    {l₁ l₂ l₃ : List α} (h : List.Forall₂ R l₁ l₂) (h' : List.Forall₂ R l₂ l₃) :
    List.Forall₂ R l₁ l₃ := by
  induction h generalizing l₃ with
  | nil => exact h'
  | cons hab _ ih =>
    cases h' with
    | cons hbc h' => exact .cons (hR _ _ _ hab hbc) (ih h')

namespace RtpTransceiver.SameButMedia

/-- Nothing has happened to the media. -/
theorem refl (t : RtpTransceiver) : t.SameButMedia t :=
  ⟨rfl, List.forall₂_same.2 fun s _ => .refl s, rfl⟩

/-- One change of the media after another. -/
theorem trans {t t' t'' : RtpTransceiver} (h : t.SameButMedia t') (h' : t'.SameButMedia t'') :
    t.SameButMedia t'' :=
  ⟨by rw [h'.rest, h.rest], forall₂_trans (fun _ _ _ hs hs' => hs.trans hs') h.streams h'.streams,
    h'.rtpmap.trans h.rtpmap⟩

variable {t t' : RtpTransceiver}

/-- The mid is negotiated. -/
theorem mid (h : t.SameButMedia t') : t'.mid = t.mid := by rw [h.rest]

/-- The callback is the application's. -/
theorem onRtp (h : t.SameButMedia t') : t'.receiver.onRtp = t.receiver.onRtp := by rw [h.rest]

end RtpTransceiver.SameButMedia

namespace Connection.SameSetup

variable {c c' c'' : Connection}

/-- A connection is set up as it is. -/
theorem refl (c : Connection) : c.SameSetup c :=
  ⟨rfl, List.forall₂_same.2 fun t _ => .refl t, fun _ => rfl⟩

/-- What two steps leave alone, both together do. -/
theorem trans (h : c.SameSetup c') (h' : c'.SameSetup c'') : c.SameSetup c'' :=
  ⟨by rw [h'.rest, h.rest],
    forall₂_trans (fun _ _ _ ht ht' => ht.trans ht') h.transceivers h'.transceivers,
    fun ssrc => (h'.owners ssrc).trans (h.owners ssrc)⟩

/-- The payload types of retransmissions are negotiated. -/
theorem rtxPtToPt (h : c.SameSetup c') : c'.rtxPtToPt = c.rtxPtToPt := by rw [h.rest]

/-- The streams that repair others are negotiated. -/
theorem rtxSsrcToSsrc (h : c.SameSetup c') : c'.rtxSsrcToSsrc = c.rtxSsrcToSsrc := by rw [h.rest]

/-- The id of the mid extension is negotiated. -/
theorem midExtId (h : c.SameSetup c') : c'.midExtId = c.midExtId := by rw [h.rest]

/-- A transceiver that is there is still there. -/
theorem getElem? (h : c.SameSetup c') {i : ℕ} {t : RtpTransceiver}
    (ht : c.transceivers[i]? = some t) : ∃ t', c'.transceivers[i]? = some t' ∧ t.SameButMedia t' := by
  have hlen := h.transceivers.length_eq
  obtain ⟨hi, rfl⟩ := List.getElem?_eq_some_iff.1 ht
  exact ⟨_, List.getElem?_eq_getElem (by omega), h.transceivers.get hi (by omega)⟩

end Connection.SameSetup

namespace Connection.SameTracks

variable {c c' c'' : Connection}

/-- The tracks are what they are. -/
theorem refl (c : Connection) : c.SameTracks c := ⟨.refl c, rfl⟩

/-- What two steps leave alone, both together do. -/
theorem trans (h : c.SameTracks c') (h' : c'.SameTracks c'') : c.SameTracks c'' :=
  ⟨h.toSameSetup.trans h'.toSameSetup, h'.tracks.trans h.tracks⟩

/-- Only the counters, the statistics and the transport-cc state are different. -/
theorem of_eq (h : c' = { c with
    rxPackets := c'.rxPackets, rxBytes := c'.rxBytes, remoteOutbound := c'.remoteOutbound
    remoteInbound := c'.remoteInbound, twcc := c'.twcc }) : c.SameTracks c' := by
  refine ⟨⟨?_, ?_, fun ssrc => ?_⟩, ?_⟩ <;> rw [h]
  exact List.forall₂_same.2 fun t _ => .refl t

end Connection.SameTracks

/-! ### The handlers -/

section Handlers

variable {clock : Clock}

/-- A context that is there is changed. -/
theorem Connection.setCtx_sameTracks {c : Connection} {ssrc : U32} {e : SsrcEntry}
    (h : c.ssrcSet ssrc = some e) (ctx : SsrcContext) : c.SameTracks (c.setCtx ssrc e ctx) := by
  refine ⟨⟨rfl, List.forall₂_same.2 fun t _ => .refl t, fun ssrc' => ?_⟩, rfl⟩
  show (Function.update c.ssrcSet ssrc (some { e with ctx := ctx }) ssrc').map _ = _
  by_cases hs : ssrc' = ssrc
  · rw [hs, Function.update_self, h]
    rfl
  · rw [Function.update_of_ne hs]

namespace Reception

/-- `track_stream` changes the context of the packet's stream, if there is one. -/
theorem trackStream_sameTracks (clock : Clock) (pkt : RtpPacket) (r : Reception) :
    r.conn.SameTracks (r.trackStream clock pkt).conn := by
  unfold trackStream
  split
  · exact .refl _
  · rename_i e he
    simp only []
    split
    · split <;> exact Connection.setCtx_sameTracks he _
    · exact Connection.setCtx_sameTracks he _

/-- A sender report changes the context of its stream and the statistics of the other end. -/
theorem senderReport_sameTracks (clock : Clock) (cp : RtcpPacket) (r : Reception) :
    r.conn.SameTracks (r.senderReport clock cp).conn := by
  unfold senderReport
  simp only []
  split
  · exact .of_eq rfl
  · rename_i e he
    exact (Connection.setCtx_sameTracks he _).trans (.of_eq rfl)

/-- A round-trip time belongs to a context that is there. -/
theorem ssrcSet_of_roundTrip {c : Connection} {b : ReportBlock} {now : ℤ} {e : SsrcEntry} {rtt : ℤ}
    (h : roundTrip c b now = some (e, rtt)) : c.ssrcSet b.ssrc = some e := by
  unfold roundTrip at h
  split at h
  · cases h
  · rename_i e' he'
    simp only [] at h
    split at h
    · split at h
      · obtain ⟨rfl, -⟩ := Prod.mk.inj (Option.some.inj h)
        exact he'
      · cases h
    · cases h

/-- A report block changes the context it has a round-trip time for, and the statistics. -/
theorem receiverBlock_sameTracks (clock : Clock) (r : Reception) (b : ReportBlock) :
    r.conn.SameTracks (r.receiverBlock clock b).conn := by
  unfold receiverBlock
  simp only []
  split
  · split
    · exact .of_eq rfl
    · rename_i e rtt he
      exact (Connection.setCtx_sameTracks (ssrcSet_of_roundTrip he) _).trans (.of_eq rfl)
  · exact .of_eq rfl

end Reception

/-- A lost number only counts retransmissions. -/
theorem resend_same (mediaSsrc : U32) (seq : U16) (ss : List RtpStream) :
    List.Forall₂ RtpStream.SameButRtxSeq ss (resend mediaSsrc seq ss).1 := by
  induction ss with
  | nil => exact .nil
  | cons s ss ih =>
    rw [resend]
    simp only []
    split
    · exact .cons (.refl s) ih
    · split
      · exact .cons (.refl s) ih
      · split
        · exact .cons rfl (List.forall₂_same.2 fun s _ => .refl s)
        · exact .cons (.refl s) ih

/-- A lost number at a transceiver is one at the streams of its sender. -/
theorem RtpTransceiver.resend_same (mediaSsrc : U32) (seq : U16) (t : RtpTransceiver) :
    t.SameButMedia (t.resend mediaSsrc seq).1 :=
  ⟨rfl, AsioRtc.resend_same mediaSsrc seq t.sender.streams, rfl⟩

namespace Reception

/-- A lost number of a NACK leaves everything but the numbers of retransmissions. -/
theorem resend_sameTracks (mediaSsrc : U32) (r : Reception) (seq : U16) :
    r.conn.SameTracks (r.resend mediaSsrc seq).conn := by
  refine ⟨⟨rfl, ?_, fun _ => rfl⟩, ?_⟩
  · show List.Forall₂ _ r.conn.transceivers
      ((r.conn.transceivers.map (RtpTransceiver.resend mediaSsrc seq)).map Prod.fst)
    rw [List.map_map, List.forall₂_map_right_iff]
    exact List.forall₂_same.2 fun t _ => t.resend_same mediaSsrc seq
  · show ((r.conn.transceivers.map (RtpTransceiver.resend mediaSsrc seq)).map Prod.fst).map _ = _
    rw [List.map_map, List.map_map]
    rfl

/-- What every element leaves alone, the whole list does. -/
theorem foldl_sameTracks {α : Type} {f : Reception → α → Reception}
    (hf : ∀ (r : Reception) a, r.conn.SameTracks (f r a).conn) (l : List α) (r : Reception) :
    r.conn.SameTracks (l.foldl f r).conn := by
  induction l generalizing r with
  | nil => exact .refl _
  | cons a l ih => exact (hf r a).trans (ih _)

/-- **One RTCP packet**, of whatever type, leaves the tracks alone. -/
theorem handleRtcp_sameTracks (clock : Clock) (r : Reception) (cp : RtcpPacket) :
    (r.handleRtcp clock cp).Yields fun r' => r.conn.SameTracks r'.conn := by
  unfold handleRtcp
  split
  · exact Checked.yields_pure.2 (senderReport_sameTracks clock cp r)
  · split
    · exact Checked.yields_pure.2 (foldl_sameTracks (receiverBlock_sameTracks clock) _ r)
    · split
      · obtain ⟨lost, hlost⟩ := parseNack_safe cp.payload
        rw [hlost]
        exact Checked.yields_pure.2 (foldl_sameTracks (resend_sameTracks cp.mediaSsrc) lost r)
      · exact Checked.yields_pure.2 (.refl _)

/-- **All RTCP packets of a datagram** leave the tracks alone. -/
theorem handleRtcps_sameTracks (clock : Clock) (r : Reception) (cps : List RtcpPacket) :
    (cps.foldlM (handleRtcp clock) r).Yields fun r' => r.conn.SameTracks r'.conn := by
  induction cps generalizing r with
  | nil => exact Checked.yields_pure.2 (.refl _)
  | cons cp cps ih =>
    rw [List.foldlM_cons]
    exact (handleRtcp_sameTracks clock r cp).bind fun r' hr' =>
      (ih r').mono fun _ h => hr'.trans h

end Reception
end Handlers

/-! ### What arrives at a track -/

section Arriving

variable [NoCaseEq]

/-- The jitter buffer of the track of transceiver `i`. -/
def Connection.jitter? (c : Connection) (i : ℕ) : Option JitterBuffer :=
  (c.transceivers[i]?.bind fun t => t.receiver.track).map MediaTrack.jitter

/-- What a transceiver puts into the buffer of its track for a packet: nothing, or the packet as
the callback leaves it, without the framing of its codec. -/
def RtpTransceiver.takes (t : RtpTransceiver) (pkt : RtpPacket) : Checked (Option RtpPacket) :=
  let (pkt, keep) := t.receiver.onRtp.elim (pkt, true) fun cb => cb pkt
  match t.receiver.track with
  | none => pure none
  | some track =>
      if !keep then pure none
      else do
        let payload ← depayload track.rtpmap.name pkt.payload
        pure (if payload = [] then none else some { pkt with payload := payload })

/-- The same at the transceiver with index `i`, if there is one. -/
def Connection.takes (c : Connection) (i : ℕ) (pkt : RtpPacket) :
    Checked (Option (ℕ × RtpPacket)) :=
  match c.transceivers[i]? with
  | none => pure none
  | some t => do
      let q ← t.takes pkt
      pure (q.map fun q => (i, q))

/-- The packet that a datagram puts into a jitter buffer, and the transceiver it belongs to. -/
def Connection.arriving (c : Connection) (data : Bytes) : Checked (Option (ℕ × RtpPacket)) := do
  match ← RtpPacket.parse data with
  | none => pure none
  | some pkt => do
      let pkt ← c.rewriteRtxPacket pkt
      match c.receiverOf pkt with
      | none => pure none
      | some i => c.takes i pkt

/-- A buffer after a packet has arrived, where it is the buffer of the transceiver that the
packet is for. -/
def pushedTo (i : ℕ) : Option (ℕ × RtpPacket) → Option JitterBuffer → Option JitterBuffer
  | none, b => b
  | some (j, q), b => if j = i then b.map fun b => b.push q else b

variable {c c' : Connection}

omit [NoCaseEq] in
/-- The jitter buffer of a transceiver is that of its track. -/
theorem Connection.jitter?_eq (c : Connection) (i : ℕ) : c.jitter? i =
    ((c.transceivers.map fun t => t.receiver.track)[i]?.bind id).map MediaTrack.jitter := by
  rw [Connection.jitter?, List.getElem?_map]
  cases c.transceivers[i]? <;> rfl

omit [NoCaseEq] in
/-- Where the tracks are the same, so are their buffers. -/
theorem Connection.SameTracks.jitter? (h : c.SameTracks c') (i : ℕ) :
    c'.jitter? i = c.jitter? i := by
  rw [Connection.jitter?_eq, Connection.jitter?_eq, h.tracks]

/-- What a transceiver takes of a packet depends on its callback and its codec only. -/
theorem RtpTransceiver.takes_congr {t t' : RtpTransceiver} (h : t.SameButMedia t')
    (pkt : RtpPacket) : t'.takes pkt = t.takes pkt := by
  have hmap := h.rtpmap
  simp only [takes, h.onRtp]
  cases ht : t.receiver.track with
  | none =>
    rw [ht, Option.map_none, Option.map_eq_none_iff] at hmap
    rw [hmap]
  | some track =>
    rw [ht, Option.map_some, Option.map_eq_some_iff] at hmap
    obtain ⟨track', ht', hrtpmap⟩ := hmap
    rw [ht']
    simp only [hrtpmap]

/-- The same at the transceiver with index `i`. -/
theorem Connection.takes_congr (h : c.SameSetup c') (i : ℕ) (pkt : RtpPacket) :
    c'.takes i pkt = c.takes i pkt := by
  rw [takes, takes]
  cases ht : c.transceivers[i]? with
  | none =>
    have hlen := h.transceivers.length_eq
    rw [List.getElem?_eq_none (by rw [← hlen]; exact List.getElem?_eq_none_iff.1 ht)]
  | some t =>
    obtain ⟨t', ht', hsame⟩ := h.getElem? ht
    rw [ht']
    simp only [RtpTransceiver.takes_congr hsame]

omit [NoCaseEq] in
/-- The transceivers keep their mids. -/
theorem Connection.SameSetup.mids (h : c.SameSetup c') :
    c'.transceivers.map RtpTransceiver.mid = c.transceivers.map RtpTransceiver.mid := by
  have hrel := h.transceivers
  revert hrel
  generalize c.transceivers = ts
  generalize c'.transceivers = ts'
  intro hrel
  induction hrel with
  | nil => rfl
  | cons ht _ ih => rw [List.map_cons, List.map_cons, ht.mid, ih]

omit [NoCaseEq] in
/-- The receiver of a packet is settled by the mids, the extension id and the contexts. -/
theorem Connection.receiverOf_congr (h : c.SameSetup c') (pkt : RtpPacket) :
    c'.receiverOf pkt = c.receiverOf pkt := by
  have hfind (ts : List RtpTransceiver) (mid : Text) : (ts.findIdx? fun t => t.mid = mid) =
      (ts.map RtpTransceiver.mid).findIdx? (· = mid) := by
    rw [List.findIdx?_map]
    rfl
  simp only [receiverOf, receiverByMid, packetMid, h.midExtId, h.owners, hfind, h.mids]

/-- Which packet a datagram puts where is settled by what has been negotiated. -/
theorem Connection.arriving_congr (h : c.SameSetup c') (data : Bytes) :
    c'.arriving data = c.arriving data := by
  have hrewrite (pkt : RtpPacket) : c'.rewriteRtxPacket pkt = c.rewriteRtxPacket pkt := by
    simp only [rewriteRtxPacket, h.rtxPtToPt, h.rtxSsrcToSsrc]
  simp only [arriving, hrewrite, receiverOf_congr h, takes_congr h]

/-- **`deliver`.**  The packet goes into the buffer of its transceiver, or nothing happens. -/
theorem Reception.deliver_spec (i : ℕ) (pkt : RtpPacket) (r : Reception) :
    ∃ q, r.conn.takes i pkt = .ok q ∧ (r.deliver i pkt).Yields fun p =>
      r.conn.SameSetup p.1.conn ∧ ∀ k, p.1.conn.jitter? k = pushedTo k q (r.conn.jitter? k) := by
  unfold deliver Connection.takes
  cases ht : r.conn.transceivers[i]? with
  | none => exact ⟨none, rfl, Checked.yields_pure.2 ⟨.refl _, fun _ => rfl⟩⟩
  | some t =>
    simp only [RtpTransceiver.takes]
    cases t.receiver.onRtp.elim (pkt, true) fun cb => cb pkt with
    | mk pkt keep =>
    cases keep with
    | false =>
      cases t.receiver.track <;>
        exact ⟨none, rfl, Checked.yields_pure.2 ⟨.refl _, fun _ => rfl⟩⟩
    | true =>
      cases htrack : t.receiver.track with
      | none => exact ⟨none, rfl, Checked.yields_pure.2 ⟨.refl _, fun _ => rfl⟩⟩
      | some track =>
        obtain ⟨payload, hpayload⟩ := depayload_safe track.rtpmap.name pkt.payload
        simp only [hpayload, Checked.ok_bind, Bool.not_true, Bool.false_eq_true, if_false]
        by_cases hnil : payload = []
        · rw [if_pos hnil, if_pos hnil]
          exact ⟨none, rfl, Checked.yields_pure.2 ⟨.refl _, fun _ => rfl⟩⟩
        rw [if_neg hnil, if_neg hnil]
        refine ⟨some (i, { pkt with payload := payload }), rfl, Checked.yields_pure.2 ⟨⟨rfl, ?_,
          fun _ => rfl⟩, fun k => ?_⟩⟩
        · refine List.forall₂_iff_get.2 ⟨by simp, fun j hj hj' => ?_⟩
          obtain ⟨hi, rfl⟩ := List.getElem?_eq_some_iff.1 ht
          simp only [List.get_eq_getElem, List.getElem_set]
          split
          · rename_i hij
            subst hij
            exact ⟨rfl, List.forall₂_same.2 fun s _ => .refl s, by rw [htrack]; rfl⟩
          · exact .refl _
        · have hi := (List.getElem?_eq_some_iff.1 ht).1
          simp only [Connection.jitter?, pushedTo, List.getElem?_set]
          split
          · rename_i hik
            subst hik
            rw [ht]
            simp only [Option.bind_some, htrack, Option.map_some, MediaTrack.pushFrame]
          · rfl

/-- **A datagram.**  Whatever its bytes, what has been negotiated stays as it is; its packet is
pushed into the buffer it is for, and the other buffers are left alone. -/
theorem Connection.doOnRtpRtcpPacket_spec (clock : Clock) (c : Connection) (data : Bytes) :
    ∃ q, c.arriving data = .ok q ∧ (c.doOnRtpRtcpPacket clock data).Yields fun r =>
      c.SameSetup r.conn ∧ ∀ k, r.conn.jitter? k = pushedTo k q (c.jitter? k) := by
  obtain ⟨pkt?, hparse⟩ := RtpPacket.parse_safe data
  rw [arriving, doOnRtpRtcpPacket, hparse]
  cases pkt? with
  | none =>
    obtain ⟨cps, hcps⟩ := parseCompound_safe data
    simp only [Checked.ok_bind, hcps]
    refine ⟨none, rfl, (Reception.handleRtcps_sameTracks clock _ cps).mono fun r hr => ?_⟩
    have hsame := (SameTracks.of_eq rfl).trans hr
    exact ⟨hsame.toSameSetup, hsame.jitter?⟩
  | some pkt =>
    simp only [Checked.ok_bind, Reception.dispatchRtp]
    obtain ⟨pkt', hpkt'⟩ := c.rewriteRtxPacket_safe pkt
    rw [hpkt']
    -- Before `dispatch_rtp` only counters and the transport-cc state change.
    generalize hr : Reception.call _ _ = r
    have hconn : r.conn = { c with
        rxPackets := r.conn.rxPackets, rxBytes := r.conn.rxBytes, twcc := r.conn.twcc } := by
      rw [← hr]
      rfl
    have hsame : c.SameTracks r.conn := .of_eq (by rw [hconn])
    have hrewrite : r.conn.rewriteRtxPacket pkt = .ok pkt' := by
      rw [← hpkt', hconn]
      rfl
    rw [hrewrite]
    simp only [Checked.ok_bind, receiverOf_congr hsame.toSameSetup]
    cases c.receiverOf pkt' with
    | none => exact ⟨none, rfl, Checked.yields_pure.2 ⟨hsame.toSameSetup, hsame.jitter?⟩⟩
    | some i =>
      have htrack := hsame.trans (Reception.trackStream_sameTracks clock pkt' r)
      obtain ⟨q, hq, hdeliver⟩ := (r.trackStream clock pkt').deliver_spec i pkt'
      rw [takes_congr htrack.toSameSetup] at hq
      refine ⟨q, hq, hdeliver.bind fun p hp => Checked.yields_pure.2 ?_⟩
      refine ⟨htrack.toSameSetup.trans hp.1, fun k => ?_⟩
      rw [hp.2, htrack.jitter?]

end Arriving

end AsioRtc
