/-
# What a sender has sent

The send loop, the packets of the user and the answers to NACKs, over any run of one sender
(`senderMachine`).  One structure says what a call makes of the streams and what it puts out
(`RtpSending.Goes`); each call of the source meets it, and `senderMachine_reaches` carries it
over a run.

So every datagram that has gone out carries a packet that was made: it is that packet, as the
peer reads it, or a retransmission of it (`RtpSending.Carries`).  The packets of a stream are
numbered without a gap, across the frames and across the user's own packets.
-/

import AsioRtc.Connection.Frame
import AsioRtc.Connection.SendLoop
import AsioRtc.Lib.Network

namespace AsioRtc

open Lib Text

/-- The stream `s'` is `s` after the packets `ps`: they have the next numbers, and what has come
into the history is among them. -/
structure LoopStream.Follows (s s' : LoopStream) (ps : List SentPacket) : Prop where
  ssrc : s'.ssrc = s.ssrc
  rtxSsrc : s'.rtxSsrc = s.rtxSsrc
  rtxPt : s'.rtxPt = s.rtxPt
  rid : s'.rid = s.rid
  seq : s'.seq = s.seq + BitVec.ofNat 16 ps.length
  numbers : ∀ j p, ps[j]? = some p → p.seq = s.seq + BitVec.ofNat 16 (j + 1)
  history : ∀ i e, s'.history i = some e → s.history i = some e ∨ ∃ p ∈ ps, p.entry = e

namespace LoopStream.Follows

variable {s s' s'' : LoopStream} {ps ps' : List SentPacket}

/-- A stream follows itself without a packet. -/
theorem refl (s : LoopStream) : s.Follows s [] :=
  ⟨rfl, rfl, rfl, rfl, by simp, fun j p h => (by cases h), fun _ _ h => .inl h⟩

/-- First some packets, then others. -/
theorem trans (h : s.Follows s' ps) (h' : s'.Follows s'' ps') : s.Follows s'' (ps ++ ps') := by
  refine ⟨h'.ssrc.trans h.ssrc, h'.rtxSsrc.trans h.rtxSsrc, h'.rtxPt.trans h.rtxPt,
    h'.rid.trans h.rid, ?_, fun j p hp => ?_, fun i e he => ?_⟩
  · rw [h'.seq, h.seq, List.length_append, BitVec.ofNat_add, BitVec.add_assoc]
  · rcases Nat.lt_or_ge j ps.length with hj | hj
    · rw [List.getElem?_append_left hj] at hp
      exact h.numbers j p hp
    · rw [List.getElem?_append_right hj] at hp
      rw [h'.numbers _ p hp, h.seq, BitVec.add_assoc, ← BitVec.ofNat_add]
      congr 2
      omega
  · rcases h'.history i e he with hold | ⟨p, hp, rfl⟩
    · rcases h.history i e hold with hold | ⟨p, hp, rfl⟩
      · exact .inl hold
      · exact .inr ⟨p, List.mem_append_left _ hp, rfl⟩
    · exact .inr ⟨p, List.mem_append_right _ hp, rfl⟩

end LoopStream.Follows

/-- The peer reads the packet `p` of the stream with SSRC `ssrc`. -/
def ReadsAs (ssrc : U32) (p : SentPacket) (data : Bytes) : Prop :=
  ∃ pkt, RtpPacket.parse data = .ok (some pkt) ∧ pkt.Restores pkt.payloadType ssrc p

/-- `make_rtp` makes the datagram of the packet `p` of the stream `s`. -/
def LoopStream.MadeAs [NoCaseEq] (t : Option RtpTransceiver) (s : LoopStream) (p : SentPacket)
    (data : Bytes) : Prop :=
  ∃ w streams stream made, streams ≠ [] ∧ stream.ssrc = s.ssrc ∧ stream.rid = s.rid ∧
    makeRtp w t streams stream ⟨p.payload, p.timestamp, p.seq, p.marker⟩ = .ok made ∧
      made.buf = data

/-- The datagram is the packet `p` of the stream `s`, from the send loop or from the user. -/
def LoopStream.Sends [NoCaseEq] (t : Option RtpTransceiver) (s : LoopStream) (p : SentPacket)
    (data : Bytes) : Prop :=
  s.MadeAs t p data ∨ p.byLoop = false ∧ ReadsAs s.ssrc p data

/-- The datagram is a retransmission of the packet `p` of the stream `s`. -/
def LoopStream.Repeats (s : LoopStream) (p : SentPacket) (data : Bytes) : Prop :=
  ∃ n, data = { s.toRtpStream with rtxSeq := n }.rtx p.entry p.seq

/-- What a call makes of the streams, and of which packets its datagrams are. -/
structure RtpSending.Goes [NoCaseEq] (x x' : RtpSending) (out : List SentRtp) : Prop where
  transceiver : x'.transceiver = x.transceiver
  length : x'.streams.length = x.streams.length
  streams : ∀ k (s : LoopStream), x.streams[k]? = some s →
    ∃ s', x'.streams[k]? = some s' ∧ s.Follows s' (mediaOf k out)
  media : ∀ d ∈ out, ∃ k p, ∃ s : LoopStream, d.media = some (k, p) ∧
    x.streams[k]? = some s ∧ ∀ data, d.data = some data → s.Sends x.transceiver p data

/-- The datagram carries a packet that has been made by the end of the history `h`. -/
def RtpSending.Carries [NoCaseEq] (x₀ : RtpSending) (h : List (RtpSending × SenderCall))
    (data : Bytes) : Prop :=
  ∃ k p, ∃ s : LoopStream, x₀.streams[k]? = some s ∧ p ∈ madeBy k h ∧
    (s.Sends x₀.transceiver p data ∨ s.Repeats p data)

/-! ### One call -/

/-- The packets of a stream among two parts of what goes out. -/
theorem mediaOf_append (k : ℕ) (out out' : List SentRtp) :
    mediaOf k (out ++ out') = mediaOf k out ++ mediaOf k out' := List.filterMap_append

/-- What goes out for one packet. -/
theorem mediaOf_singleton (k : ℕ) (data : Option Bytes) (j : ℕ) (p : SentPacket) :
    mediaOf k [⟨data, some (j, p)⟩] = if j = k then [p] else [] := by
  rw [mediaOf, List.filterMap_cons, List.filterMap_nil]
  simp only [Option.filter_some, decide_eq_true_eq]
  by_cases hj : j = k
  · rw [if_pos hj, if_pos hj]
    rfl
  · rw [if_neg hj, if_neg hj]
    rfl

section Step

variable [NoCaseEq]

/-- What is made of a packet depends on the SSRC and the rid of the stream. -/
theorem LoopStream.MadeAs.congr {t : Option RtpTransceiver} {s s' : LoopStream} {p : SentPacket}
    {data : Bytes} (hssrc : s'.ssrc = s.ssrc) (hrid : s'.rid = s.rid) (h : s'.MadeAs t p data) :
    s.MadeAs t p data := by
  obtain ⟨w, streams, stream, made, hne, hs, hr, hmade⟩ := h
  exact ⟨w, streams, stream, made, hne, hs.trans hssrc, hr.trans hrid, hmade⟩

/-- So does what is sent. -/
theorem LoopStream.Sends.congr {t : Option RtpTransceiver} {s s' : LoopStream} {p : SentPacket}
    {data : Bytes} (hssrc : s'.ssrc = s.ssrc) (hrid : s'.rid = s.rid) (h : s'.Sends t p data) :
    s.Sends t p data := by
  rcases h with hmade | ⟨hloop, hreads⟩
  · exact .inl (hmade.congr hssrc hrid)
  · exact .inr ⟨hloop, hssrc ▸ hreads⟩

/-- The datagrams of a stream whose rid is not absurdly long read as its packets. -/
theorem LoopStream.Sends.readsAs {t : Option RtpTransceiver} {s : LoopStream} {p : SentPacket}
    {data : Bytes} (hrid : s.rid.length < 2 ^ 16) (h : s.Sends t p data) :
    ReadsAs s.ssrc p data := by
  rcases h with ⟨w, streams, stream, made, hne, hs, hr, hmade, rfl⟩ | ⟨-, hreads⟩
  · obtain ⟨made', pkt, hmade', hparse, hssrc, hseq, hts, hmarker, hpayload⟩ :=
      makeRtp_parses w t ⟨p.payload, p.timestamp, p.seq, p.marker⟩ hne (hr ▸ hrid)
    obtain rfl := Except.ok.inj (hmade.symm.trans hmade')
    exact ⟨pkt, hparse, rfl, hssrc.trans hs, hseq, hts, hmarker, hpayload⟩
  · exact hreads

/-- A sender with a stream makes a packet. -/
theorem makeRtp_yields (w : U16) (t : Option RtpTransceiver) {streams : List SendStream}
    (stream : SendStream) (out : Outgoing) (h : streams ≠ []) :
    ∃ made, makeRtp w t streams stream out = .ok made := by
  cases t with
  | none => exact ⟨_, rfl⟩
  | some t =>
    obtain ⟨abs, habs, -⟩ := absElement_yields (t := t) h
    exact ⟨_, by simp only [makeRtp, habs, Checked.ok_bind]; rfl⟩

namespace RtpSending.Goes

variable {x x' x'' : RtpSending} {out out' : List SentRtp}

/-- Where nothing goes out. -/
theorem of_streams (ht : x'.transceiver = x.transceiver) (hs : x'.streams = x.streams) :
    x.Goes x' [] :=
  ⟨ht, by rw [hs], fun _ s h => ⟨s, hs ▸ h, .refl s⟩, fun _ hd => absurd hd List.not_mem_nil⟩

/-- Nothing goes out. -/
theorem refl (x : RtpSending) : x.Goes x [] := of_streams rfl rfl

/-- First some of it goes out, then the rest. -/
theorem trans (h : x.Goes x' out) (h' : x'.Goes x'' out') : x.Goes x'' (out ++ out') := by
  refine ⟨h'.transceiver.trans h.transceiver, h'.length.trans h.length, fun k s hs => ?_,
    fun d hd => ?_⟩
  · obtain ⟨s', hs', hfollows⟩ := h.streams k s hs
    obtain ⟨s'', hs'', hfollows'⟩ := h'.streams k s' hs'
    exact ⟨s'', hs'', mediaOf_append k out out' ▸ hfollows.trans hfollows'⟩
  · rcases List.mem_append.1 hd with hd | hd
    · exact h.media d hd
    · obtain ⟨k, p, s', hmedia, hs', hsends⟩ := h'.media d hd
      have hk : k < x.streams.length := h.length ▸ (List.getElem?_eq_some_iff.1 hs').1
      obtain ⟨s'', hs'', hfollows⟩ := h.streams k _ (List.getElem?_eq_getElem hk)
      obtain rfl := Option.some.inj (hs'.symm.trans hs'')
      refine ⟨k, p, _, hmedia, List.getElem?_eq_getElem hk, fun data hdata => ?_⟩
      exact (h.transceiver ▸ hsends data hdata).congr hfollows.ssrc hfollows.rid

/-- One packet `p` for the stream with index `k`. -/
theorem single {k : ℕ} {s s' : LoopStream} {p : SentPacket} {data : Option Bytes}
    (hs : x.streams[k]? = some s) (htransceiver : x'.transceiver = x.transceiver)
    (hstreams : x'.streams = x.streams.set k s') (hfollows : s.Follows s' [p])
    (hdata : ∀ d, data = some d → s.Sends x.transceiver p d) :
    x.Goes x' [⟨data, some (k, p)⟩] := by
  refine ⟨htransceiver, by rw [hstreams, List.length_set], fun j r hr => ?_, fun d hd => ?_⟩
  · rw [mediaOf_singleton, hstreams, List.getElem?_set]
    by_cases hkj : k = j
    · subst hkj
      obtain rfl := Option.some.inj (hs.symm.trans hr)
      rw [if_pos rfl, if_pos rfl, if_pos (List.getElem?_eq_some_iff.1 hs).1]
      exact ⟨s', rfl, hfollows⟩
    · rw [if_neg hkj, if_neg hkj]
      exact ⟨r, hr, .refl r⟩
  · obtain rfl := List.mem_singleton.1 hd
    exact ⟨k, p, s, rfl, hs, hdata⟩

end RtpSending.Goes

omit [NoCaseEq] in
/-- A packet of the send loop, at its stream; the counters behind it do not matter here. -/
theorem LoopStream.follows_sendLoop (s : LoopStream) (payload : Bytes) (timestamp : U32)
    (marker : Bool) : s.Follows { s with toSendingStream := s.sendLoop payload timestamp }
      [⟨s.seq + 1, payload, timestamp, marker, true⟩] := by
  refine ⟨rfl, rfl, rfl, rfl, rfl, fun j p hp => ?_, fun i e he => ?_⟩
  · cases j with
    | zero => exact Option.some.inj hp ▸ rfl
    | succ j => cases hp
  · simp only [SendingStream.sendLoop] at he
    by_cases hi : i = slotOf (s.seq + 1)
    · rw [hi, Function.update_self] at he
      exact .inr ⟨_, List.mem_singleton_self _, Option.some.inj he⟩
    · rw [Function.update_of_ne hi] at he
      exact .inl he

namespace RtpSending

/-- **A payload in the send loop.**  One packet for the stream, the next one of it. -/
theorem sendPayload_spec {x : RtpSending} {k : ℕ} {s : LoopStream} (hs : x.streams[k]? = some s)
    (payload : Bytes) (timestamp : U32) (marker : Bool) (o : Handover) :
    ∃ data, (x.sendPayload k payload timestamp marker o).2 =
        [⟨data, some (k, ⟨s.seq + 1, payload, timestamp, marker, true⟩)⟩] ∧
      data.isSome = o.size.isSome ∧
      (∀ d, data = some d →
        s.MadeAs x.transceiver ⟨s.seq + 1, payload, timestamp, marker, true⟩ d) ∧
      x.Goes (x.sendPayload k payload timestamp marker o).1
        (x.sendPayload k payload timestamp marker o).2 ∧
      (x.sendPayload k payload timestamp marker o).1.packetizer = x.packetizer ∧
      (x.sendPayload k payload timestamp marker o).1.running = (x.running && o.size.isSome) := by
  have hne : (x.streams.map fun s => s.toSendStream) ≠ [] := by
    intro hnil
    rw [List.map_eq_nil_iff] at hnil
    rw [hnil] at hs
    cases hs
  obtain ⟨made, hmade⟩ := makeRtp_yields x.transportWideSeq x.transceiver s.toSendStream
    ⟨payload, timestamp, s.seq + 1, marker⟩ hne
  have hfollows := s.follows_sendLoop payload timestamp marker
  unfold sendPayload
  simp only [hs, hmade]
  cases o.size with
  | none =>
    exact ⟨none, rfl, rfl, fun _ hd => (by cases hd),
      .single hs rfl rfl hfollows fun _ hd => (by cases hd), rfl, by simp⟩
  | some size =>
    have hdata : ∀ d, some made.buf = some d →
        s.MadeAs x.transceiver ⟨s.seq + 1, payload, timestamp, marker, true⟩ d :=
      fun d hd => ⟨_, _, _, made, hne, rfl, rfl, hmade, Option.some.inj hd⟩
    refine ⟨some made.buf, rfl, rfl, hdata, .single hs rfl rfl ?_ fun d hd => .inl (hdata d hd), rfl,
      by simp⟩
    exact ⟨rfl, rfl, rfl, rfl, hfollows.seq, hfollows.numbers, hfollows.history⟩

/-- A payload, for a stream that there is or is not. -/
theorem sendPayload_goes (x : RtpSending) (k : ℕ) (payload : Bytes) (timestamp : U32)
    (marker : Bool) (o : Handover) :
    x.Goes (x.sendPayload k payload timestamp marker o).1
      (x.sendPayload k payload timestamp marker o).2 := by
  cases hs : x.streams[k]? with
  | none =>
    unfold sendPayload
    simp only [hs]
    exact .refl x
  | some s =>
    obtain ⟨data, -, -, -, hgoes, -⟩ := sendPayload_spec hs payload timestamp marker o
    exact hgoes

/-- The payloads of a frame go out one after the other. -/
theorem sendPayloads_goes (x : RtpSending) (k : ℕ) (timestamp : U32) (payloads : List Bytes)
    (o : ℕ → Handover) :
    x.Goes (x.sendPayloads k timestamp payloads o).1 (x.sendPayloads k timestamp payloads o).2 := by
  induction payloads generalizing x o with
  | nil => exact .refl x
  | cons payload payloads ih =>
    have hgoes := x.sendPayload_goes k payload timestamp payloads.isEmpty (o 0)
    rw [sendPayloads]
    simp only []
    split
    · exact hgoes.trans (ih _ _)
    · exact hgoes

/-- So do the frames of the layers. -/
theorem sendFrames_goes (x : RtpSending) (k : ℕ) (frames : List (Bytes × U32))
    (o : ℕ → ℕ → Handover) : x.Goes (x.sendFrames k frames o).1 (x.sendFrames k frames o).2 := by
  induction frames generalizing x k with
  | nil => exact .refl x
  | cons frame frames ih =>
    obtain ⟨data, timestamp⟩ := frame
    rw [sendFrames]
    split
    · exact .refl x
    · split
      · exact ih x (k + 1)
      · simp only []
        have hpack : x.Goes { x with packetizer := (x.packetizer.pack data timestamp).2 } [] :=
          .of_streams rfl rfl
        have hframe := hpack.trans (sendPayloads_goes
          { x with packetizer := (x.packetizer.pack data timestamp).2 } k
          (x.packetizer.pack data timestamp).1.2 (x.packetizer.pack data timestamp).1.1 (o k))
        rw [List.nil_append] at hframe
        split
        · exact hframe.trans (ih _ (k + 1))
        · exact hframe

/-- A turn of the send loop. -/
theorem turn_goes (x : RtpSending) (frames : List (Bytes × U32)) (o : ℕ → ℕ → Handover) :
    x.Goes (x.turn frames o).1 (x.turn frames o).2 := by
  unfold turn
  split
  · exact .refl x
  · split
    · exact .of_streams rfl rfl
    · exact sendFrames_goes x 0 frames o

end RtpSending

/-! ### Packets of the user and answers to NACKs -/

omit [NoCaseEq] in
/-- `rewrite_rtp_packet` overwrites the number and the SSRC, and nothing else. -/
theorem rewriteRtpPacket_written (s : SendingStream) {pkt : RtpPacket} {len : ℕ} {data : Bytes}
    (h : pkt.writeTo len = some data) :
    { pkt with sequenceNumber := s.seq + 1, ssrc := s.ssrc }.writeTo len =
        some (s.rewriteRtpPacket data).1 ∧
      (s.rewriteRtpPacket data).2 = { s with seq := s.seq + 1 } := by
  have hlen := le_length_of_writeTo h
  rw [SendingStream.rewriteRtpPacket, if_neg (Nat.not_lt.2 hlen)]
  refine ⟨?_, rfl⟩
  generalize hpkt : { pkt with sequenceNumber := s.seq + 1, ssrc := s.ssrc } = pkt'
  have hsize : pkt'.serializedSize = pkt.serializedSize := by rw [← hpkt]; rfl
  have hpad : pkt'.padSize = pkt.padSize := by
    rw [RtpPacket.padSize, RtpPacket.padSize, hsize]
    simp only [RtpPacket.unpadded, List.length_append, RtpPacket.length_headerBytes, ← hpkt]
    rfl
  have hheader (tail : Bytes) : pkt'.headerBytes ++ tail = (pkt.headerBytes ++ tail).take 2 ++
      big16 (s.seq + 1) ++ ((pkt.headerBytes ++ tail).drop 4).take 4 ++ big32 s.ssrc ++
        (pkt.headerBytes ++ tail).drop 12 := by
    rw [← hpkt]
    rfl
  have hrest : pkt'.csrcs = pkt.csrcs ∧ pkt'.extensionBytes = pkt.extensionBytes ∧
      pkt'.payload = pkt.payload ∧ pkt'.padding = pkt.padding := by
    rw [← hpkt]
    exact ⟨rfl, rfl, rfl, rfl⟩
  rw [RtpPacket.writeTo] at h ⊢
  rw [hsize]
  split at h
  · cases h
  · rename_i hfits
    obtain rfl := Option.some.inj h
    rw [if_neg hfits, hpad]
    simp only [RtpPacket.unpadded, hrest.1, hrest.2.1, hrest.2.2.1, hrest.2.2.2, List.append_assoc]
    rw [hheader]
    simp only [List.append_assoc]

omit [NoCaseEq] in
/-- A packet of the user, as the peer reads it. -/
theorem readsAs_rewritten (s : SendingStream) {pkt : RtpPacket} {len : ℕ} {data : Bytes}
    (hwf : pkt.WellFormed) (h : pkt.writeTo len = some data) :
    ReadsAs s.ssrc ⟨s.seq + 1, pkt.payload, pkt.timestamp, pkt.marker = 1, false⟩
      (s.rewriteRtpPacket data).1 := by
  obtain ⟨hwritten, -⟩ := rewriteRtpPacket_written s h
  have hwf' : { pkt with sequenceNumber := s.seq + 1, ssrc := s.ssrc }.WellFormed :=
    ⟨hwf.version, hwf.padding, hwf.extension, hwf.marker, hwf.payloadType, hwf.csrcCount,
      hwf.csrcs, hwf.noExtension, hwf.words, hwf.size⟩
  obtain ⟨data', hdata', -, hparse⟩ := RtpPacket.parse_writeTo hwf'
  -- What is written does not depend on the size of the buffer.
  have hsame : (s.rewriteRtpPacket data).1 = data' := by
    rw [RtpPacket.writeTo] at hwritten hdata'
    rw [if_neg (lt_irrefl _)] at hdata'
    split at hwritten
    · cases hwritten
    · exact Option.some.inj (hwritten.symm.trans hdata')
  rw [← hsame] at hparse
  refine ⟨_, hparse, rfl, rfl, rfl, rfl, ?_, rfl⟩
  have hmarker := hwf.marker
  show pkt.marker = if decide (pkt.marker = 1) = true then 1 else 0
  by_cases h1 : pkt.marker = 1
  · simp [h1]
  · have h0 : pkt.marker.toNat = 0 := by
      have : pkt.marker.toNat ≠ 1 := fun heq => h1 (BitVec.eq_of_toNat_eq heq)
      omega
    simp only [h1, decide_false, Bool.false_eq_true, if_false]
    exact BitVec.eq_of_toNat_eq h0

omit [NoCaseEq] in
/-- A packet of the user takes the next number. -/
theorem LoopStream.follows_sendRtp (s : LoopStream) (p : SentPacket) (hp : p.seq = s.seq + 1) :
    s.Follows { s with seq := s.seq + 1 } [p] := by
  refine ⟨rfl, rfl, rfl, rfl, rfl, fun j q hq => ?_, fun i e he => .inl he⟩
  cases j with
  | zero => exact Option.some.inj hq ▸ hp
  | succ j => cases hq

omit [NoCaseEq] in
/-- What answers a lost number is an entry of a history, under this number. -/
theorem resend_some {mediaSsrc : U32} {seq : U16} {ss : List RtpStream} {data : Bytes}
    (h : (resend mediaSsrc seq ss).2 = some data) :
    ∃ (k : ℕ) (e : HistoryEntry) (s : RtpStream), ss[k]? = some s ∧ s.lookup seq = some e ∧
      data = s.rtx e seq := by
  induction ss with
  | nil => cases h
  | cons s ss ih =>
    rw [resend_cons] at h
    split at h
    · rename_i e he
      split at he
      · cases he
      · exact ⟨0, e, s, rfl, he, (Option.some.inj h).symm⟩
    · obtain ⟨k, e, s', hk, he, hd⟩ := ih h
      exact ⟨k + 1, e, s', hk, he, hd⟩

namespace RtpSending

/-- A packet of the user. -/
theorem sendRtp_goes {x : RtpSending} (hne : x.streams ≠ []) {pkt : RtpPacket}
    (hwf : pkt.WellFormed) (o : Handover) :
    x.Goes (x.sendRtp pkt o).1 (x.sendRtp pkt o).2 := by
  unfold sendRtp
  cases hdata : pkt.writeTo SendingStream.sendRtpCapacity with
  | none => exact .refl x
  | some data =>
    cases hx : x.streams with
    | nil => exact absurd hx hne
    | cons s ss =>
      have hs : x.streams[0]? = some s := by rw [hx]; rfl
      have hsecond := (rewriteRtpPacket_written s.toSendingStream hdata).2
      have hreads := readsAs_rewritten s.toSendingStream hwf hdata
      have hfollows := s.follows_sendRtp
        ⟨s.seq + 1, pkt.payload, pkt.timestamp, pkt.marker = 1, false⟩ rfl
      simp only [hsecond]
      cases o.size with
      | none => exact .single hs rfl (by rw [hx]; rfl) hfollows fun _ hd => (by cases hd)
      | some size =>
        let t : LoopStream := { s with
          seq := s.seq + 1, packetCount := s.packetCount + 1
          octetCount := s.octetCount + BitVec.ofNat 32 pkt.payload.length }
        have hcounted : s.Follows t
            [⟨s.seq + 1, pkt.payload, pkt.timestamp, pkt.marker = 1, false⟩] :=
          ⟨rfl, rfl, rfl, rfl, hfollows.seq, hfollows.numbers, hfollows.history⟩
        exact .single hs rfl (by rw [hx]; rfl) hcounted
          fun d hd => .inr ⟨rfl, Option.some.inj hd ▸ hreads⟩

/-- **The answer to a lost number** is a retransmission of what the history of a stream has under
it. -/
theorem nack_spec (mediaSsrc : U32) (seq : U16) (x : RtpSending) :
    x.Goes (x.nack mediaSsrc seq).1 [] ∧
      (∀ d ∈ (x.nack mediaSsrc seq).2, d.media = none) ∧
      ∀ d ∈ (x.nack mediaSsrc seq).2, ∀ data, d.data = some data →
        ∃ (k : ℕ) (e : HistoryEntry) (s : LoopStream), x.streams[k]? = some s ∧
          s.lookup seq = some e ∧ data = s.rtx e seq := by
  have hsame := resend_same mediaSsrc seq (x.streams.map fun s => s.toRtpStream)
  have hlen := hsame.length_eq
  rw [List.length_map] at hlen
  refine ⟨⟨rfl, ?_, fun k s hs => ?_, fun _ hd => absurd hd List.not_mem_nil⟩, fun d hd => ?_,
    fun d hd data hdata => ?_⟩
  · show (List.zipWith _ _ _).length = _
    rw [List.length_zipWith, ← hlen, Nat.min_self]
  · obtain ⟨hk, rfl⟩ := List.getElem?_eq_some_iff.1 hs
    have hstep := hsame.get (i := k) (by rwa [List.length_map]) (by rwa [← hlen])
    simp only [List.get_eq_getElem, List.getElem_map] at hstep
    refine ⟨{ x.streams[k] with toRtpStream :=
      (resend mediaSsrc seq (x.streams.map fun s => s.toRtpStream)).1[k] }, ?_, ?_⟩
    · show (List.zipWith _ _ _)[k]? = _
      rw [List.getElem?_zipWith, List.getElem?_eq_getElem hk, List.getElem?_eq_getElem (hlen ▸ hk)]
    · rw [RtpStream.SameButRtxSeq] at hstep
      refine ⟨?_, ?_, ?_, rfl, by simp [mediaOf], fun j p hp => (by cases hp), fun i e he => .inl ?_⟩
      all_goals simp only [] at *
      · rw [hstep]
      · rw [hstep]
      · rw [hstep]
      · rw [hstep] at he
        exact he
  · obtain ⟨data, -, rfl⟩ := List.mem_map.1 hd
    rfl
  · obtain ⟨data', hout, rfl⟩ := List.mem_map.1 hd
    obtain rfl := Option.some.inj hdata
    rw [Option.mem_toList] at hout
    obtain ⟨k, e, r, hr, he, hd⟩ := resend_some hout
    rw [List.getElem?_map, Option.map_eq_some_iff] at hr
    obtain ⟨s, hs, rfl⟩ := hr
    exact ⟨k, e, s, hs, he, hd⟩

/-- Nothing of a retransmission counts as made. -/
theorem mediaOf_nack (mediaSsrc : U32) (seq : U16) (x : RtpSending) (k : ℕ) :
    mediaOf k (x.nack mediaSsrc seq).2 = [] := by
  rw [mediaOf, List.filterMap_eq_nil_iff]
  intro d hd
  rw [(x.nack_spec mediaSsrc seq).2.1 d hd]
  rfl

end RtpSending
end Step

/-! ### Runs -/

section Runs

variable [NoCaseEq] {x₀ x : RtpSending} {h : List (RtpSending × SenderCall)}

/-- What is true of a sender that has come from `x₀` to `x`. -/
structure RtpSending.Reaches (x₀ : RtpSending) (h : List (RtpSending × SenderCall))
    (x : RtpSending) : Prop where
  transceiver : x.transceiver = x₀.transceiver
  length : x.streams.length = x₀.streams.length
  streams : ∀ k (s₀ : LoopStream), x₀.streams[k]? = some s₀ →
    ∃ s, x.streams[k]? = some s ∧ s₀.Follows s (madeBy k h)
  sent : ∀ data ∈ (senderMachine x₀).sent h, x₀.Carries h data

/-- What carries a packet still does later. -/
theorem RtpSending.Carries.mono {c : SenderCall} {data : Bytes} (hc : x₀.Carries h data) :
    x₀.Carries ((x, c) :: h) data := by
  obtain ⟨k, p, s, hs, hp, hdata⟩ := hc
  exact ⟨k, p, s, hs, List.mem_append_left _ hp, hdata⟩

/-- The step: a call of which the streams go on, and of which each datagram carries a packet. -/
theorem RtpSending.Reaches.step (hx : x₀.Reaches h x) {c : SenderCall} {out : List SentRtp}
    (hgoes : x.Goes (x.call c).1 out) (hmedia : ∀ k, mediaOf k out = mediaOf k (x.call c).2)
    (hsent : ∀ d ∈ (x.call c).2, ∀ data, d.data = some data → x₀.Carries ((x, c) :: h) data) :
    x₀.Reaches ((x, c) :: h) (x.call c).1 := by
  refine ⟨hgoes.transceiver.trans hx.transceiver, hgoes.length.trans hx.length, fun k s₀ hs₀ => ?_,
    fun data hdata => ?_⟩
  · obtain ⟨s, hs, hfollows⟩ := hx.streams k s₀ hs₀
    obtain ⟨s', hs', hfollows'⟩ := hgoes.streams k s hs
    rw [hmedia] at hfollows'
    exact ⟨s', hs', hfollows.trans hfollows'⟩
  · rw [Machine.sent_cons] at hdata
    rcases List.mem_append.1 hdata with hold | hnew
    · exact (hx.sent data hold).mono
    · obtain ⟨d, hd, hdata⟩ := List.mem_filterMap.1 hnew
      exact hsent d hd data hdata

/-- What goes out of a call that makes its packets carries them. -/
theorem RtpSending.Reaches.carries (hx : x₀.Reaches h x) {c : SenderCall}
    (hgoes : x.Goes (x.call c).1 (x.call c).2) :
    ∀ d ∈ (x.call c).2, ∀ data, d.data = some data → x₀.Carries ((x, c) :: h) data := by
  intro d hd data hdata
  obtain ⟨k, p, s, hmedia, hs, hsends⟩ := hgoes.media d hd
  have hk : k < x₀.streams.length := hx.length ▸ (List.getElem?_eq_some_iff.1 hs).1
  obtain ⟨s', hs', hfollows⟩ := hx.streams k _ (List.getElem?_eq_getElem hk)
  obtain rfl := Option.some.inj (hs.symm.trans hs')
  refine ⟨k, p, _, List.getElem?_eq_getElem hk, List.mem_append_right _ ?_, .inl ?_⟩
  · exact List.mem_filterMap.2 ⟨d, hd, by rw [hmedia, Option.filter_some]; simp⟩
  · rw [hx.transceiver] at hsends
    exact (hsends data hdata).congr hfollows.ssrc hfollows.rid

/-- **What a sender has sent.**  For any calls, the streams go on with the packets that were made
for them, and every datagram is one of these packets or a retransmission of one. -/
theorem senderMachine_reaches (hne : x₀.streams ≠ [])
    (hempty : ∀ s ∈ x₀.streams, ∀ i, s.history i = none)
    (hr : Run (senderMachine x₀) (fun _ _ c => ∀ pkt o, c = .sendRtp pkt o → pkt.WellFormed) h x) :
    x₀.Reaches h x := by
  refine hr.invariant ⟨rfl, rfl, fun k s hs => ⟨s, hs, .refl s⟩, fun _ hd => absurd hd
    List.not_mem_nil⟩ fun h x c _ hx hc => ?_
  show x₀.Reaches ((x, c) :: h) (x.call c).1
  cases c with
  | frames frames o =>
    have hgoes := x.turn_goes frames o
    exact hx.step hgoes (fun _ => rfl) (hx.carries (c := .frames frames o) hgoes)
  | payload k payload timestamp marker o =>
    have hgoes : x.Goes (x.call (.payload k payload timestamp marker o)).1
        (x.call (.payload k payload timestamp marker o)).2 := by
      rw [RtpSending.call]
      split
      · exact x.sendPayload_goes k payload timestamp marker o
      · exact .refl x
    exact hx.step hgoes (fun _ => rfl) (hx.carries hgoes)
  | sendRtp pkt o =>
    have hne' : x.streams ≠ [] := by
      rwa [Ne, ← List.length_eq_zero_iff, hx.length, List.length_eq_zero_iff]
    have hgoes := RtpSending.sendRtp_goes hne' (hc pkt o rfl) o
    exact hx.step hgoes (fun _ => rfl) (hx.carries (c := .sendRtp pkt o) hgoes)
  | stop => exact hx.step (.of_streams rfl rfl) (fun _ => rfl) fun d hd => absurd hd List.not_mem_nil
  | nack mediaSsrc seq =>
    obtain ⟨hgoes, -, hout⟩ := x.nack_spec mediaSsrc seq
    refine hx.step hgoes (fun k => (x.mediaOf_nack mediaSsrc seq k).symm) fun d hd data hdata => ?_
    obtain ⟨k, e, s, hs, hlookup, rfl⟩ := hout d hd data hdata
    have hk : k < x₀.streams.length := hx.length ▸ (List.getElem?_eq_some_iff.1 hs).1
    obtain ⟨s', hs', hfollows⟩ := hx.streams k _ (List.getElem?_eq_getElem hk)
    obtain rfl := Option.some.inj (hs.symm.trans hs')
    obtain ⟨hslot, hseq⟩ := Option.filter_eq_some_iff.1 hlookup
    rw [decide_eq_true_eq] at hseq
    -- Before the run there was nothing in the history, so the entry is of a packet made in it.
    rcases hfollows.history _ _ hslot with hold | ⟨p, hp, rfl⟩
    · rw [hempty _ (List.getElem_mem hk)] at hold
      cases hold
    · refine ⟨k, p, _, List.getElem?_eq_getElem hk, List.mem_append_left _ hp,
        .inr ⟨s.rtxSeq, ?_⟩⟩
      rw [← hseq]
      simp only [RtpStream.rtx, hfollows.rtxSsrc, hfollows.rtxPt]
      rfl

end Runs

end AsioRtc
