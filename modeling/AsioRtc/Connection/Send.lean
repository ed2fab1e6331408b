/-
# Packets on their way to the peer

`connection_impl::make_rtp` of `src/connection_impl.cpp`: the header extension is
packed by hand, one element for the mid, one for the rid, one for the time and one
for the transport-wide number, and filled up to whole words.

The peer reads the extension with its own iterator and compares the mid with those
of its transceivers.  What it reads is what was written, up to the wrap-around of the
length field (`parse_makeRtp`), and the mid element is the first one
(`packetMid_makeRtp`); but it has one character of the mid, so the packet finds its
receiver by the mid only where the mid is that character (`makeRtp_routed_iff`).
-/

import AsioRtc.Connection.Receive
import AsioRtc.Rtp.Write

namespace AsioRtc

open Lib Text

/-- `rtp_stream`, with what `make_rtp` reads besides. -/
structure SendStream extends RtpStream where
  rid : Text := []
  ntpTimestamp : U64 := 0

/-- What `make_rtp` gets for a packet. -/
structure Outgoing where
  payload : Bytes
  timestamp : U32
  sequenceNumber : U16
  marker : Bool

/-- What `make_rtp` makes: the packet, its transport-wide number (0 where it has none), and the
new `_transport_wide_seq`. -/
structure MadeRtp where
  buf : Bytes
  twccSeq : U16
  transportWideSeq : U16

/-- The id of a header extension, 0 where it has not been negotiated. -/
def extId (extmaps : List SdpExtmap) (uri : Text) : U16 :=
  ((extmaps.find? fun e => e.uri = uri).map SdpExtmap.id).getD 0

/-- An id that the one-byte form of the extension has room for. -/
def usableId (id : U16) : Bool := 0 < id.toNat ∧ id.toNat < 15

/-- The header of an element: its id, and its length less one. -/
def elementHeader (id : U16) (low : ℕ) : U8 := BitVec.ofNat 8 (id.toNat <<< 4 ||| low)

/-- The character that stands for the mid in a packet. -/
def midChar (mid : Text) : Char := mid.head?.getD '0'

/-- The element of the mid: one character. -/
def midElement (t : RtpTransceiver) : Bytes :=
  let id := extId t.receiver.headerExtensions RtpTransceiver.midUri
  if usableId id then [elementHeader id 0, BitVec.ofNat 8 (midChar t.mid).toNat] else []

/-- The element of the rid. -/
def ridElement (t : RtpTransceiver) (rid : Text) : Bytes :=
  let id := extId t.receiver.headerExtensions RtpTransceiver.ridUri
  if usableId id ∧ rid ≠ [] then
    elementHeader id (rid.length - 1) :: rid.map fun ch => BitVec.ofNat 8 ch.toNat
  else []

/-- The element of the sending time, for video. -/
def absElement [NoCaseEq] (t : RtpTransceiver) (streams : List SendStream) : Checked Bytes :=
  let id := extId t.receiver.headerExtensions RtpTransceiver.absSendTimeUri
  if t.kind = .video ∧ usableId id then
    match streams with
    | [] => .error (.index 0 0)
    | s :: _ =>
        let abs : U32 :=
          if s.ntpTimestamp ≠ 0 then (s.ntpTimestamp >>> 14 &&& 0xFFFFFF).setWidth 32 else 0
        pure [elementHeader id 2, (abs >>> 16 &&& 0xFF).setWidth 8, (abs >>> 8 &&& 0xFF).setWidth 8,
          (abs &&& 0xFF).setWidth 8]
  else pure []

/-- The element of the transport-wide number, which is counted on for it. -/
def tccElement (t : RtpTransceiver) (transportWideSeq : U16) : Bytes × U16 × U16 :=
  let id := extId t.receiver.headerExtensions RtpTransceiver.transportCcUri
  if usableId id then
    let seq := transportWideSeq + 1
    (elementHeader id 1 :: big16 seq, seq, seq)
  else ([], 0, transportWideSeq)

/-- Zeros up to whole words. -/
def fillWords (ext : Bytes) : Bytes := ext ++ List.replicate (RtpPacket.extensionPad ext.length) 0

/-- The packet of `make_rtp` for an extension. -/
def rtpPacketOf (pt : U8) (ssrc : U32) (out : Outgoing) (ext : Bytes) : RtpPacket :=
  let pkt : RtpPacket :=
    { payloadType := pt
      marker := if out.marker then 1 else 0
      sequenceNumber := out.sequenceNumber
      timestamp := out.timestamp
      ssrc := ssrc
      payload := out.payload }
  if ext = [] then pkt
  else { pkt with extension := 1, extensionProfile := 0xBEDE, extensionData := ext }

/-- `connection_impl::make_rtp`, for a stream of a sender with the streams `streams`, whose
transceiver is `t` if it still has one. -/
def makeRtp [NoCaseEq] (transportWideSeq : U16) (t : Option RtpTransceiver)
    (streams : List SendStream) (stream : SendStream) (out : Outgoing) : Checked MadeRtp := do
  match t with
  | none =>
      let pkt := rtpPacketOf 0 stream.ssrc out []
      pure ⟨(pkt.writeTo pkt.serializedSize).getD [], 0, transportWideSeq⟩
  | some t =>
      let abs ← absElement t streams
      let (tcc, twccSeq, transportWideSeq) := tccElement t transportWideSeq
      let ext := fillWords (midElement t ++ ridElement t stream.rid ++ abs ++ tcc)
      let pkt := rtpPacketOf t.codec.payloadType stream.ssrc out ext
      pure ⟨(pkt.writeTo pkt.serializedSize).getD [], twccSeq, transportWideSeq⟩

/-- The bytes of the extension of a packet before they are filled up to words. -/
def extensionSize [NoCaseEq] (t : RtpTransceiver) (rid : Text) : ℕ :=
  let exts := t.receiver.headerExtensions
  (if usableId (extId exts RtpTransceiver.midUri) then 2 else 0) +
    (if usableId (extId exts RtpTransceiver.ridUri) ∧ rid ≠ [] then 1 + rid.length else 0) +
    (if t.kind = .video ∧ usableId (extId exts RtpTransceiver.absSendTimeUri) then 4 else 0) +
    (if usableId (extId exts RtpTransceiver.transportCcUri) then 3 else 0)

/-- The words of the extension as its 16-bit length field has them. -/
def extensionWords [NoCaseEq] (t : RtpTransceiver) (rid : Text) : ℕ :=
  (extensionSize t rid + 3) / 4 % 65536

/-! ### What is made -/

section Making

variable [NoCaseEq] {t : RtpTransceiver} {streams : List SendStream} {rid : Text}

/-- A sender with a stream makes no fault. -/
theorem absElement_yields (h : streams ≠ []) :
    (absElement t streams).Yields fun abs => abs.length =
      if t.kind = .video ∧ usableId (extId t.receiver.headerExtensions RtpTransceiver.absSendTimeUri)
      then 4 else 0 := by
  unfold absElement
  simp only []
  split
  · cases streams with
    | nil => exact absurd rfl h
    | cons s ss => exact Checked.yields_pure.2 rfl
  · exact Checked.yields_pure.2 rfl

omit [NoCaseEq] in
theorem length_tccElement (t : RtpTransceiver) (seq : U16) : (tccElement t seq).1.length =
    if usableId (extId t.receiver.headerExtensions RtpTransceiver.transportCcUri) then 3 else 0 := by
  unfold tccElement
  simp only []
  split <;> rfl

omit [NoCaseEq] in
theorem length_midElement (t : RtpTransceiver) : (midElement t).length =
    if usableId (extId t.receiver.headerExtensions RtpTransceiver.midUri) then 2 else 0 := by
  unfold midElement
  simp only []
  split <;> rfl

omit [NoCaseEq] in
theorem length_ridElement (t : RtpTransceiver) (rid : Text) : (ridElement t rid).length =
    if usableId (extId t.receiver.headerExtensions RtpTransceiver.ridUri) ∧ rid ≠ [] then
      1 + rid.length
    else 0 := by
  unfold ridElement
  simp only []
  split
  · rw [List.length_cons, List.length_map, Nat.add_comm]
  · rfl

omit [NoCaseEq] in
theorem length_fillWords (ext : Bytes) : (fillWords ext).length = (ext.length + 3) / 4 * 4 := by
  rw [fillWords, List.length_append, List.length_replicate, RtpPacket.extensionPad]
  omega

omit [NoCaseEq] in
/-- A payload type is written without its high bit. -/
theorem rtpPacketOf_unpadded (pt : U8) (ssrc : U32) (out : Outgoing) (ext : Bytes) :
    (rtpPacketOf pt ssrc out ext).unpadded = (rtpPacketOf (pt &&& 0x7F) ssrc out ext).unpadded := by
  have hpt : pt &&& 0x7F = pt &&& 0x7F &&& 0x7F := by
    rw [BitVec.and_assoc]
    rfl
  unfold rtpPacketOf RtpPacket.unpadded RtpPacket.headerBytes
  simp only []
  split <;> simp only [← hpt] <;> rfl

omit [NoCaseEq] in
theorem rtpPacketOf_fits (pt : U8) (ssrc : U32) (out : Outgoing) (ext : Bytes) :
    (rtpPacketOf (pt &&& 0x7F) ssrc out ext).FitsHeader := by
  have hpt : (pt &&& 0x7F).toNat < 128 := by
    rw [BitVec.toNat_and]
    exact Nat.lt_succ_of_le Nat.and_le_right
  have hmarker : (if out.marker then 1 else 0 : U8).toNat < 2 := by
    split <;> decide
  have hver : (2 : U8).toNat < 4 := by decide
  have hbit : (0 : U8).toNat < 2 ∧ (1 : U8).toNat < 2 := by decide
  have hcount : (0 : U8).toNat < 16 := by decide
  unfold rtpPacketOf
  simp only []
  split
  · exact ⟨hver, hbit.1, hbit.1, hcount, hmarker, hpt⟩
  · exact ⟨hver, hbit.1, hbit.2, hcount, hmarker, hpt⟩

omit [NoCaseEq] in
/-- The packets of `make_rtp` have no padding, so what is written is what stands before it. -/
theorem rtpPacketOf_written (pt : U8) (ssrc : U32) (out : Outgoing) (ext : Bytes) :
    ((rtpPacketOf pt ssrc out ext).writeTo (rtpPacketOf pt ssrc out ext).serializedSize).getD [] =
      (rtpPacketOf pt ssrc out ext).unpadded := by
  have hpad : (rtpPacketOf pt ssrc out ext).padding = 0 := by
    unfold rtpPacketOf
    simp only []
    split <;> rfl
  rw [RtpPacket.writeTo, if_neg (lt_irrefl _), if_neg (fun h => h hpad), List.append_nil]
  rfl

omit [NoCaseEq] in
/-- What the peer reads of a packet with an extension of whole words. -/
theorem parse_rtpPacketOf (pt : U8) (ssrc : U32) (out : Outgoing) {ext : Bytes} (hne : ext ≠ [])
    (hwords : 4 ∣ ext.length) :
    RtpPacket.parse (rtpPacketOf pt ssrc out ext).unpadded =
      .ok (some { rtpPacketOf (pt &&& 0x7F) ssrc out ext with
        extensionData := ext.take (ext.length / 4 % 65536 * 4)
        payload := ext.drop (ext.length / 4 % 65536 * 4) ++ out.payload }) := by
  have hpkt : rtpPacketOf (pt &&& 0x7F) ssrc out ext =
      { rtpPacketOf (pt &&& 0x7F) ssrc out [] with
        extension := 1, extensionProfile := 0xBEDE, extensionData := ext } := by
    simp [rtpPacketOf, hne]
  have hfits := rtpPacketOf_fits pt ssrc out ext
  rw [rtpPacketOf_unpadded]
  rw [hpkt] at hfits ⊢
  exact RtpPacket.parse_unpadded rfl hfits rfl rfl (show (1 : U8) ≠ 0 by decide) hwords

/-- **What the peer reads** of a packet that has the mid element. -/
theorem parse_makeRtp {seq : U16} {stream : SendStream} {out : Outgoing}
    (hmid : usableId (extId t.receiver.headerExtensions RtpTransceiver.midUri) = true)
    (hstreams : streams ≠ []) :
    ∃ made pkt rest, makeRtp seq (some t) streams stream out = .ok made ∧
      RtpPacket.parse made.buf = .ok (some pkt) ∧
      pkt.payloadType = t.codec.payloadType &&& 0x7F ∧ pkt.ssrc = stream.ssrc ∧
      pkt.payload.length = out.payload.length +
        ((extensionSize t stream.rid + 3) / 4 - extensionWords t stream.rid) * 4 ∧
      pkt.extensionData = (midElement t ++ rest).take (extensionWords t stream.rid * 4) ∧
      (midElement t ++ rest).length = (extensionSize t stream.rid + 3) / 4 * 4 := by
  obtain ⟨abs, habs, hlen⟩ := absElement_yields (t := t) hstreams
  have hsize : (midElement t ++ ridElement t stream.rid ++ abs ++ (tccElement t seq).1).length =
      extensionSize t stream.rid := by
    simp only [List.length_append, length_midElement, length_ridElement, hlen, length_tccElement,
      extensionSize]
  have hfill := length_fillWords
    (midElement t ++ ridElement t stream.rid ++ abs ++ (tccElement t seq).1)
  rw [hsize] at hfill
  obtain ⟨rest, hrest⟩ : ∃ rest, fillWords (midElement t ++ ridElement t stream.rid ++ abs ++
      (tccElement t seq).1) = midElement t ++ rest :=
    ⟨_, by rw [fillWords, List.append_assoc, List.append_assoc, List.append_assoc]⟩
  rw [hrest] at hfill
  have hne : midElement t ++ rest ≠ [] := by
    simp [midElement, hmid]
  have hmade : makeRtp seq (some t) streams stream out = .ok
      ⟨(rtpPacketOf t.codec.payloadType stream.ssrc out (midElement t ++ rest)).unpadded,
        (tccElement t seq).2.1, (tccElement t seq).2.2⟩ := by
    rw [makeRtp, habs, Checked.ok_bind]
    simp only [hrest, rtpPacketOf_written]
    rfl
  have hquot : (midElement t ++ rest).length / 4 = (extensionSize t stream.rid + 3) / 4 := by
    rw [hfill]
    omega
  have hparse := parse_rtpPacketOf t.codec.payloadType stream.ssrc out hne
    (by rw [hfill]; exact Nat.dvd_mul_left _ _)
  rw [hquot] at hparse
  refine ⟨_, _, rest, hmade, hparse, ?_, ?_, ?_, rfl, hfill⟩
  · simp only [rtpPacketOf]
    split <;> rfl
  · simp only [rtpPacketOf]
    split <;> rfl
  · simp only [List.length_append, List.length_drop, hfill, extensionWords]
    omega

end Making

/-! ### Where the peer routes it -/

namespace Connection

/-- The SSRC of a packet after `rewrite_rtx_packet`: its own, or the one it repairs. -/
def routedSsrc (c : Connection) (pt : U8) (ssrc : U32) (payload : ℕ) : U32 :=
  if payload ≤ 2 then ssrc
  else
    match c.rtxPtToPt pt, c.rtxSsrcToSsrc ssrc with
    | some _, some s => s
    | _, _ => ssrc

/-- The peer reads the packet, and `dispatch_rtp` finds receiver `i` for it. -/
def RoutedTo (c : Connection) (buf : Bytes) (i : ℕ) : Prop :=
  ∃ pkt pkt', RtpPacket.parse buf = .ok (some pkt) ∧ c.rewriteRtxPacket pkt = .ok pkt' ∧
    c.receiverOf pkt' = some i

variable {c : Connection} {pkt : RtpPacket}

/-- `dispatch_rtp` gives a packet to the receiver that `RoutedTo` names. -/
theorem RoutedTo.dispatchRtp [NoCaseEq] {buf : Bytes} {i : ℕ} (h : c.RoutedTo buf i) (clock : Clock)
    {r : Reception} (hr : r.conn = c) : ∃ pkt pkt', RtpPacket.parse buf = .ok (some pkt) ∧
      Reception.dispatchRtp clock pkt r =
        ((r.call (.dispatchRtp pkt)).trackStream clock pkt').deliver i pkt' := by
  obtain ⟨pkt, pkt', hparse, hrewrite, hreceiver⟩ := h
  refine ⟨pkt, pkt', hparse, ?_⟩
  subst hr
  have hconn : (r.call (.dispatchRtp pkt)).conn = r.conn := rfl
  rw [Reception.dispatchRtp]
  simp only [hconn, hrewrite, Checked.ok_bind, hreceiver]

theorem rewriteRtxPacket_yields (c : Connection) (pkt : RtpPacket) :
    (c.rewriteRtxPacket pkt).Yields fun q =>
      q.ssrc = c.routedSsrc pkt.payloadType pkt.ssrc pkt.payload.length ∧
        q.extensionData = pkt.extensionData := by
  unfold rewriteRtxPacket routedSsrc
  split
  · exact Checked.yields_pure.2 ⟨rfl, rfl⟩
  · cases c.rtxPtToPt pkt.payloadType with
    | none => exact Checked.yields_pure.2 ⟨rfl, rfl⟩
    | some pt =>
      cases c.rtxSsrcToSsrc pkt.ssrc with
      | none => exact Checked.yields_pure.2 ⟨rfl, rfl⟩
      | some ssrc =>
        refine (Checked.safe_iff.1 (readBig16_safe (by omega))).bind fun _ _ => ?_
        exact Checked.yields_pure.2 ⟨rfl, rfl⟩

/-- The header of the mid element is read back. -/
theorem elementHeader_mid : ∀ n < 15, 0 < n →
    (BitVec.ofNat 8 (n <<< 4 ||| 0) >>> 4 &&& 0xF : U8).setWidth 16 = BitVec.ofNat 16 n ∧
      RtpExtElement.sizeOf (BitVec.ofNat 8 (n <<< 4 ||| 0)) = 1 := by
  decide +kernel

/-- **The mid that the peer reads** is one character, where it reads any of the extension. -/
theorem packetMid_of_midElement {id : U16} {ch : Char} {rest : Bytes} {w : ℕ}
    (hid : usableId id = true) (hc : c.midExtId = some id) (hch : ch.toNat < 256)
    (hw : w * 4 ≤ rest.length + 2)
    (hpkt : pkt.extensionData =
      ([elementHeader id 0, BitVec.ofNat 8 ch.toNat] ++ rest).take (w * 4)) :
    c.packetMid pkt = if w = 0 then none else some [ch] := by
  unfold packetMid
  rw [hc, hpkt]
  cases w with
  | zero => rfl
  | succ w =>
    have hrange : 0 < id.toNat ∧ id.toNat < 15 := of_decide_eq_true hid
    obtain ⟨hread, hone⟩ := elementHeader_mid id.toNat hrange.2 hrange.1
    rw [BitVec.ofNat_toNat, BitVec.setWidth_eq] at hread
    have htake : ([elementHeader id 0, BitVec.ofNat 8 ch.toNat] ++ rest).take ((w + 1) * 4) =
        elementHeader id 0 :: BitVec.ofNat 8 ch.toNat :: rest.take (w * 4 + 2) := by
      rw [show (w + 1) * 4 = w * 4 + 2 + 1 + 1 by omega]
      rfl
    rw [htake, extElements, extElementsFrom, elementHeader, hone, if_neg (by simp)]
    simp only []
    rw [List.find?_cons_of_pos]
    · simp [Nat.mod_eq_of_lt hch]
    · exact decide_eq_true hread

end Connection

section Routing

variable [NoCaseEq]

/-- The characters of a `std::string`. -/
def IsBytes (s : Text) : Prop := ∀ ch ∈ s, ch.toNat < 256

omit [NoCaseEq] in
/-- The receiver that is found by one character of a mid, or by the SSRC where none is. -/
theorem routed_cases {c : Connection} {i w : ℕ} {u : RtpTransceiver} {m : Text}
    {bySsrc : Option ℕ} (hmids : (c.transceivers.map RtpTransceiver.mid).Nodup)
    (hi : c.transceivers[i]? = some u) (hu : u.mid = m) :
    ((match if w = 0 then none else some [midChar m] with
        | none => none
        | some mid =>
          if mid = [] then none
          else c.transceivers.findIdx? fun t : RtpTransceiver => t.mid = mid).orElse
        fun _ => bySsrc) = some i ↔
      (w ≠ 0 ∧ m.length = 1) ∨
        ((w = 0 ∨ ∀ v ∈ c.transceivers, v.mid ≠ [midChar m]) ∧ bySsrc = some i) := by
  have hone : m.length = 1 ↔ m = [midChar m] := by
    cases m with
    | nil => simp [midChar]
    | cons ch m => simp [midChar]
  by_cases hw : w = 0
  · simp [hw]
  · simp only [hw, if_false, ne_eq, List.cons_ne_nil, not_false_eq_true, true_and, false_or]
    cases hf : c.transceivers.findIdx? fun t : RtpTransceiver => t.mid = [midChar m] with
    | none =>
      have hnone : ∀ v ∈ c.transceivers, ¬ v.mid = [midChar m] := by
        simpa using hf
      have hlen : ¬ m.length = 1 := fun h =>
        hnone u (List.mem_of_getElem? hi) (hu.trans (hone.1 h))
      simp only [hlen, false_or]
      exact ⟨fun h => ⟨hnone, h⟩, fun h => h.2⟩
    | some j =>
      obtain ⟨hj, hmid, -⟩ := List.findIdx?_eq_some_iff_getElem.1 hf
      have hmid : (c.transceivers[j]).mid = [midChar m] := by simpa using hmid
      have hsome : ¬ ∀ v ∈ c.transceivers, ¬ v.mid = [midChar m] :=
        fun h => h _ (List.getElem_mem hj) hmid
      simp only [hsome, false_and, or_false]
      constructor
      · intro h
        obtain rfl : j = i := Option.some.inj h
        obtain rfl : c.transceivers[j] = u :=
          Option.some.inj ((List.getElem?_eq_getElem hj).symm.trans hi)
        exact hone.2 (hu.symm.trans hmid)
      · intro h
        -- Only one transceiver has the mid.
        obtain ⟨hlt, rfl⟩ := List.getElem?_eq_some_iff.1 hi
        refine congrArg some ?_
        have hj' : j < (c.transceivers.map RtpTransceiver.mid).length := by simpa using hj
        have hlt' : i < (c.transceivers.map RtpTransceiver.mid).length := by simpa using hlt
        refine (@List.Nodup.getElem_inj_iff _ _ hmids j hj' i hlt').1 ?_
        rw [List.getElem_map, List.getElem_map, hmid, hu]
        exact (hone.1 h).symm

/-- **Where a packet of `make_rtp` goes.**  On a peer whose transceivers have distinct mids it is
routed to the one with the sender's mid exactly where the mid is one character and the
extension is read, or no receiver is found by the mid and the SSRC is known as that receiver's. -/
theorem makeRtp_routed_iff {t : RtpTransceiver} {streams : List SendStream} {stream : SendStream}
    {out : Outgoing} {seq : U16} {c : Connection} {i : ℕ} {u : RtpTransceiver} {id : U16}
    (hid : extId t.receiver.headerExtensions RtpTransceiver.midUri = id) (hrange : usableId id = true)
    (hc : c.midExtId = some id) (hstreams : streams ≠ []) (hbytes : IsBytes t.mid)
    (hmids : (c.transceivers.map RtpTransceiver.mid).Nodup) (hi : c.transceivers[i]? = some u)
    (hu : u.mid = t.mid) :
    ∃ made, makeRtp seq (some t) streams stream out = .ok made ∧
      (c.RoutedTo made.buf i ↔
        (extensionWords t stream.rid ≠ 0 ∧ t.mid.length = 1) ∨
          ((extensionWords t stream.rid = 0 ∨ ∀ v ∈ c.transceivers, v.mid ≠ [midChar t.mid]) ∧
            (c.ssrcSet (c.routedSsrc (t.codec.payloadType &&& 0x7F) stream.ssrc
              (out.payload.length + ((extensionSize t stream.rid + 3) / 4 -
                extensionWords t stream.rid) * 4))).map SsrcEntry.receiver = some i)) := by
  obtain ⟨made, pkt, rest, hmade, hparse, hpt, hssrc, hpayload, hext, hlen⟩ :=
    parse_makeRtp (by rw [hid]; exact hrange) hstreams
  refine ⟨made, hmade, ?_⟩
  obtain ⟨pkt', hrewrite, hssrc', hext'⟩ := c.rewriteRtxPacket_yields pkt
  have hrouted : c.RoutedTo made.buf i ↔ c.receiverOf pkt' = some i := by
    constructor
    · rintro ⟨q, q', hq, hq', h⟩
      obtain rfl := Option.some.inj (Except.ok.inj (hparse.symm.trans hq))
      obtain rfl := Except.ok.inj (hrewrite.symm.trans hq')
      exact h
    · exact fun h => ⟨pkt, pkt', hparse, hrewrite, h⟩
  rw [hrouted, Connection.receiverOf, hssrc', hpt, hssrc, hpayload]
  have hmid : midElement t = [elementHeader id 0, BitVec.ofNat 8 (midChar t.mid).toNat] := by
    rw [midElement, hid, if_pos hrange]
  have hchar : (midChar t.mid).toNat < 256 := by
    unfold midChar
    cases hm : t.mid with
    | nil => decide
    | cons ch s => exact hbytes ch (by rw [hm]; exact List.mem_cons_self ..)
  have hpacket : c.packetMid pkt' =
      if extensionWords t stream.rid = 0 then none else some [midChar t.mid] := by
    rw [hmid] at hext hlen
    refine Connection.packetMid_of_midElement hrange hc hchar ?_ (hext'.trans hext)
    simp only [List.length_append, List.length_cons, List.length_nil] at hlen
    have : extensionWords t stream.rid ≤ (extensionSize t stream.rid + 3) / 4 := Nat.mod_le _ _
    omega
  rw [Connection.receiverByMid, hpacket]
  exact routed_cases hmids hi hu


end Routing

/-- A transceiver for audio with the mid `mid`, and the mid extension negotiated with id 1. -/
def midTransceiver (mid : Text) : RtpTransceiver where
  mid := mid
  codec := { name := "opus".toList }
  receiver := { headerExtensions := [{ id := 1, uri := RtpTransceiver.midUri }] }

/-- Transceivers with the mids `0` and `1`: a packet of the second is routed to the second. -/
theorem makeRtp_routed_second :
    ∃ made, @makeRtp asciiNoCase 1 (some (midTransceiver ['1'])) [{}] {} ⟨[1, 2, 3], 0, 0, false⟩ =
        .ok made ∧
      Connection.RoutedTo
        { midExtId := some 1, transceivers := [midTransceiver ['0'], midTransceiver ['1']] }
        made.buf 1 := by
  obtain ⟨made, hmade, hiff⟩ := @makeRtp_routed_iff asciiNoCase (midTransceiver ['1']) [{}] {}
    ⟨[1, 2, 3], 0, 0, false⟩ 1
    { midExtId := some 1, transceivers := [midTransceiver ['0'], midTransceiver ['1']] } 1
    (midTransceiver ['1']) 1 (by decide) (by decide) rfl (by decide) (by simp [IsBytes, midTransceiver])
    (by decide) rfl rfl
  exact ⟨made, hmade, hiff.2 (Or.inl ⟨by decide, rfl⟩)⟩

/-- Transceivers with the mids `1` and `10`: a packet of the second is routed to the first. -/
theorem makeRtp_not_routed :
    ∃ made, @makeRtp asciiNoCase 1 (some (midTransceiver ['1', '0'])) [{}] {}
        ⟨[1, 2, 3], 0, 0, false⟩ = .ok made ∧
      ¬ Connection.RoutedTo
        { midExtId := some 1, transceivers := [midTransceiver ['1'], midTransceiver ['1', '0']] }
        made.buf 1 := by
  refine ⟨⟨[0x90, 0, 0, 0, 0, 0, 0, 0, 0, 0, 0, 0, 0xBE, 0xDE, 0, 1, 0x10, 0x31, 0, 0, 1, 2, 3],
    0, 1⟩, rfl, ?_⟩
  rintro ⟨pkt, pkt', hparse, hrewrite, hreceiver⟩
  have hread : RtpPacket.parse
      [0x90, 0, 0, 0, 0, 0, 0, 0, 0, 0, 0, 0, 0xBE, 0xDE, 0, 1, 0x10, 0x31, 0, 0, 1, 2, 3] = .ok (some
      { extension := 1, extensionProfile := 0xBEDE, extensionData := [0x10, 0x31, 0, 0],
        payload := [1, 2, 3] }) := rfl
  obtain rfl := Option.some.inj (Except.ok.inj (hparse.symm.trans hread))
  obtain rfl := Except.ok.inj hrewrite
  exact absurd hreceiver (by decide)

end AsioRtc
