/-
# A retransmission given back

The answer to a NACK and what its receiver makes of it.  The answer is built by hand: a
header with the RTX payload type as its second byte, the number of the lost packet, and its
payload (`RtpStream.rtx`).  The receiver parses it and puts the stream's own payload type, SSRC
and number back (`rewrite_rtx_packet`).

The second byte carries the marker bit too, and the history does not keep it.  So the last
packet of a frame comes back without its marker, and a packet without payload is too short to
be rewritten: `rtx_givesBack_iff` says what comes back.
-/

import AsioRtc.Connection.History

namespace AsioRtc

open Lib Text

/-- `q` has the payload type, SSRC, number, timestamp, marker and payload of the packet `p` that
was sent with `pt` and `ssrc`. -/
structure RtpPacket.Restores (q : RtpPacket) (pt : U8) (ssrc : U32) (p : SentPacket) : Prop where
  payloadType : q.payloadType = pt
  ssrc : q.ssrc = ssrc
  sequenceNumber : q.sequenceNumber = p.seq
  timestamp : q.timestamp = p.timestamp
  marker : q.marker = if p.marker then 1 else 0
  payload : q.payload = p.payload

/-- The datagram parses, and is rewritten to the packet that was sent. -/
def Connection.GivesBack (c : Connection) (rtx : Bytes) (pt : U8) (ssrc : U32) (p : SentPacket) :
    Prop :=
  ∃ r q, RtpPacket.parse rtx = .ok (some r) ∧ c.rewriteRtxPacket r = .ok q ∧ q.Restores pt ssrc p

/-- What the receiver parses of a retransmission. -/
def RtpStream.rtxPacket (s : RtpStream) (e : HistoryEntry) (seq : U16) : RtpPacket where
  marker := s.rtxPt >>> 7 &&& 0x01
  payloadType := s.rtxPt &&& 0x7F
  sequenceNumber := s.rtxSeq + 1
  timestamp := e.timestamp
  ssrc := s.rtxSsrc
  payload := big16 seq ++ e.payload

variable {c : Connection} {s : RtpStream} {p : SentPacket} {pt : U8} {ssrc : U32}

/-- The two fields of the second byte of a header. -/
theorem secondByte_fields : ∀ b : U8, (b >>> 7 &&& 0x01).toNat < 2 ∧ (b &&& 0x7F).toNat < 128 ∧
    (b.toNat < 128 → b &&& 0x7F = b) ∧
    ∀ m : Bool, b >>> 7 &&& 0x01 = (if m then 1 else 0) ↔ (m = true ↔ 128 ≤ b.toNat) := by
  decide +kernel

/-- A retransmission parses. -/
theorem parse_rtx (s : RtpStream) (e : HistoryEntry) (seq : U16) :
    RtpPacket.parse (s.rtx e seq) = .ok (some (s.rtxPacket e seq)) := by
  obtain ⟨hmarker, hpt, -⟩ := secondByte_fields s.rtxPt
  have hwf : (s.rtxPacket e seq).WellFormed :=
    ⟨rfl, Nat.zero_lt_two, Nat.zero_lt_two, hmarker, hpt, rfl, Nat.zero_le _, fun _ => ⟨rfl, rfl⟩,
      Nat.dvd_zero 4, Nat.zero_le _⟩
  obtain ⟨data, hwrite, -, hparse⟩ := RtpPacket.parse_writeTo hwf
  have hdata : data = (s.rtxPacket e seq).unpadded := by
    rw [RtpPacket.writeTo, if_neg (lt_irrefl _)] at hwrite
    simpa [RtpStream.rtxPacket] using (Option.some.inj hwrite).symm
  have hbytes : (s.rtxPacket e seq).unpadded = s.rtx e seq := by
    have hsecond := RtpPacket.markerByte_split s.rtxPt
    simp only [RtpPacket.unpadded, RtpPacket.headerBytes, RtpPacket.extensionBytes,
      RtpStream.rtxPacket, RtpStream.rtx, hsecond]
    simp
  rw [← hbytes, ← hdata, hparse]

/-- A retransmission without payload, or of a payload type the receiver does not know, stays as
it is. -/
theorem rewrite_rtxPacket_none {e : HistoryEntry} {seq : U16}
    (h : e.payload = [] ∨ c.rtxPtToPt (s.rtxPt &&& 0x7F) = none) :
    c.rewriteRtxPacket (s.rtxPacket e seq) = .ok (s.rtxPacket e seq) := by
  unfold Connection.rewriteRtxPacket
  rcases h with hpayload | hpt
  · rw [if_pos (by simp [RtpStream.rtxPacket, hpayload])]
    rfl
  · split
    · rfl
    · rw [show (s.rtxPacket e seq).payloadType = s.rtxPt &&& 0x7F from rfl, hpt]
      rfl

/-- One that has a payload, and of which the receiver knows payload type and SSRC. -/
theorem rewrite_rtxPacket_some {e : HistoryEntry} {seq : U16} (hpayload : e.payload ≠ [])
    (hpt : c.rtxPtToPt (s.rtxPt &&& 0x7F) = some pt)
    (hssrc : c.rtxSsrcToSsrc s.rtxSsrc = some ssrc) :
    c.rewriteRtxPacket (s.rtxPacket e seq) = .ok
      { s.rtxPacket e seq with
        payloadType := pt, ssrc := ssrc, sequenceNumber := seq, payload := e.payload } := by
  have hpos := List.length_pos_of_ne_nil hpayload
  have hlen : (s.rtxPacket e seq).payload.length = 2 + e.payload.length := by
    rw [RtpStream.rtxPacket, List.length_append, length_big16]
  have hread : readBig16 (s.rtxPacket e seq).payload 0 = .ok seq :=
    (readBig16_written (List.drop_zero ..)).1
  rw [Connection.rewriteRtxPacket, if_neg (by omega),
    show (s.rtxPacket e seq).payloadType = s.rtxPt &&& 0x7F from rfl,
    show (s.rtxPacket e seq).ssrc = s.rtxSsrc from rfl, hpt, hssrc]
  simp only [hread, Checked.ok_bind]
  rfl

/-- What comes back of an entry: everything, where there is a payload, where the high bit of the
RTX payload type happens to be the marker, and where the rest of it is known to the receiver. -/
theorem rtx_restores_iff (hssrc : c.rtxSsrcToSsrc s.rtxSsrc = some ssrc)
    (hpt : c.rtxPtToPt s.rtxPt = some pt) :
    c.GivesBack (s.rtx p.entry p.seq) pt ssrc p ↔
      p.payload ≠ [] ∧ (p.marker = true ↔ 128 ≤ s.rtxPt.toNat) ∧
        (128 ≤ s.rtxPt.toNat → c.rtxPtToPt (s.rtxPt &&& 0x7F) = some pt) := by
  obtain ⟨-, -, hlow, hmarker⟩ := secondByte_fields s.rtxPt
  have hgives : c.GivesBack (s.rtx p.entry p.seq) pt ssrc p ↔
      ∃ q, c.rewriteRtxPacket (s.rtxPacket p.entry p.seq) = .ok q ∧ q.Restores pt ssrc p := by
    constructor
    · rintro ⟨r, q, hparse, hq⟩
      rw [parse_rtx] at hparse
      obtain rfl := Option.some.inj (Except.ok.inj hparse)
      exact ⟨q, hq⟩
    · rintro ⟨q, hq⟩
      exact ⟨_, q, parse_rtx .., hq⟩
  -- A packet that is not rewritten still has the number of the lost one before its payload.
  have hnot : ¬ (s.rtxPacket p.entry p.seq).Restores pt ssrc p := fun h => by
    have hlen := congrArg List.length h.payload
    rw [RtpStream.rtxPacket, List.length_append, length_big16] at hlen
    simp only [SentPacket.entry] at hlen
    omega
  rw [hgives]
  by_cases hpayload : p.payload = []
  · rw [rewrite_rtxPacket_none (Or.inl hpayload)]
    refine iff_of_false ?_ fun h => h.1 hpayload
    rintro ⟨q, hq, hrestores⟩
    obtain rfl := Except.ok.inj hq
    exact hnot hrestores
  · cases hknown : c.rtxPtToPt (s.rtxPt &&& 0x7F) with
    | none =>
      rw [rewrite_rtxPacket_none (Or.inr hknown)]
      refine iff_of_false ?_ fun ⟨_, _, hhigh⟩ => ?_
      · rintro ⟨q, hq, hrestores⟩
        obtain rfl := Except.ok.inj hq
        exact hnot hrestores
      · by_cases h128 : s.rtxPt.toNat < 128
        · rw [hlow h128, hpt] at hknown
          cases hknown
        · cases hhigh (by omega)
    | some pt' =>
      rw [rewrite_rtxPacket_some hpayload hknown hssrc]
      constructor
      · rintro ⟨q, hq, hrestores⟩
        obtain rfl := Except.ok.inj hq
        obtain rfl : pt' = pt := hrestores.payloadType
        exact ⟨hpayload, (hmarker p.marker).1 hrestores.marker, fun _ => rfl⟩
      · rintro ⟨-, hbit, hhigh⟩
        obtain rfl : pt' = pt := by
          by_cases h128 : s.rtxPt.toNat < 128
          · rw [hlow h128, hpt] at hknown
            exact (Option.some.inj hknown).symm
          · exact Option.some.inj (hhigh (by omega))
        exact ⟨_, rfl, rfl, rfl, rfl, rfl, (hmarker p.marker).2 hbit, rfl⟩

/-- **What the peer gets back of a lost packet.**  A NACK that names the stream, or none, comes
to the stream `s` of a sender, if no stream before it answers; `p` is a packet that its history
still holds.  The receiver's maps know the RTX payload type and SSRC of the stream.  What the
answer is rewritten to is the packet that was sent if and only if that has a payload and its
marker bit is the high bit of the RTX payload type; where this bit is set, the receiver must know
the payload type without it too. -/
theorem rtx_givesBack_iff (c : Connection) (s : RtpStream) (p : SentPacket) (pt : U8)
    (mediaSsrc : U32) (pre post : List RtpStream)
    (hkept : s.lookup p.seq = some p.entry) (hfirst : (resend mediaSsrc p.seq pre).2 = none)
    (hmedia : mediaSsrc = 0 ∨ s.ssrc = mediaSsrc)
    (hssrc : c.rtxSsrcToSsrc s.rtxSsrc = some s.ssrc) (hpt : c.rtxPtToPt s.rtxPt = some pt) :
    ∃ rtx, (resend mediaSsrc p.seq (pre ++ s :: post)).2 = some rtx ∧
      (c.GivesBack rtx pt s.ssrc p ↔
        p.payload ≠ [] ∧ (p.marker = true ↔ 128 ≤ s.rtxPt.toNat) ∧
          (128 ≤ s.rtxPt.toNat → c.rtxPtToPt (s.rtxPt &&& 0x7F) = some pt)) := by
  refine ⟨s.rtx p.entry p.seq, ?_, rtx_restores_iff hssrc hpt⟩
  induction pre with
  | nil =>
    have hmeant : ¬ (mediaSsrc ≠ 0 ∧ s.ssrc ≠ mediaSsrc) := fun h => hmedia.elim h.1 h.2
    rw [List.nil_append, resend_cons, if_neg hmeant, hkept]
  | cons s' pre ih =>
    rw [resend_cons] at hfirst
    rw [List.cons_append, resend_cons]
    split at hfirst
    · cases hfirst
    · exact ih hfirst

/-- A receiver that knows the stream 7 with payload type 96 by its retransmissions, 8 with 97. -/
def rtxReceiver : Connection where
  rtxPtToPt pt := if pt = 97 then some 96 else none
  rtxSsrcToSsrc ssrc := if ssrc = 8 then some 7 else none

/-- The stream after a frame of two packets. -/
def rtxStream : SendingStream :=
  let s : SendingStream := { ssrc := 7, rtxSsrc := 8 }
  (s.sendLoop [1] 10).sendLoop [2] 10

/-- The first of the two packets comes back. -/
theorem rtx_givesBack_first :
    ∃ rtx, (resend 7 1 [rtxStream.toRtpStream]).2 = some rtx ∧
      rtxReceiver.GivesBack rtx 96 7 ⟨1, [1], 10, false, true⟩ := by
  obtain ⟨rtx, hrtx, hiff⟩ := rtx_givesBack_iff rtxReceiver rtxStream.toRtpStream
    ⟨1, [1], 10, false, true⟩ 96 7 [] [] rfl rfl (Or.inr rfl) rfl rfl
  exact ⟨rtx, hrtx, hiff.2 ⟨by decide, by decide, by decide⟩⟩

/-- **The marker is lost.**  The second packet is the last one of its frame. -/
theorem rtx_loses_marker :
    ∃ rtx, (resend 7 2 [rtxStream.toRtpStream]).2 = some rtx ∧
      ¬ rtxReceiver.GivesBack rtx 96 7 ⟨2, [2], 10, true, true⟩ := by
  refine ⟨_, rfl, fun h => ?_⟩
  have hmarker := ((rtx_restores_iff (p := ⟨2, [2], 10, true, true⟩) rfl rfl).1 h).2.1
  exact absurd (hmarker.1 rfl) (by decide)

end AsioRtc
