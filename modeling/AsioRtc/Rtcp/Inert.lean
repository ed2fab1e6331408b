/-
# RTCP that changes nothing

`do_on_rtp_rtcp_packet` takes a datagram for RTP wherever it reads as RTP, and acts only on sender
reports, receiver reports and NACKs.  Each of those is long enough to read as RTP; a PLI and a short
transport-cc feedback are not, but nothing is done about them.  So of all the RTCP datagrams that
this side makes none is acted on by a peer that is the same (`RtcpMessage.inert`).
-/

import AsioRtc.Rtcp.FeedbackReadBack
import AsioRtc.Rtcp.Messages
import AsioRtc.Rtp.Packet

namespace AsioRtc

open Lib

/-- Something is done about a packet of this type. -/
def RtcpPacket.ActedOn (p : RtcpPacket) : Prop :=
  p.type = PacketType.SR ∨ p.type = PacketType.RR ∨
    p.type = PacketType.RTPFB ∧ p.reportCount = PacketType.RTPFB_NACK

/-- A datagram that reads as RTP, or about whose packets nothing is done. -/
def Inert (data : Bytes) : Prop :=
  RtpPacket.ReadsAsRtp data ∨
    ∀ ps, parseCompound data = .ok ps → ∀ p ∈ ps, ¬ p.ActedOn

/-- A message that one of the loops makes: a NACK asks for something. -/
def RtcpMessage.Asks : RtcpMessage → Prop
  | nack _ _ lost => lost ≠ []
  | _ => True

/-! ### Reading as RTP -/

section ReadsAsRtp

variable {data : Bytes} {b : U8}

/-- A datagram of version 2 without extension and padding, with a header that fits. -/
theorem readsAsRtp_of_first (hdata : data.head? = some b) (hversion : b.toNat / 64 = 2)
    (hextension : b.toNat / 16 % 2 = 0) (hpadding : b.toNat / 32 % 2 = 0)
    (hlen : 12 + b.toNat % 16 * 4 ≤ data.length) : RtpPacket.ReadsAsRtp data := by
  have hfirst : data.getD 0 0 = b := by
    obtain ⟨rest, rfl⟩ := List.head?_eq_some_iff.1 hdata
    rfl
  have hstart : RtpPacket.payloadStart data = 12 + b.toNat % 16 * 4 := by
    rw [RtpPacket.payloadStart, RtpPacket.headerBit, RtpPacket.csrcEnd, hfirst,
      if_neg (by omega)]
  refine ⟨by omega, hfirst ▸ hversion, hstart ▸ hlen, fun h => ?_⟩
  rw [RtpPacket.headerBit, hfirst] at h
  omega

/-- The last byte of a padded message counts its padding. -/
theorem last_feedbackBytes (first type : U8) (sender media : U32) (payload : Bytes) {pad : ℕ}
    (hpad : 0 < pad) (hlt : pad < 256) :
    let data := feedbackBytes first type sender media payload pad
    (data.getD (data.length - 1) 0).toNat = pad := by
  intro data
  have hlast : data.getLast? = some (BitVec.ofNat 8 pad) := by
    rw [show data = _ ++ RtcpPacket.paddingBytes pad from rfl, RtcpPacket.paddingBytes,
      if_pos hpad, ← List.append_assoc, List.getLast?_concat]
  rw [List.getLast?_eq_getElem?] at hlast
  rw [List.getD_eq_getElem?_getD, hlast, Option.getD_some, BitVec.toNat_ofNat]
  omega

end ReadsAsRtp

/-- A feedback message of whole words that is a compound by itself. -/
theorem parseCompound_single {data : Bytes} {length : U16} {p : RtcpPacket}
    (hlength : readBig16 data 2 = .ok length) (hsize : (length.toNat + 1) * 4 = data.length)
    (hparse : RtcpPacket.parse data = .ok (some p)) : parseCompound data = .ok [p] := by
  have hslice : slice data 0 data.length = .ok data := by
    rw [slice_ok (by omega), List.drop_zero, List.take_length]
  obtain ⟨n, hn⟩ : ∃ n, data.length = n + 1 := ⟨data.length - 1, by omega⟩
  have hrest : parseCompoundFrom data n data.length = .ok [] := by
    cases n with
    | zero => rfl
    | succ n =>
      rw [parseCompoundFrom, if_neg (by omega)]
      rfl
  rw [parseCompound, hn, parseCompoundFrom, if_pos (by omega), Nat.zero_add, hlength]
  simp only [Checked.ok_bind, Nat.zero_add, hsize]
  rw [if_neg (by omega), hslice]
  simp only [Checked.ok_bind, hparse, hrest]
  rfl

namespace RtcpMessage

/-- The SDES chunk is longer than a header with one CSRC. -/
theorem length_reportSdes : reportSdes.length = 20 := by decide

/-- A transport-cc feedback of 72 bytes and more reads as RTP; in a shorter one is nothing to do. -/
theorem inert_buildTransportCc (fb : TransportCcFeedback) : Inert (buildTransportCc fb) := by
  have hlen : (buildTransportCc fb).length = 12 + fb.fci.length + fb.pad := by
    rw [buildTransportCc_eq, length_feedbackBytes]
  have hpad : fb.pad = (4 - (12 + fb.fci.length) % 4) % 4 := rfl
  by_cases hlong : 72 ≤ (buildTransportCc fb).length
  · left
    by_cases hp : 0 < fb.pad
    · -- With padding, which is behind the 15 CSRCs.
      have hfirst : (buildTransportCc fb).getD 0 0 = 0xAF := by
        rw [buildTransportCc_eq, if_pos hp]
        rfl
      have hstart : RtpPacket.payloadStart (buildTransportCc fb) = 72 := by
        rw [RtpPacket.payloadStart, RtpPacket.headerBit, RtpPacket.csrcEnd, hfirst]
        rfl
      refine ⟨by omega, by rw [hfirst]; rfl, by omega, fun _ _ => ?_⟩
      rw [hstart]
      have hlast := last_feedbackBytes (if 0 < fb.pad then 0xAF else 0x8F) PacketType.RTPFB
        fb.senderSsrc fb.mediaSsrc fb.fci hp (by omega)
      rw [← buildTransportCc_eq] at hlast
      omega
    · refine readsAsRtp_of_first (b := 0x8F) ?_ rfl rfl rfl hlong
      rw [buildTransportCc_eq, if_neg hp]
      rfl
  · right
    intro ps hps p hp
    obtain ⟨q, hparse, htype, hcount, -⟩ := parse_buildTransportCc fb (by omega)
    have hlength : readBig16 (buildTransportCc fb) 2 =
        .ok (lengthWords (12 + fb.fci.length + fb.pad)) :=
      (read_feedbackBytes _ _ _ _ _ _).2.2.1
    have hsize : ((lengthWords (12 + fb.fci.length + fb.pad)).toNat + 1) * 4 =
        (buildTransportCc fb).length := by
      rw [hlen]
      exact lengthWords_toNat (by omega) (by omega) (by omega)
    rw [parseCompound_single hlength hsize hparse] at hps
    obtain rfl := Except.ok.inj hps
    rw [List.mem_singleton.1 hp, RtcpPacket.ActedOn, htype, hcount]
    decide

/-- In a PLI is nothing to do. -/
theorem inert_pli (media : U32) : Inert (pli media).bytes := by
  right
  intro ps hps p hp
  have hparse := RtcpPsfb.parse_bytes { fmt := PacketType.PSFB_PLI, mediaSsrc := media }
    (show (1 : U8).toNat < 32 by decide) (Nat.dvd_zero 4) (Nat.zero_le _)
  have hlength : readBig16 (pli media).bytes 2 = .ok (lengthWords 12) := by
    rw [bytes, RtcpPsfb.bytes_eq]
    exact (read_feedbackBytes _ _ _ _ _ _).2.2.1
  rw [parseCompound_single hlength rfl hparse] at hps
  obtain rfl := Except.ok.inj hps
  rw [List.mem_singleton.1 hp]
  rintro (h | h | ⟨h, -⟩)
  · exact absurd h (show PacketType.PSFB ≠ PacketType.SR by decide)
  · exact absurd h (show PacketType.PSFB ≠ PacketType.RR by decide)
  · exact absurd h (show PacketType.PSFB ≠ PacketType.RTPFB by decide)

/-- **Nothing is done about a message of this side.**  Reports and NACKs read as RTP, and so does a
long transport-cc feedback; the others are let pass. -/
theorem inert {m : RtcpMessage} (hm : m.Asks) : Inert m.bytes := by
  cases m with
  | senderReports streams =>
    left
    cases streams with
    | nil => decide
    | cons s ss =>
      obtain ⟨rest, hrest, hlen⟩ := s.report.bytes_head
      have hfirst : s.report.firstByte = 0x80 := by
        simp [RtcpPacket.firstByte, SenderInfo.report]
      refine readsAsRtp_of_first (b := 0x80) ?_ rfl rfl rfl ?_
      · rw [bytes, senderCompound, List.flatMap_cons, hrest, hfirst]
        rfl
      · rw [bytes, senderCompound, List.length_append, length_reportSdes]
        show 12 ≤ _
        omega
  | receiverReports b bs =>
    left
    obtain ⟨rest, hrest, hlen⟩ := b.report.bytes_head
    have hfirst : b.report.firstByte = 0x81 := by
      simp [RtcpPacket.firstByte, ReportBlock.report]
    refine readsAsRtp_of_first (b := 0x81) ?_ rfl rfl rfl ?_
    · rw [bytes, receiverCompound, List.flatMap_cons, hrest, hfirst]
      rfl
    · rw [bytes, receiverCompound, List.length_append, length_reportSdes]
      show 16 ≤ _
      omega
  | nack sender media lost =>
    left
    refine readsAsRtp_of_first (b := 0x81) rfl rfl rfl rfl ?_
    rw [bytes, RtcpRtpfb.bytes_eq, length_feedbackBytes, length_lostEntries]
    have hpos : 0 < lost.length := List.length_pos_of_ne_nil hm
    show 16 ≤ 12 + lost.length * 4 + 0
    omega
  | pli media => exact inert_pli media
  | transportCc fb => exact inert_buildTransportCc fb

end RtcpMessage

end AsioRtc
