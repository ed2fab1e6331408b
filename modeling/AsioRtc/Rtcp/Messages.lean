/-
# The RTCP datagrams this side sends

`connection_impl::_sender_rtcp_loop`, `_receiver_rtcp_loop`, `_nack_loop` and the
PLI of `dispatch_rtp` in `src/connection_impl.cpp`: what each of them hands to
`send_rtcp` or `sync_send_rtcp`.  A report loop sends a compound of reports and an
SDES chunk; the other messages travel alone.

Each datagram begins with the header of its first packet, which is what a receiver
tells it by (`RtcpMessage.head`).
-/

import AsioRtc.Rtcp.Feedback

namespace AsioRtc

open Lib

/-- What a sender report takes from an `rtp_stream`. -/
structure SenderInfo where
  ssrc : U32 := 0
  ntpTimestamp : U64 := 0
  rtpTimestamp : U32 := 0
  packetCount : U32 := 0
  octetCount : U32 := 0
  deriving DecidableEq, Repr

/-- The sender report of one stream. -/
def SenderInfo.report (s : SenderInfo) : RtcpPacket :=
  { type := PacketType.SR
    ssrc := s.ssrc
    ntpTimestamp := s.ntpTimestamp
    rtpTimestamp := s.rtpTimestamp
    senderPacketCount := s.packetCount
    senderOctetCount := s.octetCount }

/-- The receiver report with one block. -/
def ReportBlock.report (b : ReportBlock) : RtcpPacket :=
  { type := PacketType.RR, reportCount := 1, ssrc := 0, blocks := [b] }

/-- The chunk at the end of a compound: `sdes_chunk{0, "asiortc"}`. -/
def reportSdes : Bytes := SdesChunk.bytes { cname := [97, 115, 105, 111, 114, 116, 99] }

/-- The compound of `_sender_rtcp_loop`. -/
def senderCompound (streams : List SenderInfo) : Bytes :=
  streams.flatMap (fun s => s.report.bytes) ++ reportSdes

/-- The compound of `_receiver_rtcp_loop`, which sends nothing where there is no block. -/
def receiverCompound (b : ReportBlock) (bs : List ReportBlock) : Bytes :=
  (b :: bs).flatMap (fun b => b.report.bytes) ++ reportSdes

/-- An RTCP datagram, by the place that sends it. -/
inductive RtcpMessage where
  | senderReports (streams : List SenderInfo)
  | receiverReports (b : ReportBlock) (bs : List ReportBlock)
  | nack (senderSsrc mediaSsrc : U32) (lost : List U16)
  | pli (mediaSsrc : U32)
  | transportCc (fb : TransportCcFeedback)

namespace RtcpMessage

/-- The datagram before it is protected. -/
def bytes : RtcpMessage → Bytes
  | senderReports streams => senderCompound streams
  | receiverReports b bs => receiverCompound b bs
  | nack sender media lost =>
      RtcpRtpfb.bytes { fmt := PacketType.RTPFB_NACK, senderSsrc := sender, mediaSsrc := media,
                        lost := lost }
  | pli media => RtcpPsfb.bytes { fmt := PacketType.PSFB_PLI, senderSsrc := 0, mediaSsrc := media }
  | transportCc fb => buildTransportCc fb

/-- The type of its first packet. -/
def firstType : RtcpMessage → U8
  | senderReports [] => PacketType.SDES
  | senderReports (_ :: _) => PacketType.SR
  | receiverReports _ _ => PacketType.RR
  | nack _ _ _ => PacketType.RTPFB
  | pli _ => PacketType.PSFB
  | transportCc _ => PacketType.RTPFB

/-- A report compound. -/
def isReport : RtcpMessage → Bool
  | senderReports _ => true
  | receiverReports _ _ => true
  | _ => false

/-- **How a datagram begins.**  With a byte of version 2 and the type of its first packet, in
at least eight bytes. -/
theorem head (m : RtcpMessage) :
    ∃ b₀ rest, m.bytes = b₀ :: m.firstType :: rest ∧ 6 ≤ rest.length ∧
      128 ≤ b₀.toNat ∧ b₀.toNat ≤ 191 := by
  cases m with
  | senderReports streams =>
    cases streams with
    | nil => exact ⟨0x81, reportSdes.drop 2, by decide, by decide, by decide, by decide⟩
    | cons s ss =>
      obtain ⟨rest, hrest, hlen⟩ := s.report.bytes_head
      have hfirst : s.report.firstByte = 0x80 := by
        simp [RtcpPacket.firstByte, SenderInfo.report]
      refine ⟨0x80, rest ++ (ss.flatMap (fun s => s.report.bytes) ++ reportSdes), ?_, ?_,
        by decide, by decide⟩
      · rw [bytes, senderCompound, List.flatMap_cons, hrest, hfirst, List.append_assoc]
        rfl
      · simp only [SenderInfo.report, true_or, if_true] at hlen
        rw [List.length_append]
        omega
  | receiverReports b bs =>
    obtain ⟨rest, hrest, hlen⟩ := b.report.bytes_head
    have hfirst : b.report.firstByte = 0x81 := by
      simp [RtcpPacket.firstByte, ReportBlock.report]
    refine ⟨0x81, rest ++ (bs.flatMap (fun b => b.report.bytes) ++ reportSdes), ?_, ?_,
      by decide, by decide⟩
    · rw [bytes, receiverCompound, List.flatMap_cons, hrest, hfirst, List.append_assoc]
      rfl
    · simp only [ReportBlock.report, or_true, if_true] at hlen
      rw [List.length_append]
      omega
  | nack sender media lost =>
    refine ⟨_, _, rfl, ?_, by decide, by decide⟩
    simp
    omega
  | pli media =>
    have hb : RtcpMessage.bytes (pli media) =
        0x81 :: PacketType.PSFB :: (big16 (lengthWords 12) ++ big32 0 ++ big32 media) := by
      simp [bytes, RtcpPsfb.bytes, PacketType.PSFB_PLI]
    exact ⟨0x81, _, hb, by simp, by decide, by decide⟩
  | transportCc fb =>
    refine ⟨_, _, rfl, ?_, ?_, ?_⟩
    · simp
      omega
    · split <;> decide
    · split <;> decide

/-- Report compounds are the datagrams whose first packet has a type from 200 to 204. -/
theorem isReport_iff (m : RtcpMessage) :
    m.isReport = true ↔ 200 ≤ m.firstType.toNat ∧ m.firstType.toNat ≤ 204 := by
  cases m with
  | senderReports streams =>
    cases streams <;> simp [firstType, isReport, PacketType.SR, PacketType.SDES]
  | receiverReports b bs => simp [firstType, isReport, PacketType.RR]
  | nack sender media lost => simp [firstType, isReport, PacketType.RTPFB]
  | pli media => simp [firstType, isReport, PacketType.PSFB]
  | transportCc fb => simp [firstType, isReport, PacketType.RTPFB]

end RtcpMessage

end AsioRtc
