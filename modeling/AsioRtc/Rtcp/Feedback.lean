/-
# The RTCP messages this side builds

The second half of `src/rtcp.cpp`: generic NACK (`RtcpRtpfb`), payload-specific
feedback (`RtcpPsfb`), the SDES chunk of the report loops (`SdesChunk`), and the
transport-wide congestion control feedback with its packet status chunks
(`TransportCcFeedback`, `tccBuildPacketStatus`).  The parser of a NACK's lost
numbers (`parseNack`) is here too.
-/

import AsioRtc.Rtcp.Packet

namespace AsioRtc

open Lib

/-- The length field of a message of `total` bytes. -/
def lengthWords (total : ℕ) : U16 := BitVec.ofNat 16 (total / 4 - 1)

/-- `rtcp::rtcp_rtpfb`. -/
structure RtcpRtpfb where
  fmt : U8 := 1
  senderSsrc : U32 := 0
  mediaSsrc : U32 := 0
  lost : List U16 := []
  deriving DecidableEq, Repr

/-- `rtcp_rtpfb::bytes`: each lost number with an empty BLP, the format always 1. -/
def RtcpRtpfb.bytes (fb : RtcpRtpfb) : Bytes :=
  [((2 : U8) <<< 6) ||| 1, PacketType.RTPFB] ++ big16 (lengthWords (12 + fb.lost.length * 4)) ++
    big32 fb.senderSsrc ++ big32 fb.mediaSsrc ++ fb.lost.flatMap fun s => big16 s ++ [0, 0]

/-- `rtcp::rtcp_psfb`. -/
structure RtcpPsfb where
  fmt : U8 := 1
  senderSsrc : U32 := 0
  mediaSsrc : U32 := 0
  fci : Bytes := []
  deriving DecidableEq, Repr

/-- `rtcp_psfb::bytes`. -/
def RtcpPsfb.bytes (fb : RtcpPsfb) : Bytes :=
  [((2 : U8) <<< 6) ||| fb.fmt, PacketType.PSFB] ++ big16 (lengthWords (12 + fb.fci.length)) ++
    big32 fb.senderSsrc ++ big32 fb.mediaSsrc ++ fb.fci

/-- `rtcp::sdes_chunk`. -/
structure SdesChunk where
  ssrc : U32 := 0
  cname : Bytes := []
  deriving DecidableEq, Repr

/-- The chunk before it is padded to words: SSRC, the CNAME item and its end. -/
def SdesChunk.items (c : SdesChunk) : Bytes :=
  big32 c.ssrc ++ [1, BitVec.ofNat 8 c.cname.length] ++ c.cname ++ [0, 0]

/-- `sdes_chunk::bytes`. -/
def SdesChunk.bytes (c : SdesChunk) : Bytes :=
  let data := c.items ++ List.replicate ((4 - c.items.length % 4) % 4) 0
  [((2 : U8) <<< 6) ||| 1, PacketType.SDES] ++ big16 (lengthWords (4 + data.length)) ++ data

/-- The lost numbers of one NACK entry: the packet id and the bits of the mask. -/
def nackEntry (pid blp : U16) : List U16 :=
  pid :: ((List.range 16).filter fun i => blp.getLsbD i).map fun i =>
    pid + BitVec.ofNat 16 i + 1

/-- `parse_nack` from offset `o` on, `n` entries of four bytes. -/
def parseNackFrom (data : Bytes) : ℕ → ℕ → Checked (List U16)
  | 0, _ => pure []
  | n + 1, o => do
      let pid ← readBig16 data o
      let blp ← readBig16 data (o + 2)
      let rest ← parseNackFrom data n (o + 4)
      pure (nackEntry pid blp ++ rest)

/-- `rtcp::parse_nack`. -/
def parseNack (data : Bytes) : Checked (List U16) := parseNackFrom data (data.length / 4) 0

theorem parseNack_safe (data : Bytes) : (parseNack data).Safe := by
  have hfrom : ∀ n o, o + n * 4 ≤ data.length → (parseNackFrom data n o).Safe := by
    intro n
    induction n with
    | zero => exact fun _ _ => Checked.safe_pure
    | succ n ih =>
      intro o ho
      refine (readBig16_safe (by omega)).bind fun _ _ => ?_
      refine (readBig16_safe (by omega)).bind fun _ _ => ?_
      exact (ih (o + 4) (by omega)).bind fun _ _ => Checked.safe_pure
  exact hfrom _ 0 (by omega)

/-- `rtcp::transport_cc_feedback`. -/
structure TransportCcFeedback where
  senderSsrc : U32 := 0
  mediaSsrc : U32 := 0
  baseSeq : U16 := 0
  statusCount : U16 := 0
  referenceTime : U32 := 0
  feedbackPacketCount : U8 := 0
  packetChunks : Bytes := []
  deriving DecidableEq, Repr

/-- The feedback control information: eight bytes, then the chunks. -/
def TransportCcFeedback.fci (fb : TransportCcFeedback) : Bytes :=
  big16 fb.baseSeq ++ big16 fb.statusCount ++
    [(fb.referenceTime >>> 16 &&& 0xFF).setWidth 8, (fb.referenceTime >>> 8 &&& 0xFF).setWidth 8,
      (fb.referenceTime &&& 0xFF).setWidth 8, fb.feedbackPacketCount] ++ fb.packetChunks

/-- `build_transport_cc`: padded to words, the P bit and the last byte saying so. -/
def buildTransportCc (fb : TransportCcFeedback) : Bytes :=
  let size := 12 + fb.fci.length
  let pad := (4 - size % 4) % 4
  let first : U8 := ((2 : U8) <<< 6) ||| PacketType.RTPFB_TCC
  [if 0 < pad then first ||| 0x20 else first, PacketType.RTPFB] ++
    big16 (lengthWords (size + pad)) ++ big32 fb.senderSsrc ++ big32 fb.mediaSsrc ++ fb.fci ++
    RtcpPacket.paddingBytes pad

/-- `rtcp::tcc_packet_status`. -/
inductive TccPacketStatus
  | notReceived
  | smallDelta
  | largeDelta
  | receivedWithoutDelta
  deriving DecidableEq, Repr

/-- `rtcp::tcc_packet_info`; the delta is the `int16_t`, as its bits. -/
structure TccPacketInfo where
  status : TccPacketStatus
  delta : U16 := 0
  deriving DecidableEq, Repr

/-- The two-bit symbol of a status. -/
def TccPacketStatus.symbol : TccPacketStatus → U16
  | .notReceived => 0
  | .smallDelta => 1
  | .largeDelta => 2
  | .receivedWithoutDelta => 3

/-- The receive delta a packet adds to the message. -/
def TccPacketInfo.deltaBytes (p : TccPacketInfo) : Bytes :=
  match p.status with
  | .smallDelta => [p.delta.setWidth 8]
  | .largeDelta => [(p.delta >>> 8 &&& 0xFF).setWidth 8, (p.delta &&& 0xFF).setWidth 8]
  | _ => []

/-- The symbols of up to seven packets, the first one at bit `bits`. -/
def tccSymbols : ℕ → List TccPacketInfo → U16
  | _, [] => 0
  | bits, p :: ps => (p.status.symbol <<< bits) ||| tccSymbols (bits - 2) ps

/-- The status vector chunks, seven packets each; `fuel` bounds their number. -/
def tccChunks : ℕ → List TccPacketInfo → Bytes
  | 0, _ => []
  | _ + 1, [] => []
  | fuel + 1, p :: ps =>
      big16 (0xC000 ||| tccSymbols 12 ((p :: ps).take 7)) ++ tccChunks fuel ((p :: ps).drop 7)

/-- `tcc_build_packet_status`: the chunks, then the deltas. -/
def tccBuildPacketStatus (packets : List TccPacketInfo) : Bytes :=
  tccChunks packets.length packets ++ packets.flatMap TccPacketInfo.deltaBytes

/-- Two lost numbers of a NACK come back out of its payload. -/
example :
    parseNack ((RtcpRtpfb.bytes { mediaSsrc := 7, lost := [3, 65535] }).drop 12) =
      .ok [3, 65535] := by decide

end AsioRtc
