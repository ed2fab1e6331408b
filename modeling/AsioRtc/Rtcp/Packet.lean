/-
# RTCP packets

`src/rtcp.hpp` and the first half of `src/rtcp.cpp`: the packet record, its parser
and serializer, and the walk over a compound datagram.  `parse` reads the common
header and then the body its type calls for; sender and receiver reports carry
report blocks, feedback carries the media SSRC, and every type keeps what is left
of its length as payload, less the padding.

`parseCompound` walks the packets of a datagram by their length fields and stops
at the first one that does not fit or does not parse.
-/

import AsioRtc.Bytes

namespace AsioRtc

open Lib

namespace PacketType

/-- The sender report. -/
def SR : U8 := 200
/-- The receiver report. -/
def RR : U8 := 201
/-- The description of the sources. -/
def SDES : U8 := 202
/-- The end of sources. -/
def BYE : U8 := 203
/-- What belongs to an application. -/
def APP : U8 := 204
/-- Feedback of the transport. -/
def RTPFB : U8 := 205
/-- Feedback on the payload. -/
def PSFB : U8 := 206

/-- The format of a NACK. -/
def RTPFB_NACK : U8 := 1
/-- The format of a report of arrival times. -/
def RTPFB_TCC : U8 := 15
/-- The format of a request for a picture. -/
def PSFB_PLI : U8 := 1
/-- The format of a request for a full picture; the branch of it is empty, as that of a PLI is. -/
def PSFB_FIR : U8 := 4
/-- The format of application feedback, which a REMB is; the branch of it is empty. -/
def PSFB_APP : U8 := 15

end PacketType

/-- `rtcp::report_block`. -/
structure ReportBlock where
  ssrc : U32 := 0
  fractionLost : U8 := 0
  cumulativeLost : U32 := 0
  extHighestSeq : U32 := 0
  jitter : U32 := 0
  lsr : U32 := 0
  dlsr : U32 := 0
  deriving DecidableEq, Repr

/-- `rtcp::rtcp_packet`. -/
structure RtcpPacket where
  version : U8 := 2
  padding : U8 := 0
  reportCount : U8 := 0
  type : U8 := 0
  ssrc : U32 := 0
  mediaSsrc : U32 := 0
  ntpTimestamp : U64 := 0
  rtpTimestamp : U32 := 0
  senderPacketCount : U32 := 0
  senderOctetCount : U32 := 0
  blocks : List ReportBlock := []
  payload : Bytes := []
  deriving DecidableEq, Repr

/-- `parse_report_block`. -/
def parseReportBlock (data : Bytes) (o : ℕ) : Checked ReportBlock := do
  let ssrc ← readBig32 data o
  let flc ← readBig32 data (o + 4)
  let ext ← readBig32 data (o + 8)
  let jitter ← readBig32 data (o + 12)
  let lsr ← readBig32 data (o + 16)
  let dlsr ← readBig32 data (o + 20)
  pure
    { ssrc := ssrc
      fractionLost := (flc >>> 24 &&& 0xFF).setWidth 8
      cumulativeLost := flc &&& 0x00FFFFFF
      extHighestSeq := ext
      jitter := jitter
      lsr := lsr
      dlsr := dlsr }

/-- `write_report_block`. -/
def writeReportBlock (b : ReportBlock) : Bytes :=
  big32 b.ssrc ++
    big32 ((b.fractionLost.setWidth 32 <<< 24) ||| (b.cumulativeLost &&& 0x00FFFFFF)) ++
    big32 b.extHighestSeq ++ big32 b.jitter ++ big32 b.lsr ++ big32 b.dlsr

namespace RtcpPacket

/-- The report blocks from offset `o` on, `n` of them, in a packet of `total`
bytes, with the offset behind them. -/
def parseBlocks (data : Bytes) (total : ℕ) : ℕ → ℕ → Checked (Option (List ReportBlock × ℕ))
  | 0, o => pure (some ([], o))
  | n + 1, o =>
      if total < o + 24 then pure none
      else do
        let b ← parseReportBlock data o
        match ← parseBlocks data total n (o + 24) with
        | none => pure none
        | some (bs, o') => pure (some (b :: bs, o'))

/-- What is left of the packet from offset `o` on, less its padding. -/
def parseRest (data : Bytes) (pkt : RtcpPacket) (total o : ℕ) : Checked (Option RtcpPacket) :=
  if pkt.padding ≠ 0 ∧ 0 < total - o then do
    let padLen ← byteAt data (total - 1)
    if padLen = 0 ∨ total - o < padLen.toNat then pure none
    else do
      let payload ← slice data o (total - o - padLen.toNat)
      pure (some { pkt with payload := payload })
  else do
    let payload ← slice data o (total - o)
    pure (some { pkt with payload := payload })

/-- The body of a sender report. -/
def parseSenderReport (data : Bytes) (pkt : RtcpPacket) (total : ℕ) :
    Checked (Option RtcpPacket) :=
  if total < 4 + 4 + 20 then pure none
  else do
    let ssrc ← readBig32 data 4
    let msw ← readBig32 data 8
    let lsw ← readBig32 data 12
    let rtp ← readBig32 data 16
    let packets ← readBig32 data 20
    let octets ← readBig32 data 24
    match ← parseBlocks data total pkt.reportCount.toNat 28 with
    | none => pure none
    | some (bs, o) =>
      parseRest data
        { pkt with
          ssrc := ssrc
          ntpTimestamp := (msw.setWidth 64 <<< 32) ||| lsw.setWidth 64
          rtpTimestamp := rtp
          senderPacketCount := packets
          senderOctetCount := octets
          blocks := bs }
        total o

/-- The body of a receiver report. -/
def parseReceiverReport (data : Bytes) (pkt : RtcpPacket) (total : ℕ) :
    Checked (Option RtcpPacket) :=
  if total < 4 + 4 then pure none
  else do
    let ssrc ← readBig32 data 4
    match ← parseBlocks data total pkt.reportCount.toNat 8 with
    | none => pure none
    | some (bs, o) => parseRest data { pkt with ssrc := ssrc, blocks := bs } total o

/-- The body of a feedback message; the sender SSRC is ignored. -/
def parseFeedback (data : Bytes) (pkt : RtcpPacket) (total : ℕ) : Checked (Option RtcpPacket) :=
  if total < 4 + 8 then pure none
  else do
    let media ← readBig32 data 8
    parseRest data { pkt with mediaSsrc := media } total 12

/-- `rtcp_packet::parse`. -/
def parse (data : Bytes) : Checked (Option RtcpPacket) :=
  if data.length < 4 then pure none
  else do
    let b0 ← byteAt data 0
    let type ← byteAt data 1
    let length ← readBig16 data 2
    let pkt : RtcpPacket :=
      { version := b0 >>> 6 &&& 0x03
        padding := b0 >>> 5 &&& 0x01
        reportCount := b0 &&& 0x1F
        type := type }
    let total := (length.toNat + 1) * 4
    if data.length < total then pure none
    else if type = PacketType.SR then parseSenderReport data pkt total
    else if type = PacketType.RR then parseReceiverReport data pkt total
    else if type = PacketType.RTPFB ∨ type = PacketType.PSFB then parseFeedback data pkt total
    else if type = PacketType.BYE ∨ type = PacketType.SDES ∨ type = PacketType.APP then
      parseRest data pkt total 4
    else pure (some pkt)

/-- The bytes before the padding: header, SSRC, sender info, blocks and payload. -/
def unpaddedSize (pkt : RtcpPacket) : ℕ :=
  4 + (if pkt.type = PacketType.SR ∨ pkt.type = PacketType.RR then 4 else 0) +
    (if pkt.type = PacketType.SR then 20 else 0) + pkt.blocks.length * 24 + pkt.payload.length

/-- `rtcp_packet::serialized_size`. -/
def serializedSize (pkt : RtcpPacket) : ℕ :=
  if pkt.padding ≠ 0 then
    if pkt.unpaddedSize % 4 = 0 then pkt.unpaddedSize + 4
    else pkt.unpaddedSize + (4 - pkt.unpaddedSize % 4)
  else pkt.unpaddedSize

/-- The common header of a packet that is `size` bytes long. -/
def header (pkt : RtcpPacket) (size : ℕ) : Bytes :=
  [(pkt.version <<< 6) ||| (pkt.padding <<< 5) ||| (pkt.reportCount &&& 0x1F), pkt.type] ++
    big16 (BitVec.ofNat 16 (size / 4 - 1))

/-- The padding bytes: zeros, then their number. -/
def paddingBytes (pad : ℕ) : Bytes :=
  if 0 < pad then List.replicate (pad - 1) 0 ++ [BitVec.ofNat 8 pad] else []

/-- `rtcp_packet::write_to` into a buffer of `len` bytes: what it writes, from the
start of the buffer on, or `none` where it returns `-1`. -/
def writeTo (pkt : RtcpPacket) (len : ℕ) : Option Bytes :=
  if len < pkt.serializedSize then none
  else
    some <|
      pkt.header pkt.serializedSize ++
      (if pkt.type = PacketType.SR ∨ pkt.type = PacketType.RR then big32 pkt.ssrc else []) ++
      (if pkt.type = PacketType.SR then
        big64 pkt.ntpTimestamp ++ big32 pkt.rtpTimestamp ++ big32 pkt.senderPacketCount ++
          big32 pkt.senderOctetCount
       else []) ++
      pkt.blocks.flatMap writeReportBlock ++ pkt.payload ++
      (if pkt.padding ≠ 0 then paddingBytes (pkt.serializedSize - pkt.unpaddedSize) else [])

/-- A buffer of `serialized_size()` bytes filled by `write_to`, as the report loops
make it. -/
def bytes (pkt : RtcpPacket) : Bytes := (pkt.writeTo pkt.serializedSize).getD []

/-- The first byte of a packet: version, P bit and count. -/
def firstByte (pkt : RtcpPacket) : U8 :=
  (pkt.version <<< 6) ||| (pkt.padding <<< 5) ||| (pkt.reportCount &&& 0x1F)

/-- How a written packet begins. -/
theorem bytes_head (pkt : RtcpPacket) :
    ∃ rest, pkt.bytes = pkt.firstByte :: pkt.type :: rest ∧
      2 + (if pkt.type = PacketType.SR ∨ pkt.type = PacketType.RR then 4 else 0) ≤ rest.length := by
  rw [bytes, writeTo, if_neg (lt_irrefl _)]
  refine ⟨_, rfl, ?_⟩
  split
  · simp
    omega
  · simp

/-- `rtcp_packet::is_rtcp_packet`. -/
def isRtcpPacket (data : Bytes) : Checked Bool :=
  if data.length < 4 then pure false
  else do
    let b0 ← byteAt data 0
    let b1 ← byteAt data 1
    pure (b0 >>> 6 == 2 && 192 ≤ b1.toNat)

end RtcpPacket

/-- The packets of a compound datagram from `offset` on.  Each takes at least
four bytes, so `fuel` may be the number of bytes. -/
def parseCompoundFrom (data : Bytes) : ℕ → ℕ → Checked (List RtcpPacket)
  | 0, _ => pure []
  | fuel + 1, offset =>
      if offset + 4 ≤ data.length then do
        let length ← readBig16 data (offset + 2)
        let pktLen := (length.toNat + 1) * 4
        if data.length < offset + pktLen then pure []
        else do
          let packet ← slice data offset pktLen
          match ← RtcpPacket.parse packet with
          | none => pure []
          | some pkt => do
              let rest ← parseCompoundFrom data fuel (offset + pktLen)
              pure (pkt :: rest)
      else pure []

/-- `rtcp::parse_compound`. -/
def parseCompound (data : Bytes) : Checked (List RtcpPacket) :=
  parseCompoundFrom data data.length 0

/-! ### No access outside the datagram -/

namespace RtcpPacket

variable {data : Bytes} {total : ℕ}

/-- A block that is inside the bytes is read safely. -/
theorem parseReportBlock_safe {o : ℕ} (h : o + 24 ≤ data.length) :
    (parseReportBlock data o).Safe := by
  unfold parseReportBlock
  refine (readBig32_safe (by omega)).bind fun _ _ => ?_
  refine (readBig32_safe (by omega)).bind fun _ _ => ?_
  refine (readBig32_safe (by omega)).bind fun _ _ => ?_
  refine (readBig32_safe (by omega)).bind fun _ _ => ?_
  refine (readBig32_safe (by omega)).bind fun _ _ => ?_
  exact (readBig32_safe (by omega)).bind fun _ _ => Checked.safe_pure

/-- The blocks end inside the packet. -/
theorem parseBlocks_yields (htotal : total ≤ data.length) {n o : ℕ} (ho : o ≤ total) :
    (parseBlocks data total n o).Yields fun r => ∀ p, r = some p → p.2 ≤ total := by
  induction n generalizing o with
  | zero =>
    refine Checked.yields_pure.2 fun p hp => ?_
    rw [← Option.some.inj hp]
    exact ho
  | succ n ih =>
    rw [parseBlocks]
    split
    · exact Checked.yields_pure.2 fun p hp => absurd hp (by simp)
    · rename_i hfit
      refine (Checked.safe_iff.1 (parseReportBlock_safe (by omega))).bind fun b _ => ?_
      refine (ih (by omega)).bind fun r hr => ?_
      cases r with
      | none => exact Checked.yields_pure.2 fun p hp => absurd hp (by simp)
      | some q =>
        refine Checked.yields_pure.2 fun p hp => ?_
        rw [← Option.some.inj hp]
        exact hr q rfl

/-- What is left of a packet is inside it. -/
theorem parseRest_safe (htotal : total ≤ data.length) (pkt : RtcpPacket) {o : ℕ} (ho : o ≤ total) :
    (parseRest data pkt total o).Safe := by
  unfold parseRest
  split
  · rename_i hpad
    refine (safe_byteAt.2 (by omega)).bind fun padLen _ => ?_
    refine Checked.Safe.ite (fun _ => Checked.safe_pure) fun hfit => ?_
    exact (safe_slice (by omega)).bind fun _ _ => Checked.safe_pure
  · exact (safe_slice (by omega)).bind fun _ _ => Checked.safe_pure

/-- A sender report is read inside its own length. -/
theorem parseSenderReport_safe (htotal : total ≤ data.length) (pkt : RtcpPacket) :
    (parseSenderReport data pkt total).Safe := by
  unfold parseSenderReport
  refine Checked.Safe.ite (fun _ => Checked.safe_pure) fun hfit => ?_
  refine (readBig32_safe (by omega)).bind fun _ _ => ?_
  refine (readBig32_safe (by omega)).bind fun _ _ => ?_
  refine (readBig32_safe (by omega)).bind fun _ _ => ?_
  refine (readBig32_safe (by omega)).bind fun _ _ => ?_
  refine (readBig32_safe (by omega)).bind fun _ _ => ?_
  refine (readBig32_safe (by omega)).bind fun _ _ => ?_
  obtain ⟨r, hr, hend⟩ := parseBlocks_yields htotal (n := pkt.reportCount.toNat) (o := 28) (by omega)
  rw [hr]
  cases r with
  | none => exact Checked.safe_pure
  | some p => exact parseRest_safe htotal _ (hend p rfl)

/-- A receiver report is read inside its own length. -/
theorem parseReceiverReport_safe (htotal : total ≤ data.length) (pkt : RtcpPacket) :
    (parseReceiverReport data pkt total).Safe := by
  unfold parseReceiverReport
  refine Checked.Safe.ite (fun _ => Checked.safe_pure) fun hfit => ?_
  refine (readBig32_safe (by omega)).bind fun _ _ => ?_
  obtain ⟨r, hr, hend⟩ := parseBlocks_yields htotal (n := pkt.reportCount.toNat) (o := 8) (by omega)
  rw [hr]
  cases r with
  | none => exact Checked.safe_pure
  | some p => exact parseRest_safe htotal _ (hend p rfl)

/-- Feedback is read inside its own length. -/
theorem parseFeedback_safe (htotal : total ≤ data.length) (pkt : RtcpPacket) :
    (parseFeedback data pkt total).Safe := by
  unfold parseFeedback
  refine Checked.Safe.ite (fun _ => Checked.safe_pure) fun hfit => ?_
  exact (readBig32_safe (by omega)).bind fun _ _ => parseRest_safe htotal _ (by omega)

/-- **No access of the parser is outside the packet.** -/
theorem parse_safe (data : Bytes) : (parse data).Safe := by
  unfold parse
  refine Checked.Safe.ite (fun _ => Checked.safe_pure) fun hfit => ?_
  refine (safe_byteAt.2 (by omega)).bind fun b0 _ => ?_
  refine (safe_byteAt.2 (by omega)).bind fun type _ => ?_
  refine (readBig16_safe (by omega)).bind fun length _ => ?_
  refine Checked.Safe.ite (fun _ => Checked.safe_pure) fun htotal => ?_
  have htotal : (length.toNat + 1) * 4 ≤ data.length := Nat.le_of_not_lt htotal
  refine Checked.Safe.ite (fun _ => parseSenderReport_safe htotal _) fun _ => ?_
  refine Checked.Safe.ite (fun _ => parseReceiverReport_safe htotal _) fun _ => ?_
  refine Checked.Safe.ite (fun _ => parseFeedback_safe htotal _) fun _ => ?_
  exact Checked.Safe.ite (fun _ => parseRest_safe htotal _ (by omega)) fun _ => Checked.safe_pure

end RtcpPacket

/-- Every packet of a compound one is read inside the bytes. -/
theorem parseCompoundFrom_safe (data : Bytes) (fuel offset : ℕ) :
    (parseCompoundFrom data fuel offset).Safe := by
  induction fuel generalizing offset with
  | zero => exact Checked.safe_pure
  | succ fuel ih =>
    rw [parseCompoundFrom]
    refine Checked.Safe.ite (fun hfit => ?_) fun _ => Checked.safe_pure
    refine (readBig16_safe (by omega)).bind fun length _ => ?_
    refine Checked.Safe.ite (fun _ => Checked.safe_pure) fun hlen => ?_
    refine (safe_slice (Nat.le_of_not_lt hlen)).bind fun packet _ => ?_
    refine (RtcpPacket.parse_safe packet).bind fun r _ => ?_
    cases r with
    | none => exact Checked.safe_pure
    | some pkt => exact (ih _).bind fun _ _ => Checked.safe_pure

/-- **No access of the walk is outside the datagram.** -/
theorem parseCompound_safe (data : Bytes) : (parseCompound data).Safe :=
  parseCompoundFrom_safe data data.length 0

end AsioRtc
