/-
# Compound RTCP datagrams

That `parse_compound` reads back what `rtcp_packet::write_to` wrote, for any list of
well-formed sender reports, receiver reports, SDES, BYE and APP packets.  A written
packet is parsed back (`parse_bytes`) whatever it carries: each body is read from
the bytes that stand at its offset.  The walk then finds every boundary, since the
length field of a packet gives the number of its bytes (`length_bytes`).
-/

import AsioRtc.Rtcp.Packet

namespace AsioRtc

open Lib

/-! ### Report blocks -/

section Blocks

variable {data : Bytes} {o : ℕ}

/-- The word of the fraction and the cumulative number of lost packets. -/
theorem lostWord_toNat (f : U8) (c : U32) :
    ((f.setWidth 32 <<< 24) ||| (c &&& 0x00FFFFFF)).toNat =
      f.toNat * 2 ^ 24 + c.toNat % 2 ^ 24 := by
  have hf : (f.setWidth 32).toNat = f.toNat := BitVec.toNat_setWidth_of_le (by decide)
  have hc : (c &&& 0x00FFFFFF).toNat = c.toNat % 2 ^ 24 := toNat_and_mask 24 rfl
  rw [toNat_shiftLeft_or] <;> rw [hc]
  · rw [hf]
  · exact Nat.mod_lt _ (by decide)
  · rw [hf]
    omega

/-- The fraction lost and the cumulative number are read back from their word. -/
theorem lostWord_split (f : U8) {c : U32} (hc : c.toNat < 2 ^ 24) :
    ((((f.setWidth 32 <<< 24) ||| (c &&& 0x00FFFFFF)) >>> 24 &&& 0xFF).setWidth 8 = f) ∧
      ((f.setWidth 32 <<< 24) ||| (c &&& 0x00FFFFFF)) &&& 0x00FFFFFF = c := by
  have hw := lostWord_toNat f c
  refine ⟨?_, ?_⟩
  · rw [← BitVec.toNat_inj, BitVec.toNat_setWidth, toNat_and_mask 8 rfl, toNat_shiftRight, hw]
    omega
  · rw [← BitVec.toNat_inj, toNat_and_mask 24 rfl, hw]
    omega

theorem length_writeReportBlock (b : ReportBlock) : (writeReportBlock b).length = 24 := rfl

/-- A report block that stands at `o` is read. -/
theorem parseReportBlock_written {b : ReportBlock} {rest : Bytes}
    (hb : b.cumulativeLost.toNat < 2 ^ 24) (h : data.drop o = writeReportBlock b ++ rest) :
    parseReportBlock data o = .ok b := by
  simp only [writeReportBlock, List.append_assoc] at h
  obtain ⟨hssrc, h⟩ := readBig32_written h
  obtain ⟨hlost, h⟩ := readBig32_written h
  obtain ⟨hseq, h⟩ := readBig32_written h
  obtain ⟨hjitter, h⟩ := readBig32_written h
  obtain ⟨hlsr, h⟩ := readBig32_written h
  obtain ⟨hdlsr, -⟩ := readBig32_written h
  obtain ⟨hf, hc⟩ := lostWord_split b.fractionLost hb
  rw [parseReportBlock, hssrc, hlost, hseq, hjitter, hlsr, hdlsr]
  simp only [Checked.ok_bind, hf, hc]
  rfl

theorem length_flatMap_blocks (bs : List ReportBlock) :
    (bs.flatMap writeReportBlock).length = bs.length * 24 := by
  induction bs with
  | nil => rfl
  | cons b bs ih =>
    rw [List.flatMap_cons, List.length_append, length_writeReportBlock, ih, List.length_cons]
    omega

/-- The report blocks that stand at `o` are read, one for each count. -/
theorem parseBlocks_written {total : ℕ} {bs : List ReportBlock} {rest : Bytes}
    (hbs : ∀ b ∈ bs, b.cumulativeLost.toNat < 2 ^ 24) (hfit : o + bs.length * 24 ≤ total)
    (h : data.drop o = bs.flatMap writeReportBlock ++ rest) :
    RtcpPacket.parseBlocks data total bs.length o = .ok (some (bs, o + bs.length * 24)) ∧
      data.drop (o + bs.length * 24) = rest := by
  refine ⟨?_, drop_behind h (length_flatMap_blocks bs)⟩
  induction bs generalizing o with
  | nil => rfl
  | cons b bs ih =>
    rw [List.flatMap_cons, List.append_assoc] at h
    simp only [List.length_cons] at hfit ⊢
    have hb := parseReportBlock_written (hbs b (List.mem_cons_self ..)) h
    have hrest := ih (o := o + 24) (fun b' hb' => hbs b' (List.mem_cons_of_mem _ hb')) (by omega)
      (drop_behind h (length_writeReportBlock b))
    rw [RtcpPacket.parseBlocks, if_neg (by omega), hb, Checked.ok_bind, hrest, Checked.ok_bind,
      show o + 24 + bs.length * 24 = o + (bs.length + 1) * 24 by omega]
    rfl

end Blocks

/-! ### A packet -/

namespace RtcpPacket

/-- Reports with as many blocks as they count, and the three types that carry nothing but a
payload; no packet carries a field its type does not have. -/
structure WellFormed (pkt : RtcpPacket) : Prop where
  version : pkt.version.toNat < 4
  type : pkt.type = PacketType.SR ∨ pkt.type = PacketType.RR ∨ pkt.type = PacketType.SDES ∨
    pkt.type = PacketType.BYE ∨ pkt.type = PacketType.APP
  reportCount : pkt.reportCount.toNat < 32
  report : pkt.type = PacketType.SR ∨ pkt.type = PacketType.RR →
    pkt.reportCount.toNat = pkt.blocks.length
  noReport : ¬ (pkt.type = PacketType.SR ∨ pkt.type = PacketType.RR) →
    pkt.blocks = [] ∧ pkt.ssrc = 0
  cumulativeLost : ∀ b ∈ pkt.blocks, b.cumulativeLost.toNat < 2 ^ 24
  noSenderInfo : pkt.type ≠ PacketType.SR →
    pkt.ntpTimestamp = 0 ∧ pkt.rtpTimestamp = 0 ∧ pkt.senderPacketCount = 0 ∧
      pkt.senderOctetCount = 0
  mediaSsrc : pkt.mediaSsrc = 0
  padding : pkt.padding = 1 ∨ pkt.padding = 0 ∧ 4 ∣ pkt.payload.length
  size : pkt.serializedSize ≤ 65536 * 4

variable {data : Bytes} {o : ℕ} {pkt : RtcpPacket}

theorem length_paddingBytes (pad : ℕ) : (paddingBytes pad).length = pad := by
  unfold paddingBytes
  split
  · simp
    omega
  · simp
    omega

/-- The padding brings a packet to a whole number of words, and is at most one. -/
theorem serializedSize_padded (hp : pkt.padding ≠ 0) :
    ∃ pad, 0 < pad ∧ pad ≤ 4 ∧ pkt.serializedSize = pkt.unpaddedSize + pad ∧
      4 ∣ pkt.serializedSize := by
  rw [serializedSize, if_pos hp]
  split
  · exact ⟨4, by omega, by omega, rfl, by omega⟩
  · exact ⟨4 - pkt.unpaddedSize % 4, by omega, by omega, rfl, by omega⟩

/-- A written packet is a whole number of words. -/
theorem WellFormed.words (h : pkt.WellFormed) : 4 ∣ pkt.serializedSize := by
  rcases h.padding with hp | ⟨hp, hpay⟩
  · have hne : pkt.padding ≠ 0 := by rw [hp]; decide
    obtain ⟨_, _, _, _, hdvd⟩ := serializedSize_padded hne
    exact hdvd
  · rw [serializedSize, if_neg (fun hne => hne hp), unpaddedSize]
    split <;> split <;> omega

/-- What is left behind the fixed fields is the payload and its padding. -/
theorem parseRest_written {p : RtcpPacket} {payload : Bytes} {pad : ℕ} (ho : o ≤ data.length)
    (hpad : p.padding ≠ 0 → 0 < pad) (hpad₀ : p.padding = 0 → pad = 0) (hlt : pad < 256)
    (h : data.drop o = payload ++ paddingBytes pad) :
    parseRest data p data.length o = .ok (some { p with payload := payload }) := by
  have hlen : data.length - o = payload.length + pad := by
    have := congrArg List.length h
    rwa [List.length_drop, List.length_append, length_paddingBytes] at this
  have hnum : (BitVec.ofNat 8 pad).toNat = pad := by
    rw [BitVec.toNat_ofNat]
    omega
  unfold parseRest
  by_cases hp : p.padding = 0
  · have h0 := hpad₀ hp
    rw [if_neg (fun hand => hand.1 hp), slice_ok (by omega), h, h0,
      List.take_of_length_le (by rw [← h0, List.length_append, length_paddingBytes]; omega)]
    exact congrArg (fun l => Except.ok (some { p with payload := l })) (List.append_nil _)
  · have h0 := hpad hp
    have hlast : byteAt data (data.length - 1) = .ok (BitVec.ofNat 8 pad) := by
      have hget : (data.drop o)[payload.length + (pad - 1)]? = some (BitVec.ofNat 8 pad) := by
        rw [h, List.getElem?_append_right (by omega), Nat.add_sub_cancel_left, paddingBytes,
          if_pos h0, List.getElem?_append_right (by simp)]
        simp
      rw [List.getElem?_drop, show o + (payload.length + (pad - 1)) = data.length - 1 by omega]
        at hget
      exact byteAt_eq_ok.2 hget
    have hne : ¬ (BitVec.ofNat 8 pad = 0 ∨ data.length - o < (BitVec.ofNat 8 pad).toNat) := by
      rw [← BitVec.toNat_inj, hnum]
      simp
      omega
    rw [if_pos ⟨hp, by omega⟩, hlast, Checked.ok_bind, if_neg hne, hnum, slice_ok (by omega), h,
      show data.length - o - pad = payload.length by omega, List.take_left]
    rfl

/-- The common header of a packet. -/
theorem versionByte_fields : ∀ v < 4, ∀ p < 2, ∀ c < 32,
    let b : U8 := (BitVec.ofNat 8 v <<< 6) ||| (BitVec.ofNat 8 p <<< 5) |||
      (BitVec.ofNat 8 c &&& 0x1F)
    b >>> 6 &&& 0x03 = BitVec.ofNat 8 v ∧ b >>> 5 &&& 0x01 = BitVec.ofNat 8 p ∧
      b &&& 0x1F = BitVec.ofNat 8 c := by
  decide +kernel

/-- The two words of a 64-bit number, put together. -/
theorem words_big64 (x : U64) :
    ((BitVec.ofNat 32 (x.toNat / 2 ^ 32)).setWidth 64 <<< 32) |||
      (BitVec.ofNat 32 x.toNat).setWidth 64 = x := by
  have hwide : ∀ n, ((BitVec.ofNat 32 n).setWidth 64 : U64).toNat = n % 2 ^ 32 := fun n => by
    rw [BitVec.toNat_setWidth_of_le (by decide), BitVec.toNat_ofNat]
  rw [← BitVec.toNat_inj, toNat_shiftLeft_or] <;> simp only [hwide] <;> omega

/-- The body of a written packet: everything behind the common header. -/
def body (pkt : RtcpPacket) : Bytes :=
  (if pkt.type = PacketType.SR ∨ pkt.type = PacketType.RR then big32 pkt.ssrc else []) ++
    (if pkt.type = PacketType.SR then
      big64 pkt.ntpTimestamp ++ big32 pkt.rtpTimestamp ++ big32 pkt.senderPacketCount ++
        big32 pkt.senderOctetCount
     else []) ++
    pkt.blocks.flatMap writeReportBlock ++ pkt.payload

theorem length_body (pkt : RtcpPacket) : 4 + pkt.body.length = pkt.unpaddedSize := by
  rw [body, unpaddedSize]
  simp only [List.length_append, length_flatMap_blocks]
  split <;> split <;> simp only [List.length_append, length_big64, length_big32, List.length_nil] <;>
    omega

/-- A written packet: header, body, padding. -/
theorem bytes_eq (pkt : RtcpPacket) : pkt.bytes = pkt.header pkt.serializedSize ++
    (pkt.body ++ paddingBytes (pkt.serializedSize - pkt.unpaddedSize)) := by
  have hpad : (if pkt.padding ≠ 0 then paddingBytes (pkt.serializedSize - pkt.unpaddedSize)
      else []) = paddingBytes (pkt.serializedSize - pkt.unpaddedSize) := by
    split
    · rfl
    · rename_i hp
      rw [serializedSize, if_neg hp, Nat.sub_self]
      rfl
  rw [bytes, writeTo, if_neg (lt_irrefl _), hpad, Option.getD_some, body]
  simp only [List.append_assoc]

theorem length_bytes (pkt : RtcpPacket) : pkt.bytes.length = pkt.serializedSize := by
  have hle : pkt.unpaddedSize ≤ pkt.serializedSize := by
    rw [serializedSize]
    split
    · split <;> omega
    · exact le_rfl
  have hbody := length_body pkt
  rw [bytes_eq]
  simp only [List.length_append, length_paddingBytes]
  rw [show (pkt.header pkt.serializedSize).length = 4 from rfl]
  omega

/-- What the common header alone says of a packet. -/
def headerPart (pkt : RtcpPacket) : RtcpPacket :=
  { version := pkt.version, padding := pkt.padding, reportCount := pkt.reportCount,
    type := pkt.type }

/-- The padding that `write_to` puts behind a well-formed packet: none without the P bit,
else one to four bytes. -/
theorem unpaddedSize_le (pkt : RtcpPacket) : pkt.unpaddedSize ≤ pkt.serializedSize := by
  by_cases hp : pkt.padding = 0
  · rw [serializedSize, if_neg (not_not.2 hp)]
  · obtain ⟨pad, -, -, hsize, -⟩ := serializedSize_padded hp
    omega

theorem WellFormed.pad (h : pkt.WellFormed) :
    (pkt.padding ≠ 0 → 0 < pkt.serializedSize - pkt.unpaddedSize) ∧
      (pkt.padding = 0 → pkt.serializedSize - pkt.unpaddedSize = 0) ∧
      pkt.serializedSize - pkt.unpaddedSize < 256 := by
  rcases h.padding with hp | ⟨hp, -⟩
  · have hne : pkt.padding ≠ 0 := by rw [hp]; decide
    obtain ⟨pad, h0, h4, hsize, -⟩ := serializedSize_padded hne
    rw [hsize, Nat.add_sub_cancel_left]
    exact ⟨fun _ => h0, fun h => absurd (hp.symm.trans h) (by decide), by omega⟩
  · rw [serializedSize, if_neg (fun hne => hne hp), Nat.sub_self]
    exact ⟨fun hne => absurd hp hne, fun _ => rfl, by decide⟩

/-- **The common header of a written packet is read back**, and its length is that of the
packet. -/
theorem parse_header_written (h : pkt.WellFormed) :
    parse pkt.bytes =
      if pkt.type = PacketType.SR then
        parseSenderReport pkt.bytes pkt.headerPart pkt.bytes.length
      else if pkt.type = PacketType.RR then
        parseReceiverReport pkt.bytes pkt.headerPart pkt.bytes.length
      else parseRest pkt.bytes pkt.headerPart pkt.bytes.length 4 := by
  have hlen := length_bytes pkt
  have hsize := h.size
  have hbody := length_body pkt
  obtain ⟨words, hwords⟩ := h.words
  have hle : 4 ≤ pkt.serializedSize := by
    have : pkt.unpaddedSize ≤ pkt.serializedSize := by
      rw [serializedSize]
      split
      · split <;> omega
      · exact le_rfl
    omega
  have hp₂ : pkt.padding.toNat < 2 := by
    rcases h.padding with hp | ⟨hp, -⟩ <;> rw [hp] <;> decide
  have hv := versionByte_fields _ h.version _ hp₂ _ h.reportCount
  simp only [BitVec.ofNat_toNat, BitVec.setWidth_eq] at hv
  have h0 : byteAt pkt.bytes 0 = .ok _ := byteAt_iff_drop.2 (by rw [bytes_eq]; rfl)
  have h1 : byteAt pkt.bytes 1 = .ok pkt.type := byteAt_iff_drop.2 (by rw [bytes_eq]; rfl)
  have h2 : readBig16 pkt.bytes 2 = .ok (BitVec.ofNat 16 (pkt.serializedSize / 4 - 1)) :=
    readBig16_iff_drop.2 (by rw [bytes_eq]; rfl)
  have htotal : ((BitVec.ofNat 16 (pkt.serializedSize / 4 - 1)).toNat + 1) * 4 =
      pkt.bytes.length := by
    rw [BitVec.toNat_ofNat]
    omega
  rw [parse, if_neg (by omega), h0, Checked.ok_bind, h1, Checked.ok_bind, h2, Checked.ok_bind]
  simp only [hv, htotal, lt_irrefl, if_false]
  rcases h.type with ht | ht | ht | ht | ht <;> simp [ht, PacketType.SR, PacketType.RR,
    PacketType.SDES, PacketType.BYE, PacketType.APP, PacketType.RTPFB, PacketType.PSFB, headerPart]

/-- What stands behind the common header of a written packet. -/
theorem drop_bytes (pkt : RtcpPacket) : pkt.bytes.drop 4 =
    pkt.body ++ paddingBytes (pkt.serializedSize - pkt.unpaddedSize) := by
  rw [bytes_eq]
  rfl

/-- A packet is its header and the fields its type carries. -/
theorem WellFormed.eq_senderReport (h : pkt.WellFormed) :
    pkt = { pkt.headerPart with
      ssrc := pkt.ssrc
      ntpTimestamp := pkt.ntpTimestamp
      rtpTimestamp := pkt.rtpTimestamp
      senderPacketCount := pkt.senderPacketCount
      senderOctetCount := pkt.senderOctetCount
      blocks := pkt.blocks
      payload := pkt.payload } := by
  have hmedia := h.mediaSsrc
  cases pkt
  simp only at hmedia
  rw [hmedia]
  rfl

theorem WellFormed.eq_receiverReport (h : pkt.WellFormed) (ht : pkt.type ≠ PacketType.SR) :
    pkt = { pkt.headerPart with
      ssrc := pkt.ssrc
      blocks := pkt.blocks
      payload := pkt.payload } := by
  obtain ⟨hntp, hrtp, hpackets, hoctets⟩ := h.noSenderInfo ht
  conv_lhs => rw [h.eq_senderReport, hntp, hrtp, hpackets, hoctets]
  rfl

theorem WellFormed.eq_plain (h : pkt.WellFormed)
    (ht : ¬ (pkt.type = PacketType.SR ∨ pkt.type = PacketType.RR)) :
    pkt = { pkt.headerPart with payload := pkt.payload } := by
  obtain ⟨hblocks, hssrc⟩ := h.noReport ht
  conv_lhs => rw [h.eq_receiverReport (fun hsr => ht (Or.inl hsr)), hblocks, hssrc]
  rfl

theorem parseSenderReport_written (h : pkt.WellFormed) (ht : pkt.type = PacketType.SR) :
    parseSenderReport pkt.bytes pkt.headerPart pkt.bytes.length = .ok (some pkt) := by
  obtain ⟨hpos, hzero, hlt⟩ := h.pad
  have hlen := length_bytes pkt
  have hcount := h.report (Or.inl ht)
  have hsize : 28 + pkt.blocks.length * 24 ≤ pkt.bytes.length := by
    have hle : pkt.unpaddedSize = 28 + pkt.blocks.length * 24 + pkt.payload.length := by
      rw [unpaddedSize, if_pos (Or.inl ht), if_pos ht]
    have hpadded := unpaddedSize_le pkt
    omega
  have hdrop := drop_bytes pkt
  rw [body, if_pos (Or.inl ht), if_pos ht, big64] at hdrop
  simp only [List.append_assoc] at hdrop
  obtain ⟨hssrc, hdrop⟩ := readBig32_written hdrop
  obtain ⟨hmsw, hdrop⟩ := readBig32_written hdrop
  obtain ⟨hlsw, hdrop⟩ := readBig32_written hdrop
  obtain ⟨hrtp, hdrop⟩ := readBig32_written hdrop
  obtain ⟨hpackets, hdrop⟩ := readBig32_written hdrop
  obtain ⟨hoctets, hdrop⟩ := readBig32_written hdrop
  obtain ⟨hblocks, hdrop⟩ := parseBlocks_written h.cumulativeLost hsize hdrop
  rw [parseSenderReport, if_neg (by omega), hssrc, hmsw, hlsw, hrtp, hpackets, hoctets]
  simp only [Checked.ok_bind]
  rw [show pkt.headerPart.reportCount = pkt.reportCount from rfl, hcount, hblocks, Checked.ok_bind,
    words_big64]
  exact (parseRest_written (by omega) (by exact hpos) (by exact hzero) hlt hdrop).trans
    (congrArg (fun p => Except.ok (some p)) h.eq_senderReport.symm)

theorem parseReceiverReport_written (h : pkt.WellFormed) (ht : pkt.type = PacketType.RR) :
    parseReceiverReport pkt.bytes pkt.headerPart pkt.bytes.length = .ok (some pkt) := by
  obtain ⟨hpos, hzero, hlt⟩ := h.pad
  have hlen := length_bytes pkt
  have hcount := h.report (Or.inr ht)
  have hsr : pkt.type ≠ PacketType.SR := by
    rw [ht]
    decide
  have hsize : 8 + pkt.blocks.length * 24 ≤ pkt.bytes.length := by
    have hle : pkt.unpaddedSize = 8 + pkt.blocks.length * 24 + pkt.payload.length := by
      rw [unpaddedSize, if_pos (Or.inr ht), if_neg hsr]
    have hpadded := unpaddedSize_le pkt
    omega
  have hdrop := drop_bytes pkt
  rw [body, if_pos (Or.inr ht), if_neg hsr, List.append_nil] at hdrop
  simp only [List.append_assoc] at hdrop
  obtain ⟨hssrc, hdrop⟩ := readBig32_written hdrop
  obtain ⟨hblocks, hdrop⟩ := parseBlocks_written h.cumulativeLost hsize hdrop
  rw [parseReceiverReport, if_neg (by omega), hssrc, Checked.ok_bind,
    show pkt.headerPart.reportCount = pkt.reportCount from rfl, hcount, hblocks, Checked.ok_bind]
  exact (parseRest_written (by omega) (by exact hpos) (by exact hzero) hlt hdrop).trans
    (congrArg (fun p => Except.ok (some p)) (h.eq_receiverReport hsr).symm)

/-- **A written packet is parsed back.** -/
theorem parse_bytes (h : pkt.WellFormed) : parse pkt.bytes = .ok (some pkt) := by
  rw [parse_header_written h]
  split
  · exact parseSenderReport_written h ‹_›
  · split
    · exact parseReceiverReport_written h ‹_›
    · rename_i hsr hrr
      have hplain : ¬ (pkt.type = PacketType.SR ∨ pkt.type = PacketType.RR) :=
        fun ht => ht.elim hsr hrr
      obtain ⟨hpos, hzero, hlt⟩ := h.pad
      have hdrop := drop_bytes pkt
      rw [body, if_neg hplain, if_neg hsr, (h.noReport hplain).1] at hdrop
      refine (parseRest_written ?_ (by exact hpos) (by exact hzero) hlt hdrop).trans ?_
      · rw [bytes_eq]
        simp [header]
      · exact congrArg (fun p => Except.ok (some p)) (h.eq_plain hplain).symm

end RtcpPacket

/-! ### The walk -/

/-- From the boundary of a packet on, the walk finds every packet. -/
theorem parseCompoundFrom_written {data : Bytes} {ps : List RtcpPacket} {fuel offset : ℕ}
    (hps : ∀ p ∈ ps, p.WellFormed) (hfuel : ps.length ≤ fuel)
    (h : data.drop offset = ps.flatMap RtcpPacket.bytes) :
    parseCompoundFrom data fuel offset = .ok ps := by
  induction ps generalizing fuel offset with
  | nil =>
    cases fuel with
    | zero => rfl
    | succ fuel =>
      have hend := List.drop_eq_nil_iff.1 h
      rw [parseCompoundFrom, if_neg (by omega)]
      rfl
  | cons p ps ih =>
    cases fuel with
    | zero => exact absurd hfuel (by simp)
    | succ fuel =>
      have hp := hps p (List.mem_cons_self ..)
      obtain ⟨words, hwords⟩ := hp.words
      have hsize := hp.size
      have hlen := p.length_bytes
      have hmin : 4 ≤ p.bytes.length := by
        rw [p.bytes_eq, List.length_append, show (p.header p.serializedSize).length = 4 from rfl]
        omega
      rw [List.flatMap_cons] at h
      have hfit : offset + p.bytes.length ≤ data.length := by
        have hdrop := congrArg List.length h
        rw [List.length_drop, List.length_append] at hdrop
        omega
      have hfield : readBig16 data (offset + 2) =
          .ok (BitVec.ofNat 16 (p.serializedSize / 4 - 1)) := by
        rw [p.bytes_eq, RtcpPacket.header] at h
        simp only [List.append_assoc] at h
        exact (readBig16_written (drop_behind h rfl)).1
      have htotal : ((BitVec.ofNat 16 (p.serializedSize / 4 - 1)).toNat + 1) * 4 =
          p.bytes.length := by
        rw [BitVec.toNat_ofNat]
        omega
      have hslice : slice data offset p.bytes.length = .ok p.bytes :=
        (slice_iff_drop (by omega)).2 ⟨rfl, by rw [drop_behind h rfl]; exact h⟩
      rw [parseCompoundFrom, if_pos (by omega), hfield, Checked.ok_bind]
      simp only [htotal]
      rw [if_neg (by omega), hslice, Checked.ok_bind, RtcpPacket.parse_bytes hp, Checked.ok_bind]
      simp only
      rw [ih (fun q hq => hps q (List.mem_cons_of_mem _ hq)) (by simpa using hfuel)
        (drop_behind h rfl)]
      rfl

/-- No packet is written as nothing. -/
theorem length_le_flatMap_bytes (ps : List RtcpPacket) :
    ps.length ≤ (ps.flatMap RtcpPacket.bytes).length := by
  induction ps with
  | nil => exact le_rfl
  | cons p ps ih =>
    rw [List.flatMap_cons, List.length_append, p.bytes_eq, List.length_append,
      show (p.header p.serializedSize).length = 4 from rfl, List.length_cons]
    omega

/-- **A written compound is read back**, packet by packet. -/
theorem parseCompound_written (ps : List RtcpPacket) (hps : ∀ p ∈ ps, p.WellFormed) :
    parseCompound (ps.flatMap RtcpPacket.bytes) = .ok ps :=
  parseCompoundFrom_written hps (length_le_flatMap_bytes ps) rfl

/-- A receiver report with one block, and a padded BYE. -/
theorem parseCompound_written_bye :
    parseCompound (([{ type := PacketType.RR, reportCount := 1, blocks := [{ ssrc := 7 }] },
        { type := PacketType.BYE, padding := 1, payload := [1] }] : List RtcpPacket).flatMap
          RtcpPacket.bytes) =
      .ok [{ type := PacketType.RR, reportCount := 1, blocks := [{ ssrc := 7 }] },
        { type := PacketType.BYE, padding := 1, payload := [1] }] := by
  refine parseCompound_written _ ?_
  simp only [List.mem_cons, List.not_mem_nil, or_false, forall_eq_or_imp, forall_eq]
  exact
    ⟨⟨by decide, by decide, by decide, by decide, by decide, by decide, by decide, rfl, by decide,
        by decide⟩,
      ⟨by decide, by decide, by decide, by decide, by decide, by decide, by decide, rfl,
        by decide, by decide⟩⟩

end AsioRtc
