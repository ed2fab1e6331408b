/-
# Feedback messages read back

The three builders of feedback messages, `rtcp_rtpfb::bytes`, `rtcp_psfb::bytes` and
`build_transport_cc`, write one format: the common header, the SSRCs of the sender and
of the media, the feedback control information and its padding (`feedbackBytes`).  The
parser reads a message of this format back (`parse_feedbackBytes`) as long as its words
can be counted in sixteen bits; `builders_agree_with_parse` says so of each builder.

`rtcp_packet::write_to` writes another format.  It puts an SSRC word only into a report,
so a feedback message that is written back lacks both, and what is read of it is short by
at least one byte of payload, or is no packet at all (`writeTo_feedback`).
-/

import AsioRtc.Rtcp.Compound
import AsioRtc.Rtcp.Feedback

namespace AsioRtc

open Lib

/-- A feedback message from its first byte on: what the three builders write. -/
def feedbackBytes (first type : U8) (sender media : U32) (payload : Bytes) (pad : ℕ) : Bytes :=
  [first, type] ++ big16 (lengthWords (12 + payload.length + pad)) ++ big32 sender ++
    big32 media ++ payload ++ RtcpPacket.paddingBytes pad

section Format

variable (first type : U8) (sender media : U32) (payload : Bytes) (pad : ℕ)

theorem length_feedbackBytes :
    (feedbackBytes first type sender media payload pad).length = 12 + payload.length + pad := by
  simp only [feedbackBytes, List.length_append, length_big16, length_big32,
    RtcpPacket.length_paddingBytes, List.length_cons, List.length_nil]

/-- The length field of a message of whole words counts them, where sixteen bits are enough. -/
theorem lengthWords_toNat {total : ℕ} (hwords : 4 ∣ total) (hpos : 4 ≤ total)
    (hfit : total ≤ 4 * 65536) : ((lengthWords total).toNat + 1) * 4 = total := by
  rw [lengthWords, BitVec.toNat_ofNat]
  omega

/-- The fields of the common header and of the SSRCs, where they stand. -/
theorem read_feedbackBytes :
    let data := feedbackBytes first type sender media payload pad
    byteAt data 0 = .ok first ∧ byteAt data 1 = .ok type ∧
      readBig16 data 2 = .ok (lengthWords (12 + payload.length + pad)) ∧
      readBig32 data 8 = .ok media ∧
      data.drop 12 = payload ++ RtcpPacket.paddingBytes pad := by
  intro data
  have h₂ : data.drop 2 = big16 (lengthWords (12 + payload.length + pad)) ++ (big32 sender ++
      (big32 media ++ (payload ++ RtcpPacket.paddingBytes pad))) := by
    simp [data, feedbackBytes]
  obtain ⟨hlength, h₄⟩ := readBig16_written h₂
  obtain ⟨-, h₈⟩ := readBig32_written h₄
  obtain ⟨hmedia, h₁₂⟩ := readBig32_written h₈
  exact ⟨byteAt_iff_drop.2 rfl, byteAt_iff_drop.2 rfl, hlength, hmedia, h₁₂⟩

variable {first type pad payload}

/-- **A feedback message is read back**: the fields of its first byte, its type, the SSRC of
the media, and the payload without the padding. -/
theorem parse_feedbackBytes (htype : type = PacketType.RTPFB ∨ type = PacketType.PSFB)
    (hwords : 4 ∣ 12 + payload.length + pad) (hfit : 12 + payload.length + pad ≤ 4 * 65536)
    (hpad : pad < 256) (hbit : first >>> 5 &&& 0x01 = if 0 < pad then 1 else 0) :
    RtcpPacket.parse (feedbackBytes first type sender media payload pad) =
      .ok (some
        { version := first >>> 6 &&& 0x03
          padding := first >>> 5 &&& 0x01
          reportCount := first &&& 0x1F
          type := type
          mediaSsrc := media
          payload := payload }) := by
  have hlen := length_feedbackBytes first type sender media payload pad
  have htotal := lengthWords_toNat hwords (by omega) hfit
  obtain ⟨h0, h1, h2, h8, h12⟩ := read_feedbackBytes first type sender media payload pad
  have hsr : type ≠ PacketType.SR := by
    rcases htype with rfl | rfl <;> decide
  have hrr : type ≠ PacketType.RR := by
    rcases htype with rfl | rfl <;> decide
  rw [RtcpPacket.parse, if_neg (by omega), h0, h1, h2]
  simp only [Checked.ok_bind, htotal]
  rw [if_neg (by omega), if_neg hsr, if_neg hrr, if_pos htype, RtcpPacket.parseFeedback,
    if_neg (by omega), h8, Checked.ok_bind, ← hlen]
  refine RtcpPacket.parseRest_written (by omega) (fun hp => ?_) (fun hp => ?_) hpad h12
  · by_contra hzero
    exact hp (by simpa [hzero] using hbit)
  · by_contra hpos
    have hone : first >>> 5 &&& 0x01 = 1 := by rw [hbit, if_pos (by omega)]
    exact absurd (hone.symm.trans hp) (by decide)

end Format

/-! ### The builders -/

/-- The lost numbers of a message, each an entry with an empty mask. -/
theorem parseNackFrom_written {data : Bytes} {lost : List U16} {o : ℕ} {rest : Bytes}
    (h : data.drop o = (lost.flatMap fun s => big16 s ++ [0, 0]) ++ rest) :
    parseNackFrom data lost.length o = .ok lost := by
  induction lost generalizing o with
  | nil => rfl
  | cons s lost ih =>
    rw [List.flatMap_cons, List.append_assoc, List.append_assoc] at h
    obtain ⟨hpid, h⟩ := readBig16_written h
    have hblp : data.drop (o + 2) = big16 0 ++ ((lost.flatMap fun s => big16 s ++ [0, 0]) ++ rest) :=
      h
    obtain ⟨hblp, h⟩ := readBig16_written hblp
    rw [List.length_cons, parseNackFrom, hpid, Checked.ok_bind, hblp, Checked.ok_bind, ih h,
      Checked.ok_bind]
    rfl

theorem length_lostEntries (lost : List U16) :
    (lost.flatMap fun s => big16 s ++ [0, 0]).length = lost.length * 4 := by
  induction lost with
  | nil => rfl
  | cons s lost ih =>
    rw [List.flatMap_cons, List.length_append, ih, List.length_cons,
      show (big16 s ++ [0, 0] : Bytes).length = 4 from rfl]
    omega

/-- `parse_nack` of the entries of a message gives the lost numbers. -/
theorem parseNack_written (lost : List U16) :
    parseNack (lost.flatMap fun s => big16 s ++ [0, 0]) = .ok lost := by
  rw [parseNack, length_lostEntries, Nat.mul_div_cancel _ (by decide)]
  exact parseNackFrom_written (List.append_nil _).symm

theorem RtcpRtpfb.bytes_eq (fb : RtcpRtpfb) :
    fb.bytes = feedbackBytes (((2 : U8) <<< 6) ||| 1) PacketType.RTPFB fb.senderSsrc fb.mediaSsrc
      (fb.lost.flatMap fun s => big16 s ++ [0, 0]) 0 := by
  rw [RtcpRtpfb.bytes, feedbackBytes, length_lostEntries, RtcpPacket.paddingBytes,
    if_neg (lt_irrefl 0), List.append_nil, Nat.add_zero]

theorem RtcpPsfb.bytes_eq (fb : RtcpPsfb) :
    fb.bytes = feedbackBytes (((2 : U8) <<< 6) ||| fb.fmt) PacketType.PSFB fb.senderSsrc
      fb.mediaSsrc fb.fci 0 := by
  rw [RtcpPsfb.bytes, feedbackBytes, RtcpPacket.paddingBytes, if_neg (lt_irrefl 0),
    List.append_nil, Nat.add_zero]

/-- The padding `build_transport_cc` adds. -/
def TransportCcFeedback.pad (fb : TransportCcFeedback) : ℕ := (4 - (12 + fb.fci.length) % 4) % 4

theorem buildTransportCc_eq (fb : TransportCcFeedback) :
    buildTransportCc fb = feedbackBytes (if 0 < fb.pad then 0xAF else 0x8F) PacketType.RTPFB
      fb.senderSsrc fb.mediaSsrc fb.fci fb.pad := rfl

/-- The fields of the first byte `rtcp_psfb::bytes` writes. -/
theorem psfbFirst_fields : ∀ fmt < 32,
    let first : U8 := ((2 : U8) <<< 6) ||| BitVec.ofNat 8 fmt
    first >>> 6 &&& 0x03 = 2 ∧ first >>> 5 &&& 0x01 = 0 ∧ first &&& 0x1F = BitVec.ofNat 8 fmt := by
  decide +kernel

/-- **A NACK is read back.** -/
theorem RtcpRtpfb.parse_bytes (fb : RtcpRtpfb) (h : fb.lost.length ≤ 65533) :
    RtcpPacket.parse fb.bytes = .ok (some
      { reportCount := 1
        type := PacketType.RTPFB
        mediaSsrc := fb.mediaSsrc
        payload := fb.lost.flatMap fun s => big16 s ++ [0, 0] }) := by
  have hlen := length_lostEntries fb.lost
  rw [RtcpRtpfb.bytes_eq]
  exact parse_feedbackBytes _ _ (Or.inl rfl) (by omega) (by omega) (by decide) (by decide)

/-- **A payload-specific message is read back.** -/
theorem RtcpPsfb.parse_bytes (fb : RtcpPsfb) (hfmt : fb.fmt.toNat < 32) (hwords : 4 ∣ fb.fci.length)
    (h : fb.fci.length ≤ 4 * 65533) :
    RtcpPacket.parse fb.bytes = .ok (some
      { reportCount := fb.fmt
        type := PacketType.PSFB
        mediaSsrc := fb.mediaSsrc
        payload := fb.fci }) := by
  have hfields := psfbFirst_fields _ hfmt
  simp only [BitVec.ofNat_toNat, BitVec.setWidth_eq] at hfields
  obtain ⟨hversion, hpadding, hcount⟩ := hfields
  rw [RtcpPsfb.bytes_eq, parse_feedbackBytes _ _ (Or.inr rfl) (by omega) (by omega) (by decide)
    (by rw [hpadding]; rfl), hversion, hpadding, hcount]

/-- **A transport-wide feedback message is read back**, its padding removed. -/
theorem parse_buildTransportCc (fb : TransportCcFeedback)
    (h : (buildTransportCc fb).length ≤ 4 * 65536) :
    ∃ p, RtcpPacket.parse (buildTransportCc fb) = .ok (some p) ∧ p.type = PacketType.RTPFB ∧
      p.reportCount = PacketType.RTPFB_TCC ∧ p.mediaSsrc = fb.mediaSsrc ∧ p.payload = fb.fci := by
  rw [buildTransportCc_eq] at h ⊢
  rw [length_feedbackBytes] at h
  have hpad : fb.pad = (4 - (12 + fb.fci.length) % 4) % 4 := rfl
  refine ⟨_, parse_feedbackBytes _ _ (Or.inl rfl) (by omega) h (by omega) ?_, rfl, ?_, rfl, rfl⟩
  · split <;> decide
  · show (if 0 < fb.pad then (0xAF : U8) else 0x8F) &&& 0x1F = _
    split <;> decide

/-- **The builders agree with the parser**, whenever the words of what they build can be counted
in sixteen bits. -/
theorem builders_agree_with_parse :
    (∀ fb : RtcpRtpfb, fb.lost.length ≤ 65533 →
      ∃ p, RtcpPacket.parse fb.bytes = .ok (some p) ∧ p.type = PacketType.RTPFB ∧
        p.reportCount = 1 ∧ p.mediaSsrc = fb.mediaSsrc ∧ parseNack p.payload = .ok fb.lost) ∧
    (∀ fb : RtcpPsfb, fb.fmt.toNat < 32 → 4 ∣ fb.fci.length → fb.fci.length ≤ 4 * 65533 →
      ∃ p, RtcpPacket.parse fb.bytes = .ok (some p) ∧ p.type = PacketType.PSFB ∧
        p.reportCount = fb.fmt ∧ p.mediaSsrc = fb.mediaSsrc ∧ p.payload = fb.fci) ∧
    ∀ fb : TransportCcFeedback, (buildTransportCc fb).length ≤ 4 * 65536 →
      ∃ p, RtcpPacket.parse (buildTransportCc fb) = .ok (some p) ∧ p.type = PacketType.RTPFB ∧
        p.reportCount = PacketType.RTPFB_TCC ∧ p.mediaSsrc = fb.mediaSsrc ∧ p.payload = fb.fci := by
  refine ⟨fun fb h => ?_, fun fb hfmt hwords h => ?_, parse_buildTransportCc⟩
  · exact ⟨_, fb.parse_bytes h, rfl, rfl, rfl, parseNack_written fb.lost⟩
  · exact ⟨_, fb.parse_bytes hfmt hwords h, rfl, rfl, rfl, rfl⟩

/-- Two lost numbers, a PLI, and one chunk of transport-wide feedback. -/
theorem builders_agree_with_parse_pli :
    (∃ p, RtcpPacket.parse (RtcpRtpfb.bytes { mediaSsrc := 7, lost := [3, 65535] }) =
        .ok (some p) ∧ p.type = PacketType.RTPFB ∧ p.reportCount = 1 ∧ p.mediaSsrc = 7 ∧
        parseNack p.payload = .ok [3, 65535]) ∧
      (∃ p, RtcpPacket.parse (RtcpPsfb.bytes { mediaSsrc := 7 }) = .ok (some p) ∧
        p.type = PacketType.PSFB ∧ p.reportCount = PacketType.PSFB_PLI ∧ p.mediaSsrc = 7 ∧
        p.payload = []) ∧
      ∃ p, RtcpPacket.parse (buildTransportCc { mediaSsrc := 7, packetChunks := [0x20] }) =
          .ok (some p) ∧ p.type = PacketType.RTPFB ∧ p.reportCount = PacketType.RTPFB_TCC ∧
        p.mediaSsrc = 7 ∧ p.payload = [0, 0, 0, 0, 0, 0, 0, 0, 0x20] :=
  ⟨builders_agree_with_parse.1 { mediaSsrc := 7, lost := [3, 65535] } (by decide),
    builders_agree_with_parse.2.1 { mediaSsrc := 7 } (by decide) (by decide) (by decide),
    builders_agree_with_parse.2.2 { mediaSsrc := 7, packetChunks := [0x20] } (by decide)⟩

/-- **The length field wraps.**  With 262136 bytes of control information the number of words
of a payload-specific message is one more than sixteen bits count, and the message is not read
as a packet. -/
theorem RtcpPsfb.parse_bytes_wraps {fb : RtcpPsfb} (h : fb.fci.length = 262136) :
    RtcpPacket.parse fb.bytes = .ok none := by
  rw [RtcpPsfb.bytes_eq]
  have hlen := length_feedbackBytes (((2 : U8) <<< 6) ||| fb.fmt) PacketType.PSFB fb.senderSsrc
    fb.mediaSsrc fb.fci 0
  obtain ⟨h0, h1, h2, -⟩ := read_feedbackBytes (((2 : U8) <<< 6) ||| fb.fmt) PacketType.PSFB
    fb.senderSsrc fb.mediaSsrc fb.fci 0
  have htotal : ((lengthWords (12 + fb.fci.length + 0)).toNat + 1) * 4 = 4 := by
    rw [h]
    rfl
  rw [RtcpPacket.parse, if_neg (by omega), h0, h1, h2]
  simp only [Checked.ok_bind]
  rw [htotal, if_neg (by omega)]
  rfl

/-- A message of format 1 with 65534 words of zeros. -/
theorem parse_psfb_wraps : (1 : U8).toNat < 32 ∧ 4 ∣ (List.replicate 262136 (0 : U8)).length ∧
    RtcpPacket.parse (RtcpPsfb.bytes { fci := List.replicate 262136 0 }) = .ok none := by
  have hlen : (List.replicate 262136 (0 : U8)).length = 262136 := List.length_replicate
  refine ⟨by decide, ?_, RtcpPsfb.parse_bytes_wraps hlen⟩
  rw [hlen]
  decide

/-! ### The writer -/

namespace RtcpPacket

variable {data : Bytes} {pkt p : RtcpPacket} {total o : ℕ}

theorem length_of_slice {n : ℕ} {bs : Bytes} (h : slice data o n = .ok bs) : bs.length = n := by
  unfold slice at h
  split at h
  · cases h
    rw [List.length_take, List.length_drop]
    omega
  · cases h

/-- `parseRest` sets the payload, to something that fits. -/
theorem parseRest_payload (h : parseRest data pkt total o = .ok (some p)) :
    ∃ payload, p = { pkt with payload := payload } ∧ payload.length ≤ total - o := by
  unfold parseRest at h
  split at h
  · obtain ⟨padLen, -, h⟩ := Checked.bind_eq_ok.1 h
    split at h
    · cases h
    · obtain ⟨payload, hpayload, h⟩ := Checked.bind_eq_ok.1 h
      cases h
      refine ⟨payload, rfl, ?_⟩
      rw [length_of_slice hpayload]
      omega
  · obtain ⟨payload, hpayload, h⟩ := Checked.bind_eq_ok.1 h
    cases h
    exact ⟨payload, rfl, (length_of_slice hpayload).le⟩

theorem parseRest_type (h : parseRest data pkt total o = .ok (some p)) : p.type = pkt.type := by
  obtain ⟨payload, rfl, -⟩ := parseRest_payload h
  rfl

/-- The body of a report keeps the type. -/
theorem parseSenderReport_type (h : parseSenderReport data pkt total = .ok (some p)) :
    p.type = pkt.type := by
  unfold parseSenderReport at h
  split at h
  · cases h
  · obtain ⟨_, -, h⟩ := Checked.bind_eq_ok.1 h
    obtain ⟨_, -, h⟩ := Checked.bind_eq_ok.1 h
    obtain ⟨_, -, h⟩ := Checked.bind_eq_ok.1 h
    obtain ⟨_, -, h⟩ := Checked.bind_eq_ok.1 h
    obtain ⟨_, -, h⟩ := Checked.bind_eq_ok.1 h
    obtain ⟨_, -, h⟩ := Checked.bind_eq_ok.1 h
    obtain ⟨r, -, h⟩ := Checked.bind_eq_ok.1 h
    cases r with
    | none => cases h
    | some q => exact (parseRest_type h).trans rfl

theorem parseReceiverReport_type (h : parseReceiverReport data pkt total = .ok (some p)) :
    p.type = pkt.type := by
  unfold parseReceiverReport at h
  split at h
  · cases h
  · obtain ⟨_, -, h⟩ := Checked.bind_eq_ok.1 h
    obtain ⟨r, -, h⟩ := Checked.bind_eq_ok.1 h
    cases r with
    | none => cases h
    | some q => exact (parseRest_type h).trans rfl

/-- What is read of a feedback message: a payload behind twelve bytes of the length, and no
report block. -/
theorem parse_feedback (h : parse data = .ok (some p))
    (ht : p.type = PacketType.RTPFB ∨ p.type = PacketType.PSFB) :
    p.blocks = [] ∧ ∃ length, readBig16 data 2 = .ok length ∧
      p.payload.length + 12 ≤ (length.toNat + 1) * 4 := by
  unfold parse at h
  split at h
  · cases h
  · obtain ⟨b0, -, h⟩ := Checked.bind_eq_ok.1 h
    obtain ⟨type, -, h⟩ := Checked.bind_eq_ok.1 h
    obtain ⟨length, hlength, h⟩ := Checked.bind_eq_ok.1 h
    simp only at h
    split at h
    · cases h
    · split at h
      · rename_i hsr
        rw [parseSenderReport_type h] at ht
        rcases ht with ht | ht <;> exact absurd (hsr.symm.trans ht) (by decide)
      · split at h
        · rename_i hrr
          rw [parseReceiverReport_type h] at ht
          rcases ht with ht | ht <;> exact absurd (hrr.symm.trans ht) (by decide)
        · split at h
          · unfold parseFeedback at h
            split at h
            · cases h
            · obtain ⟨media, -, h⟩ := Checked.bind_eq_ok.1 h
              obtain ⟨payload, rfl, hfit⟩ := parseRest_payload h
              exact ⟨rfl, length, hlength, by simp only; omega⟩
          · rename_i hfeedback
            split at h
            · rw [parseRest_type h] at ht
              exact absurd ht hfeedback
            · cases h
              exact absurd ht hfeedback

/-- A packet of another type than a report, without blocks, is its header word, its payload
and at most four bytes of padding. -/
theorem serializedSize_le (hsr : pkt.type ≠ PacketType.SR) (hrr : pkt.type ≠ PacketType.RR)
    (hblocks : pkt.blocks = []) : 4 ≤ pkt.serializedSize ∧
      pkt.serializedSize ≤ 8 + pkt.payload.length := by
  have hsize : pkt.unpaddedSize = 4 + pkt.payload.length := by
    rw [unpaddedSize, if_neg (fun h => h.elim hsr hrr), if_neg hsr, hblocks]
    simp
  rw [serializedSize, hsize]
  split
  · split <;> omega
  · omega

/-- The length field of what `write_to` writes, whatever stands behind it in the buffer. -/
theorem readBig16_writeTo {len : ℕ} {out rest : Bytes} (h : pkt.writeTo len = some out) :
    readBig16 (out ++ rest) 2 = .ok (BitVec.ofNat 16 (pkt.serializedSize / 4 - 1)) := by
  unfold writeTo at h
  split at h
  · cases h
  · obtain rfl := Option.some.inj h
    rw [header]
    simp only [List.append_assoc]
    exact (readBig16_written rfl).1

/-- **A feedback message is not read back from what `write_to` makes of it**: whatever stands
behind it in the buffer, its payload is lost or shorter. -/
theorem writeTo_feedback (h : parse data = .ok (some pkt))
    (ht : pkt.type = PacketType.RTPFB ∨ pkt.type = PacketType.PSFB) {len : ℕ} {out : Bytes}
    (hout : pkt.writeTo len = some out) (rest : Bytes) :
    ¬ ∃ p, parse (out ++ rest) = .ok (some p) ∧ p.type = pkt.type ∧
      p.reportCount = pkt.reportCount ∧ p.mediaSsrc = pkt.mediaSsrc ∧ p.payload = pkt.payload := by
  rintro ⟨p, hp, htype, -, -, hpayload⟩
  have hsr : pkt.type ≠ PacketType.SR := by
    rcases ht with ht | ht <;> rw [ht] <;> decide
  have hrr : pkt.type ≠ PacketType.RR := by
    rcases ht with ht | ht <;> rw [ht] <;> decide
  obtain ⟨hblocks, -⟩ := parse_feedback h ht
  obtain ⟨hmin, hsize⟩ := serializedSize_le hsr hrr hblocks
  -- The header word counts the payload from its own end on, the parser from two SSRCs later.
  obtain ⟨-, length, hlength, hfit⟩ := parse_feedback hp (htype ▸ ht)
  rw [readBig16_writeTo hout] at hlength
  obtain rfl := Except.ok.inj hlength
  rw [BitVec.toNat_ofNat, hpayload] at hfit
  omega

/-- A PLI: what is written of it is a header word that counts no word more. -/
theorem writeTo_feedback_pli :
    ¬ ∃ p, parse ([0x81, 206, 0, 0] ++ []) = .ok (some p) ∧ p.type = PacketType.PSFB ∧
      p.reportCount = 1 ∧ p.mediaSsrc = 2 ∧ p.payload = [] := by
  have hpli : parse [0x81, 206, 0, 2, 0, 0, 0, 1, 0, 0, 0, 2] =
      .ok (some { reportCount := 1, type := PacketType.PSFB, mediaSsrc := 2 }) := by decide
  have hout : writeTo { reportCount := 1, type := PacketType.PSFB, mediaSsrc := 2 } 4 =
      some [0x81, 206, 0, 0] := by decide
  exact writeTo_feedback hpli (Or.inr rfl) hout []

/-- The parser accepts a PLI, and not what is written of it. -/
theorem parse_writeTo_pli :
    parse [0x81, 206, 0, 2, 0, 0, 0, 1, 0, 0, 0, 2] =
        .ok (some { reportCount := 1, type := PacketType.PSFB, mediaSsrc := 2 }) ∧
      writeTo { reportCount := 1, type := PacketType.PSFB, mediaSsrc := 2 } 4 =
        some [0x81, 206, 0, 0] ∧
      parse [0x81, 206, 0, 0] = .ok none := by
  decide

end RtcpPacket

end AsioRtc
