/-
# Writing RTP packets

`rtp_packet::write_to` and `rtp_packet::serialized_size` of `src/rtp.cpp`, and that
they are inverse to `rtp_packet::parse`.  The parser's stages are described by what
stands in the datagram from their offset on (`fixedHeader_iff`, `parseCsrcs_iff`,
`parseExtension_iff`), so that each serves both directions: what was written is read
back, and what was read is written again.
-/

import AsioRtc.Rtp.Packet

namespace AsioRtc

open Lib

namespace RtpPacket

/-- The zeros that fill `n` bytes of extension up to whole words. -/
def extensionPad (n : ℕ) : ℕ := (4 - n % 4) % 4

/-- The bytes before the padding, as `serialized_size` counts them. -/
def unpaddedSize (pkt : RtpPacket) : ℕ :=
  12 + pkt.csrcCount.toNat * 4 +
    (if pkt.extension ≠ 0 then
      4 + pkt.extensionData.length + extensionPad pkt.extensionData.length
     else 0) +
    pkt.payload.length

/-- `rtp_packet::serialized_size`. -/
def serializedSize (pkt : RtpPacket) : ℕ :=
  if pkt.padding ≠ 0 then
    if pkt.unpaddedSize % 4 = 0 then pkt.unpaddedSize + 4
    else pkt.unpaddedSize + (4 - pkt.unpaddedSize % 4)
  else pkt.unpaddedSize

/-- The fixed header, `rtp_header_t`. -/
def headerBytes (pkt : RtpPacket) : Bytes :=
  [(pkt.version <<< 6) ||| (pkt.padding <<< 5) ||| (pkt.extension <<< 4) |||
      (pkt.csrcCount &&& 0x0F),
    (pkt.marker <<< 7) ||| (pkt.payloadType &&& 0x7F)] ++
    big16 pkt.sequenceNumber ++ big32 pkt.timestamp ++ big32 pkt.ssrc

/-- The header extension, `rtp_extension_header_t` and its words. -/
def extensionBytes (pkt : RtpPacket) : Bytes :=
  if pkt.extension ≠ 0 then
    big16 pkt.extensionProfile ++
      big16 (BitVec.ofNat 16 ((pkt.extensionData.length + 3) / 4)) ++
      pkt.extensionData ++ List.replicate (extensionPad pkt.extensionData.length) 0
  else []

/-- Everything `write_to` writes before the padding. -/
def unpadded (pkt : RtpPacket) : Bytes :=
  pkt.headerBytes ++ pkt.csrcs.flatMap big32 ++ pkt.extensionBytes ++ pkt.payload

/-- The padding bytes: zeros, then their number. -/
def paddingBytes (pad : ℕ) : Bytes :=
  if 0 < pad then List.replicate (pad - 1) 0 ++ [BitVec.ofNat 8 pad] else []

/-- `serialized - written`, a difference of `size_t`s: it wraps where more has been written
than was counted. -/
def padSize (pkt : RtpPacket) : ℕ :=
  (BitVec.ofNat 64 pkt.serializedSize - BitVec.ofNat 64 pkt.unpadded.length).toNat

/-- `rtp_packet::write_to` into a buffer of `len` bytes: what it writes, from the
start of the buffer on, or `none` where it returns before it writes. -/
def writeTo (pkt : RtpPacket) (len : ℕ) : Option Bytes :=
  if len < pkt.serializedSize then none
  else some (pkt.unpadded ++ if pkt.padding ≠ 0 then paddingBytes pkt.padSize else [])

/-- The packets of the RTP format that `rtp_packet` can hold. -/
structure WellFormed (pkt : RtpPacket) : Prop where
  version : pkt.version = 2
  padding : pkt.padding.toNat < 2
  extension : pkt.extension.toNat < 2
  marker : pkt.marker.toNat < 2
  payloadType : pkt.payloadType.toNat < 128
  csrcCount : pkt.csrcCount.toNat = pkt.csrcs.length
  csrcs : pkt.csrcs.length ≤ 15
  noExtension : pkt.extension = 0 → pkt.extensionProfile = 0 ∧ pkt.extensionData = []
  words : 4 ∣ pkt.extensionData.length
  size : pkt.extensionData.length ≤ 4 * 65535

/-! ### What stands in a datagram that a stage reads -/

section Stages

variable {data : Bytes} {o : ℕ}

/-- The first byte of the header is made of the four fields that are read from it. -/
theorem versionByte_split : ∀ b : U8,
    ((b >>> 6 &&& 0x03) <<< 6) ||| ((b >>> 5 &&& 0x01) <<< 5) ||| ((b >>> 4 &&& 0x01) <<< 4) |||
      (b &&& 0x0F &&& 0x0F) = b := by
  decide +kernel

/-- The second byte of the header is made of the two fields that are read from it. -/
theorem markerByte_split : ∀ b : U8,
    ((b >>> 7 &&& 0x01) <<< 7) ||| (b &&& 0x7F &&& 0x7F) = b := by
  decide +kernel

theorem versionByte_fields : ∀ v < 4, ∀ p < 2, ∀ x < 2, ∀ c < 16,
    let b : U8 := (BitVec.ofNat 8 v <<< 6) ||| (BitVec.ofNat 8 p <<< 5) |||
      (BitVec.ofNat 8 x <<< 4) ||| (BitVec.ofNat 8 c &&& 0x0F)
    b >>> 6 &&& 0x03 = BitVec.ofNat 8 v ∧ b >>> 5 &&& 0x01 = BitVec.ofNat 8 p ∧
      b >>> 4 &&& 0x01 = BitVec.ofNat 8 x ∧ b &&& 0x0F = BitVec.ofNat 8 c := by
  decide +kernel

theorem markerByte_fields : ∀ m < 2, ∀ t < 128,
    let b : U8 := (BitVec.ofNat 8 m <<< 7) ||| (BitVec.ofNat 8 t &&& 0x7F)
    b >>> 7 &&& 0x01 = BitVec.ofNat 8 m ∧ b &&& 0x7F = BitVec.ofNat 8 t := by
  decide +kernel

/-- A field's byte is the byte of its number. -/
theorem ofNat_toNat_eq (b : U8) : BitVec.ofNat 8 b.toNat = b := by simp

/-- The packet with its fixed header alone. -/
def fixedPart (pkt : RtpPacket) : RtpPacket :=
  { pkt with csrcs := [], extensionProfile := 0, extensionData := [], payload := [] }

/-- The fields of the fixed header are as wide as the header has room for. -/
structure FitsHeader (pkt : RtpPacket) : Prop where
  version : pkt.version.toNat < 4
  padding : pkt.padding.toNat < 2
  extension : pkt.extension.toNat < 2
  csrcCount : pkt.csrcCount.toNat < 16
  marker : pkt.marker.toNat < 2
  payloadType : pkt.payloadType.toNat < 128

/-- The fixed header that was read stands at the front. -/
theorem fixedHeader_reads {p : RtpPacket} (h : fixedHeader data = .ok p) :
    data = p.headerBytes ++ data.drop 12 ∧ p.fixedPart = p := by
  unfold fixedHeader at h
  obtain ⟨b0, h0, h⟩ := Checked.bind_eq_ok.1 h
  obtain ⟨b1, h1, h⟩ := Checked.bind_eq_ok.1 h
  obtain ⟨seq, hseq, h⟩ := Checked.bind_eq_ok.1 h
  obtain ⟨ts, hts, h⟩ := Checked.bind_eq_ok.1 h
  obtain ⟨ssrc, hssrc, h⟩ := Checked.bind_eq_ok.1 h
  cases h
  refine ⟨?_, rfl⟩
  rw [byteAt_iff_drop] at h0 h1
  rw [readBig16_iff_drop] at hseq
  rw [readBig32_iff_drop] at hts hssrc
  rw [List.drop_zero] at h0
  rw [headerBytes, versionByte_split, markerByte_split, List.append_assoc, List.append_assoc,
    List.append_assoc, ← hssrc, ← hts, ← hseq]
  calc data = b0 :: data.drop 1 := h0
    _ = b0 :: b1 :: data.drop 2 := by rw [h1]

/-- A fixed header that stands at the front is read. -/
theorem fixedHeader_written {p : RtpPacket} {rest : Bytes} (hp : p.FitsHeader) :
    fixedHeader (p.headerBytes ++ rest) = .ok p.fixedPart := by
  have hv := versionByte_fields _ hp.version _ hp.padding _ hp.extension _ hp.csrcCount
  have hm := markerByte_fields _ hp.marker _ hp.payloadType
  simp only [ofNat_toNat_eq] at hv hm
  have h0 : byteAt (p.headerBytes ++ rest) 0 = .ok _ := byteAt_iff_drop.2 rfl
  have h1 : byteAt (p.headerBytes ++ rest) 1 = .ok _ := byteAt_iff_drop.2 rfl
  have hseq : readBig16 (p.headerBytes ++ rest) 2 = .ok p.sequenceNumber :=
    readBig16_iff_drop.2 rfl
  have hts : readBig32 (p.headerBytes ++ rest) 4 = .ok p.timestamp := readBig32_iff_drop.2 rfl
  have hssrc : readBig32 (p.headerBytes ++ rest) 8 = .ok p.ssrc := readBig32_iff_drop.2 rfl
  rw [fixedHeader, h0, h1, hseq, hts, hssrc]
  simp only [Checked.ok_bind, hv, hm]
  rfl

theorem length_flatMap_big32 (cs : List U32) : (cs.flatMap big32).length = cs.length * 4 := by
  induction cs with
  | nil => rfl
  | cons c cs ih => simp [List.flatMap_cons, ih]; omega

/-- **The CSRCs** that are read are the ones that stand there. -/
theorem readCsrcs_iff {cs : List U32} {n : ℕ} :
    readCsrcs data o n = .ok cs ↔
      cs.length = n ∧ data.drop o = cs.flatMap big32 ++ data.drop (o + n * 4) := by
  induction n generalizing o cs with
  | zero =>
    cases cs with
    | nil => simp [readCsrcs, pure, Except.pure]
    | cons c cs => simp [readCsrcs, pure, Except.pure]
  | succ n ih =>
    simp only [readCsrcs, Checked.bind_eq_ok, readBig32_iff_drop, ih]
    have hend : o + 4 + n * 4 = o + (n + 1) * 4 := by omega
    constructor
    · rintro ⟨c, hc, cs', ⟨hlen, hcs⟩, h⟩
      cases h
      refine ⟨by simp [hlen], ?_⟩
      rw [hc, hcs, hend, List.flatMap_cons, List.append_assoc]
    · rintro ⟨hlen, h⟩
      cases cs with
      | nil => exact absurd hlen (by simp)
      | cons c cs =>
        rw [List.flatMap_cons, List.append_assoc] at h
        have hrest := drop_behind h (length_big32 c)
        refine ⟨c, by rw [hrest]; exact h, cs, ⟨by simpa using hlen, ?_⟩, rfl⟩
        rw [hend]
        exact hrest

/-- The CSRC stage reads the list that stands at its offset. -/
theorem parseCsrcs_iff {p q : RtpPacket} {e : ℕ} (ho : o ≤ data.length) (hp : p.csrcs = []) :
    parseCsrcs data p o = .ok (some (q, e)) ↔
      ∃ cs, q = { p with csrcs := cs } ∧ cs.length = p.csrcCount.toNat ∧
        e = o + p.csrcCount.toNat * 4 ∧ e ≤ data.length ∧
        data.drop o = cs.flatMap big32 ++ data.drop e := by
  unfold parseCsrcs
  split
  · split
    · rename_i hshort
      refine iff_of_false (fun h => by cases h) fun ⟨_, _, _, he, hle, _⟩ => by omega
    · rename_i hfit
      simp only [Checked.bind_eq_ok, readCsrcs_iff]
      constructor
      · rintro ⟨cs, ⟨hlen, hcs⟩, h⟩
        cases h
        exact ⟨cs, rfl, hlen, rfl, by omega, hcs⟩
      · rintro ⟨cs, rfl, hlen, rfl, -, hcs⟩
        exact ⟨cs, ⟨hlen, hcs⟩, rfl⟩
  · rename_i hzero
    have hz : p.csrcCount.toNat = 0 := by omega
    constructor
    · intro h
      cases h
      exact ⟨p.csrcs, rfl, by rw [hp, hz]; rfl, by omega, ho, by rw [hp]; rfl⟩
    · rintro ⟨cs, rfl, hlen, he, -, -⟩
      rw [List.eq_nil_of_length_eq_zero (hlen.trans hz), ← hp, show e = o by omega]
      rfl

/-- The extension stage reads the words that stand at its offset. -/
theorem parseExtension_iff {p q : RtpPacket} {e : ℕ} (ho : o ≤ data.length)
    (hx : p.extension ≠ 0) :
    parseExtension data p o = .ok (some (q, e)) ↔
      ∃ (profile words : U16) (ext : Bytes),
        q = { p with extensionProfile := profile, extensionData := ext } ∧
          ext.length = words.toNat * 4 ∧ e = o + 4 + words.toNat * 4 ∧ e ≤ data.length ∧
          data.drop o = big16 profile ++ big16 words ++ ext ++ data.drop e := by
  unfold parseExtension
  rw [if_pos hx]
  split
  · rename_i hshort
    refine iff_of_false (fun h => by cases h) fun ⟨_, words, _, _, _, he, hle, _⟩ => by omega
  · rename_i hfit
    simp only [Checked.bind_eq_ok, readBig16_iff_drop]
    constructor
    · rintro ⟨profile, hprofile, words, hwords, h⟩
      split at h
      · cases h
      · rename_i hlen
        obtain ⟨ext, hext, h⟩ := Checked.bind_eq_ok.1 h
        cases h
        obtain ⟨hl, hext⟩ := (slice_iff_drop (by omega)).1 hext
        refine ⟨profile, words, ext, rfl, hl, rfl, by omega, ?_⟩
        simp only [List.append_assoc]
        rw [hprofile, hwords, ← hext]
    · rintro ⟨profile, words, ext, rfl, hl, rfl, hle, h⟩
      simp only [List.append_assoc] at h
      have h₂ := drop_behind h (length_big16 _)
      have h₄ := drop_behind h₂ (length_big16 _)
      refine ⟨profile, by rw [h₂]; exact h, words, by rw [h₄]; exact h₂, ?_⟩
      rw [if_neg (by omega), (slice_iff_drop (by omega)).2 ⟨hl, h₄⟩, Checked.ok_bind]
      rfl

/-- Without an extension nothing is read. -/
theorem parseExtension_none {p q : RtpPacket} {e : ℕ} (hx : p.extension = 0) :
    parseExtension data p o = .ok (some (q, e)) ↔ q = p ∧ e = o := by
  unfold parseExtension
  rw [if_neg (fun h => h hx)]
  constructor
  · intro h
    cases h
    exact ⟨rfl, rfl⟩
  · rintro ⟨rfl, rfl⟩
    rfl

/-- What the extension stage leaves alone, and that the extension it read stands there. -/
theorem parseExtension_reads {p q : RtpPacket} {e : ℕ} (ho : o ≤ data.length)
    (h : parseExtension data p o = .ok (some (q, e))) :
    q.headerBytes = p.headerBytes ∧ q.csrcs = p.csrcs ∧ q.csrcCount = p.csrcCount ∧
      q.padding = p.padding ∧ e ≤ data.length ∧
      data.drop o = q.extensionBytes ++ data.drop e := by
  by_cases hx : p.extension = 0
  · obtain ⟨rfl, rfl⟩ := (parseExtension_none hx).1 h
    refine ⟨rfl, rfl, rfl, rfl, ho, ?_⟩
    rw [extensionBytes, if_neg (fun hne => hne hx)]
    rfl
  · obtain ⟨profile, words, ext, rfl, hlen, -, hle, hdrop⟩ := (parseExtension_iff ho hx).1 h
    refine ⟨rfl, rfl, rfl, rfl, hle, ?_⟩
    have hpad : extensionPad ext.length = 0 := by
      rw [extensionPad]
      omega
    have hwords : BitVec.ofNat 16 ((ext.length + 3) / 4) = words := by
      rw [← BitVec.toNat_inj, BitVec.toNat_ofNat]
      omega
    rw [extensionBytes, if_pos (by exact hx), hpad, hwords, List.replicate_zero, List.append_nil]
    exact hdrop

/-- The extension stage on an extension that was written, of any length. -/
theorem parseExtension_written {p q : RtpPacket} {tail : Bytes} (hx : p.extension ≠ 0)
    (hwords : 4 ∣ p.extensionData.length) (hq : q.extension ≠ 0)
    (h : data.drop o = p.extensionBytes ++ tail) :
    parseExtension data q o = .ok (some
        ({ q with
          extensionProfile := p.extensionProfile
          extensionData := p.extensionData.take (p.extensionData.length / 4 % 65536 * 4) },
        o + 4 + p.extensionData.length / 4 % 65536 * 4)) ∧
      o + 4 + p.extensionData.length / 4 % 65536 * 4 ≤ data.length ∧
      data.drop (o + 4 + p.extensionData.length / 4 % 65536 * 4) =
        p.extensionData.drop (p.extensionData.length / 4 % 65536 * 4) ++ tail := by
  obtain ⟨n, hn⟩ := hwords
  have hzero : extensionPad p.extensionData.length = 0 := by
    rw [extensionPad]
    omega
  have hfield : (BitVec.ofNat 16 ((p.extensionData.length + 3) / 4)).toNat =
      p.extensionData.length / 4 % 65536 := by
    rw [BitVec.toNat_ofNat]
    omega
  rw [extensionBytes, if_pos hx, hzero, List.replicate_zero, List.append_nil] at h
  have hlen := congrArg List.length h
  simp only [List.length_drop, List.length_append, length_big16] at hlen
  have hrest : data.drop (o + 4 + p.extensionData.length / 4 % 65536 * 4) =
      p.extensionData.drop (p.extensionData.length / 4 % 65536 * 4) ++ tail := by
    rw [List.append_assoc] at h
    have h₄ : data.drop (o + 4) = p.extensionData ++ tail := drop_behind h rfl
    rw [← List.drop_drop, h₄, List.drop_append_of_le_length (by omega)]
  refine ⟨(parseExtension_iff (by omega) hq).2 ⟨p.extensionProfile,
    BitVec.ofNat 16 ((p.extensionData.length + 3) / 4), _, rfl, ?_, ?_, by omega, ?_⟩, by omega,
    hrest⟩
  · rw [hfield, List.length_take]
    omega
  · rw [hfield]
  · rw [hrest, h]
    simp only [List.append_assoc]
    rw [← List.append_assoc (List.take _ _), List.take_append_drop]

/-- Without padding the payload is all that is left. -/
theorem parsePayload_unpadded {p : RtpPacket} (ho : o ≤ data.length) (hp : p.padding = 0) :
    parsePayload data p o = .ok (some { p with payload := data.drop o }) := by
  have hpay : (data.drop o).take (data.length - o) = data.drop o :=
    List.take_of_length_le (by simp)
  rw [parsePayload, slice_ok (by omega), hpay, Checked.ok_bind, if_neg (fun h => h.1 hp)]
  rfl

/-- The padding that a writer put behind the payload is taken off. -/
theorem parsePayload_padded {p : RtpPacket} {payload : Bytes} {pad : ℕ} (ho : o ≤ data.length)
    (hp : p.padding ≠ 0) (h0 : 0 < pad) (hpad : pad < 256)
    (h : data.drop o = payload ++ paddingBytes pad) :
    parsePayload data p o = .ok (some { p with payload := payload }) := by
  have hpay : (data.drop o).take (data.length - o) = payload ++ paddingBytes pad := by
    rw [← h]
    exact List.take_of_length_le (by simp)
  have hlen : (payload ++ paddingBytes pad).length = payload.length + pad := by
    rw [paddingBytes, if_pos h0]
    simp
    omega
  have hlast : byteAt (payload ++ paddingBytes pad) (payload.length + pad - 1) =
      .ok (BitVec.ofNat 8 pad) := by
    rw [byteAt_eq_ok, paddingBytes, if_pos h0, ← List.append_assoc,
      List.getElem?_append_right (by simp; omega)]
    simp [show payload.length + pad - 1 - (payload.length + (pad - 1)) = 0 by omega]
  have hnum : (BitVec.ofNat 8 pad).toNat = pad := by
    rw [BitVec.toNat_ofNat]
    omega
  have hne : payload ++ paddingBytes pad ≠ [] := fun h => by
    rw [h] at hlen
    simp at hlen
    omega
  rw [parsePayload, slice_ok (by omega), hpay, Checked.ok_bind, if_pos ⟨hp, hne⟩, hlen, hlast,
    Checked.ok_bind, if_neg, hnum, Nat.add_sub_cancel, List.take_left]
  · rfl
  · rw [hnum, ← BitVec.toNat_inj, hnum]
    simp
    omega

end Stages

/-! ### The round trips -/

section RoundTrips

variable {p : RtpPacket}

theorem length_headerBytes (p : RtpPacket) : p.headerBytes.length = 12 := rfl

/-- **The front of a written packet is read back**: its fixed header and its CSRCs.  What
the parser makes of the rest is what the extension and payload stages make of it. -/
theorem parse_front {rest : Bytes} (hver : p.version = 2) (hp : p.FitsHeader)
    (hcount : p.csrcCount.toNat = p.csrcs.length) :
    parse (p.headerBytes ++ (p.csrcs.flatMap big32 ++ rest)) = (do
      match ← parseExtension (p.headerBytes ++ (p.csrcs.flatMap big32 ++ rest))
          { p.fixedPart with csrcs := p.csrcs } (12 + p.csrcs.length * 4) with
      | none => pure none
      | some (q, o) => parsePayload (p.headerBytes ++ (p.csrcs.flatMap big32 ++ rest)) q o) := by
  have hrtp : isRtpPacket (p.headerBytes ++ (p.csrcs.flatMap big32 ++ rest)) = .ok true := by
    have high : ∀ b : U8, b >>> 6 &&& (0x03 : U8) = b >>> 6 := by decide +kernel
    have hv := (versionByte_fields _ hp.version _ hp.padding _ hp.extension _ hp.csrcCount).1
    simp only [ofNat_toNat_eq] at hv
    have h0 : byteAt (p.headerBytes ++ (p.csrcs.flatMap big32 ++ rest)) 0 = .ok _ :=
      byteAt_iff_drop.2 rfl
    rw [isRtpPacket, if_neg (by rw [List.length_append, length_headerBytes]; omega), h0,
      Checked.ok_bind, ← high, hv, hver]
    rfl
  have hfront : (p.headerBytes ++ (p.csrcs.flatMap big32 ++ rest)).length =
      12 + (p.csrcs.length * 4 + rest.length) := by
    simp only [List.length_append, length_headerBytes, length_flatMap_big32]
  have hcsrcs : parseCsrcs (p.headerBytes ++ (p.csrcs.flatMap big32 ++ rest)) p.fixedPart 12 =
      .ok (some ({ p.fixedPart with csrcs := p.csrcs }, 12 + p.csrcs.length * 4)) := by
    have h₁₂ : (p.headerBytes ++ (p.csrcs.flatMap big32 ++ rest)).drop 12 =
        p.csrcs.flatMap big32 ++ rest := rfl
    refine (parseCsrcs_iff (by omega) rfl).2 ⟨p.csrcs, rfl, hcount.symm, ?_, by omega, ?_⟩
    · rw [show p.fixedPart.csrcCount = p.csrcCount from rfl, hcount]
    · rw [h₁₂, drop_behind h₁₂ (length_flatMap_big32 _)]
  rw [parse, hrtp, Checked.ok_bind, if_pos rfl, fixedHeader_written hp, Checked.ok_bind, hcsrcs]
  rfl

/-- **An unpadded packet with an extension of any length** is read back with as much of the
extension as its 16-bit length says; the rest of it goes to the payload. -/
theorem parse_unpadded (hver : p.version = 2) (hp : p.FitsHeader)
    (hcount : p.csrcCount.toNat = p.csrcs.length) (hpad : p.padding = 0) (hx : p.extension ≠ 0)
    (hwords : 4 ∣ p.extensionData.length) :
    parse p.unpadded = .ok (some { p with
      extensionData := p.extensionData.take (p.extensionData.length / 4 % 65536 * 4)
      payload := p.extensionData.drop (p.extensionData.length / 4 % 65536 * 4) ++ p.payload }) := by
  have hassoc : p.unpadded = p.headerBytes ++ (p.csrcs.flatMap big32 ++
      (p.extensionBytes ++ p.payload)) := by
    simp only [unpadded, List.append_assoc]
  have hbehind : (p.headerBytes ++ (p.csrcs.flatMap big32 ++ (p.extensionBytes ++ p.payload))).drop
      (12 + p.csrcs.length * 4) = p.extensionBytes ++ p.payload :=
    drop_behind (o := 12) rfl (length_flatMap_big32 _)
  obtain ⟨hstage, hfit, hrest⟩ := parseExtension_written (q := { p.fixedPart with csrcs := p.csrcs })
    hx hwords (by exact hx) hbehind
  rw [hassoc, parse_front hver hp hcount, hstage, Checked.ok_bind]
  simp only []
  rw [parsePayload_unpadded hfit (by exact hpad), hrest]
  rfl

theorem WellFormed.fits (h : p.WellFormed) : p.FitsHeader where
  version := by rw [h.version]; decide
  padding := h.padding
  extension := h.extension
  csrcCount := by
    have := h.csrcs
    rw [h.csrcCount]
    omega
  marker := h.marker
  payloadType := h.payloadType

/-- What is written before the padding, against what is counted. -/
theorem length_unpadded_add (p : RtpPacket) :
    p.unpadded.length + 4 * p.csrcCount.toNat = p.unpaddedSize + 4 * p.csrcs.length := by
  simp only [unpadded, List.length_append, length_headerBytes, length_flatMap_big32, unpaddedSize,
    extensionBytes]
  split
  · simp only [List.length_append, length_big16, List.length_replicate]
    omega
  · simp only [List.length_nil]
    omega

/-- The size formula counts what is written. -/
theorem length_unpadded (hc : p.csrcCount.toNat = p.csrcs.length) :
    p.unpadded.length = p.unpaddedSize := by
  have hsum := length_unpadded_add p
  omega

/-- The extension stage on what was written. -/
theorem parse_extension_written {tail : Bytes} (h : p.WellFormed) :
    parseExtension (p.headerBytes ++ (p.csrcs.flatMap big32 ++ (p.extensionBytes ++ tail)))
        { p.fixedPart with csrcs := p.csrcs } (12 + p.csrcs.length * 4) =
      .ok (some ({ p with payload := [] },
        12 + p.csrcs.length * 4 + p.extensionBytes.length)) := by
  by_cases hx : p.extension = 0
  · obtain ⟨hprofile, hdata⟩ := h.noExtension hx
    refine (parseExtension_none (by exact hx)).2 ⟨?_, ?_⟩
    · rw [fixedPart]
      simp only [hprofile, hdata]
    · rw [extensionBytes, if_neg (fun hne => hne hx)]
      rfl
  · obtain ⟨n, hn⟩ := h.words
    have hsize := h.size
    have hall : p.extensionData.length / 4 % 65536 * 4 = p.extensionData.length := by omega
    have hlen : p.extensionBytes.length = 4 + p.extensionData.length := by
      rw [extensionBytes, if_pos hx, extensionPad]
      simp only [List.length_append, length_big16, List.length_replicate]
      omega
    have hdrop : (p.headerBytes ++ (p.csrcs.flatMap big32 ++ (p.extensionBytes ++ tail))).drop
        (12 + p.csrcs.length * 4) = p.extensionBytes ++ tail :=
      drop_behind rfl (length_flatMap_big32 _)
    have hstage := (parseExtension_written (q := { p.fixedPart with csrcs := p.csrcs }) hx h.words
      (by exact hx) hdrop).1
    rw [hall, List.take_length] at hstage
    rw [hstage, hlen, Nat.add_assoc]
    rfl

/-- The padding brings a packet to a whole number of words, and is at most one. -/
theorem serializedSize_eq (hp : p.padding ≠ 0) :
    ∃ pad, 0 < pad ∧ pad ≤ 4 ∧ p.serializedSize = p.unpaddedSize + pad := by
  rw [serializedSize, if_pos hp]
  split
  · exact ⟨4, by omega, by omega, rfl⟩
  · exact ⟨4 - p.unpaddedSize % 4, by omega, by omega, rfl⟩

/-- Where no more has been written than was counted, the rest is padding. -/
theorem padSize_eq {n : ℕ} (h : p.serializedSize = p.unpadded.length + n) (hn : n < 2 ^ 64) :
    p.padSize = n := by
  rw [padSize, h, BitVec.ofNat_add, BitVec.add_comm, BitVec.add_sub_cancel, BitVec.toNat_ofNat,
    Nat.mod_eq_of_lt hn]

/-- **What was written is read back.** -/
theorem parse_writeTo (h : p.WellFormed) :
    ∃ data, p.writeTo p.serializedSize = some data ∧ data.length = p.serializedSize ∧
      parse data = .ok (some p) := by
  have hlen := length_unpadded h.csrcCount
  have hread : ∀ tail : Bytes, parse (p.unpadded ++ tail) =
      parsePayload (p.unpadded ++ tail) { p with payload := [] }
        (12 + p.csrcs.length * 4 + p.extensionBytes.length) := fun tail => by
    have hassoc : p.unpadded ++ tail = p.headerBytes ++ (p.csrcs.flatMap big32 ++
        (p.extensionBytes ++ (p.payload ++ tail))) := by
      simp only [unpadded, List.append_assoc]
    rw [hassoc, parse_front h.version h.fits h.csrcCount, parse_extension_written h]
    rfl
  have hsize : p.unpadded.length =
      12 + p.csrcs.length * 4 + p.extensionBytes.length + p.payload.length := by
    simp only [unpadded, List.length_append, length_headerBytes, length_flatMap_big32]
  have hdrop : ∀ tail : Bytes,
      (p.unpadded ++ tail).drop (12 + p.csrcs.length * 4 + p.extensionBytes.length) =
        p.payload ++ tail := fun tail => by
    simp only [unpadded, List.append_assoc]
    exact drop_behind (drop_behind (n := p.csrcs.length * 4) (o := 12) rfl
      (length_flatMap_big32 _)) rfl
  by_cases hp : p.padding = 0
  · refine ⟨p.unpadded ++ [], ?_, ?_, ?_⟩
    · rw [writeTo, if_neg (lt_irrefl _), if_neg (fun hne => hne hp)]
    · rw [List.append_nil, hlen, serializedSize, if_neg (fun hne => hne hp)]
    · rw [hread, parsePayload_unpadded (p := { p with payload := [] })
        (by rw [List.append_nil]; omega) hp, hdrop, List.append_nil]
  · obtain ⟨pad, h0, h4, hpad⟩ := serializedSize_eq hp
    refine ⟨p.unpadded ++ paddingBytes pad, ?_, ?_, ?_⟩
    · rw [writeTo, if_neg (lt_irrefl _), if_pos hp,
        padSize_eq (n := pad) (by rw [hlen, hpad]) (by omega)]
    · rw [List.length_append, hlen, hpad, paddingBytes, if_pos h0]
      simp
      omega
    · rw [hread, parsePayload_padded (p := { p with payload := [] })
        (by rw [List.length_append]; omega) hp h0 (by omega) (hdrop _)]

/-- **What was read without padding is written again.** -/
theorem writeTo_parse {data : Bytes} (h : parse data = .ok (some p))
    (hbit : headerBit data 5 = 0) :
    p.writeTo p.serializedSize = some data ∧ data.length = p.serializedSize := by
  unfold parse at h
  obtain ⟨b, hb, h⟩ := Checked.bind_eq_ok.1 h
  cases b with
  | false => cases h
  | true =>
    obtain ⟨b', hb', hlen⟩ : (isRtpPacket data).Yields _ := isRtpPacket_yields
    obtain rfl := Except.ok.inj (hb.symm.trans hb')
    have hlen : 12 ≤ data.length := (hlen.1 rfl).1
    obtain ⟨p₀, h₀, h⟩ := Checked.bind_eq_ok.1 h
    obtain ⟨hfront, hfixed⟩ := fixedHeader_reads h₀
    obtain ⟨p₀', h₀', -, -, hpad⟩ := fixedHeader_yields hlen
    obtain rfl := Except.ok.inj (h₀.symm.trans h₀')
    have hpad : p₀.padding = 0 := by
      by_contra hne
      rw [hpad.1 hne] at hbit
      exact absurd hbit (by decide)
    obtain ⟨r₁, h₁, h⟩ := Checked.bind_eq_ok.1 h
    cases r₁ with
    | none => cases h
    | some r₁ =>
      obtain ⟨p₁, o₁⟩ := r₁
      obtain ⟨cs, rfl, hcount, -, ho₁, hcsrcs⟩ :=
        (parseCsrcs_iff hlen (by rw [← hfixed]; rfl)).1 h₁
      obtain ⟨r₂, h₂, h⟩ := Checked.bind_eq_ok.1 h
      cases r₂ with
      | none => cases h
      | some r₂ =>
        obtain ⟨p₂, o₂⟩ := r₂
        obtain ⟨hheader, hlist, hcc, hp₂, ho₂, hext⟩ := parseExtension_reads ho₁ h₂
        have hp₂ : p₂.padding = 0 := hp₂.trans hpad
        have h : parsePayload data p₂ o₂ = .ok (some p) := h
        rw [parsePayload_unpadded ho₂ hp₂] at h
        cases h
        have hwritten : p₂.headerBytes ++ p₂.csrcs.flatMap big32 ++ p₂.extensionBytes ++
            data.drop o₂ = data :=
          calc p₂.headerBytes ++ p₂.csrcs.flatMap big32 ++ p₂.extensionBytes ++ data.drop o₂
              = p₀.headerBytes ++ (cs.flatMap big32 ++ (p₂.extensionBytes ++ data.drop o₂)) := by
                rw [hheader, hlist]
                simp only [List.append_assoc]
                rfl
            _ = p₀.headerBytes ++ data.drop 12 := by rw [← hext, ← hcsrcs]
            _ = data := hfront.symm
        have hcc : p₂.csrcCount.toNat = p₂.csrcs.length := by
          rw [hcc, hlist]
          exact hcount.symm
        refine ⟨?_, ?_⟩
        · rw [writeTo, if_neg (lt_irrefl _), if_neg (fun hne => hne hp₂), List.append_nil]
          exact congrArg some hwritten
        · rw [serializedSize, if_neg (fun hne => hne hp₂)]
          exact (congrArg List.length hwritten.symm).trans
            (length_unpadded (p := { p₂ with payload := data.drop o₂ }) hcc)

/-- **Writing and parsing are inverse** over the whole RTP format: a well-formed packet
written into a buffer of its size is parsed back, with or without padding, and a
datagram without padding that is parsed is written again byte for byte. -/
theorem write_parse_inverse :
    (∀ p : RtpPacket, p.WellFormed → ∃ data, p.writeTo p.serializedSize = some data ∧
        data.length = p.serializedSize ∧ parse data = .ok (some p)) ∧
      ∀ (data : Bytes) (p : RtpPacket), parse data = .ok (some p) → headerBit data 5 = 0 →
        p.writeTo p.serializedSize = some data ∧ data.length = p.serializedSize :=
  ⟨fun _ => parse_writeTo, fun _ _ => writeTo_parse⟩

/-- A packet of padding alone behind a CSRC, and a datagram of three payload bytes. -/
theorem write_parse_inverse_padding :
    (∃ data, ({ padding := 1, csrcCount := 1, csrcs := [7] } : RtpPacket).writeTo 20 = some data ∧
        data.length = 20 ∧
        parse data = .ok (some { padding := 1, csrcCount := 1, csrcs := [7] })) ∧
      ({ payload := [1, 2, 3] } : RtpPacket).writeTo 15 =
        some [0x80, 0, 0, 0, 0, 0, 0, 0, 0, 0, 0, 0, 1, 2, 3] :=
  ⟨write_parse_inverse.1 { padding := 1, csrcCount := 1, csrcs := [7] }
      ⟨rfl, by decide, by decide, by decide, by decide, rfl, by decide, fun _ => ⟨rfl, rfl⟩,
        by decide, by decide⟩,
    (write_parse_inverse.2 [0x80, 0, 0, 0, 0, 0, 0, 0, 0, 0, 0, 0, 1, 2, 3] { payload := [1, 2, 3] }
      (by decide) (by decide)).1⟩

end RoundTrips

end RtpPacket
end AsioRtc
