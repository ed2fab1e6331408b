/-
# RTP packets

`include/asiortc/rtp.hpp` and `src/rtp.cpp`: the packet record and its parser.
The parser goes through the datagram in four stages, the fixed 12-byte header
(`fixedHeader`), the CSRC list (`parseCsrcs`), the header extension
(`parseExtension`) and the payload with its padding (`parsePayload`); each stage
gives up with `none`, or hands on the packet so far and the offset it got to.

`rtp_packet::parse` accepts exactly the datagrams that `ReadsAsRtp` describes:
version 2, and a CSRC list, an extension and a padding that fit (`parse_isSome`).
It makes no access outside the datagram (`parse_safe`).
-/

import AsioRtc.Bytes

namespace AsioRtc

open Lib

/-- `rtp::rtp_packet`. -/
structure RtpPacket where
  version : U8 := 2
  padding : U8 := 0
  extension : U8 := 0
  csrcCount : U8 := 0
  marker : U8 := 0
  payloadType : U8 := 0
  sequenceNumber : U16 := 0
  timestamp : U32 := 0
  ssrc : U32 := 0
  csrcs : List U32 := []
  extensionProfile : U16 := 0
  extensionData : Bytes := []
  payload : Bytes := []
  deriving DecidableEq, Repr

/-- `rtp::is_rtp_packet`. -/
def isRtpPacket (data : Bytes) : Checked Bool :=
  if data.length < 12 then pure false
  else do
    let b ← byteAt data 0
    pure (b >>> 6 == 2)

namespace RtpPacket

/-- The fixed header, `rtp_header_t`. -/
def fixedHeader (data : Bytes) : Checked RtpPacket := do
  let b0 ← byteAt data 0
  let b1 ← byteAt data 1
  let seq ← readBig16 data 2
  let ts ← readBig32 data 4
  let ssrc ← readBig32 data 8
  pure
    { version := b0 >>> 6 &&& 0x03
      padding := b0 >>> 5 &&& 0x01
      extension := b0 >>> 4 &&& 0x01
      csrcCount := b0 &&& 0x0F
      marker := b1 >>> 7 &&& 0x01
      payloadType := b1 &&& 0x7F
      sequenceNumber := seq
      timestamp := ts
      ssrc := ssrc }

/-- The `n` CSRCs from offset `o` on. -/
def readCsrcs (data : Bytes) (o : ℕ) : ℕ → Checked (List U32)
  | 0 => pure []
  | n + 1 => do
      let c ← readBig32 data o
      let cs ← readCsrcs data (o + 4) n
      pure (c :: cs)

/-- The CSRC list. -/
def parseCsrcs (data : Bytes) (pkt : RtpPacket) (o : ℕ) : Checked (Option (RtpPacket × ℕ)) :=
  if 0 < pkt.csrcCount.toNat then
    if data.length < o + pkt.csrcCount.toNat * 4 then pure none
    else do
      let csrcs ← readCsrcs data o pkt.csrcCount.toNat
      pure (some ({ pkt with csrcs := csrcs }, o + pkt.csrcCount.toNat * 4))
  else pure (some (pkt, o))

/-- The header extension, `rtp_extension_header_t` and its words. -/
def parseExtension (data : Bytes) (pkt : RtpPacket) (o : ℕ) : Checked (Option (RtpPacket × ℕ)) :=
  if pkt.extension ≠ 0 then
    if data.length < o + 4 then pure none
    else do
      let profile ← readBig16 data o
      let length ← readBig16 data (o + 2)
      if data.length < o + 4 + length.toNat * 4 then pure none
      else do
        let ext ← slice data (o + 4) (length.toNat * 4)
        pure (some ({ pkt with extensionProfile := profile, extensionData := ext },
          o + 4 + length.toNat * 4))
  else pure (some (pkt, o))

/-- The payload: everything from `o` on, less its padding. -/
def parsePayload (data : Bytes) (pkt : RtpPacket) (o : ℕ) : Checked (Option RtpPacket) := do
  let payload ← slice data o (data.length - o)
  if pkt.padding ≠ 0 ∧ payload ≠ [] then do
    let padLen ← byteAt payload (payload.length - 1)
    if padLen = 0 ∨ payload.length < padLen.toNat then pure none
    else pure (some { pkt with payload := payload.take (payload.length - padLen.toNat) })
  else pure (some { pkt with payload := payload })

/-- `rtp_packet::parse`. -/
def parse (data : Bytes) : Checked (Option RtpPacket) := do
  if ← isRtpPacket data then do
    let pkt ← fixedHeader data
    match ← parseCsrcs data pkt 12 with
    | none => pure none
    | some (pkt, o) =>
      match ← parseExtension data pkt o with
      | none => pure none
      | some (pkt, o) => parsePayload data pkt o
  else pure none

/-- `rtp_packet::get_ssrc`. -/
def getSsrc (data : Bytes) : Checked U32 := readBig32 data 8

/-- Bit `i` of the first byte. -/
def headerBit (data : Bytes) (i : ℕ) : ℕ := (data.getD 0 0).toNat / 2 ^ i % 2

/-- Where the CSRC list of a datagram read as RTP ends. -/
def csrcEnd (data : Bytes) : ℕ := 12 + (data.getD 0 0).toNat % 16 * 4

/-- Where the payload of a datagram read as RTP begins. -/
def payloadStart (data : Bytes) : ℕ :=
  if headerBit data 4 = 1 then
    csrcEnd data + 4 +
      ((data.getD (csrcEnd data + 2) 0).toNat * 256 +
        (data.getD (csrcEnd data + 3) 0).toNat) * 4
  else csrcEnd data

/-- A datagram that reads as RTP: version 2, a header that fits, and a padding
that is none, or at least one byte and not more than the payload. -/
structure ReadsAsRtp (data : Bytes) : Prop where
  fixed : 12 ≤ data.length
  version : (data.getD 0 0).toNat / 64 = 2
  header : payloadStart data ≤ data.length
  padding : headerBit data 5 = 1 → payloadStart data < data.length →
    1 ≤ (data.getD (data.length - 1) 0).toNat ∧
      (data.getD (data.length - 1) 0).toNat ≤ data.length - payloadStart data

instance (data : Bytes) : Decidable (ReadsAsRtp data) :=
  decidable_of_iff (12 ≤ data.length ∧ (data.getD 0 0).toNat / 64 = 2 ∧
      payloadStart data ≤ data.length ∧
      (headerBit data 5 = 1 → payloadStart data < data.length →
        1 ≤ (data.getD (data.length - 1) 0).toNat ∧
          (data.getD (data.length - 1) 0).toNat ≤ data.length - payloadStart data))
    ⟨fun ⟨a, b, c, d⟩ => ⟨a, b, c, d⟩, fun ⟨a, b, c, d⟩ => ⟨a, b, c, d⟩⟩

/-! ### Which datagrams are accepted -/

section Acceptance

variable {data : Bytes}

theorem getD_eq {i : ℕ} (h : i < data.length) : data.getD i 0 = data[i] := by
  simp [List.getD_eq_getElem?_getD, List.getElem?_eq_getElem h]

theorem isRtpPacket_yields :
    (isRtpPacket data).Yields fun b =>
      b = true ↔ 12 ≤ data.length ∧ (data.getD 0 0).toNat / 64 = 2 := by
  unfold isRtpPacket
  split
  · simp; omega
  · rw [byteAt_ok (show 0 < data.length by omega), getD_eq (by omega)]
    refine Checked.yields_ok.2 ?_
    rw [beq_iff_eq, ← BitVec.toNat_inj]
    simp [Nat.shiftRight_eq_div_pow]
    omega

/-- The three counts and flags that say how long the header is. -/
theorem fixedHeader_yields (h : 12 ≤ data.length) :
    (fixedHeader data).Yields fun p => p.csrcCount.toNat = (data.getD 0 0).toNat % 16 ∧
      (p.extension ≠ 0 ↔ headerBit data 4 = 1) ∧ (p.padding ≠ 0 ↔ headerBit data 5 = 1) := by
  have bit : ∀ i, ((data[0] >>> i &&& 0x01 : U8) ≠ 0 ↔ data[0].toNat / 2 ^ i % 2 = 1) := by
    intro i
    rw [ne_eq, ← BitVec.toNat_inj]
    simp [Nat.shiftRight_eq_div_pow, Nat.and_one_is_mod]
  obtain ⟨seq, hseq⟩ := readBig16_safe (show 2 + 2 ≤ data.length by omega)
  obtain ⟨ts, hts⟩ := readBig32_safe (show 4 + 4 ≤ data.length by omega)
  obtain ⟨ssrc, hssrc⟩ := readBig32_safe (show 8 + 4 ≤ data.length by omega)
  rw [fixedHeader, byteAt_ok (show 0 < data.length by omega),
    byteAt_ok (show 1 < data.length by omega), hseq, hts, hssrc]
  refine Checked.yields_ok.2 ⟨?_, ?_, ?_⟩
  · rw [getD_eq (by omega)]
    exact toNat_and_mask 4 rfl
  · rw [headerBit, getD_eq (by omega)]
    exact bit 4
  · rw [headerBit, getD_eq (by omega)]
    exact bit 5

theorem readCsrcs_safe {o n : ℕ} (h : o + n * 4 ≤ data.length) :
    (readCsrcs data o n).Safe := by
  induction n generalizing o with
  | zero => exact Checked.safe_pure
  | succ n ih =>
    exact (readBig32_safe (by omega)).bind fun _ _ => (ih (by omega)).bind fun _ _ =>
      Checked.safe_pure

/-- The CSRC stage gives up where the list does not fit, and goes on behind it. -/
theorem parseCsrcs_yields {p : RtpPacket} (h : 12 ≤ data.length)
    (hp : p.csrcCount.toNat = (data.getD 0 0).toNat % 16) :
    (parseCsrcs data p 12).Yields fun r =>
      (r = none ∧ data.length < csrcEnd data) ∨
        ∃ q, r = some (q, csrcEnd data) ∧ csrcEnd data ≤ data.length ∧
          q.extension = p.extension ∧ q.padding = p.padding := by
  unfold parseCsrcs csrcEnd
  rw [← hp]
  split
  · split
    · exact Checked.yields_pure.2 (Or.inl ⟨rfl, by omega⟩)
    · obtain ⟨cs, hcs⟩ := readCsrcs_safe (show 12 + p.csrcCount.toNat * 4 ≤ data.length by omega)
      rw [hcs]
      exact Checked.yields_ok.2 (Or.inr ⟨_, rfl, by omega, rfl, rfl⟩)
  · exact Checked.yields_pure.2 (Or.inr ⟨p, by congr 2; omega, by omega, rfl, rfl⟩)

/-- The extension stage gives up where the extension does not fit, and goes on
at the payload. -/
theorem parseExtension_yields {p : RtpPacket} (h : csrcEnd data ≤ data.length)
    (hp : p.extension ≠ 0 ↔ headerBit data 4 = 1) :
    (parseExtension data p (csrcEnd data)).Yields fun r =>
      (r = none ∧ data.length < payloadStart data) ∨
        ∃ q, r = some (q, payloadStart data) ∧ payloadStart data ≤ data.length ∧
          q.padding = p.padding := by
  unfold parseExtension payloadStart
  by_cases hx : headerBit data 4 = 1
  · rw [if_pos (hp.2 hx), if_pos hx]
    split
    · exact Checked.yields_pure.2 (Or.inl ⟨rfl, by omega⟩)
    · obtain ⟨profile, hprofile⟩ := readBig16_safe (show csrcEnd data + 2 ≤ data.length by omega)
      have hlen : ∀ a b : U8, (BitVec.ofNat 16 (a.toNat * 256 + b.toNat)).toNat =
          a.toNat * 256 + b.toNat := fun a b => by
        rw [BitVec.toNat_ofNat]
        omega
      rw [hprofile, readBig16_ok (show csrcEnd data + 2 + 2 ≤ data.length by omega)]
      simp only [bind, Except.bind]
      rw [getD_eq (show csrcEnd data + 2 < data.length by omega),
        show data.getD (csrcEnd data + 3) 0 = data[csrcEnd data + 2 + 1] from getD_eq (by omega),
        hlen]
      split
      · exact Checked.yields_pure.2 (Or.inl ⟨rfl, by assumption⟩)
      · rw [slice_ok (by omega)]
        exact Checked.yields_pure.2 (Or.inr ⟨_, rfl, by omega, rfl⟩)
  · rw [if_neg (fun hne => hx (hp.1 hne)), if_neg hx]
    exact Checked.yields_pure.2 (Or.inr ⟨p, rfl, h, rfl⟩)

/-- The payload stage gives up only on its padding. -/
theorem parsePayload_yields {p : RtpPacket} {o : ℕ} (ho : o ≤ data.length) :
    (parsePayload data p o).Yields fun r => r.isSome = true ↔ (p.padding ≠ 0 → o < data.length →
      1 ≤ (data.getD (data.length - 1) 0).toNat ∧
        (data.getD (data.length - 1) 0).toNat ≤ data.length - o) := by
  have hpay : (data.drop o).take (data.length - o) = data.drop o :=
    List.take_of_length_le (by simp)
  rw [parsePayload, slice_ok (by omega), hpay]
  simp only [bind, Except.bind]
  split
  · rename_i hpad
    have hlt : o < data.length := by
      have := List.length_pos_of_ne_nil hpad.2
      simp only [List.length_drop] at this
      omega
    have hbound : (data.drop o).length - 1 < (data.drop o).length := by
      simp only [List.length_drop]
      omega
    have hlast : (data.drop o)[(data.drop o).length - 1] = data.getD (data.length - 1) 0 := by
      rw [getD_eq (by omega)]
      simp only [List.getElem_drop, List.length_drop]
      congr 1
      omega
    rw [byteAt_ok hbound, hlast]
    simp only [List.length_drop]
    have hz : data.getD (data.length - 1) 0 = 0 ↔ (data.getD (data.length - 1) 0).toNat = 0 := by
      rw [← BitVec.toNat_inj]
      rfl
    split
    · rename_i hbad
      refine Checked.yields_pure.2 ⟨fun h => absurd h Bool.false_ne_true, fun h => ?_⟩
      have := h hpad.1 hlt
      rw [hz] at hbad
      omega
    · rename_i hgood
      rw [hz] at hgood
      exact Checked.yields_pure.2 ⟨fun _ _ _ => by omega, fun _ => rfl⟩
  · rename_i hpad
    refine Checked.yields_pure.2 ⟨fun _ hp hlt => ?_, fun _ => rfl⟩
    exact absurd ⟨hp, fun h0 => by
      have := List.drop_eq_nil_iff.1 h0
      omega⟩ hpad

/-- **What the parser accepts.**  It reads only inside the datagram, and it
returns a packet exactly where the datagram reads as RTP. -/
theorem parse_yields (data : Bytes) :
    (parse data).Yields fun r => r.isSome = true ↔ ReadsAsRtp data := by
  refine isRtpPacket_yields.bind fun b hb => ?_
  cases b with
  | false =>
    refine Checked.yields_pure.2 ⟨fun h => absurd h Bool.false_ne_true, fun h => ?_⟩
    exact hb.2 ⟨h.fixed, h.version⟩
  | true =>
    obtain ⟨hlen, hver⟩ := hb.1 rfl
    refine (fixedHeader_yields hlen).bind fun p hp => ?_
    refine (parseCsrcs_yields hlen hp.1).bind fun r hr => ?_
    rcases hr with ⟨rfl, hshort⟩ | ⟨q, rfl, hfit, hqx, hqp⟩
    · refine Checked.yields_pure.2 ⟨fun h => absurd h Bool.false_ne_true, fun h => ?_⟩
      have h₁ := h.header
      unfold payloadStart at h₁
      split at h₁ <;> omega
    · refine (parseExtension_yields hfit (by rw [hqx]; exact hp.2.1)).bind fun r hr => ?_
      rcases hr with ⟨rfl, hshort⟩ | ⟨q', rfl, hfit', hqp'⟩
      · refine Checked.yields_pure.2 ⟨fun h => absurd h Bool.false_ne_true, fun h => ?_⟩
        exact absurd h.header (by omega)
      · refine (parsePayload_yields hfit').mono fun r hr => hr.trans ?_
        rw [hqp', hqp, hp.2.2]
        exact ⟨fun h => ⟨hlen, hver, hfit', h⟩, fun h => h.padding⟩

theorem parse_safe (data : Bytes) : (parse data).Safe := (parse_yields data).safe

end Acceptance

end RtpPacket
end AsioRtc
