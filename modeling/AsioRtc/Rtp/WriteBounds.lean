/-
# Where `write_to` writes

`rtp_packet::write_to` compares the buffer with `serialized_size`, which counts
`csrc_count` sources, and then writes as many as `csrcs` has; `peer_connection::send_rtp`
gives it a buffer of 2000 bytes and whatever packet the application has filled in.  It
returns the size as an `int` (`writeResult`), and what it writes stands from the start of
the buffer on (`Touches`).

`writesWithin_iff` says for which packets the two agree.  Padding hides a difference: what
is left of the counted size becomes padding, so a list that is too short does no harm then,
nor one that is one longer where a whole word of padding was counted.
-/

import AsioRtc.Rtp.Write

namespace AsioRtc

open Lib

namespace RtpPacket

/-- What `write_to` returns: `-1`, or the size cut to an `int`. -/
def writeResult (pkt : RtpPacket) (len : ℕ) : ℤ :=
  if len < pkt.serializedSize then -1 else (BitVec.ofNat 32 pkt.serializedSize).toInt

/-- `write_to` writes position `i` of the buffer. -/
def Touches (pkt : RtpPacket) (len i : ℕ) : Prop :=
  ∃ data, pkt.writeTo len = some data ∧ i < data.length

/-- A result that is not negative is the size, which is in the buffer, and exactly the
positions in front of it have been written; with `-1`, none has. -/
def WritesWithin (pkt : RtpPacket) (len : ℕ) : Prop :=
  (0 ≤ pkt.writeResult len → pkt.writeResult len = pkt.serializedSize ∧ pkt.serializedSize ≤ len ∧
      ∀ i, pkt.Touches len i ↔ i < pkt.serializedSize) ∧
    (pkt.writeResult len = -1 → ∀ i, ¬ pkt.Touches len i)

/-- The number of sources is the one that is counted, or the padding makes up for it. -/
def CountsSources (pkt : RtpPacket) : Prop :=
  pkt.csrcs.length = pkt.csrcCount.toNat ∨
    pkt.padding ≠ 0 ∧ (pkt.csrcs.length < pkt.csrcCount.toNat ∨
      pkt.csrcs.length = pkt.csrcCount.toNat + 1 ∧ 4 ∣ pkt.unpaddedSize)

/-- The positions written into a buffer that is large enough. -/
def writtenSize (pkt : RtpPacket) : ℕ :=
  pkt.unpadded.length + if pkt.padding ≠ 0 then pkt.padSize else 0

section Bounds

variable {pkt : RtpPacket} {len i : ℕ}

theorem length_paddingBytes (pad : ℕ) : (paddingBytes pad).length = pad := by
  unfold paddingBytes
  split
  · simp
    omega
  · simp
    omega

theorem touches_iff (h : pkt.serializedSize ≤ len) : pkt.Touches len i ↔ i < pkt.writtenSize := by
  have hwrite : pkt.writeTo len = some (pkt.unpadded ++
      if pkt.padding ≠ 0 then paddingBytes pkt.padSize else []) := by
    rw [writeTo, if_neg (by omega)]
  have hlen : (pkt.unpadded ++ if pkt.padding ≠ 0 then paddingBytes pkt.padSize else []).length =
      pkt.writtenSize := by
    rw [List.length_append, writtenSize]
    split
    · rw [length_paddingBytes]
    · rfl
  constructor
  · rintro ⟨data, hdata, hi⟩
    obtain rfl := Option.some.inj (hwrite.symm.trans hdata)
    rwa [hlen] at hi
  · exact fun hi => ⟨_, hwrite, by rwa [hlen]⟩

theorem not_touches (h : len < pkt.serializedSize) : ¬ pkt.Touches len i := by
  rintro ⟨data, hdata, -⟩
  rw [writeTo, if_pos h] at hdata
  cases hdata

/-- **The writer and the size formula agree** exactly where the sources are counted. -/
theorem writtenSize_eq_iff : pkt.writtenSize = pkt.serializedSize ↔ pkt.CountsSources := by
  have hsum := length_unpadded_add pkt
  have hcount := pkt.csrcCount.isLt
  unfold writtenSize CountsSources
  by_cases hp : pkt.padding = 0
  · have hsize : pkt.serializedSize = pkt.unpaddedSize := by
      rw [serializedSize, if_neg (not_not.2 hp)]
    rw [if_neg (not_not.2 hp), hsize]
    constructor
    · intro h
      left
      omega
    · rintro (h | ⟨hne, -⟩)
      · omega
      · exact absurd hp hne
  · rw [if_pos hp]
    -- A whole word of padding is counted where the rest is whole words already.
    obtain ⟨pad, h0, h4, hpad, hword⟩ : ∃ pad, 0 < pad ∧ pad ≤ 4 ∧
        pkt.serializedSize = pkt.unpaddedSize + pad ∧ (4 ∣ pkt.unpaddedSize ↔ pad = 4) := by
      rw [serializedSize, if_pos hp]
      split
      · exact ⟨4, by omega, le_rfl, rfl, by omega⟩
      · exact ⟨4 - pkt.unpaddedSize % 4, by omega, by omega, rfl, by omega⟩
    rcases Nat.lt_or_ge pkt.serializedSize pkt.unpadded.length with hlt | hle
    · -- More has been written than was counted, whatever the padding adds.
      refine iff_of_false (by omega) ?_
      rintro (h | ⟨-, h | ⟨h, hdvd⟩⟩)
      · omega
      · omega
      · have := hword.1 hdvd
        omega
    · have hpadSize := padSize_eq (p := pkt) (n := pkt.serializedSize - pkt.unpadded.length)
        (by omega) (by omega)
      refine iff_of_true (by rw [hpadSize]; omega) ?_
      rcases Nat.lt_trichotomy pkt.csrcs.length pkt.csrcCount.toNat with h | h | h
      · exact .inr ⟨hp, .inl h⟩
      · exact .inl h
      · refine .inr ⟨hp, .inr ⟨by omega, hword.2 (by omega)⟩⟩

end Bounds

/-- **When `write_to` stays in the buffer.**  For every packet and every length, the result and
the positions written are those promised exactly when the buffer is refused, the size gives a
negative `int` that is not `-1`, or the size is an `int` and the sources are counted. -/
theorem writesWithin_iff (pkt : RtpPacket) (len : ℕ) :
    pkt.WritesWithin len ↔
      len < pkt.serializedSize ∨
        (2 ^ 31 ≤ pkt.serializedSize % 2 ^ 32 ∧ pkt.serializedSize % 2 ^ 32 ≠ 2 ^ 32 - 1) ∨
        (pkt.serializedSize < 2 ^ 31 ∧ pkt.CountsSources) := by
  unfold WritesWithin
  rcases Nat.lt_or_ge len pkt.serializedSize with hshort | hlen
  · refine iff_of_true ⟨fun h => ?_, fun _ i => not_touches hshort⟩ (.inl hshort)
    rw [writeResult, if_pos hshort] at h
    exact absurd h (by decide)
  · have hresult : pkt.writeResult len = if pkt.serializedSize % 2 ^ 32 < 2 ^ 31 then
        ((pkt.serializedSize % 2 ^ 32 : ℕ) : ℤ)
        else ((pkt.serializedSize % 2 ^ 32 : ℕ) : ℤ) - 2 ^ 32 := by
      rw [writeResult, if_neg (by omega), BitVec.toInt_eq_toNat_cond, BitVec.toNat_ofNat]
      split <;> split <;> omega
    -- Something is written, if only the header.
    have hfirst : ∃ i, pkt.Touches len i := by
      refine ⟨0, (touches_iff hlen).2 ?_⟩
      simp only [writtenSize, unpadded, List.length_append, length_headerBytes]
      omega
    have hpositions : (∀ i, pkt.Touches len i ↔ i < pkt.serializedSize) ↔ pkt.CountsSources := by
      rw [← writtenSize_eq_iff]
      simp only [touches_iff hlen]
      constructor
      · intro h
        have h₁ := h pkt.writtenSize
        have h₂ := h pkt.serializedSize
        omega
      · intro h i
        rw [h]
    rw [hpositions, hresult]
    constructor
    · rintro ⟨hsize, hnone⟩
      by_cases hneg : pkt.serializedSize % 2 ^ 32 < 2 ^ 31
      · rw [if_pos hneg] at hsize
        obtain ⟨heq, -, hcounts⟩ := hsize (by omega)
        exact .inr (.inr ⟨by omega, hcounts⟩)
      · rw [if_neg hneg] at hnone
        refine .inr (.inl ⟨by omega, fun hlast => ?_⟩)
        obtain ⟨i, hi⟩ := hfirst
        exact hnone (by omega) i hi
    · rintro (h | ⟨hneg, hlast⟩ | ⟨hsmall, hcounts⟩)
      · omega
      · rw [if_neg (by omega)]
        exact ⟨fun h => absurd h (by omega), fun h => absurd h (by omega)⟩
      · rw [if_pos (by omega)]
        exact ⟨fun _ => ⟨by omega, hlen, hcounts⟩, fun h => absurd h (by omega)⟩

/-- **A list of sources overruns the buffer.**  A packet with 498 sources and a count of zero
is written into the 2000 bytes of `send_rtp`, and four bytes behind them. -/
theorem sources_overrun :
    ({ csrcs := List.replicate 498 0 } : RtpPacket).writeResult 2000 = 12 ∧
      ({ csrcs := List.replicate 498 0 } : RtpPacket).Touches 2000 2003 ∧
      ¬ ({ csrcs := List.replicate 498 0 } : RtpPacket).WritesWithin 2000 := by
  have hresult : ({ csrcs := List.replicate 498 0 } : RtpPacket).writeResult 2000 = 12 := by decide
  have htouches : ({ csrcs := List.replicate 498 0 } : RtpPacket).Touches 2000 2003 := by
    refine (touches_iff (by decide)).2 ?_
    rw [writtenSize, unpadded, List.length_append, List.length_append, List.length_append,
      length_flatMap_big32, List.length_replicate, length_headerBytes]
    decide
  refine ⟨hresult, htouches, fun h => ?_⟩
  have := ((h.1 (by rw [hresult]; decide)).2.2 2003).1 htouches
  exact absurd this (by decide)

end RtpPacket
end AsioRtc
