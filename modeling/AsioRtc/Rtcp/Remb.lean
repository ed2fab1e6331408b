/-
# REMB: an estimated bitrate and the streams it is for

`parse_remb` and `pack_remb` of `src/rtcp.cpp`, the FCI of a receiver's bitrate estimate:

| bytes | |
| ---: | --- |
| 4 | `REMB` |
| 1 | number of SSRCs |
| 3 | exponent `e` (6 bits) and mantissa `m` (18 bits): the bitrate is `m · 2 ^ e` |
| 4 for each | SSRCs |

A bitrate has up to 32 bits, of which the mantissa keeps the first 18.
-/

import AsioRtc.Bytes
import Mathlib.Order.Bounds.Basic

namespace AsioRtc

open Lib

/-- `R`, `E`, `M`, `B`. -/
def rembId : Bytes := [0x52, 0x45, 0x4D, 0x42]

/-- A turn of the loop of `parse_remb`, at `i` and `pos` with the SSRCs before. -/
def rembTurn (data : Bytes) (numSsrc : U8) (s : ℕ × ℕ × List U32) :
    Checked (Turn (ℕ × ℕ × List U32) (List U32)) :=
  if s.1 < numSsrc.toNat ∧ s.2.1 + 4 ≤ data.length then do
    let ssrc ← readBig32 data s.2.1
    pure (.next (s.1 + 1, s.2.1 + 4, s.2.2 ++ [ssrc]))
  else pure (.done s.2.2)

/-- A shift by 32 or more, which the source leaves undefined, makes `0` here. -/
def parseRemb (data : Bytes) : Checked (U32 × List U32) :=
  if data.length < 8 then pure (0, [])
  else do
    let id ← slice data 0 4
    if id ≠ rembId then pure (0, [])
    else do
      let numSsrc ← byteAt data 4
      let b₅ ← byteAt data 5
      let b₆ ← byteAt data 6
      let b₇ ← byteAt data 7
      let brExp := (b₅ >>> 2) &&& 0x3F
      let brMantissa : U32 :=
        (b₅ &&& 0x03).setWidth 32 <<< 16 ||| b₆.setWidth 32 <<< 8 ||| b₇.setWidth 32
      let ssrcs ← Checked.loop (rembTurn data numSsrc) (numSsrc.toNat + 1) (0, 8, [])
      pure (brMantissa <<< brExp.toNat, ssrcs)

/-- The loop of `pack_remb`: the bitrate is halved until it fits. -/
def rembNormalize (bitrate : U32) (exp : U8) : U32 × U8 :=
  if 0x3FFFF < bitrate then rembNormalize (bitrate >>> 1) (exp + 1) else (bitrate, exp)
termination_by bitrate.toNat
decreasing_by
  have h : 0x3FFFF < bitrate.toNat := by assumption
  rw [toNat_shiftRight]
  omega

def packRemb (bitrate : U32) (ssrcs : List U32) : Bytes :=
  let normalized := rembNormalize bitrate 0
  let exp := normalized.2
  let mantissa := normalized.1 &&& 0x3FFFF
  rembId ++
    [BitVec.ofNat 8 ssrcs.length,
      (exp <<< 2) ||| ((mantissa >>> 16) &&& 0x03).setWidth 8,
      ((mantissa >>> 8) &&& 0xFF).setWidth 8,
      (mantissa &&& 0xFF).setWidth 8] ++
    ssrcs.flatMap big32

/-! ### Exponent and mantissa -/

section Mantissa

variable {m b : U32} {e : ℕ}

/-- The number of low bits that `b` has to give up. -/
def IsRembExponent (b : U32) (e : ℕ) : Prop := IsLeast {e | b >>> e ≤ 0x3FFFF} e

/-- `b` with its lowest `e` bits cleared. -/
def clearLow (b : U32) (e : ℕ) : U32 := (b >>> e) <<< e

theorem shiftRight_le_iff : b >>> e ≤ 0x3FFFF ↔ b.toNat < 2 ^ 18 * 2 ^ e := by
  rw [BitVec.le_def, toNat_shiftRight, ← Nat.div_lt_iff_lt_mul (Nat.two_pow_pos e)]
  exact (Nat.lt_succ_iff (n := 0x3FFFF)).symm

theorem toNat_clearLow : (clearLow b e).toNat = b.toNat / 2 ^ e * 2 ^ e := by
  have hle : b.toNat / 2 ^ e * 2 ^ e ≤ b.toNat := Nat.div_mul_le_self ..
  rw [clearLow, BitVec.toNat_shiftLeft, toNat_shiftRight, Nat.shiftLeft_eq,
    Nat.mod_eq_of_lt (by omega)]

theorem shiftRight_clearLow : clearLow b e >>> e = b >>> e := by
  rw [← BitVec.toNat_inj, toNat_shiftRight, toNat_shiftRight, toNat_clearLow,
    Nat.mul_div_cancel _ (Nat.two_pow_pos e)]

/-- **The loop shifts by the exponent.** -/
theorem rembNormalize_eq (b : U32) (exp : U8) :
    ∃ e, IsRembExponent b e ∧ rembNormalize b exp = (b >>> e, exp + BitVec.ofNat 8 e) := by
  induction b, exp using rembNormalize.induct with
  | case1 b exp hbig ih =>
    obtain ⟨e, ⟨hfit, hleast⟩, heq⟩ := ih
    have hshift : ∀ k, b >>> 1 >>> k = b >>> (k + 1) := fun k => by
      rw [Nat.add_comm, BitVec.shiftRight_add]
    refine ⟨e + 1, ⟨(hshift e).subst (motive := (· ≤ 0x3FFFF)) hfit, fun k hk => ?_⟩, ?_⟩
    · cases k with
      | zero => exact absurd hk (BitVec.not_le.2 hbig)
      | succ k =>
        refine Nat.succ_le_succ (hleast ?_)
        exact (hshift k).symm.subst (motive := (· ≤ 0x3FFFF)) hk
    · rw [rembNormalize, if_pos hbig, heq, hshift, BitVec.add_assoc, BitVec.add_comm 1,
        BitVec.ofNat_add]
      rfl
  | case2 b exp hsmall =>
    refine ⟨0, ⟨by simpa using hsmall, fun _ _ => Nat.zero_le _⟩, ?_⟩
    rw [rembNormalize, if_neg hsmall]
    simp

namespace IsRembExponent

theorem unique {e' : ℕ} (h : IsRembExponent b e) (h' : IsRembExponent b e') : e = e' :=
  IsLeast.unique h h'

theorem normalize (h : IsRembExponent b e) :
    rembNormalize b 0 = (b >>> e, BitVec.ofNat 8 e) := by
  obtain ⟨e', h', heq⟩ := rembNormalize_eq b 0
  rw [heq, h'.unique h]
  exact congrArg _ (BitVec.zero_add _)

theorem toNat_lt (h : IsRembExponent b e) : (b >>> e).toNat < 2 ^ 18 :=
  Nat.lt_succ_of_le (BitVec.le_def.1 h.1)

/-- A bitrate has at most 14 bits too many. -/
theorem le_fourteen (h : IsRembExponent b e) : e ≤ 14 :=
  h.2 (shiftRight_le_iff.2 b.isLt)

/-- The mantissa has all of its 18 bits where a bit is given up. -/
theorem mul_le (h : IsRembExponent b e) (he : e ≠ 0) : 2 ^ 17 * 2 ^ e ≤ b.toNat := by
  obtain ⟨k, rfl⟩ := Nat.exists_eq_succ_of_ne_zero he
  by_contra hlt
  have hk : k + 1 ≤ k := h.2 (shiftRight_le_iff.2 (by rw [pow_succ] at hlt; omega))
  omega

/-- The bits that are cleared make no difference to the exponent. -/
theorem clearLow (h : IsRembExponent b e) : IsRembExponent (clearLow b e) e := by
  refine ⟨(congrArg (· ≤ 0x3FFFF#32) shiftRight_clearLow).mpr h.1, fun k hk => ?_⟩
  by_contra hlt
  have hle := h.mul_le (by omega)
  have hclear : 2 ^ 17 * 2 ^ e ≤ (AsioRtc.clearLow b e).toNat := by
    rw [toNat_clearLow]
    exact Nat.mul_le_mul_right _ ((Nat.le_div_iff_mul_le (Nat.two_pow_pos e)).2 hle)
  have hpow : 2 ^ (k + 1) ≤ 2 ^ e := Nat.pow_le_pow_right (by decide) (by omega)
  have hfit := shiftRight_le_iff.1 hk
  rw [pow_succ] at hpow
  omega

/-- **What is lost of a bitrate** is at most its `2 ^ 17`th part. -/
theorem sub_lt (h : IsRembExponent b e) :
    b.toNat - (AsioRtc.clearLow b e).toNat < b.toNat / 2 ^ 17 + 1 := by
  have hmod : b.toNat % 2 ^ e < 2 ^ e := Nat.mod_lt _ (Nat.two_pow_pos e)
  have hsub : b.toNat - b.toNat / 2 ^ e * 2 ^ e = b.toNat % 2 ^ e := by
    have := Nat.div_add_mod b.toNat (2 ^ e)
    rw [Nat.mul_comm] at this
    omega
  rw [toNat_clearLow, hsub]
  by_cases he : e = 0
  · subst he
    omega
  · have hle := h.mul_le he
    have : 2 ^ e ≤ b.toNat / 2 ^ 17 :=
      (Nat.le_div_iff_mul_le (Nat.two_pow_pos 17)).2 (by rw [Nat.mul_comm]; exact hle)
    omega

end IsRembExponent

/-- Three bytes with a mantissa of 18 bits. -/
theorem mantissa_bytes (h : m.toNat < 2 ^ 18) :
    (((m >>> 16) &&& 0x03).setWidth 8).setWidth 32 <<< 16 |||
      (((m >>> 8) &&& 0xFF).setWidth 8).setWidth 32 <<< 8 |||
      ((m &&& 0xFF).setWidth 8).setWidth 32 = m := by
  have h₅ : (((m >>> 16) &&& 0x03).setWidth 8 |>.setWidth 32).toNat = m.toNat / 2 ^ 16 := by
    rw [BitVec.toNat_setWidth, BitVec.toNat_setWidth, toNat_and_mask 2 rfl, toNat_shiftRight]
    omega
  have h₆ : (((m >>> 8) &&& 0xFF).setWidth 8 |>.setWidth 32).toNat =
      m.toNat / 2 ^ 8 % 2 ^ 8 := by
    rw [BitVec.toNat_setWidth, BitVec.toNat_setWidth, toNat_and_mask 8 rfl, toNat_shiftRight]
    omega
  have h₇ : ((m &&& 0xFF).setWidth 8 |>.setWidth 32).toNat = m.toNat % 2 ^ 8 := by
    rw [BitVec.toNat_setWidth, BitVec.toNat_setWidth, toNat_and_mask 8 rfl]
    omega
  have h₆₇ := toNat_shiftLeft_or (k := 8)
    (show ((m &&& 0xFF).setWidth 8 |>.setWidth 32).toNat < 2 ^ 8 by omega)
    (x := ((m >>> 8) &&& 0xFF).setWidth 8 |>.setWidth 32) (by omega)
  rw [← BitVec.toNat_inj, BitVec.or_assoc, toNat_shiftLeft_or] <;> rw [h₆₇] <;> omega

/-- The byte of the exponent, which ends in the first two bits of the mantissa. -/
theorem exponent_byte {x y : U8} (hx : x.toNat < 64) (hy : y.toNat < 4) :
    ((x <<< 2 ||| y) >>> 2) &&& 0x3F = x ∧ (x <<< 2 ||| y) &&& 0x03 = y := by
  have h := toNat_shiftLeft_or (x := x) (k := 2) hy (by omega)
  constructor
  · rw [← BitVec.toNat_inj, toNat_and_mask 6 rfl, toNat_shiftRight, h]
    omega
  · rw [← BitVec.toNat_inj, toNat_and_mask 2 rfl, h]
    omega

end Mantissa

/-! ### The bytes read back -/

section ReadBack

variable {b : U32} {e : ℕ} {ssrcs : List U32}

/-- What is written for a bitrate. -/
theorem packRemb_eq (h : IsRembExponent b e) :
    packRemb b ssrcs = rembId ++
      [BitVec.ofNat 8 ssrcs.length,
        BitVec.ofNat 8 e <<< 2 ||| ((b >>> e) >>> 16 &&& 0x03).setWidth 8,
        ((b >>> e) >>> 8 &&& 0xFF).setWidth 8,
        (b >>> e &&& 0xFF).setWidth 8] ++
      ssrcs.flatMap big32 := by
  have hmantissa : b >>> e &&& 0x3FFFF = b >>> e := by
    rw [← BitVec.toNat_inj, toNat_and_mask 18 rfl, Nat.mod_eq_of_lt h.toNat_lt]
  rw [packRemb]
  simp only [h.normalize, hmantissa]

/-- The SSRCs that stand at `pos` are read. -/
theorem rembLoop_written {data : Bytes} {numSsrc : U8} {acc : List U32} {i pos fuel : ℕ}
    (hdrop : data.drop pos = ssrcs.flatMap big32) (hnum : i + ssrcs.length = numSsrc.toNat)
    (hfuel : ssrcs.length < fuel) :
    Checked.loop (rembTurn data numSsrc) fuel (i, pos, acc) = .ok (acc ++ ssrcs) := by
  induction ssrcs generalizing i pos acc fuel with
  | nil =>
    obtain ⟨fuel, rfl⟩ := Nat.exists_eq_add_one.2 hfuel
    rw [Checked.loop_done fuel (b := acc), List.append_nil]
    rw [rembTurn, if_neg (by simp at hnum ⊢; omega)]
    rfl
  | cons ssrc ssrcs ih =>
    obtain ⟨fuel, rfl⟩ := Nat.exists_eq_add_one.2 (Nat.zero_lt_of_lt hfuel)
    rw [List.flatMap_cons] at hdrop
    have hfit : pos + 4 ≤ data.length := by
      have hlen := congrArg List.length hdrop
      rw [List.length_drop, List.length_append, length_big32] at hlen
      omega
    obtain ⟨hread, hrest⟩ := readBig32_written hdrop
    rw [List.length_cons] at hnum hfuel
    have hturn : rembTurn data numSsrc (i, pos, acc) =
        .ok (.next (i + 1, pos + 4, acc ++ [ssrc])) := by
      rw [rembTurn, if_pos ⟨by simp only; omega, hfit⟩, hread]
      rfl
    rw [Checked.loop_next fuel hturn, ih hrest (by omega) (by omega), List.append_assoc]
    rfl

/-- **The bitrate is read without its lowest bits, and the SSRCs as they are.** -/
theorem parseRemb_written (h : IsRembExponent b e) (hlen : ssrcs.length ≤ 255) :
    parseRemb (packRemb b ssrcs) = .ok (clearLow b e, ssrcs) := by
  have he := h.le_fourteen
  have hm := h.toNat_lt
  have hexp : (BitVec.ofNat 8 e).toNat = e := Nat.mod_eq_of_lt (by omega)
  have hhigh : (((b >>> e) >>> 16 &&& 0x03).setWidth 8 : U8).toNat < 4 := by
    rw [BitVec.toNat_setWidth, toNat_and_mask 2 rfl]
    omega
  have hnum : (BitVec.ofNat 8 ssrcs.length).toNat = ssrcs.length :=
    Nat.mod_eq_of_lt (by omega)
  obtain ⟨hfield, hlow⟩ := exponent_byte (x := BitVec.ofNat 8 e) (by omega) hhigh
  have hssrcs : ∀ data : Bytes, data.drop 8 = ssrcs.flatMap big32 →
      Checked.loop (rembTurn data (BitVec.ofNat 8 ssrcs.length))
        ((BitVec.ofNat 8 ssrcs.length).toNat + 1) (0, 8, []) = .ok ssrcs := fun data hdrop =>
    rembLoop_written hdrop (by rw [hnum, Nat.zero_add]) (by omega)
  have hloop := hssrcs (packRemb b ssrcs) (by rw [packRemb_eq h]; rfl)
  rw [packRemb_eq h] at hloop ⊢
  rw [parseRemb, if_neg (by simp [rembId]), slice_ok (by simp [rembId]), Checked.ok_bind,
    if_neg (by simp [rembId])]
  simp only [byteAt, rembId, List.cons_append, List.nil_append, List.getElem?_cons_succ,
    List.getElem?_cons_zero, Checked.ok_bind, hfield, hlow, hexp] at hloop ⊢
  rw [hloop, Checked.ok_bind, mantissa_bytes hm]
  rfl

/-- **A bitrate is read back rounded down.**  Its lowest bits are cleared, as few as leave 18,
which takes less than its `2 ^ 17`th part away; written again it gives the same bytes. -/
theorem parseRemb_packRemb (b : U32) (ssrcs : List U32) (hlen : ssrcs.length ≤ 255) :
    ∃ e b', IsRembExponent b e ∧ b' = clearLow b e ∧
      parseRemb (packRemb b ssrcs) = .ok (b', ssrcs) ∧
      b' ≤ b ∧ b.toNat - b'.toNat < b.toNat / 2 ^ 17 + 1 ∧
      packRemb b' ssrcs = packRemb b ssrcs := by
  obtain ⟨e, he, -⟩ := rembNormalize_eq b 0
  refine ⟨e, clearLow b e, he, rfl, parseRemb_written he hlen, ?_, he.sub_lt, ?_⟩
  · rw [BitVec.le_def, toNat_clearLow]
    exact Nat.div_mul_le_self ..
  · rw [packRemb_eq he, packRemb_eq he.clearLow, shiftRight_clearLow]

/-- Ten megabits for one stream. -/
theorem parseRemb_packRemb_tenMegabits :
    ([0x1234] : List U32).length ≤ 255 ∧ ∃ e b', IsRembExponent 10000000 e ∧
      b' = clearLow 10000000 e ∧
      parseRemb (packRemb 10000000 [0x1234]) = .ok (b', [0x1234]) ∧
      b' ≤ 10000000 ∧
      (10000000 : U32).toNat - b'.toNat < (10000000 : U32).toNat / 2 ^ 17 + 1 ∧
      packRemb b' [0x1234] = packRemb 10000000 [0x1234] :=
  ⟨by decide, parseRemb_packRemb 10000000 [0x1234] (by decide)⟩

end ReadBack

end AsioRtc
