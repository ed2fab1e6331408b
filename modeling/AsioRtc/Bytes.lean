/-
# Bytes and big-endian fields

The fixed-width integers of the source (`uint8_t` … `uint64_t`) are bit vectors, a
buffer is the list of its bytes, and the reads of a parser are checked: `byteAt`
is an invalid access where the position is not in the buffer.  `readBig16` and
`readBig32` are `asioice::binary::read_big` (and `ntoh` of a field of a packed
struct), `big16`, `big32` and `big64` are what `write_big` puts into the buffer:
most significant byte first.
-/

import AsioRtc.Lib.Checked
import Mathlib.Data.BitVec

namespace AsioRtc

open Lib

/-- `std::uint8_t`. -/
abbrev U8 := BitVec 8
/-- `std::uint16_t`. -/
abbrev U16 := BitVec 16
/-- `std::uint32_t`. -/
abbrev U32 := BitVec 32
/-- `std::uint64_t`. -/
abbrev U64 := BitVec 64

/-- Membership of bytes is decided with this one. -/
instance : LawfulBEq U8 := inferInstance

/-- The contents of a buffer. -/
abbrev Bytes := List U8

/-- `data[i]`. -/
def byteAt (data : Bytes) (i : ℕ) : Checked U8 :=
  match data[i]? with
  | some b => .ok b
  | none => .error (.index i data.length)

/-- `read_big<uint16_t>(data + o)`. -/
def readBig16 (data : Bytes) (o : ℕ) : Checked U16 := do
  let a ← byteAt data o
  let b ← byteAt data (o + 1)
  pure (BitVec.ofNat 16 (a.toNat * 256 + b.toNat))

/-- `read_big<uint32_t>(data + o)`. -/
def readBig32 (data : Bytes) (o : ℕ) : Checked U32 := do
  let a ← readBig16 data o
  let b ← readBig16 data (o + 2)
  pure (BitVec.ofNat 32 (a.toNat * 65536 + b.toNat))

/-- The bytes `[o, o + n)`, as `assign(ptr + o, ptr + o + n)` copies them. -/
def slice (data : Bytes) (o n : ℕ) : Checked Bytes :=
  if o + n ≤ data.length then .ok ((data.drop o).take n)
  else .error (.index (o + n) data.length)

/-- `write_big<uint16_t>`. -/
def big16 (x : U16) : Bytes := [BitVec.ofNat 8 (x.toNat / 256), BitVec.ofNat 8 x.toNat]

/-- `write_big<uint32_t>`. -/
def big32 (x : U32) : Bytes :=
  big16 (BitVec.ofNat 16 (x.toNat / 65536)) ++ big16 (BitVec.ofNat 16 x.toNat)

/-- The two words of a `uint64_t`, the high one first. -/
def big64 (x : U64) : Bytes :=
  big32 (BitVec.ofNat 32 (x.toNat / 2 ^ 32)) ++ big32 (BitVec.ofNat 32 x.toNat)

/-- A 16-bit number is two bytes. -/
@[simp] theorem length_big16 (x : U16) : (big16 x).length = 2 := rfl

/-- A 32-bit number is four bytes. -/
@[simp] theorem length_big32 (x : U32) : (big32 x).length = 4 := rfl

/-- A 64-bit number is eight bytes. -/
@[simp] theorem length_big64 (x : U64) : (big64 x).length = 8 := rfl

/-! ### Bit fields -/

section BitFields

variable {w k : ℕ} {x y : BitVec w}

/-- A shift to the right divides. -/
theorem toNat_shiftRight (x : BitVec w) (k : ℕ) : (x >>> k).toNat = x.toNat / 2 ^ k := by
  rw [BitVec.toNat_ushiftRight, Nat.shiftRight_eq_div_pow]

/-- The field in the lowest `k` bits. -/
theorem toNat_and_mask {mask : BitVec w} (k : ℕ) (hmask : mask.toNat = 2 ^ k - 1) :
    (x &&& mask).toNat = x.toNat % 2 ^ k := by
  rw [BitVec.toNat_and, hmask, Nat.and_two_pow_sub_one_eq_mod]

/-- Two fields side by side in one word. -/
theorem toNat_shiftLeft_or (hy : y.toNat < 2 ^ k) (hx : x.toNat * 2 ^ k + y.toNat < 2 ^ w) :
    ((x <<< k) ||| y).toNat = x.toNat * 2 ^ k + y.toNat := by
  rw [BitVec.toNat_or, BitVec.toNat_shiftLeft, Nat.shiftLeft_eq,
    Nat.mod_eq_of_lt (Nat.lt_of_le_of_lt (Nat.le_add_right _ _) hx), ← Nat.shiftLeft_eq,
    ← Nat.shiftLeft_add_eq_or_of_lt hy, Nat.shiftLeft_eq]

end BitFields

/-! ### Reads -/

section Reads

variable {data : Bytes} {i o n : ℕ}

/-- A read inside the bytes. -/
theorem byteAt_ok (h : i < data.length) : byteAt data i = .ok data[i] := by
  simp [byteAt, List.getElem?_eq_getElem h]

/-- A read gives a byte just where there is one. -/
theorem byteAt_eq_ok {b : U8} : byteAt data i = .ok b ↔ data[i]? = some b := by
  unfold byteAt
  cases data[i]? <;> simp

/-- A part inside the bytes. -/
theorem slice_ok (h : o + n ≤ data.length) : slice data o n = .ok ((data.drop o).take n) :=
  if_pos h

/-- A read is safe exactly where the position is in the buffer. -/
theorem safe_byteAt : Checked.Safe (byteAt data i) ↔ i < data.length := by
  constructor
  · rintro ⟨b, hb⟩
    exact (List.getElem?_eq_some_iff.1 (byteAt_eq_ok.1 hb)).1
  · exact fun h => ⟨_, byteAt_ok h⟩

/-- A part inside the bytes is taken safely. -/
theorem safe_slice (h : o + n ≤ data.length) : Checked.Safe (slice data o n) := ⟨_, slice_ok h⟩

/-- Two bytes inside the bytes are read safely. -/
theorem readBig16_safe (h : o + 2 ≤ data.length) : Checked.Safe (readBig16 data o) :=
  (safe_byteAt.2 (by omega)).bind fun _ _ => (safe_byteAt.2 (by omega)).bind fun _ _ =>
    Checked.safe_pure

/-- Four bytes inside the bytes are read safely. -/
theorem readBig32_safe (h : o + 4 ≤ data.length) : Checked.Safe (readBig32 data o) :=
  (readBig16_safe (by omega)).bind fun _ _ => (readBig16_safe (by omega)).bind fun _ _ =>
    Checked.safe_pure

/-- A read ends. -/
theorem byteAt_ends (data : Bytes) (i : ℕ) : (byteAt data i).Ends := by
  unfold byteAt
  split
  · exact Checked.ends_ok
  · exact ⟨fun h => by cases h⟩

/-- Taking a part ends. -/
theorem slice_ends (data : Bytes) (o n : ℕ) : (slice data o n).Ends := by
  unfold slice
  split
  · exact Checked.ends_ok
  · exact ⟨fun h => by cases h⟩

/-- Reading two bytes ends. -/
theorem readBig16_ends (data : Bytes) (o : ℕ) : (readBig16 data o).Ends := by
  refine (byteAt_ends ..).bind fun _ _ => ?_
  exact (byteAt_ends ..).bind fun _ _ => Checked.ends_pure

/-- Reading four bytes ends. -/
theorem readBig32_ends (data : Bytes) (o : ℕ) : (readBig32 data o).Ends := by
  refine (readBig16_ends ..).bind fun _ _ => ?_
  exact (readBig16_ends ..).bind fun _ _ => Checked.ends_pure

/-- The 16-bit number at `o`, where it is there. -/
theorem readBig16_ok (h : o + 2 ≤ data.length) :
    readBig16 data o =
      .ok (BitVec.ofNat 16 (data[o].toNat * 256 + data[o + 1].toNat)) := by
  simp [readBig16, byteAt_ok (show o < data.length by omega),
    byteAt_ok (show o + 1 < data.length by omega), bind, Except.bind, pure, Except.pure]

end Reads

/-! ### Where a field stands -/

section Fields

variable {data : Bytes} {o n : ℕ}

/-- A read takes the first byte of what is left. -/
theorem byteAt_iff_drop {b : U8} :
    byteAt data o = .ok b ↔ data.drop o = b :: data.drop (o + 1) := by
  rw [byteAt_eq_ok]
  constructor
  · intro h
    obtain ⟨hlt, rfl⟩ := List.getElem?_eq_some_iff.1 h
    exact List.drop_eq_getElem_cons hlt
  · intro h
    have := congrArg (·[0]?) h
    simpa using this

/-- **A 16-bit field.**  The number read at `o` is the one whose bytes stand there. -/
theorem readBig16_iff_drop {x : U16} :
    readBig16 data o = .ok x ↔ data.drop o = big16 x ++ data.drop (o + 2) := by
  simp only [readBig16, Checked.bind_eq_ok, byteAt_iff_drop]
  constructor
  · rintro ⟨a, ha, b, hb, h⟩
    cases h
    rw [ha, hb]
    have hsum : a.toNat * 256 + b.toNat < 65536 := by omega
    simp only [big16, List.cons_append, List.nil_append, BitVec.toNat_ofNat,
      List.cons.injEq, and_true]
    refine ⟨?_, ?_⟩ <;> rw [← BitVec.toNat_inj] <;> simp only [BitVec.toNat_ofNat] <;> omega
  · intro h
    have h₁ : data.drop (o + 1) = BitVec.ofNat 8 x.toNat :: data.drop (o + 2) := by
      have := congrArg (List.drop 1) h
      simpa [big16] using this
    refine ⟨BitVec.ofNat 8 (x.toNat / 256), by rw [h₁, h]; rfl, _, h₁, ?_⟩
    refine congrArg Except.ok ?_
    rw [← BitVec.toNat_inj]
    simp only [BitVec.toNat_ofNat]
    omega

/-- **A 32-bit field.** -/
theorem readBig32_iff_drop {x : U32} :
    readBig32 data o = .ok x ↔ data.drop o = big32 x ++ data.drop (o + 4) := by
  simp only [readBig32, Checked.bind_eq_ok, readBig16_iff_drop]
  constructor
  · rintro ⟨a, ha, b, hb, h⟩
    cases h
    rw [ha, hb]
    have hsum : a.toNat * 65536 + b.toNat < 4294967296 := by omega
    have hhi : BitVec.ofNat 16 ((BitVec.ofNat 32 (a.toNat * 65536 + b.toNat)).toNat / 65536) = a := by
      rw [← BitVec.toNat_inj]
      simp only [BitVec.toNat_ofNat]
      omega
    have hlo : BitVec.ofNat 16 (BitVec.ofNat 32 (a.toNat * 65536 + b.toNat)).toNat = b := by
      rw [← BitVec.toNat_inj]
      simp only [BitVec.toNat_ofNat]
      omega
    rw [big32, hhi, hlo, List.append_assoc]
  · intro h
    rw [big32, List.append_assoc] at h
    have h₁ : data.drop (o + 2) = big16 (BitVec.ofNat 16 x.toNat) ++ data.drop (o + 4) := by
      have := congrArg (List.drop 2) h
      simpa [big16] using this
    refine ⟨_, by rw [h₁]; exact h, _, h₁, ?_⟩
    refine congrArg Except.ok ?_
    rw [← BitVec.toNat_inj]
    simp only [BitVec.toNat_ofNat]
    omega

/-- **A run of bytes.** -/
theorem slice_iff_drop {bs : Bytes} (ho : o ≤ data.length) :
    slice data o n = .ok bs ↔ bs.length = n ∧ data.drop o = bs ++ data.drop (o + n) := by
  unfold slice
  split
  · rename_i hfit
    rw [Except.ok.injEq]
    constructor
    · rintro rfl
      refine ⟨by simp; omega, ?_⟩
      rw [← List.drop_drop, List.take_append_drop]
    · rintro ⟨rfl, h⟩
      rw [h, List.take_left]
  · rename_i hfit
    refine iff_of_false (fun h => by cases h) fun ⟨hlen, h⟩ => ?_
    have := congrArg List.length h
    simp only [List.length_append, List.length_drop] at this
    omega

/-- What stands behind a field of known length. -/
theorem drop_behind {a rest : Bytes} (h : data.drop o = a ++ rest) (hn : a.length = n) :
    data.drop (o + n) = rest := by
  rw [← List.drop_drop, h, ← hn, List.drop_left]

/-- A field that stands at `o` is read, and the rest stands behind it. -/
theorem readBig16_written {x : U16} {rest : Bytes} (h : data.drop o = big16 x ++ rest) :
    readBig16 data o = .ok x ∧ data.drop (o + 2) = rest := by
  have hrest := drop_behind h (length_big16 x)
  exact ⟨readBig16_iff_drop.2 (by rw [hrest]; exact h), hrest⟩

/-- A 32-bit number that is written is read back. -/
theorem readBig32_written {x : U32} {rest : Bytes} (h : data.drop o = big32 x ++ rest) :
    readBig32 data o = .ok x ∧ data.drop (o + 4) = rest := by
  have hrest := drop_behind h (length_big32 x)
  exact ⟨readBig32_iff_drop.2 (by rw [hrest]; exact h), hrest⟩

end Fields
end AsioRtc
