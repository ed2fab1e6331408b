/-
# VP9 payloads

`depayload` of `src/connection_impl.cpp` against the payload descriptor of RFC 9628, in
its non-flexible form without a scalability structure (the bits F and V clear).  Its
octets are

| octets | bits |
| --- | --- |
| flags | `I P L F B E V Z` |
| picture id, if I | `M` and 7 bits, with 8 more bits behind them if M |
| layers, if L | `T U S D`, and the index of the TL0 picture |

`depayload` reads them as those of VP8, which has the flag for its extension octet where
VP9 has I: so the first octet of a picture id is taken for the flags of an extension.
Three bits of a picture id count as fields (`Vp9PictureId.extra`), and the end of the
descriptor is found where there are just as many as there are octets of the layers, or
where the payload ends before the last one (`ReadAsVp8`).
-/

import AsioRtc.Connection.Receive

namespace AsioRtc

open Lib

/-- The picture id of a VP9 payload, by its number of octets. -/
inductive Vp9PictureId
  | short (id : BitVec 7)
  | long (id : BitVec 15)
  deriving DecidableEq, Repr

namespace Vp9PictureId

/-- M and the upper bits. -/
def first : Vp9PictureId → U8
  | short id => id.setWidth 8
  | long id => 0x80 ||| (id >>> 8).setWidth 8

/-- The lower bits of a long one. -/
def second : Vp9PictureId → Option U8
  | short _ => none
  | long id => some (id.setWidth 8)

/-- The octets of a picture id. -/
def bytes (id : Vp9PictureId) : Bytes := id.first :: id.second.toList

/-- The second octet has the bit that makes a picture id of VP8 a long one. -/
def wide (id : Vp9PictureId) : Bool := id.second.any fun b => b &&& 0x80 ≠ 0

/-- The fields that VP8 would have behind its picture id: the index of the TL0 picture, and the
layer or the key frame index. -/
def extra (id : Vp9PictureId) : ℕ :=
  id.wide.toNat + (decide (id.first &&& 0x40 ≠ 0)).toNat + (decide (id.first &&& 0x30 ≠ 0)).toNat

end Vp9PictureId

/-- The payload descriptor of VP9 where F and V are clear. -/
structure Vp9Descriptor where
  interPicture : Bool := false
  startOfFrame : Bool := false
  endOfFrame : Bool := false
  notReference : Bool := false
  pictureId : Option Vp9PictureId := none
  layers : Option (U8 × U8) := none

namespace Vp9Descriptor

/-- `I P L F B E V Z`. -/
def flags (i p l b e z : Bool) : U8 :=
  (if i then 0x80 else 0) ||| (if p then 0x40 else 0) ||| (if l then 0x20 else 0) |||
    (if b then 0x08 else 0) ||| (if e then 0x04 else 0) ||| (if z then 0x01 else 0)

/-- The first octet. -/
def octet (d : Vp9Descriptor) : U8 :=
  flags d.pictureId.isSome d.interPicture d.layers.isSome d.startOfFrame d.endOfFrame
    d.notReference

/-- The octets of the picture id, if there is one. -/
def pictureIdBytes (d : Vp9Descriptor) : Bytes := d.pictureId.elim [] Vp9PictureId.bytes

/-- The octets of the layers, if there are any. -/
def layerBytes (d : Vp9Descriptor) : Bytes := d.layers.elim [] fun l => [l.1, l.2]

/-- The octets of the descriptor. -/
def bytes (d : Vp9Descriptor) : Bytes := d.octet :: (d.pictureIdBytes ++ d.layerBytes)

/-- **The descriptor ends where one of VP8 would**: its picture id counts for as many octets as the
layers have, or for one more that the payload has no room for. -/
def ReadAsVp8 (d : Vp9Descriptor) (body : Bytes) : Prop :=
  match d.pictureId, d.layers with
  | none, none => True
  | none, some _ => False
  | some id, none => id.extra = 0 ∨ id.wide = false ∧ body = []
  | some id, some _ => id.extra = 2 ∨ id.extra = 3 ∧ body = []

/-- Whether a descriptor ends at the same place is computed. -/
instance (d : Vp9Descriptor) (body : Bytes) : Decidable (d.ReadAsVp8 body) := by
  unfold ReadAsVp8
  split <;> infer_instance

variable {d : Vp9Descriptor} {body : Bytes}

/-- The bit for an extension octet in VP8 is the one for a picture id. -/
theorem octet_extended (d : Vp9Descriptor) :
    (d.octet >>> 7) &&& 1 = 1 ↔ d.pictureId.isSome = true := by
  have h : ∀ i p l b e z, (flags i p l b e z >>> 7) &&& 1 = 1 ↔ i = true := by decide
  exact h ..

/-- A short picture id has the bit M clear. -/
theorem first_short (id : BitVec 7) : (Vp9PictureId.short id).first &&& 0x80 = 0 := by
  revert id
  decide

/-- A long picture id has it set. -/
theorem first_long (id : BitVec 15) : (Vp9PictureId.long id).first &&& 0x80 ≠ 0 := by
  intro h
  have h7 := congrArg (·.getLsbD 7) h
  simp [Vp9PictureId.first] at h7

/-- The picture id takes one octet or two. -/
theorem length_pictureIdBytes_pos {id : Vp9PictureId} (h : d.pictureId = some id) :
    d.pictureIdBytes.length = 1 + id.second.toList.length := by
  simp [pictureIdBytes, h, Vp9PictureId.bytes, Nat.add_comm]

/-- A descriptor without a picture id is taken for one octet. -/
theorem descriptorEnd_none (h : d.pictureId = none) :
    descriptorEnd (d.bytes ++ body) = .ok 1 := by
  have hread : byteAt (d.bytes ++ body) 0 = .ok d.octet := rfl
  rw [descriptorEnd, hread, Checked.ok_bind, if_neg]
  · rfl
  · rw [octet_extended, h]
    exact fun hset => absurd hset.1 (by decide)

/-- Two fields are passed over from `start` on, each where there is an octet left. -/
theorem passed_eq (a b : Prop) [Decidable a] [Decidable b] (start len : ℕ) :
    (let pos := if a ∧ start < len then start + 1 else start
      if b ∧ pos < len then pos + 1 else pos) =
      max start (min len (start + (decide a).toNat + (decide b).toNat)) := by
  by_cases ha : a <;> by_cases hb : b <;> simp [ha, hb] <;> split_ifs <;> omega

/-- Only a second octet makes a picture id wide. -/
theorem wide_le (id : Vp9PictureId) : id.wide.toNat ≤ id.second.toList.length := by
  cases id with
  | short id => exact Nat.le_refl 0
  | long id => exact Bool.toNat_le _

/-- **Where `depayload` finds the end**: the picture id is an extension octet, with a picture id of
VP8 behind it if it is a long one, and its other fields as far as there are octets. -/
theorem descriptorEnd_some {id : Vp9PictureId} (h : d.pictureId = some id) :
    descriptorEnd (d.bytes ++ body) = .ok
      (max (2 + id.second.toList.length + id.wide.toNat)
        (min (d.bytes ++ body).length (2 + id.second.toList.length + id.extra))) := by
  have hbytes : d.bytes ++ body =
      d.octet :: id.first :: (id.second.toList ++ (d.layerBytes ++ body)) := by
    simp [bytes, pictureIdBytes, h, Vp9PictureId.bytes]
  have hend : pictureIdEnd (d.bytes ++ body) id.first 2 =
      .ok (2 + id.second.toList.length + id.wide.toNat) := by
    rw [hbytes, pictureIdEnd]
    cases id with
    | short id =>
      rw [if_neg fun hset => hset.1 (first_short id)]
      rfl
    | long id =>
      rw [if_pos ⟨first_long id, by simp [Vp9PictureId.second]⟩]
      have hread : byteAt (d.octet :: (Vp9PictureId.long id).first ::
          ((Vp9PictureId.long id).second.toList ++ (d.layerBytes ++ body))) 2 =
          .ok (id.setWidth 8) := rfl
      rw [hread, Checked.ok_bind, Vp9PictureId.wide, Vp9PictureId.second, Option.any_some]
      split
      · rename_i hset
        rw [decide_eq_true hset]
        rfl
      · rename_i hclear
        rw [decide_eq_false hclear]
        rfl
  have hread₀ : byteAt (d.bytes ++ body) 0 = .ok d.octet := rfl
  have hread₁ : byteAt (d.bytes ++ body) 1 = .ok id.first := by rw [hbytes]; rfl
  rw [descriptorEnd, hread₀, Checked.ok_bind, if_pos, hread₁, Checked.ok_bind, hend,
    Checked.ok_bind]
  · exact congrArg Except.ok ((passed_eq ..).trans (by simp only [Vp9PictureId.extra, Nat.add_assoc]))
  · rw [octet_extended, h]
    exact ⟨rfl, by rw [hbytes]; simp⟩

/-- How long a descriptor is. -/
theorem length_bytes (d : Vp9Descriptor) :
    d.bytes.length = 1 + d.pictureIdBytes.length + d.layerBytes.length := by
  simp only [bytes, List.length_cons, List.length_append]
  omega

/-- **The right end is found just where the descriptor can be read as one of VP8.** -/
theorem descriptorEnd_iff (d : Vp9Descriptor) (body : Bytes) :
    descriptorEnd (d.bytes ++ body) = .ok d.bytes.length ↔ d.ReadAsVp8 body := by
  cases hid : d.pictureId with
  | none =>
    rw [descriptorEnd_none hid, Except.ok.injEq, length_bytes, ReadAsVp8, hid]
    cases hl : d.layers <;> simp [pictureIdBytes, layerBytes, hid, hl]
  | some id =>
    have hpic := length_pictureIdBytes_pos hid
    have hwide := wide_le id
    have hextra : id.extra ≤ id.wide.toNat + 2 := by
      have := Bool.toNat_le (decide (id.first &&& 0x40 ≠ 0))
      have := Bool.toNat_le (decide (id.first &&& 0x30 ≠ 0))
      rw [Vp9PictureId.extra]
      omega
    have hle : id.wide.toNat ≤ id.extra := by
      rw [Vp9PictureId.extra]
      omega
    have hfalse : id.wide = false ↔ id.wide.toNat = 0 := by cases id.wide <;> simp
    have hsecond : id.second.toList.length ≤ 1 := by cases id.second <;> simp
    rw [descriptorEnd_some hid, Except.ok.injEq, List.length_append, length_bytes, hpic, ReadAsVp8, hid]
    cases hl : d.layers with
    | none =>
      simp only [layerBytes, hl, Option.elim_none, List.length_nil, ← List.length_eq_zero_iff, hfalse]
      omega
    | some l =>
      simp only [layerBytes, hl, Option.elim_some, List.length_cons, List.length_nil,
        ← List.length_eq_zero_iff]
      omega

/-- Nothing is left of the descriptor just where the right end is found. -/
theorem drop_eq_body_iff (pos : ℕ) :
    (if pos ≤ (d.bytes ++ body).length then (d.bytes ++ body).drop pos else d.bytes ++ body) = body ↔
      pos = d.bytes.length := by
  have hpos : 0 < d.bytes.length := by rw [length_bytes]; omega
  constructor
  · intro h
    have hlen := congrArg List.length h
    have happend := @List.length_append _ d.bytes body
    split at hlen
    · rw [List.length_drop] at hlen
      omega
    · omega
  · rintro rfl
    rw [if_pos (by simp), List.drop_left]

end Vp9Descriptor

/-- **When `depayload` removes the descriptor of VP9.**  It gives back the body just where the
descriptor can be read as one of VP8. -/
theorem depayload_vp9_iff [NoCaseEq] {codecName : Text} (hname : nceq codecName "VP9".toList = true)
    (d : Vp9Descriptor) (body : Bytes) :
    depayload codecName (d.bytes ++ body) = .ok body ↔ d.ReadAsVp8 body := by
  have hend : ∃ pos, descriptorEnd (d.bytes ++ body) = .ok pos := by
    cases hid : d.pictureId with
    | none => exact ⟨_, Vp9Descriptor.descriptorEnd_none hid⟩
    | some id => exact ⟨_, Vp9Descriptor.descriptorEnd_some hid⟩
  obtain ⟨pos, hpos⟩ := hend
  have hne : decide (d.bytes ++ body ≠ []) = true := decide_eq_true (List.cons_ne_nil _ _)
  rw [← Vp9Descriptor.descriptorEnd_iff, depayload, hname, Bool.or_true, Bool.true_and, if_pos hne,
    hpos, Checked.ok_bind, Except.ok.injEq, ← Vp9Descriptor.drop_eq_body_iff]
  exact ⟨Except.ok.inj, congrArg Except.ok⟩

/-- A picture id below 16, and no layers. -/
theorem depayload_vp9_iff_short :
    @depayload asciiNoCase "vp9".toList
        (Vp9Descriptor.bytes { startOfFrame := true, pictureId := some (.short 9) } ++ [0x82, 0x49]) =
      .ok [0x82, 0x49] :=
  (@depayload_vp9_iff asciiNoCase "vp9".toList (by decide)
    { startOfFrame := true, pictureId := some (.short 9) } [0x82, 0x49]).2 (by decide)

/-- **A byte of the frame is lost**: the picture id 17 has the bit for a key frame index of VP8. -/
theorem depayload_vp9_cuts :
    ¬ @depayload asciiNoCase "VP9".toList
        (Vp9Descriptor.bytes { startOfFrame := true, pictureId := some (.short 17) } ++ [0x82, 0x49]) =
      .ok [0x82, 0x49] := by
  have h : @depayload asciiNoCase "VP9".toList
      (Vp9Descriptor.bytes { startOfFrame := true, pictureId := some (.short 17) } ++ [0x82, 0x49]) =
      .ok [0x49] := by decide +kernel
  rw [h]
  decide

end AsioRtc
