/-
# VP8 payload descriptors

`vpx_payload_descriptor` of `src/rtp_packetizer/vpx_descriptor.cpp`: a byte with the partition, and
where one of four optional fields is there, a byte that says which, and the fields.  The picture
id has one or two bytes, and the temporal layer shares a byte with the key frame index.

Two parsers read it.  `parse` gives the fields and how many bytes they take; where a field is cut
off it returns what it has, and says that nothing has been consumed.  `depayload` in
`src/connection_impl.cpp` only looks for the end.  Both invert `bytes` (`parse_written`,
`descriptorEnd_bytes`), whatever fields there are.
-/

import AsioRtc.Connection.Receive
import Mathlib.Tactic.IntervalCases

namespace AsioRtc

open Lib

/-- `vpx_payload_descriptor`. -/
structure VpxPayloadDescriptor where
  partitionStart : Bool := false
  partitionId : U8 := 0
  pictureId : Option U16 := none
  tl0picidx : Option U8 := none
  tid : Option (U8 × U8) := none
  keyidx : Option U8 := none
  deriving DecidableEq, Repr

namespace VpxPayloadDescriptor

/-- The first byte, without the extension bit. -/
def octet (d : VpxPayloadDescriptor) : U8 :=
  ((if d.partitionStart then 1 else 0 : U8) <<< 4) ||| (d.partitionId &&& 0xF)

/-- The picture id: one byte below 128, two bytes with the high bit set from there on. -/
def pictureIdBytes : Option U16 → Bytes
  | none => []
  | some id =>
      if id.toNat < 128 then [id.setWidth 8]
      else
        let v := 0x8000 ||| id
        [(v >>> 8).setWidth 8, (v &&& 0xFF).setWidth 8]

/-- The temporal layer and its sync bit, in the high bits. -/
def tidBits : Option (U8 × U8) → U8
  | none => 0
  | some (layer, sync) => (layer <<< 6) ||| (sync <<< 5)

/-- The byte of the temporal layer and the key frame index. -/
def layerBytes (tid : Option (U8 × U8)) (keyidx : Option U8) : Bytes :=
  if tid.isSome || keyidx.isSome then
    [tidBits tid ||| match keyidx with
      | none => 0
      | some k => k &&& 0x1F]
  else []

/-- `vpx_payload_descriptor::bytes`. -/
def bytes (d : VpxPayloadDescriptor) : Bytes :=
  if d.pictureId.isSome || d.tl0picidx.isSome || d.tid.isSome || d.keyidx.isSome then
    let ext : U8 :=
      (if d.pictureId.isSome then 0x80 else 0) ||| (if d.tl0picidx.isSome then 0x40 else 0) |||
        (if d.tid.isSome then 0x20 else 0) ||| (if d.keyidx.isSome then 0x10 else 0)
    [0x80 ||| d.octet, ext] ++ pictureIdBytes d.pictureId ++ d.tl0picidx.toList ++
      layerBytes d.tid d.keyidx
  else [d.octet]

/-- The layers take at most one byte. -/
theorem length_layerBytes_le (tid : Option (U8 × U8)) (keyidx : Option U8) :
    (layerBytes tid keyidx).length ≤ 1 := by
  unfold layerBytes
  split <;> simp

/-- A descriptor takes at most six bytes. -/
theorem length_bytes_le (d : VpxPayloadDescriptor) : d.bytes.length ≤ 6 := by
  have hpicture : (pictureIdBytes d.pictureId).length ≤ 2 := by
    unfold pictureIdBytes
    split
    · exact Nat.zero_le _
    · split <;> simp
  have hlayer := length_layerBytes_le d.tid d.keyidx
  have htl0 : d.tl0picidx.toList.length ≤ 1 := by
    cases d.tl0picidx <;> simp
  unfold bytes
  split
  · simp only [List.length_append, List.length_cons, List.length_nil]
    omega
  · simp

/-! ### Parsing -/

/-- Where the parsing goes on, with the position of the next byte, or the descriptor that is
returned early. -/
abbrev Parsed := Turn (VpxPayloadDescriptor × ℕ) VpxPayloadDescriptor

/-- The picture id. -/
def parsePictureId (data : Bytes) (ext : U8) (d : VpxPayloadDescriptor) (pos : ℕ) :
    Checked Parsed :=
  if ext &&& 0x80 ≠ 0 then
    if data.length < pos + 1 then pure (.done d)
    else do
      let b ← byteAt data pos
      if b &&& 0x80 ≠ 0 then
        if data.length < pos + 2 then pure (.done d)
        else do
          let b' ← byteAt data (pos + 1)
          let id := ((b &&& 0x7F).setWidth 16 <<< 8) ||| b'.setWidth 16
          pure (.next ({ d with pictureId := some id }, pos + 2))
      else pure (.next ({ d with pictureId := some (b.setWidth 16) }, pos + 1))
  else pure (.next (d, pos))

/-- The index of the temporal layer zero. -/
def parseTl0picidx (data : Bytes) (ext : U8) (d : VpxPayloadDescriptor) (pos : ℕ) :
    Checked Parsed :=
  if ext &&& 0x40 ≠ 0 then
    if data.length < pos + 1 then pure (.done d)
    else do
      let b ← byteAt data pos
      pure (.next ({ d with tl0picidx := some b }, pos + 1))
  else pure (.next (d, pos))

/-- The temporal layer and the key frame index. -/
def parseLayers (data : Bytes) (ext : U8) (d : VpxPayloadDescriptor) (pos : ℕ) : Checked Parsed :=
  if ext &&& 0x30 ≠ 0 then
    if data.length < pos + 1 then pure (.done d)
    else do
      let tk ← byteAt data pos
      pure (.next ({ d with
        tid := if ext &&& 0x20 ≠ 0 then some (tk >>> 6 &&& 3, tk >>> 5 &&& 1) else d.tid
        keyidx := if ext &&& 0x10 ≠ 0 then some (tk &&& 0x1F) else d.keyidx }, pos + 1))
  else pure (.next (d, pos))

/-- `vpx_payload_descriptor::parse`: the descriptor, and `consumed`. -/
def parse (data : Bytes) : Checked (VpxPayloadDescriptor × ℕ) :=
  if data.length < 1 then pure ({}, 0)
  else do
    let b₀ ← byteAt data 0
    let d : VpxPayloadDescriptor :=
      { partitionStart := (b₀ >>> 4) &&& 1 = 1, partitionId := b₀ &&& 0xF }
    if (b₀ >>> 7) &&& 1 = 1 then
      if data.length < 2 then pure (d, 0)
      else do
        let ext ← byteAt data 1
        match ← parsePictureId data ext d 2 with
        | .done d => pure (d, 0)
        | .next (d, pos) =>
          match ← parseTl0picidx data ext d pos with
          | .done d => pure (d, 0)
          | .next (d, pos) =>
            match ← parseLayers data ext d pos with
            | .done d => pure (d, 0)
            | .next (d, pos) => pure (d, pos)
    else pure (d, 1)

/-! ### Reading inside the bytes -/

section Inside

variable {data : Bytes} {ext : U8} {d : VpxPayloadDescriptor} {pos : ℕ}

/-- A position inside of the bytes, or at their end. -/
def InsideTurn (data : Bytes) : Parsed → Prop :=
  Turn.Holds (fun s => s.2 ≤ data.length) fun _ => True

/-- A read behind the check of the length is safe. -/
theorem byteAt_yields (pos : ℕ) (h : ¬ data.length < pos + 1) : (byteAt data pos).Yields fun _ => True :=
  Checked.safe_iff.1 (safe_byteAt.2 (by omega))

/-- Reading the picture id stays inside. -/
theorem parsePictureId_inside (hpos : pos ≤ data.length) :
    (parsePictureId data ext d pos).Yields (InsideTurn data) := by
  unfold parsePictureId
  split
  · split
    · exact Checked.yields_pure.2 trivial
    · rename_i hone
      refine (byteAt_yields _ hone).bind fun b _ => ?_
      split
      · split
        · exact Checked.yields_pure.2 trivial
        · rename_i htwo
          exact (byteAt_yields _ htwo).bind fun b' _ => Checked.yields_pure.2 (Nat.not_lt.1 htwo)
      · exact Checked.yields_pure.2 (Nat.not_lt.1 hone)
  · exact Checked.yields_pure.2 hpos

/-- Reading the index of the temporal layer zero stays inside. -/
theorem parseTl0picidx_inside (hpos : pos ≤ data.length) :
    (parseTl0picidx data ext d pos).Yields (InsideTurn data) := by
  unfold parseTl0picidx
  split
  · split
    · exact Checked.yields_pure.2 trivial
    · rename_i hone
      exact (byteAt_yields _ hone).bind fun b _ => Checked.yields_pure.2 (Nat.not_lt.1 hone)
  · exact Checked.yields_pure.2 hpos

/-- Reading the layers stays inside. -/
theorem parseLayers_inside (hpos : pos ≤ data.length) :
    (parseLayers data ext d pos).Yields (InsideTurn data) := by
  unfold parseLayers
  split
  · split
    · exact Checked.yields_pure.2 trivial
    · rename_i hone
      exact (byteAt_yields _ hone).bind fun tk _ => Checked.yields_pure.2 (Nat.not_lt.1 hone)
  · exact Checked.yields_pure.2 hpos

/-- **The parser reads inside the bytes**, and consumes no more than there are. -/
theorem parse_inside (data : Bytes) : (parse data).Yields fun r => r.2 ≤ data.length := by
  unfold parse
  split
  · exact Checked.yields_pure.2 (Nat.zero_le _)
  · rename_i hone
    refine (byteAt_yields 0 hone).bind fun b₀ _ => ?_
    dsimp only
    split
    · split
      · exact Checked.yields_pure.2 (Nat.zero_le _)
      · rename_i htwo
        refine (byteAt_yields 1 htwo).bind fun ext _ => ?_
        refine (parsePictureId_inside (Nat.not_lt.1 htwo)).bind fun r hr => ?_
        cases r with
        | done d => exact Checked.yields_pure.2 (Nat.zero_le _)
        | next s =>
          refine (parseTl0picidx_inside hr).bind fun r hr => ?_
          cases r with
          | done d => exact Checked.yields_pure.2 (Nat.zero_le _)
          | next s =>
            refine (parseLayers_inside hr).bind fun r hr => ?_
            cases r with
            | done d => exact Checked.yields_pure.2 (Nat.zero_le _)
            | next s => exact Checked.yields_pure.2 hr
    · exact Checked.yields_pure.2 (Nat.not_lt.1 hone)

end Inside

/-! ### Reading a descriptor back -/

/-- The fields are as wide as their places. -/
structure Fits (d : VpxPayloadDescriptor) : Prop where
  partitionId_lt : d.partitionId.toNat < 16
  pictureId_lt : ∀ id ∈ d.pictureId, id.toNat < 2 ^ 15
  tid_lt : ∀ t ∈ d.tid, t.1.toNat < 4 ∧ t.2.toNat < 2
  keyidx_lt : ∀ k ∈ d.keyidx, k.toNat < 32

/-- The byte that says which fields there are. -/
def extByte (d : VpxPayloadDescriptor) : U8 :=
  (if d.pictureId.isSome then 0x80 else 0) ||| (if d.tl0picidx.isSome then 0x40 else 0) |||
    (if d.tid.isSome then 0x20 else 0) ||| (if d.keyidx.isSome then 0x10 else 0)

/-- Where a field is there. -/
def extended (d : VpxPayloadDescriptor) : Bool :=
  d.pictureId.isSome || d.tl0picidx.isSome || d.tid.isSome || d.keyidx.isSome

/-- The bytes of a descriptor with fields behind the first byte. -/
theorem bytes_of_extended {d : VpxPayloadDescriptor} (h : d.extended = true) :
    d.bytes = (0x80 ||| d.octet) :: d.extByte ::
      (pictureIdBytes d.pictureId ++ (d.tl0picidx.toList ++ layerBytes d.tid d.keyidx)) := by
  have hbytes : d.bytes = [0x80 ||| d.octet, d.extByte] ++ pictureIdBytes d.pictureId ++
      d.tl0picidx.toList ++ layerBytes d.tid d.keyidx := if_pos h
  rw [hbytes, List.append_assoc, List.append_assoc]
  rfl

/-- The byte of a descriptor without such fields. -/
theorem bytes_of_not_extended {d : VpxPayloadDescriptor} (h : d.extended = false) :
    d.bytes = [d.octet] := if_neg (by rw [← extended, h]; decide)

/-- What the byte says. -/
theorem extByte_bits (d : VpxPayloadDescriptor) :
    (d.extByte &&& 0x80 ≠ 0 ↔ d.pictureId.isSome = true) ∧
      (d.extByte &&& 0x40 ≠ 0 ↔ d.tl0picidx.isSome = true) ∧
      (d.extByte &&& 0x30 ≠ 0 ↔ (d.tid.isSome || d.keyidx.isSome) = true) ∧
      (d.extByte &&& 0x20 ≠ 0 ↔ d.tid.isSome = true) ∧
      (d.extByte &&& 0x10 ≠ 0 ↔ d.keyidx.isSome = true) := by
  unfold extByte
  generalize d.pictureId.isSome = a
  generalize d.tl0picidx.isSome = b
  generalize d.tid.isSome = c
  generalize d.keyidx.isSome = e
  revert a b c e
  decide

/-- What the first byte says, with the extension bit or without. -/
theorem octet_bits (d : VpxPayloadDescriptor) (h : d.partitionId.toNat < 16) :
    decide ((d.octet >>> 4) &&& 1 = 1) = d.partitionStart ∧ d.octet &&& 0xF = d.partitionId ∧
      decide ((0x80 ||| d.octet) >>> 4 &&& 1 = 1) = d.partitionStart ∧
      (0x80 ||| d.octet) &&& 0xF = d.partitionId := by
  have hall : ∀ start : Bool, ∀ n < 16,
      let o : U8 := ((if start then 1 else 0 : U8) <<< 4) ||| (BitVec.ofNat 8 n &&& 0xF)
      decide ((o >>> 4) &&& 1 = 1) = start ∧ o &&& 0xF = BitVec.ofNat 8 n ∧
        decide ((0x80 ||| o) >>> 4 &&& 1 = 1) = start ∧ (0x80 ||| o) &&& 0xF = BitVec.ofNat 8 n := by
    decide
  have := hall d.partitionStart d.partitionId.toNat h
  rwa [BitVec.ofNat_toNat, BitVec.setWidth_eq] at this

/-- The extension bit. -/
theorem extensionBit (d : VpxPayloadDescriptor) :
    ((0x80 ||| d.octet) >>> 7) &&& 1 = 1 ∧ (d.octet >>> 7) &&& 1 ≠ 1 := by
  have hall : ∀ start : Bool, ∀ id : U8,
      let o : U8 := ((if start then 1 else 0 : U8) <<< 4) ||| (id &&& 0xF)
      ((0x80 ||| o) >>> 7) &&& 1 = 1 ∧ (o >>> 7) &&& 1 ≠ 1 := by
    decide
  exact hall d.partitionStart d.partitionId

/-- The bytes of a picture id. -/
theorem pictureIdBytes_cases (id : U16) :
    (∃ b, pictureIdBytes (some id) = [b] ∧ b &&& 0x80 = 0 ∧ b.setWidth 16 = id) ∨
      ∃ b b', pictureIdBytes (some id) = [b, b'] ∧ b &&& 0x80 ≠ 0 ∧
        (id.toNat < 2 ^ 15 → ((b &&& 0x7F).setWidth 16 <<< 8) ||| b'.setWidth 16 = id) := by
  unfold pictureIdBytes
  dsimp only
  split
  · rename_i hlt
    refine .inl ⟨_, rfl, ?_⟩
    have hsmall : ∀ n < 128, (BitVec.ofNat 16 n).setWidth 8 &&& (0x80 : U8) = 0 ∧
        ((BitVec.ofNat 16 n).setWidth 8 : U8).setWidth 16 = BitVec.ofNat 16 n := by decide
    simpa using hsmall id.toNat hlt
  · refine .inr ⟨_, _, rfl, fun h => ?_, fun h => ?_⟩
    · -- Bit 7 of the byte is bit 15 of the id with the high bit set.
      have hbit := congrArg (fun b : U8 => b.getLsbD 7) h
      simp at hbit
    · -- The high bit is written, and masked out again.
      have hbit : id[15] = false := Nat.testBit_lt_two_pow h
      refine BitVec.eq_of_getLsbD_eq fun i hi => ?_
      interval_cases i <;> simp [hbit]

section Written

variable {data rest : Bytes} {ext : U8} {d : VpxPayloadDescriptor} {pos : ℕ}

/-- A byte that stands at a position is read. -/
theorem byteAt_written {b : U8} (h : data.drop pos = b :: rest) :
    byteAt data pos = .ok b ∧ data.drop (pos + 1) = rest ∧ pos < data.length := by
  have hrest : data.drop (pos + 1) = rest := by rw [← List.drop_drop, h]; rfl
  have hread : byteAt data pos = .ok b := byteAt_iff_drop.2 (by rw [hrest, h])
  exact ⟨hread, hrest, safe_byteAt.1 ⟨b, hread⟩⟩

/-- **The picture id is read back.** -/
theorem parsePictureId_written {id : Option U16} (hext : ext &&& 0x80 ≠ 0 ↔ id.isSome = true)
    (hd : d.pictureId = none) (hid : ∀ i ∈ id, i.toNat < 2 ^ 15)
    (h : data.drop pos = pictureIdBytes id ++ rest) :
    parsePictureId data ext d pos =
      .ok (.next ({ d with pictureId := id }, pos + (pictureIdBytes id).length)) := by
  rw [parsePictureId]
  cases id with
  | none =>
    have hsame : { d with pictureId := none } = d := by rw [← hd]
    rw [if_neg fun hset => absurd (hext.1 hset) (by decide), hsame]
    rfl
  | some id =>
    rw [if_pos (hext.2 rfl)]
    rcases pictureIdBytes_cases id with ⟨b, hb, hbit, hvalue⟩ | ⟨b, b', hb, hbit, hvalue⟩
    · rw [hb] at h
      obtain ⟨hread, -, hlt⟩ := byteAt_written h
      rw [if_neg (by omega), hread, Checked.ok_bind, if_neg (not_not.2 hbit), hb, hvalue]
      rfl
    · rw [hb] at h
      obtain ⟨hread, hnext, hlt⟩ := byteAt_written h
      obtain ⟨hread', -, hlt'⟩ := byteAt_written hnext
      rw [if_neg (by omega), hread, Checked.ok_bind, if_pos hbit, if_neg (by omega), hread',
        Checked.ok_bind, hb]
      dsimp only
      rw [hvalue (hid id rfl)]
      rfl

/-- The index of the temporal layer zero is read back. -/
theorem parseTl0picidx_written {idx : Option U8} (hext : ext &&& 0x40 ≠ 0 ↔ idx.isSome = true)
    (hd : d.tl0picidx = none) (h : data.drop pos = idx.toList ++ rest) :
    parseTl0picidx data ext d pos =
      .ok (.next ({ d with tl0picidx := idx }, pos + idx.toList.length)) := by
  rw [parseTl0picidx]
  cases idx with
  | none =>
    have hsame : { d with tl0picidx := none } = d := by rw [← hd]
    rw [if_neg fun hset => absurd (hext.1 hset) (by decide), hsame]
    rfl
  | some idx =>
    obtain ⟨hread, -, hlt⟩ := byteAt_written h
    rw [if_pos (hext.2 rfl), if_neg (by omega), hread, Checked.ok_bind]
    rfl

/-- What the byte of the layer and the key frame index says. -/
theorem layerByte_bits (layer sync k : U8) (hlayer : layer.toNat < 4) (hsync : sync.toNat < 2)
    (hk : k.toNat < 32) :
    let tk := tidBits (some (layer, sync)) ||| (k &&& 0x1F)
    (tk >>> 6 &&& 3, tk >>> 5 &&& 1) = (layer, sync) ∧ tk &&& 0x1F = k := by
  have hall : ∀ a < 4, ∀ b < 2, ∀ c < 32,
      let tk := tidBits (some (BitVec.ofNat 8 a, BitVec.ofNat 8 b)) ||| (BitVec.ofNat 8 c &&& 0x1F)
      (tk >>> 6 &&& 3, tk >>> 5 &&& 1) = (BitVec.ofNat 8 a, BitVec.ofNat 8 b) ∧
        tk &&& 0x1F = BitVec.ofNat 8 c := by
    decide +kernel
  have := hall layer.toNat hlayer sync.toNat hsync k.toNat hk
  simpa only [BitVec.ofNat_toNat, BitVec.setWidth_eq] using this

/-- The byte that the layer and the key frame index share. -/
theorem layerByte_read {tid : Option (U8 × U8)} {keyidx : Option U8}
    (htid : ∀ t ∈ tid, t.1.toNat < 4 ∧ t.2.toNat < 2) (hkey : ∀ k ∈ keyidx, k.toNat < 32)
    (hany : (tid.isSome || keyidx.isSome) = true) :
    ∃ tk, layerBytes tid keyidx = [tk] ∧
      (∀ t ∈ tid, (tk >>> 6 &&& 3, tk >>> 5 &&& 1) = t) ∧ ∀ k ∈ keyidx, tk &&& 0x1F = k := by
  refine ⟨_, if_pos hany, ?_⟩
  cases tid with
  | none =>
    cases keyidx with
    | none => cases hany
    | some k =>
      have hbits := layerByte_bits 0 0 k (by decide) (by decide) (hkey k rfl)
      refine ⟨nofun, fun k' hk' => ?_⟩
      obtain rfl := Option.some.inj hk'
      exact hbits.2
  | some t =>
    obtain ⟨hlayer, hsync⟩ := htid t rfl
    cases keyidx with
    | none =>
      have hbits := layerByte_bits t.1 t.2 0 hlayer hsync (by decide)
      refine ⟨fun t' ht' => ?_, nofun⟩
      obtain rfl := Option.some.inj ht'
      exact hbits.1
    | some k =>
      have hbits := layerByte_bits t.1 t.2 k hlayer hsync (hkey k rfl)
      refine ⟨fun t' ht' => ?_, fun k' hk' => ?_⟩
      · obtain rfl := Option.some.inj ht'
        exact hbits.1
      · obtain rfl := Option.some.inj hk'
        exact hbits.2

/-- **The layer and the key frame index are read back**, out of the byte they share. -/
theorem parseLayers_written {tid : Option (U8 × U8)} {keyidx : Option U8}
    (hext : ext &&& 0x30 ≠ 0 ↔ (tid.isSome || keyidx.isSome) = true)
    (htidBit : ext &&& 0x20 ≠ 0 ↔ tid.isSome = true)
    (hkeyBit : ext &&& 0x10 ≠ 0 ↔ keyidx.isSome = true)
    (hd : d.tid = none ∧ d.keyidx = none)
    (htid : ∀ t ∈ tid, t.1.toNat < 4 ∧ t.2.toNat < 2) (hkey : ∀ k ∈ keyidx, k.toNat < 32)
    (h : data.drop pos = layerBytes tid keyidx ++ rest) :
    parseLayers data ext d pos = .ok (.next ({ d with tid := tid, keyidx := keyidx },
      pos + (layerBytes tid keyidx).length)) := by
  rw [parseLayers]
  by_cases hany : (tid.isSome || keyidx.isSome) = true
  · obtain ⟨tk, hbyte, htk, hkk⟩ := layerByte_read htid hkey hany
    rw [hbyte] at h ⊢
    obtain ⟨hread, -, hlt⟩ := byteAt_written h
    have htid' : (if ext &&& 0x20 ≠ 0 then some (tk >>> 6 &&& 3, tk >>> 5 &&& 1) else d.tid) = tid := by
      cases tid with
      | none => rw [if_neg fun hset => absurd (htidBit.1 hset) (by decide), hd.1]
      | some t => rw [if_pos (htidBit.2 rfl), htk t rfl]
    have hkey' : (if ext &&& 0x10 ≠ 0 then some (tk &&& 0x1F) else d.keyidx) = keyidx := by
      cases keyidx with
      | none => rw [if_neg fun hset => absurd (hkeyBit.1 hset) (by decide), hd.2]
      | some k => rw [if_pos (hkeyBit.2 rfl), hkk k rfl]
    rw [if_pos (hext.2 hany), if_neg (by omega), hread, Checked.ok_bind, htid', hkey']
    rfl
  · rw [Bool.not_eq_true, Bool.or_eq_false_iff, Option.isSome_eq_false_iff, Option.isSome_eq_false_iff,
      Option.isNone_iff_eq_none, Option.isNone_iff_eq_none] at hany
    obtain ⟨rfl, rfl⟩ := hany
    have hsame : { d with tid := none, keyidx := none } = d := by rw [← hd.1, ← hd.2]
    rw [if_neg fun hset => absurd (hext.1 hset) (by decide), hsame]
    rfl

/-- The fields of a descriptor stand behind its first two bytes. -/
theorem drop_extended (hext : d.extended = true) (body : Bytes) :
    (d.bytes ++ body).drop 2 =
      pictureIdBytes d.pictureId ++ (d.tl0picidx.toList ++ (layerBytes d.tid d.keyidx ++ body)) := by
  rw [bytes_of_extended hext, List.cons_append, List.cons_append, List.drop_succ_cons,
    List.drop_succ_cons, List.drop_zero, List.append_assoc, List.append_assoc]

/-- The first two bytes of a descriptor with fields. -/
theorem read_extended (hext : d.extended = true) (body : Bytes) :
    byteAt (d.bytes ++ body) 0 = .ok (0x80 ||| d.octet) ∧
      byteAt (d.bytes ++ body) 1 = .ok d.extByte ∧ 2 ≤ (d.bytes ++ body).length := by
  rw [bytes_of_extended hext]
  exact ⟨rfl, rfl, by simp only [List.cons_append, List.length_cons]; omega⟩

/-- How long a descriptor with fields is. -/
theorem length_extended (hext : d.extended = true) : d.bytes.length =
    2 + (pictureIdBytes d.pictureId).length + d.tl0picidx.toList.length +
      (layerBytes d.tid d.keyidx).length := by
  rw [bytes_of_extended hext]
  simp only [List.length_cons, List.length_append]
  omega

/-- **`parse` reads the descriptor back.** -/
theorem parse_written (hd : d.Fits) (body : Bytes) :
    parse (d.bytes ++ body) = .ok (d, d.bytes.length) := by
  obtain ⟨hstart, hid, hstart', hid'⟩ := d.octet_bits hd.partitionId_lt
  obtain ⟨hone, hzero⟩ := d.extensionBit
  cases hext : d.extended with
  | false =>
    have hnone : d = { partitionStart := d.partitionStart, partitionId := d.partitionId } := by
      obtain ⟨start, id, pic, tl0, tid, key⟩ := d
      simp only [extended, Bool.or_eq_false_iff, Option.isSome_eq_false_iff,
        Option.isNone_iff_eq_none] at hext
      obtain ⟨⟨⟨rfl, rfl⟩, rfl⟩, rfl⟩ := hext
      rfl
    have hread : byteAt ([d.octet] ++ body) 0 = .ok d.octet := rfl
    rw [bytes_of_not_extended hext, parse, if_neg (by simp), hread, Checked.ok_bind]
    dsimp only
    rw [if_neg hzero, hid, hstart, ← hnone]
    rfl
  | true =>
    obtain ⟨hpic, htl0, hlayers, htid, hkey⟩ := d.extByte_bits
    obtain ⟨hread₀, hread₁, hlen⟩ := read_extended hext body
    have h₂ := drop_extended hext body
    have h₃ := drop_behind h₂ rfl
    have h₄ := drop_behind h₃ rfl
    rw [parse, if_neg (by omega), hread₀, Checked.ok_bind]
    dsimp only
    rw [if_pos hone, if_neg (by omega), hread₁, Checked.ok_bind,
      parsePictureId_written hpic rfl hd.pictureId_lt h₂, Checked.ok_bind]
    dsimp only
    rw [parseTl0picidx_written htl0 rfl h₃, Checked.ok_bind]
    dsimp only
    rw [parseLayers_written hlayers htid hkey ⟨rfl, rfl⟩ hd.tid_lt hd.keyidx_lt h₄, Checked.ok_bind]
    dsimp only
    rw [hid', hstart', length_extended hext]
    rfl

/-! ### The other parser -/

/-- `depayload` finds the end of the picture id. -/
theorem pictureIdEnd_written {id : Option U16} (hext : ext &&& 0x80 ≠ 0 ↔ id.isSome = true)
    (h : data.drop pos = pictureIdBytes id ++ rest) :
    pictureIdEnd data ext pos = .ok (pos + (pictureIdBytes id).length) := by
  rw [pictureIdEnd]
  cases id with
  | none =>
    rw [if_neg fun hset => absurd (hext.1 hset.1) (by decide)]
    rfl
  | some id =>
    rcases pictureIdBytes_cases id with ⟨b, hb, hbit, -⟩ | ⟨b, b', hb, hbit, -⟩
    · rw [hb] at h ⊢
      obtain ⟨hread, -, hlt⟩ := byteAt_written h
      rw [if_pos ⟨hext.2 rfl, hlt⟩, hread, Checked.ok_bind, if_neg (not_not.2 hbit)]
      rfl
    · rw [hb] at h ⊢
      obtain ⟨hread, -, hlt⟩ := byteAt_written h
      rw [if_pos ⟨hext.2 rfl, hlt⟩, hread, Checked.ok_bind, if_pos hbit]
      rfl

/-- It passes over a byte that is there. -/
theorem passed_written {bits : U8} {field : Bytes} (hext : ext &&& bits ≠ 0 ↔ field ≠ [])
    (hone : field.length ≤ 1) (h : data.drop pos = field ++ rest) :
    (if ext &&& bits ≠ 0 ∧ pos < data.length then pos + 1 else pos) = pos + field.length := by
  cases field with
  | nil => exact if_neg fun hset => hext.1 hset.1 rfl
  | cons b field =>
    obtain rfl : field = [] := List.length_eq_zero_iff.1 (by simpa using hone)
    obtain ⟨-, -, hlt⟩ := byteAt_written h
    exact if_pos ⟨hext.2 (List.cons_ne_nil _ _), hlt⟩

/-- The layers are written where one of their two fields is there. -/
theorem layerBytes_ne_nil_iff (tid : Option (U8 × U8)) (keyidx : Option U8) :
    (tid.isSome || keyidx.isSome) = true ↔ layerBytes tid keyidx ≠ [] := by
  unfold layerBytes
  split
  · rename_i h
    exact iff_of_true h (List.cons_ne_nil _ _)
  · rename_i h
    exact iff_of_false h fun hne => hne rfl

/-- **`depayload` finds the end of the descriptor**, whatever its fields are. -/
theorem descriptorEnd_bytes (d : VpxPayloadDescriptor) (body : Bytes) :
    descriptorEnd (d.bytes ++ body) = .ok d.bytes.length := by
  obtain ⟨hone, hzero⟩ := d.extensionBit
  cases hext : d.extended with
  | false =>
    have hread : byteAt ([d.octet] ++ body) 0 = .ok d.octet := rfl
    rw [bytes_of_not_extended hext, descriptorEnd, hread, Checked.ok_bind, if_neg fun h => hzero h.1]
    rfl
  | true =>
    obtain ⟨hpic, htl0, hlayers, -⟩ := d.extByte_bits
    obtain ⟨hread₀, hread₁, hlen⟩ := read_extended hext body
    have h₂ := drop_extended hext body
    have h₃ := drop_behind h₂ rfl
    have h₄ := drop_behind h₃ rfl
    rw [descriptorEnd, hread₀, Checked.ok_bind, if_pos ⟨hone, hlen⟩, hread₁, Checked.ok_bind,
      pictureIdEnd_written hpic h₂, Checked.ok_bind]
    dsimp only
    rw [passed_written (htl0.trans (by cases d.tl0picidx <;> simp))
        (by cases d.tl0picidx <;> simp) h₃,
      passed_written (hlayers.trans (layerBytes_ne_nil_iff _ _)) (length_layerBytes_le _ _) h₄,
      length_extended hext]
    rfl

/-- **`depayload` gives back what stands behind the descriptor.** -/
theorem depayload_bytes [NoCaseEq] [LawfulNoCaseEq] (d : VpxPayloadDescriptor) (body : Bytes) :
    depayload "VP8".toList (d.bytes ++ body) = .ok body := by
  have hcodec : nceq "VP8".toList "VP8".toList = true := (LawfulNoCaseEq.nceq_iff _ _).2 rfl
  have hne : d.bytes ++ body ≠ [] := by
    unfold bytes
    split <;> exact List.cons_ne_nil _ _
  rw [depayload, hcodec, Bool.true_or, Bool.true_and, if_pos (decide_eq_true hne),
    descriptorEnd_bytes, Checked.ok_bind, if_pos (by simp), List.drop_left]
  rfl

end Written

end VpxPayloadDescriptor

/-- **The two parsers of a descriptor invert its bytes.**  A descriptor whose fields fit is parsed
back with the number of its bytes, `depayload` leaves what stands behind it, and whatever bytes are
parsed, none outside of them is read, and no more are consumed. -/
theorem descriptor_parsers_invert [NoCaseEq] [LawfulNoCaseEq] :
    (∀ (d : VpxPayloadDescriptor) (body : Bytes), d.Fits →
      VpxPayloadDescriptor.parse (d.bytes ++ body) = .ok (d, d.bytes.length) ∧
        depayload "VP8".toList (d.bytes ++ body) = .ok body) ∧
      ∀ data, (VpxPayloadDescriptor.parse data).Yields fun r => r.2 ≤ data.length :=
  ⟨fun d body hd => ⟨VpxPayloadDescriptor.parse_written hd body, d.depayload_bytes body⟩,
    VpxPayloadDescriptor.parse_inside⟩

/-- The widest descriptor there is. -/
def VpxPayloadDescriptor.widest : VpxPayloadDescriptor where
  partitionStart := true
  partitionId := 15
  pictureId := some 0x7FFF
  tl0picidx := some 0xFF
  tid := some (3, 1)
  keyidx := some 31

/-- The fields of the widest descriptor fit. -/
theorem VpxPayloadDescriptor.widest_fits : VpxPayloadDescriptor.widest.Fits where
  partitionId_lt := by decide
  pictureId_lt := by
    rintro _ ⟨⟩
    decide
  tid_lt := by
    rintro _ ⟨⟩
    decide
  keyidx_lt := by
    rintro _ ⟨⟩
    decide

/-- The widest descriptor, in front of two bytes. -/
theorem descriptor_parsers_invert_widest :
    VpxPayloadDescriptor.parse (VpxPayloadDescriptor.widest.bytes ++ [1, 2]) =
        .ok (VpxPayloadDescriptor.widest, VpxPayloadDescriptor.widest.bytes.length) ∧
      @depayload asciiNoCase "VP8".toList (VpxPayloadDescriptor.widest.bytes ++ [1, 2]) =
        .ok [1, 2] :=
  (@descriptor_parsers_invert asciiNoCase asciiNoCase_lawful).1 _ [1, 2] VpxPayloadDescriptor.widest_fits

end AsioRtc
