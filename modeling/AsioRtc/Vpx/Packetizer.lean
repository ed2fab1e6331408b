/-
# VP8 frames as RTP payloads

`Vp8Packetizer::pack` of `src/rtp_packetizer/vpx_packetizer.cpp`.  A frame is sent in
parts, each behind a descriptor of its own: the first part has the partition start bit,
all of them the picture id of the frame, and what a part may hold depends on how long
the descriptor is.

The receiver does not parse the descriptor with `vpx_payload_descriptor::parse`:
`depayload` in `src/connection_impl.cpp` skips it with a parser of its own.  It leaves what
stands behind any descriptor (`VpxPayloadDescriptor.depayload_bytes`), so the parts give the
frame back (`pack_depayload`).
-/

import AsioRtc.Vpx.Descriptor

namespace AsioRtc

open Lib

namespace Vpx

/-- `kPacketMax`. -/
def packetMax : ℕ := 1200

/-- The loop of `pack`, `rest` being what is left of the frame. -/
def fragments (desc : VpxPayloadDescriptor) (rest : Bytes) : List Bytes :=
  if _h : rest = [] then []
  else
    let dbytes := desc.bytes
    let chunk := min rest.length (packetMax - dbytes.length)
    (dbytes ++ rest.take chunk) ::
      fragments { desc with partitionStart := false } (rest.drop chunk)
termination_by rest.length
decreasing_by
  have := desc.length_bytes_le
  have : 0 < rest.length := List.length_pos_of_ne_nil _h
  simp only [List.length_drop, packetMax]
  omega

end Vpx

/-- `Vp8Packetizer`. -/
structure Vp8Packetizer where
  pictureId : U16 := 0
  deriving DecidableEq, Repr

/-- `Vp8Packetizer::pack`: the payloads, their timestamp, and the packetizer for the next
frame. -/
def Vp8Packetizer.pack (p : Vp8Packetizer) (data : Bytes) (timestamp : U32) :
    (List Bytes × U32) × Vp8Packetizer :=
  ((Vpx.fragments { partitionStart := true, pictureId := some p.pictureId } data, timestamp),
    { pictureId := (p.pictureId + 1) &&& 0x7FFF })

/-! ### The descriptor of a part -/

/-- The descriptor `pack` puts in front of a part. -/
def VpxPayloadDescriptor.ofPart (start : Bool) (id : U16) : VpxPayloadDescriptor :=
  { partitionStart := start, pictureId := some id }

/-- A payload's partition start bit. -/
def startsPartition : Bytes → Bool
  | [] => false
  | b :: _ => (b >>> 4) &&& 1 = 1

section Descriptor

variable (start : Bool) (id : U16) (body : Bytes)

theorem bytes_ofPart :
    (VpxPayloadDescriptor.ofPart start id).bytes =
      (if start then 0x90 else 0x80) :: 0x80 :: VpxPayloadDescriptor.pictureIdBytes (some id) := by
  cases start <;>
    simp [VpxPayloadDescriptor.bytes, VpxPayloadDescriptor.ofPart, VpxPayloadDescriptor.octet,
      VpxPayloadDescriptor.layerBytes]

theorem startsPartition_ofPart :
    startsPartition ((VpxPayloadDescriptor.ofPart start id).bytes ++ body) = start := by
  rw [bytes_ofPart]
  cases start <;> rfl

end Descriptor

namespace Vpx

/-! ### The loop -/

section Loop

variable {desc : VpxPayloadDescriptor} {rest : Bytes}

@[simp] theorem fragments_nil : fragments desc [] = [] := by
  rw [fragments, dif_pos rfl]

/-- How much of the frame a part holds. -/
def chunk (desc : VpxPayloadDescriptor) (rest : Bytes) : ℕ :=
  min rest.length (packetMax - desc.bytes.length)

theorem fragments_cons (hne : rest ≠ []) :
    fragments desc rest = (desc.bytes ++ rest.take (chunk desc rest)) ::
      fragments { desc with partitionStart := false } (rest.drop (chunk desc rest)) := by
  rw [fragments, dif_neg hne]
  rfl

/-- A part is not empty, and fits behind its descriptor. -/
theorem chunk_bounds (desc : VpxPayloadDescriptor) (hne : rest ≠ []) :
    0 < chunk desc rest ∧ chunk desc rest ≤ rest.length ∧
      desc.bytes.length + chunk desc rest ≤ packetMax := by
  have := desc.length_bytes_le
  have := List.length_pos_of_ne_nil hne
  simp only [chunk, packetMax]
  omega

end Loop

/-! ### The parts of a frame -/

/-- A part with the picture id `id` and a body: what stands behind the descriptor is not
empty, and is what `depayload` leaves. -/
def HasBody [NoCaseEq] (id : U16) (p : Bytes) : Prop :=
  ∃ start body, p = (VpxPayloadDescriptor.ofPart start id).bytes ++ body ∧ body ≠ [] ∧
    depayload "VP8".toList p = .ok body

section Parts

variable [NoCaseEq] [LawfulNoCaseEq]

/-- **The loop.**  The parts are small enough and not empty, only the first one of a frame
starts a partition, and together they are what was left of the frame. -/
theorem fragments_spec (id : U16) (start : Bool) (rest : Bytes) :
    (∀ p ∈ fragments (.ofPart start id) rest, p.length ≤ packetMax ∧ HasBody id p) ∧
      (∀ i p, (fragments (.ofPart start id) rest)[i]? = some p →
        startsPartition p = (start && i = 0)) ∧
      ∃ bodies, (fragments (.ofPart start id) rest).mapM (depayload "VP8".toList) = .ok bodies ∧
        bodies.flatten = rest := by
  induction hn : rest.length using Nat.strong_induction_on generalizing start rest with
  | _ n ih =>
    by_cases hne : rest = []
    · rw [hne, fragments_nil]
      exact ⟨by simp, by simp, [], rfl, rfl⟩
    obtain ⟨hpos, hle, hfit⟩ := chunk_bounds (.ofPart start id) hne
    obtain ⟨hsize, hstart, bodies, hbodies, hflat⟩ :=
      ih (n - chunk (.ofPart start id) rest) (by omega) false (rest.drop (chunk (.ofPart start id) rest))
        (by rw [List.length_drop, hn])
    have hbody : rest.take (chunk (.ofPart start id) rest) ≠ [] := by
      intro h
      have := congrArg List.length h
      simp only [List.length_take, List.length_nil] at this
      omega
    have hpart := VpxPayloadDescriptor.depayload_bytes (.ofPart start id) (rest.take (chunk (.ofPart start id) rest))
    have hnext : ({ VpxPayloadDescriptor.ofPart start id with partitionStart := false } :
        VpxPayloadDescriptor) = .ofPart false id := rfl
    rw [fragments_cons hne, hnext]
    refine ⟨fun p hp => ?_, fun i p hp => ?_,
      rest.take (chunk (.ofPart start id) rest) :: bodies, ?_, ?_⟩
    · rcases List.mem_cons.1 hp with rfl | hp
      · refine ⟨?_, start, _, rfl, hbody, hpart⟩
        rw [List.length_append, List.length_take, Nat.min_eq_left hle]
        exact hfit
      · exact hsize p hp
    · cases i with
      | zero =>
        obtain rfl := Option.some.inj hp
        rw [startsPartition_ofPart]
        simp
      | succ i =>
        rw [hstart i p hp]
        simp
    · rw [List.mapM_cons, hpart, Checked.ok_bind, hbodies, Checked.ok_bind]
      rfl
    · rw [List.flatten_cons, hflat, List.take_append_drop]

end Parts

end Vpx

/-- `media_track_impl::recv` puts the payloads of the frame one behind another, each stripped
by `depayload` when it arrived. -/
def recvVp8 [NoCaseEq] (payloads : List Bytes) : Checked Bytes := do
  let bodies ← payloads.mapM (depayload "VP8".toList)
  pure bodies.flatten

/-- **A VP8 frame comes back.**  For every frame and every picture id, each payload is at most
1200 bytes with a body behind its descriptor, exactly the first one starts a partition, the
receiver puts the frame together again, and the picture id counts frames modulo 2¹⁵. -/
theorem pack_depayload [NoCaseEq] [LawfulNoCaseEq] (p : Vp8Packetizer) (data : Bytes)
    (timestamp : U32) :
    (∀ payload ∈ (p.pack data timestamp).1.1,
        payload.length ≤ 1200 ∧ Vpx.HasBody p.pictureId payload) ∧
      (∀ i payload, (p.pack data timestamp).1.1[i]? = some payload →
        (startsPartition payload ↔ i = 0)) ∧
      recvVp8 (p.pack data timestamp).1.1 = .ok data ∧
      (p.pack data timestamp).2.pictureId.toNat = (p.pictureId.toNat + 1) % 2 ^ 15 := by
  obtain ⟨hsize, hstart, bodies, hbodies, hflat⟩ := Vpx.fragments_spec p.pictureId true data
  refine ⟨hsize, fun i payload hi => ?_, ?_, ?_⟩
  · rw [hstart i payload hi]
    simp
  · have hmap : (p.pack data timestamp).1.1.mapM (depayload "VP8".toList) = .ok bodies := hbodies
    rw [recvVp8, hmap, Checked.ok_bind, hflat]
    rfl
  · have hmask : ((p.pictureId + 1) &&& 0x7FFF).toNat = (p.pictureId + 1).toNat % 2 ^ 15 :=
      toNat_and_mask 15 rfl
    refine hmask.trans ?_
    rw [BitVec.toNat_add, show (1 : U16).toNat = 1 from rfl]
    omega

/-- The frame after the last picture id, in one payload. -/
theorem pack_depayload_last :
    (@recvVp8 asciiNoCase ((Vp8Packetizer.mk 0x7FFF).pack [1, 2, 3] 0).1.1 = .ok [1, 2, 3]) ∧
      ((Vp8Packetizer.mk 0x7FFF).pack [1, 2, 3] 0).2.pictureId.toNat = 0 :=
  (@pack_depayload asciiNoCase asciiNoCase_lawful ⟨0x7FFF⟩ [1, 2, 3] 0).2.2

end AsioRtc
