/-
# RTP payloads as an Annex-B stream

`h264_packets_to_annex_b` of `src/media_track_impl.cpp`: the payloads of a frame are
read one after another into a `Reassembly`.  A single unit and the members of a STAP-A
go out with a start code in front of them; the parts of an FU-A run are collected in
`partialNal`, and its end sends them out.

What `H264Packetizer::pack` makes of a stream of NAL units is read back as these units,
each behind a start code of three bytes (`annexB_pack`).
-/

import AsioRtc.H264.Packetizer
import AsioRtc.Rtp.Packet

namespace AsioRtc

namespace H264

/-- What `h264_append_start_code` appends. -/
def startCode : Bytes := [0, 0, 1]

theorem length_drop_lt_cons_cons {hi lo : U8} {rest : Bytes} (n : ℕ) :
    (rest.drop n).length < (hi :: lo :: rest).length := by
  rw [List.length_drop, List.length_cons, List.length_cons]
  omega

/-- The members of a STAP-A, each with its start code: a member without a byte, or one that
does not fit, ends them. -/
def stapUnits (data : Bytes) : Bytes :=
  match data with
  | hi :: lo :: rest =>
      let size := hi.toNat * 256 + lo.toNat
      if size = 0 ∨ rest.length < size then []
      else startCode ++ rest.take size ++ stapUnits (rest.drop size)
  | _ => []
termination_by data.length
decreasing_by exact length_drop_lt_cons_cons _

/-- The locals of `h264_packets_to_annex_b`. -/
structure Reassembly where
  out : Bytes := []
  partialNal : Bytes := []
  inFu : Bool := false

namespace Reassembly

/-- A payload of type 28, behind its first byte. -/
def addFragment (s : Reassembly) (fuIndicator : U8) : Bytes → Reassembly
  | [] => s
  | fuHeader :: frag =>
      let s :=
        if fuHeader &&& 0x80 ≠ 0 then
          { s with
            partialNal := ((fuIndicator &&& 0xE0) ||| (fuHeader &&& 0x1F)) :: frag
            inFu := true }
        else if s.inFu then { s with partialNal := s.partialNal ++ frag }
        else s
      if fuHeader &&& 0x40 ≠ 0 then
        { out := s.out ++ startCode ++ s.partialNal, partialNal := [], inFu := false }
      else s

/-- One round of the loop. -/
def add (s : Reassembly) : Bytes → Reassembly
  | [] => s
  | b :: rest =>
      let nalType := (b &&& 0x1F).toNat
      if nalType = 24 then { s with out := s.out ++ stapUnits rest }
      else if nalType = 28 then s.addFragment b rest
      else if 1 ≤ nalType ∧ nalType ≤ 23 then { s with out := s.out ++ startCode ++ b :: rest }
      else s

end Reassembly

/-- `h264_packets_to_annex_b`. -/
def packetsToAnnexB (packets : List RtpPacket) : Bytes :=
  (packets.foldl (fun s pkt => s.add pkt.payload) ({} : Reassembly)).out

/-! ### The stream -/

/-- A NAL unit that a stream can hold: single, and told from the start codes around it. -/
structure NalUnit where
  header : U8
  body : Bytes
  type_pos : 1 ≤ (header &&& 0x1F).toNat
  type_le : (header &&& 0x1F).toNat ≤ 23
  forbidden_bit : header &&& 0x80 = 0
  no_start_code : ¬ [0, 0, 1] <:+: header :: body
  last_ne_zero : (header :: body).getLast? ≠ some 0

/-- The bytes of a unit. -/
def NalUnit.bytes (u : NalUnit) : Bytes := u.header :: u.body

/-- A start code of a stream. -/
inductive StartCode where
  | three
  | four

def StartCode.bytes : StartCode → Bytes
  | .three => [0, 0, 1]
  | .four => [0, 0, 0, 1]

/-- An Annex-B stream of units, each behind the start code chosen for it. -/
def annexB (stream : List (StartCode × NalUnit)) : Bytes :=
  stream.flatMap fun p => p.1.bytes ++ p.2.bytes

/-! ### The packetizer finds the units -/

section Finding

variable {c : StartCode} {u : NalUnit} {tail : Bytes} {stream : List (StartCode × NalUnit)}

theorem findStartCode_startCode :
    findStartCode (c.bytes ++ tail) = some (0, c.bytes.length) := by
  cases c <;> simp [StartCode.bytes, findStartCode, startCodeAt]

theorem findStartCode_unit :
    findStartCode (u.bytes ++ tail) =
      (findStartCode tail).map fun p => (p.1 + u.bytes.length, p.2) :=
  findStartCode_append u.no_start_code u.last_ne_zero

/-- **The units of a stream are the ones that are packed.** -/
theorem packUnits_annexB : packUnits (annexB stream) = stream.flatMap fun p => packNal p.2.bytes := by
  induction stream with
  | nil => exact packUnits_none rfl
  | cons p stream ih =>
      obtain ⟨c, u⟩ := p
      have hcons : annexB ((c, u) :: stream) = c.bytes ++ (u.bytes ++ annexB stream) := by
        simp [annexB, List.flatMap_cons]
      have hfirst : findStartCode (c.bytes ++ (u.bytes ++ annexB stream)) = some (0, c.bytes.length) :=
        findStartCode_startCode
      have hdrop : (c.bytes ++ (u.bytes ++ annexB stream)).drop c.bytes.length =
          u.bytes ++ annexB stream := List.drop_left
      rw [hcons, List.flatMap_cons]
      cases stream with
      | nil =>
          have hnext : findStartCode (u.bytes ++ annexB []) = none := findStartCode_unit
          rw [packUnits_last hfirst (by rw [hdrop]; exact hnext), hdrop]
          simp [annexB]
      | cons q stream =>
          have hq : findStartCode (annexB (q :: stream)) = some (0, q.1.bytes.length) := by
            have : annexB (q :: stream) = q.1.bytes ++ (q.2.bytes ++ annexB stream) := by
              simp [annexB, List.flatMap_cons]
            rw [this]
            exact findStartCode_startCode
          have hnext : findStartCode (u.bytes ++ annexB (q :: stream)) =
              some (u.bytes.length, q.1.bytes.length) := by
            rw [findStartCode_unit, hq, Option.map_some, Nat.zero_add]
          rw [packUnits_next hfirst (by rw [hdrop]; exact hnext), hdrop, List.take_left,
            List.drop_left, ih]

end Finding

/-! ### The payloads of one unit -/

section OneUnit

variable {s : Reassembly} {ind ty hdr : U8} {frag rest : Bytes}

/-- A single unit goes out as it is. -/
theorem add_single (u : NalUnit) :
    s.add u.bytes = { s with out := s.out ++ startCode ++ u.bytes } := by
  have h₁ := u.type_pos
  have h₂ := u.type_le
  simp only [NalUnit.bytes, Reassembly.add]
  rw [if_neg (by omega), if_neg (by omega), if_pos ⟨h₁, h₂⟩]

/-- A payload of an FU-A run. -/
theorem add_fragment (hind : ind &&& 0x1F = 28) :
    s.add (ind :: rest) = s.addFragment ind rest := by
  have htype : (ind &&& 0x1F).toNat = 28 := congrArg BitVec.toNat hind
  simp only [Reassembly.add]
  rw [if_neg (by omega), if_pos htype]

/-- The first part of a unit, which is not its last one. -/
theorem addFragment_first (hty : ty &&& 0xE0 = 0) :
    s.addFragment ind ((ty ||| 0x80) :: frag) =
      { s with partialNal := ((ind &&& 0xE0) ||| ty) :: frag, inFu := true } := by
  have hstart : (ty ||| 0x80) &&& 0x80 ≠ 0 := by revert ty; decide
  have hend : ¬ (ty ||| 0x80) &&& 0x40 ≠ 0 := by revert ty; decide
  have htype : (ty ||| 0x80) &&& 0x1F = ty := by revert ty; decide
  simp only [Reassembly.addFragment, if_pos hstart, if_neg hend, htype]

/-- A part between the first and the last one. -/
theorem addFragment_next (hty : ty &&& 0xE0 = 0) (hs : s.inFu = true) :
    s.addFragment ind (ty :: frag) = { s with partialNal := s.partialNal ++ frag } := by
  have hstart : ¬ ty &&& 0x80 ≠ 0 := by revert ty; decide
  have hend : ¬ ty &&& 0x40 ≠ 0 := by revert ty; decide
  simp only [Reassembly.addFragment, if_neg hstart, if_neg hend, if_pos hs]

/-- The last part, which is not the first one. -/
theorem addFragment_last (hty : ty &&& 0xE0 = 0) (hs : s.inFu = true) :
    s.addFragment ind ((ty ||| 0x40) :: frag) =
      { out := s.out ++ startCode ++ (s.partialNal ++ frag) } := by
  have hstart : ¬ (ty ||| 0x40) &&& 0x80 ≠ 0 := by revert ty; decide
  have hend : (ty ||| 0x40) &&& 0x40 ≠ 0 := by revert ty; decide
  simp only [Reassembly.addFragment, if_neg hstart, if_pos hend, if_pos hs]

/-- The parts behind the first one are put behind each other, and the unit goes out with the
last of them. -/
theorem foldl_fragments (hind : ind &&& 0x1F = 28) (hty : ty &&& 0xE0 = 0) (hs : s.inFu = true)
    (hne : rest ≠ []) :
    (fragments ind ty false rest).foldl Reassembly.add s =
      { out := s.out ++ startCode ++ (s.partialNal ++ rest) } := by
  -- On the length of what is left: a part that is not the last one leaves something.
  induction hn : rest.length using Nat.strong_induction_on generalizing s rest with
  | _ n ih =>
      by_cases hle : rest.length ≤ packetMax - 2
      · rw [fragments_last hne hle, List.foldl_cons, List.foldl_nil, add_fragment hind]
        simpa using addFragment_last hty hs
      · have hlt : packetMax - 2 < rest.length := Nat.not_le.1 hle
        have hlen : (rest.drop (packetMax - 2)).length < n := by
          rw [List.length_drop, ← hn]
          exact Nat.sub_lt (by omega) (by decide)
        have hrest : rest.drop (packetMax - 2) ≠ [] := by
          rw [Ne, List.drop_eq_nil_iff]
          exact hle
        have hstep : s.add (ind :: (ty ||| (if false then 0x80 else 0)) ::
            rest.take (packetMax - 2)) =
              { s with partialNal := s.partialNal ++ rest.take (packetMax - 2) } := by
          rw [add_fragment hind]
          simpa using addFragment_next hty hs
        rw [fragments_next hlt, List.foldl_cons, hstep,
          ih _ hlen (s := { s with partialNal := s.partialNal ++ rest.take (packetMax - 2) }) hs
            hrest rfl]
        simp only [List.append_assoc, List.take_append_drop]

/-- A unit that is sent in parts. -/
theorem foldl_fragments_first (hind : ind &&& 0x1F = 28) (hty : ty &&& 0xE0 = 0)
    (hlt : packetMax - 2 < rest.length) :
    (fragments ind ty true rest).foldl Reassembly.add s =
      { out := s.out ++ startCode ++ (((ind &&& 0xE0) ||| ty) :: rest) } := by
  have hrest : rest.drop (packetMax - 2) ≠ [] := by
    rw [Ne, List.drop_eq_nil_iff]
    exact Nat.not_le.2 hlt
  have hstep : s.add (ind :: (ty ||| (if true then 0x80 else 0)) :: rest.take (packetMax - 2)) =
      { s with
        partialNal := ((ind &&& 0xE0) ||| ty) :: rest.take (packetMax - 2)
        inFu := true } := by
    rw [add_fragment hind]
    exact addFragment_first hty
  rw [fragments_next hlt, List.foldl_cons, hstep, foldl_fragments hind hty rfl hrest,
    List.cons_append, List.take_append_drop]

/-- **The payloads of a unit give the unit back.** -/
theorem foldl_packNal (u : NalUnit) (hs : s = { out := s.out }) :
    (packNal u.bytes).foldl Reassembly.add s = { out := s.out ++ (startCode ++ u.bytes) } := by
  have hu : u.bytes = u.header :: u.body := rfl
  by_cases hle : u.bytes.length ≤ packetMax
  · have hpack : packNal u.bytes = [u.bytes] := if_pos hle
    rw [hpack, List.foldl_cons, List.foldl_nil, add_single, hs, List.append_assoc]
  · have hpack : packNal u.bytes =
        fragments ((u.header &&& 0x60) ||| 28) (u.header &&& 0x1F) true u.body := if_neg hle
    have hind : ∀ h : U8, ((h &&& 0x60) ||| 28) &&& 0x1F = 28 := by decide
    have hty : ∀ h : U8, (h &&& 0x1F) &&& 0xE0 = 0 := by decide
    -- The forbidden bit, which is not sent, is zero.
    have hheader : ∀ h : U8, h &&& 0x80 = 0 →
        (((h &&& 0x60) ||| 28) &&& 0xE0) ||| (h &&& 0x1F) = h := by decide
    have hlt : packetMax - 2 < u.body.length := by
      simp only [hu, List.length_cons, packetMax] at hle ⊢
      omega
    rw [hpack, foldl_fragments_first (hind _) (hty _) hlt, hheader _ u.forbidden_bit, hu,
      List.append_assoc]

/-- The payloads of a stream, read one after another. -/
theorem foldl_packUnits (stream : List (StartCode × NalUnit)) (hs : s = { out := s.out }) :
    (packUnits (annexB stream)).foldl Reassembly.add s =
      { out := s.out ++ stream.flatMap fun p => startCode ++ p.2.bytes } := by
  rw [packUnits_annexB]
  induction stream generalizing s with
  | nil => simpa using hs
  | cons p stream ih =>
      rw [List.flatMap_cons, List.foldl_append, foldl_packNal p.2 hs, ih rfl, List.flatMap_cons,
        List.append_assoc]

end OneUnit

/-- **Packing and reading back.**  The payloads that `pack` makes of a stream, in the packets of
a frame, are read as the units of the stream in order, each behind `00 00 01`; and none of them
is larger than 1200 bytes. -/
theorem annexB_pack (stream : List (StartCode × NalUnit)) (timestamp : U32)
    (packets : List RtpPacket)
    (hpackets : packets.map RtpPacket.payload = (pack (annexB stream) timestamp).1) :
    packetsToAnnexB packets = stream.flatMap (fun p => [0, 0, 1] ++ p.2.bytes) ∧
      ∀ payload ∈ (pack (annexB stream) timestamp).1, payload.length ≤ 1200 := by
  refine ⟨?_, fun payload h => length_of_mem_packUnits h⟩
  have hfold : packets.foldl (fun s pkt => s.add pkt.payload) ({} : Reassembly) =
      (packUnits (annexB stream)).foldl Reassembly.add {} := by
    rw [← show _ = packUnits (annexB stream) from hpackets, List.foldl_map]
  rw [packetsToAnnexB, hfold, foldl_packUnits stream rfl]
  rfl

/-- A unit of two bytes: a picture parameter set, or the beginning of a slice. -/
def smallUnit (idr : Bool) : NalUnit where
  header := if idr then 0x65 else 0x68
  body := [0x88]
  type_pos := by cases idr <;> decide
  type_le := by cases idr <;> decide
  forbidden_bit := by cases idr <;> decide
  no_start_code := by cases idr <;> decide
  last_ne_zero := by cases idr <;> decide

/-- A slice that does not fit one packet. -/
def largeUnit : NalUnit where
  header := 0x65
  body := List.replicate 1300 0x88
  type_pos := by decide
  type_le := by decide
  forbidden_bit := by decide
  no_start_code h := by
    have hzero : (0 : U8) ∈ 0x65 :: List.replicate 1300 0x88 := h.subset List.mem_cons_self
    rcases List.mem_cons.1 hzero with hzero | hzero
    · exact absurd hzero (by decide)
    · exact absurd (List.eq_of_mem_replicate hzero) (by decide)
  last_ne_zero := by decide +kernel

/-- A parameter set, a small slice and one that is cut in two, with both kinds of start codes. -/
theorem annexB_pack_cut :
    let stream := [(StartCode.four, smallUnit false), (.three, smallUnit true), (.four, largeUnit)]
    ((pack (annexB stream) 0).1.map List.length = [2, 2, 1200, 104]) ∧
      packetsToAnnexB ((pack (annexB stream) 0).1.map fun payload => { payload := payload }) =
        [0, 0, 1, 0x68, 0x88, 0, 0, 1, 0x65, 0x88, 0, 0, 1, 0x65] ++ List.replicate 1300 0x88 := by
  intro stream
  constructor
  · rw [pack, packUnits_annexB]
    decide +kernel
  · have hback := (annexB_pack stream 0
      ((pack (annexB stream) 0).1.map fun payload => { payload := payload })
      (by rw [List.map_map]; exact List.map_id _)).1
    rw [hback]
    decide +kernel

end H264

end AsioRtc
