/-
# H.264 frames as RTP payloads

`H264Packetizer::pack` of `src/rtp_packetizer/h264_packetizer.cpp`: it looks for a start
code, takes the NAL unit up to the next one, and sends it as it is where it fits into
`kPacketMax` bytes, and as an FU-A run where it does not.  An offset of the source is the
list of the bytes from there on.

A start code that is looked for from the beginning of a unit is the one behind the unit,
if no start code is in the unit and the unit does not end in a zero
(`findStartCode_append`).
-/

import AsioRtc.Bytes

namespace AsioRtc

namespace H264

/-- `kPacketMax`. -/
def packetMax : ℕ := 1200

/-- The length of the start code at the beginning of `data`, if there is one. -/
def startCodeAt (data : Bytes) : Option ℕ :=
  if data.take 3 = [0, 0, 1] then some 3
  else if data.take 4 = [0, 0, 0, 1] then some 4
  else none

/-- `find_start_code`: where the first start code stands, and its length. -/
def findStartCode : Bytes → Option (ℕ × ℕ)
  | [] => none
  | b :: data =>
      match startCodeAt (b :: data) with
      | some n => some (0, n)
      | none => (findStartCode data).map fun p => (p.1 + 1, p.2)

/-- The loop of `pack` over a unit that is sent in parts, `rest` being what is left of it. -/
def fragments (fuIndicator nalType : U8) (first : Bool) (rest : Bytes) : List Bytes :=
  if _h : rest = [] then []
  else
    let fragSize := min rest.length (packetMax - 2)
    let last := decide (rest.length ≤ fragSize)
    let fuHeader := nalType ||| (if first then 0x80 else 0) ||| (if last then 0x40 else 0)
    (fuIndicator :: fuHeader :: rest.take fragSize) ::
      fragments fuIndicator nalType false (rest.drop fragSize)
termination_by rest.length
decreasing_by
  have : 0 < rest.length := List.length_pos_of_ne_nil _h
  simp only [List.length_drop, packetMax]
  omega

/-- The payloads for one NAL unit. -/
def packNal : Bytes → List Bytes
  | [] => []
  | nalHdr :: rest =>
      if (nalHdr :: rest).length ≤ packetMax then [nalHdr :: rest]
      else fragments ((nalHdr &&& 0x60) ||| 28) (nalHdr &&& 0x1F) true rest

theorem startCodeAt_bounds {data : Bytes} {n : ℕ} (h : startCodeAt data = some n) :
    0 < n ∧ n ≤ data.length := by
  have hlen {k : ℕ} {code : Bytes} (heq : data.take k = code) : code.length ≤ data.length := by
    rw [← heq, List.length_take]
    exact Nat.min_le_right _ _
  unfold startCodeAt at h
  split at h
  · rename_i heq
    obtain rfl := Option.some.inj h
    exact ⟨by decide, hlen heq⟩
  · split at h
    · rename_i heq
      obtain rfl := Option.some.inj h
      exact ⟨by decide, hlen heq⟩
    · cases h

/-- A start code is not empty, and in the data. -/
theorem findStartCode_bounds {data : Bytes} {i n : ℕ} (h : findStartCode data = some (i, n)) :
    0 < n ∧ i + n ≤ data.length := by
  induction data generalizing i with
  | nil => cases h
  | cons b data ih =>
      rw [findStartCode] at h
      split at h
      · rename_i heq
        obtain ⟨rfl, rfl⟩ := Prod.mk.inj (Option.some.inj h)
        simpa using startCodeAt_bounds heq
      · obtain ⟨⟨j, m⟩, hj, hp⟩ := Option.map_eq_some_iff.1 h
        obtain ⟨rfl, rfl⟩ := Prod.mk.inj hp
        have := ih hj
        simp only [List.length_cons]
        omega

/-- The loop of `pack`, `data` being what is left from `off` on.  `nal_begin` is `off` and the
length of the start code, wherever the code has been found. -/
def packUnits (data : Bytes) : List Bytes :=
  match _h : findStartCode data with
  | none => []
  | some (_, n) =>
      let rest := data.drop n
      match findStartCode rest with
      | none => packNal rest
      | some (j, _) => packNal (rest.take j) ++ packUnits (rest.drop j)
termination_by data.length
decreasing_by
  have := findStartCode_bounds _h
  simp only [List.length_drop]
  omega

/-- `H264Packetizer::pack`. -/
def pack (data : Bytes) (timestamp : U32) : List Bytes × U32 := (packUnits data, timestamp)

/-! ### Looking for a start code -/

section Search

variable {xs tail : Bytes}

/-- No start code begins in a unit. -/
theorem startCodeAt_append {b : U8} (hno : ¬ [0, 0, 1] <:+: b :: xs)
    (hlast : (b :: xs).getLast? ≠ some 0) : startCodeAt (b :: xs ++ tail) = none := by
  unfold startCodeAt
  rw [if_neg, if_neg]
  · intro h
    rcases xs with _ | ⟨c, _ | ⟨d, _ | ⟨e, xs⟩⟩⟩ <;>
      simp only [List.cons_append, List.take_succ_cons, List.cons.injEq] at h
    · exact hlast (by simp [h.1])
    · exact hlast (by simp [h.2.1])
    · exact hlast (by simp [h.2.2.1])
    · exact hno ⟨[b], xs, by simp [h.2.1, h.2.2.1, h.2.2.2.1]⟩
  · intro h
    rcases xs with _ | ⟨c, _ | ⟨d, xs⟩⟩ <;>
      simp only [List.cons_append, List.take_succ_cons, List.cons.injEq] at h
    · exact hlast (by simp [h.1])
    · exact hlast (by simp [h.2.1])
    · exact hno ⟨[], xs, by simp [h.1, h.2.1, h.2.2.1]⟩

/-- **The first start code is behind the unit.** -/
theorem findStartCode_append (hno : ¬ [0, 0, 1] <:+: xs) (hlast : xs.getLast? ≠ some 0) :
    findStartCode (xs ++ tail) = (findStartCode tail).map fun p => (p.1 + xs.length, p.2) := by
  induction xs with
  | nil => simp
  | cons b xs ih =>
      have hno' : ¬ [0, 0, 1] <:+: xs := fun h => hno (h.trans (List.suffix_cons b xs).isInfix)
      have hlast' : xs.getLast? ≠ some 0 := by
        intro h
        rw [List.getLast?_cons, h] at hlast
        exact hlast rfl
      have hb : startCodeAt (b :: xs ++ tail) = none := startCodeAt_append hno hlast
      rw [List.cons_append] at hb ⊢
      rw [findStartCode, hb, ih hno' hlast']
      simp [Option.map_map, Function.comp_def, Nat.add_assoc]

end Search

/-! ### The loops, case by case -/

section Loops

variable {fuIndicator nalType : U8} {first : Bool} {rest data : Bytes} {i n j m : ℕ}

@[simp] theorem fragments_nil : fragments fuIndicator nalType first [] = [] := by
  rw [fragments, dif_pos rfl]

/-- The last part of a unit. -/
theorem fragments_last (hne : rest ≠ []) (hle : rest.length ≤ packetMax - 2) :
    fragments fuIndicator nalType first rest =
      [fuIndicator :: (nalType ||| (if first then 0x80 else 0) ||| 0x40) :: rest] := by
  rw [fragments, dif_neg hne]
  simp [Nat.min_eq_left hle]

/-- A part of a unit that is not the last one. -/
theorem fragments_next (hlt : packetMax - 2 < rest.length) :
    fragments fuIndicator nalType first rest =
      (fuIndicator :: (nalType ||| (if first then 0x80 else 0)) :: rest.take (packetMax - 2)) ::
        fragments fuIndicator nalType false (rest.drop (packetMax - 2)) := by
  have hne : rest ≠ [] := List.ne_nil_of_length_pos (by omega)
  rw [fragments, dif_neg hne]
  simp [Nat.min_eq_right (Nat.le_of_lt hlt), Nat.not_le.2 hlt]

theorem packUnits_none (h : findStartCode data = none) : packUnits data = [] := by
  rw [packUnits]
  split
  · rfl
  · rename_i hs
    simp [h] at hs

/-- What is behind the first start code. -/
theorem packUnits_some (h : findStartCode data = some (i, n)) :
    packUnits data = match findStartCode (data.drop n) with
      | none => packNal (data.drop n)
      | some (j, _) => packNal ((data.drop n).take j) ++ packUnits ((data.drop n).drop j) := by
  rw [packUnits]
  split
  · rename_i hs
    simp [h] at hs
  · rename_i i' n' hs
    obtain ⟨rfl, rfl⟩ := Prod.mk.inj (Option.some.inj (h.symm.trans hs))
    rfl

/-- The last unit. -/
theorem packUnits_last (h : findStartCode data = some (i, n))
    (hnext : findStartCode (data.drop n) = none) :
    packUnits data = packNal (data.drop n) := by
  rw [packUnits_some h, hnext]

/-- A unit with another start code behind it. -/
theorem packUnits_next (h : findStartCode data = some (i, n))
    (hnext : findStartCode (data.drop n) = some (j, m)) :
    packUnits data =
      packNal ((data.drop n).take j) ++ packUnits ((data.drop n).drop j) := by
  rw [packUnits_some h, hnext]

end Loops

/-! ### The size of a payload -/

theorem length_of_mem_fragments {fuIndicator nalType : U8} {first : Bool} {rest p : Bytes}
    (hp : p ∈ fragments fuIndicator nalType first rest) : p.length ≤ packetMax := by
  induction first, rest using fragments.induct nalType with
  | case1 => simp at hp
  | case2 first rest hne fragSize ih =>
      rw [fragments, dif_neg hne] at hp
      rcases List.mem_cons.1 hp with rfl | hp
      · simp only [List.length_cons, List.length_take, packetMax]
        omega
      · exact ih hp

theorem length_of_mem_packNal {nal p : Bytes} (hp : p ∈ packNal nal) : p.length ≤ packetMax := by
  rcases nal with _ | ⟨nalHdr, rest⟩
  · cases hp
  · rw [packNal] at hp
    split at hp
    · rename_i hle
      obtain rfl := List.mem_singleton.1 hp
      exact hle
    · exact length_of_mem_fragments hp

/-- **No payload is larger than `kPacketMax`**, whatever is packed. -/
theorem length_of_mem_packUnits {data p : Bytes} (hp : p ∈ packUnits data) :
    p.length ≤ packetMax := by
  induction data using packUnits.induct with
  | case1 data h =>
      rw [packUnits_none h] at hp
      cases hp
  | case2 data i n h rest hrest =>
      rw [packUnits_last h hrest] at hp
      exact length_of_mem_packNal hp
  | case3 data i n h rest j m hrest ih =>
      rw [packUnits_next h hrest] at hp
      rcases List.mem_append.1 hp with hp | hp
      · exact length_of_mem_packNal hp
      · exact ih hp

/-- No payload is empty either. -/
theorem ne_nil_of_mem_packUnits {data p : Bytes} (hp : p ∈ packUnits data) : p ≠ [] := by
  have hfragments {ind ty : U8} {first : Bool} {rest : Bytes}
      (hp : p ∈ fragments ind ty first rest) : p ≠ [] := by
    induction first, rest using fragments.induct ty with
    | case1 => simp at hp
    | case2 first rest hne fragSize ih =>
        rw [fragments, dif_neg hne] at hp
        rcases List.mem_cons.1 hp with rfl | hp
        · exact List.cons_ne_nil _ _
        · exact ih hp
  have hnal {nal : Bytes} (hp : p ∈ packNal nal) : p ≠ [] := by
    rcases nal with _ | ⟨nalHdr, rest⟩
    · cases hp
    · rw [packNal] at hp
      split at hp
      · obtain rfl := List.mem_singleton.1 hp
        exact List.cons_ne_nil _ _
      · exact hfragments hp
  induction data using packUnits.induct with
  | case1 data h =>
      rw [packUnits_none h] at hp
      cases hp
  | case2 data i n h rest hrest =>
      rw [packUnits_last h hrest] at hp
      exact hnal hp
  | case3 data i n h rest j m hrest ih =>
      rw [packUnits_next h hrest] at hp
      rcases List.mem_append.1 hp with hp | hp
      · exact hnal hp
      · exact ih hp

end H264

end AsioRtc
