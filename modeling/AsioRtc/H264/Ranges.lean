/-
# Where the packetized units begin and end

`H264Packetizer::pack` computes the place of a unit by hand: it begins the length of a start code
behind `off`, and ends where the next start code has been found.  The first is right where the
search hits at `off` itself, as it does in every round but the first: there the search goes on
over what is in front of the first start code, and the unit begins inside of that.

`nalRanges` are the places.  They always end right before the next start code (`nalRange_stop`);
`pack_ranges_iff` says of which inputs they begin right behind one.  What is in front of the
first start code does no harm if the first range comes out empty: the next round then starts at
a start code.
-/

import AsioRtc.H264.Packetizer

namespace AsioRtc

namespace H264

/-- A start code of three or four bytes stands at `p`. -/
def StartsCode (data : Bytes) (p : ℕ) : Prop :=
  [0, 0, 1] <+: data.drop p ∨ [0, 0, 0, 1] <+: data.drop p

/-- The range of a unit, from the byte right behind a start code to the next start code or the
end. -/
structure NalRange (data : Bytes) (r : ℕ × ℕ) : Prop where
  three_le : 3 ≤ r.1
  start : [0, 0, 1] <+: data.drop (r.1 - 3)
  inside : ∀ p, r.1 ≤ p → p < r.2 → ¬ StartsCode data p
  stop : StartsCode data r.2 ∨ r.2 = data.length

/-- The pairs of `nal_begin` and `nal_end` in the loop of `pack`, from `off` on. -/
def nalRanges (data : Bytes) (off : ℕ) : List (ℕ × ℕ) :=
  match _h : findStartCode (data.drop off) with
  | none => []
  | some (_, n) =>
      let nalBegin := off + n
      match findStartCode (data.drop nalBegin) with
      | none => [(nalBegin, data.length)]
      | some (j, _) => (nalBegin, nalBegin + j) :: nalRanges data (nalBegin + j)
termination_by data.length - off
decreasing_by
  have := findStartCode_bounds _h
  rw [List.length_drop] at this
  omega

/-- The bytes in a range. -/
def cut (data : Bytes) (r : ℕ × ℕ) : Bytes := (data.drop r.1).take (r.2 - r.1)

/-! ### The search -/

section Search

variable {data : Bytes} {i k n p : ℕ}

theorem startCodeAt_eq_some_iff : startCodeAt data = some n ↔
    n = 3 ∧ [0, 0, 1] <+: data ∨ n = 4 ∧ [0, 0, 0, 1] <+: data := by
  have hthree : data.take 3 = [0, 0, 1] ↔ [0, 0, 1] <+: data :=
    eq_comm.trans List.prefix_iff_eq_take.symm
  have hfour : data.take 4 = [0, 0, 0, 1] ↔ [0, 0, 0, 1] <+: data :=
    eq_comm.trans List.prefix_iff_eq_take.symm
  have hnot : [0, 0, 1] <+: data → ¬ [0, 0, 0, 1] <+: data := by
    rintro ⟨tail, rfl⟩ ⟨tail', h⟩
    exact absurd (List.cons.inj (List.cons.inj (List.cons.inj h).2).2).1 (by decide)
  rw [← hthree, ← hfour] at hnot
  rw [startCodeAt, ← hthree, ← hfour]
  split
  · rename_i h
    constructor
    · exact fun hn => .inl ⟨(Option.some.inj hn).symm, h⟩
    · rintro (⟨rfl, -⟩ | ⟨-, h'⟩)
      · rfl
      · exact absurd h' (hnot h)
  · rename_i h
    split
    · rename_i h'
      constructor
      · exact fun hn => .inr ⟨(Option.some.inj hn).symm, h'⟩
      · rintro (⟨-, hbad⟩ | ⟨rfl, -⟩)
        · exact absurd hbad h
        · rfl
    · rename_i h'
      refine iff_of_false nofun ?_
      rintro (⟨-, hbad⟩ | ⟨-, hbad⟩)
      · exact h hbad
      · exact h' hbad

theorem startsCode_iff : StartsCode data p ↔ ∃ n, startCodeAt (data.drop p) = some n := by
  simp only [startCodeAt_eq_some_iff, StartsCode]
  constructor
  · rintro (h | h)
    · exact ⟨3, .inl ⟨rfl, h⟩⟩
    · exact ⟨4, .inr ⟨rfl, h⟩⟩
  · rintro ⟨n, ⟨-, h⟩ | ⟨-, h⟩⟩
    · exact .inl h
    · exact .inr h

theorem not_startsCode (h : startCodeAt (data.drop p) = none) : ¬ StartsCode data p := by
  rw [startsCode_iff, h]
  rintro ⟨n, hn⟩
  cases hn

/-- The bytes of a start code: two zeros in front, and the one at its end. -/
theorem bytes_of_startCodeAt (h : startCodeAt (data.drop p) = some n) :
    (n = 3 ∨ n = 4) ∧ data[p]? = some 0 ∧ data[p + 1]? = some 0 ∧ data[p + (n - 1)]? = some 1 := by
  have hget (i : ℕ) : data[p + i]? = (data.drop p)[i]? := List.getElem?_drop.symm
  have hzero := hget 0
  rw [Nat.add_zero] at hzero
  rcases startCodeAt_eq_some_iff.1 h with ⟨rfl, tail, htail⟩ | ⟨rfl, tail, htail⟩
  · rw [hzero, hget, hget, ← htail]
    exact ⟨.inl rfl, rfl, rfl, rfl⟩
  · rw [hzero, hget, hget, ← htail]
    exact ⟨.inr rfl, rfl, rfl, rfl⟩

/-- The search stops at the first place where a start code stands. -/
theorem findStartCode_some (h : findStartCode data = some (k, n)) :
    startCodeAt (data.drop k) = some n ∧ ∀ p < k, startCodeAt (data.drop p) = none := by
  induction data generalizing k with
  | nil => cases h
  | cons b data ih =>
    rw [findStartCode] at h
    split at h
    · rename_i hcode
      obtain ⟨rfl, rfl⟩ := Prod.mk.inj (Option.some.inj h)
      exact ⟨hcode, fun p hp => absurd hp (Nat.not_lt_zero p)⟩
    · rename_i hcode
      obtain ⟨⟨j, m⟩, hj, hp⟩ := Option.map_eq_some_iff.1 h
      obtain ⟨rfl, rfl⟩ := Prod.mk.inj hp
      obtain ⟨hfound, hfirst⟩ := ih hj
      refine ⟨hfound, fun p hp => ?_⟩
      cases p with
      | zero => exact hcode
      | succ p => exact hfirst p (Nat.lt_of_succ_lt_succ hp)

theorem findStartCode_none (h : findStartCode data = none) (p : ℕ) :
    startCodeAt (data.drop p) = none := by
  induction data generalizing p with
  | nil => rw [List.drop_nil]; rfl
  | cons b data ih =>
    rw [findStartCode] at h
    split at h
    · cases h
    · rename_i hcode
      cases p with
      | zero => exact hcode
      | succ p => exact ih (Option.map_eq_none_iff.1 h) p

theorem findStartCode_of_startCodeAt (h : startCodeAt data = some n) :
    findStartCode data = some (0, n) := by
  cases data with
  | nil => cases h
  | cons b data => rw [findStartCode, h]

end Search

/-! ### The ranges -/

section Ranges

variable {data : Bytes} {off k n : ℕ}

theorem nalRanges_none (off : ℕ) (h : findStartCode (data.drop off) = none) : nalRanges data off = [] := by
  rw [nalRanges]
  split
  · rfl
  · rename_i hs
    simp [h] at hs

theorem nalRanges_some (off : ℕ) (h : findStartCode (data.drop off) = some (k, n)) :
    nalRanges data off =
      match findStartCode (data.drop (off + n)) with
      | none => [(off + n, data.length)]
      | some (j, _) => (off + n, off + n + j) :: nalRanges data (off + n + j) := by
  rw [nalRanges]
  split
  · rename_i hs
    simp [h] at hs
  · rename_i hs
    obtain ⟨rfl, rfl⟩ := Prod.mk.inj (Option.some.inj (h.symm.trans hs))
    rfl

/-- **What is packed is what is in the ranges.** -/
theorem packUnits_eq_ranges (data : Bytes) (off : ℕ) :
    packUnits (data.drop off) = (nalRanges data off).flatMap fun r => packNal (cut data r) := by
  induction off using nalRanges.induct data with
  | case1 off h =>
    rw [nalRanges_none off h, packUnits_none h]
    rfl
  | case2 off k n h nalBegin hnext =>
    have hdrop : (data.drop off).drop n = data.drop (off + n) := List.drop_drop
    rw [nalRanges_some off h, hnext, packUnits_last h (hdrop ▸ hnext), hdrop, List.flatMap_singleton, cut,
      List.take_of_length_le (by rw [List.length_drop])]
  | case3 off k n h nalBegin j m hnext ih =>
    have hdrop : (data.drop off).drop n = data.drop (off + n) := List.drop_drop
    rw [nalRanges_some off h, hnext, packUnits_next h (hdrop ▸ hnext), hdrop, List.drop_drop]
    dsimp only
    rw [List.flatMap_cons, ← ih, cut, Nat.add_sub_cancel_left]

/-- **Every range ends right before the next start code**, or at the end. -/
theorem nalRange_stop {r : ℕ × ℕ} (h : r ∈ nalRanges data off) :
    (∀ p, r.1 ≤ p → p < r.2 → ¬ StartsCode data p) ∧ (StartsCode data r.2 ∨ r.2 = data.length) := by
  induction off using nalRanges.induct data with
  | case1 off hnone =>
    rw [nalRanges_none off hnone] at h
    cases h
  | case2 off k n hfound nalBegin hnext =>
    rw [nalRanges_some off hfound, hnext] at h
    obtain rfl := List.mem_singleton.1 h
    refine ⟨fun p hp _ => not_startsCode ?_, .inr rfl⟩
    have := findStartCode_none hnext (p - (off + n))
    rwa [List.drop_drop, Nat.add_sub_cancel' hp] at this
  | case3 off k n hfound nalBegin j m hnext ih =>
    rw [nalRanges_some off hfound, hnext] at h
    rcases List.mem_cons.1 h with rfl | h
    · obtain ⟨hcode, hfirst⟩ := findStartCode_some hnext
      rw [List.drop_drop] at hcode
      refine ⟨fun p hp hlt => not_startsCode ?_, .inl (startsCode_iff.2 ⟨m, hcode⟩)⟩
      dsimp only at hp hlt
      have := hfirst (p - (off + n)) (by omega)
      rwa [List.drop_drop, Nat.add_sub_cancel' hp] at this
    · exact ih h

/-- A range that begins the length of a start code behind it begins right behind `00 00 01`. -/
theorem start_of_startCodeAt (h : startCodeAt (data.drop off) = some n) :
    3 ≤ off + n ∧ [0, 0, 1] <+: data.drop (off + n - 3) := by
  rcases startCodeAt_eq_some_iff.1 h with ⟨rfl, hcode⟩ | ⟨rfl, tail, htail⟩
  · exact ⟨Nat.le_add_left _ _, hcode⟩
  · refine ⟨by omega, tail, ?_⟩
    rw [show off + 4 - 3 = off + 1 by omega, ← List.drop_drop, ← htail]
    rfl

/-- **From a start code on** every range is that of a unit. -/
theorem nalRange_of_startsCode {r : ℕ × ℕ} (hcode : StartsCode data off)
    (h : r ∈ nalRanges data off) : NalRange data r := by
  suffices hstart : 3 ≤ r.1 ∧ [0, 0, 1] <+: data.drop (r.1 - 3) by
    obtain ⟨hinside, hstop⟩ := nalRange_stop h
    exact ⟨hstart.1, hstart.2, hinside, hstop⟩
  induction off using nalRanges.induct data with
  | case1 off hnone =>
    rw [nalRanges_none off hnone] at h
    cases h
  | case2 off k n hfound nalBegin hnext =>
    obtain ⟨m, hm⟩ := startsCode_iff.1 hcode
    obtain ⟨rfl, rfl⟩ := Prod.mk.inj (Option.some.inj
      (hfound.symm.trans (findStartCode_of_startCodeAt hm)))
    rw [nalRanges_some off hfound, hnext] at h
    obtain rfl := List.mem_singleton.1 h
    exact start_of_startCodeAt hm
  | case3 off k n hfound nalBegin j m' hnext ih =>
    obtain ⟨m, hm⟩ := startsCode_iff.1 hcode
    obtain ⟨rfl, rfl⟩ := Prod.mk.inj (Option.some.inj
      (hfound.symm.trans (findStartCode_of_startCodeAt hm)))
    rw [nalRanges_some off hfound, hnext] at h
    rcases List.mem_cons.1 h with rfl | h
    · exact start_of_startCodeAt hm
    · have hnextCode := (findStartCode_some hnext).1
      rw [List.drop_drop] at hnextCode
      exact ih (startsCode_iff.2 ⟨m', hnextCode⟩) h

/-- The places in front of the first start code where the first round finds no unit. -/
theorem first_startCode_cases (hfound : findStartCode data = some (k, n)) (hcode : StartsCode data n) :
    k = 0 ∨ k = n ∨ k = 3 ∧ n = 4 := by
  obtain ⟨hk, hfirst⟩ := findStartCode_some hfound
  obtain ⟨m, hm⟩ := startsCode_iff.1 hcode
  have hle : k ≤ n := by
    by_contra hlt
    rw [hfirst n (Nat.not_le.1 hlt)] at hm
    cases hm
  obtain ⟨hn, -, -, hone⟩ := bytes_of_startCodeAt hk
  obtain ⟨-, hzero, hzero', -⟩ := bytes_of_startCodeAt hm
  -- The last byte of the first code is none of the zeros of the other.
  have hne : k + (n - 1) ≠ n := by
    intro heq
    rw [heq, hzero] at hone
    exact absurd (Option.some.inj hone) (by decide)
  have hne' : k + (n - 1) ≠ n + 1 := by
    intro heq
    rw [heq, hzero'] at hone
    exact absurd (Option.some.inj hone) (by decide)
  omega

/-- Behind junk, the first unit would begin in it. -/
theorem first_start_cases (hfound : findStartCode data = some (k, n))
    (hstart : [0, 0, 1] <+: data.drop (n - 3)) : k = 0 := by
  obtain ⟨hk, hfirst⟩ := findStartCode_some hfound
  have hcode : startCodeAt (data.drop (n - 3)) = some 3 := startCodeAt_eq_some_iff.2 (.inl ⟨rfl, hstart⟩)
  have hkn : k ≤ n - 3 := by
    by_contra hlt
    rw [hfirst (n - 3) (Nat.not_le.1 hlt)] at hcode
    cases hcode
  obtain ⟨hn | hn, -⟩ := bytes_of_startCodeAt hk
  · omega
  · -- A code of four bytes at offset 1 would be one of three bytes.
    by_contra hpos
    obtain rfl : k = n - 3 := by omega
    rw [hk, hn] at hcode
    exact absurd (Option.some.inj hcode) (by decide)

/-- The first start code stands at the beginning, or the first round finds no unit. -/
theorem startsCode_of_cases (hfound : findStartCode data = some (k, n))
    (hcases : k = n ∨ k = 3 ∧ n = 4) : StartsCode data n := by
  have hk := (findStartCode_some hfound).1
  rcases hcases with rfl | ⟨rfl, rfl⟩
  · exact startsCode_iff.2 ⟨_, hk⟩
  · exact .inl (start_of_startCodeAt hk).2

/-- **Where the first round finds no unit in junk**, the first start code stands at one of these
places. -/
theorem first_round_cases (h : ∀ r ∈ nalRanges data 0, r.1 < r.2 → NalRange data r)
    (hfound : findStartCode data = some (k, n)) : k = 0 ∨ k = n ∨ k = 3 ∧ n = 4 := by
  have hranges := nalRanges_some 0 hfound
  have hbounds := findStartCode_bounds hfound
  -- A first range that has a byte begins behind a start code, so at the first one.
  have hfirst : ∀ e, (n, e) ∈ nalRanges data 0 → n < e → k = 0 := fun e he hlt =>
    first_start_cases hfound (h (n, e) he hlt).start
  rw [Nat.zero_add] at hranges
  cases hnext : findStartCode (data.drop n) with
  | none =>
    rw [hnext] at hranges
    by_cases hlt : n < data.length
    · exact .inl (hfirst data.length (by rw [hranges]; exact List.mem_cons_self) hlt)
    · omega
  | some p =>
    obtain ⟨j, m⟩ := p
    rw [hnext] at hranges
    by_cases hj : j = 0
    · have hcode := (findStartCode_some hnext).1
      rw [hj, List.drop_zero] at hcode
      exact first_startCode_cases hfound (startsCode_iff.2 ⟨m, hcode⟩)
    · exact .inl (hfirst (n + j) (by rw [hranges]; exact List.mem_cons_self) (by omega))

/-- An empty first range is passed over, and the next one begins at a start code. -/
theorem nalRange_of_empty_first {r : ℕ × ℕ} (hfound : findStartCode data = some (k, n))
    (hcode : StartsCode data n) (hr : r ∈ nalRanges data 0) (hne : r.1 < r.2) : NalRange data r := by
  obtain ⟨m, hm⟩ := startsCode_iff.1 hcode
  rw [nalRanges_some 0 hfound, Nat.zero_add, findStartCode_of_startCodeAt hm] at hr
  rcases List.mem_cons.1 hr with rfl | hr
  · exact absurd hne (lt_irrefl n)
  · exact nalRange_of_startsCode hcode hr

end Ranges

/-- **Where the packetized units are those of the input.**  What `pack` sends are the bytes of the
ranges, and each range that has a byte is that of a unit exactly if the first start code stands at
the beginning, or as far behind it as it is long, or has four bytes and stands at offset 3. -/
theorem pack_ranges_iff (data : Bytes) (timestamp : U32) :
    (pack data timestamp).1 = (nalRanges data 0).flatMap (fun r => packNal (cut data r)) ∧
      ((∀ r ∈ nalRanges data 0, r.1 < r.2 → NalRange data r) ↔
        ∀ k n, findStartCode data = some (k, n) → k = 0 ∨ k = n ∨ k = 3 ∧ n = 4) := by
  refine ⟨packUnits_eq_ranges data 0, fun h k n hfound => first_round_cases h hfound,
    fun h r hr hne => ?_⟩
  cases hfound : findStartCode data with
  | none =>
    rw [nalRanges_none 0 hfound] at hr
    cases hr
  | some p =>
    obtain ⟨k, n⟩ := p
    rcases h k n hfound with rfl | hcases
    · exact nalRange_of_startsCode (startsCode_iff.2 ⟨n, (findStartCode_some hfound).1⟩) hr
    · exact nalRange_of_empty_first hfound (startsCode_of_cases hfound hcases) hr hne

/-- A zero more in front of a start code of four bytes, as a stream may have: the unit that is sent
begins with the last byte of the code. -/
theorem pack_leading_zero :
    (pack [0, 0, 0, 0, 1, 0x65, 0x88] 0).1 = [[1, 0x65, 0x88]] ∧
      ¬ ∀ r ∈ nalRanges [0, 0, 0, 0, 1, 0x65, 0x88] 0, r.1 < r.2 →
        NalRange [0, 0, 0, 0, 1, 0x65, 0x88] r := by
  have hranges : nalRanges [0, 0, 0, 0, 1, 0x65, 0x88] 0 = [(4, 7)] :=
    nalRanges_some 0 (show findStartCode _ = some (1, 4) from rfl)
  refine ⟨?_, fun h => ?_⟩
  · rw [pack, packUnits_last rfl rfl]
    rfl
  · have hstart := (h (4, 7) (by rw [hranges]; exact List.mem_cons_self) (by decide)).start
    exact absurd hstart (by decide)

end H264

end AsioRtc
