/-
# Padding between header extensions

RFC 8285 lets a sender put zero bytes before, between and behind the elements of a header
extension; a zero byte has no length.  `rtp_ext_iterator` of `include/asiortc/rtp.hpp` takes
each for the header of an element with id 0 and one data byte, so it passes over two bytes at a
time.  Behind an odd number of zeros it has passed over the header of the next element and reads
its data as elements.

It could come back to the elements only where one of them stands a second time, further on.
There is no room for that: the last byte of the copy that is not zero would have to stand in the
padding (`zeros_before_copy`).  So the elements are found exactly if each has an even number of
zeros in front of it (`traverse_written_iff`).
-/

import AsioRtc.Rtp.Extension

namespace AsioRtc

open Lib

/-- An element that a sender writes. -/
structure WrittenElement where
  id : U8
  data : Bytes
  id_pos : 1 ≤ id.toNat
  id_le : id.toNat ≤ 14
  data_pos : 1 ≤ data.length
  data_le : data.length ≤ 16

/-- The bytes of an element: the id and the length less one, then the data. -/
def RtpExtElement.bytes (e : RtpExtElement) : Bytes :=
  ((e.id <<< 4) ||| BitVec.ofNat 8 (e.data.length - 1)) :: e.data

namespace WrittenElement

/-- What the iterator should find. -/
def element (e : WrittenElement) : RtpExtElement := ⟨e.id, e.data⟩

/-- The header extension with the elements of `es`, each behind so many zero bytes, and `trail`
zero bytes behind them. -/
def layout (es : List (ℕ × WrittenElement)) (trail : ℕ) : Bytes :=
  es.flatMap (fun p => List.replicate p.1 0 ++ p.2.element.bytes) ++ List.replicate trail 0

theorem layout_cons (n : ℕ) (e : WrittenElement) (es : List (ℕ × WrittenElement)) (trail : ℕ) :
    layout ((n, e) :: es) trail = List.replicate n 0 ++ (e.element.bytes ++ layout es trail) := by
  simp only [layout, List.flatMap_cons, List.append_assoc]

end WrittenElement

/-- The elements with an id. -/
def named (es : List RtpExtElement) : List RtpExtElement := es.filter fun e => e.id ≠ 0

/-! ### The iterator -/

section Iterator

variable {e : RtpExtElement} {x b : Bytes} {hdr : U8}

/-- An element, if it fits, and what is behind it. -/
theorem extElements_cons (hdr : U8) (b : Bytes) :
    extElements (hdr :: b) =
      if b.length < RtpExtElement.sizeOf hdr then []
      else ⟨hdr >>> 4 &&& 0xF, b.take (RtpExtElement.sizeOf hdr)⟩ ::
        extElements (b.drop (RtpExtElement.sizeOf hdr)) := by
  rw [extElements, extElementsFrom, extElementsFrom_eq_drop]

/-- The header that was read is the one that the element is written with. -/
theorem bytes_read (h : RtpExtElement.sizeOf hdr ≤ b.length) :
    RtpExtElement.bytes ⟨hdr >>> 4 &&& 0xF, b.take (RtpExtElement.sizeOf hdr)⟩ =
      hdr :: b.take (RtpExtElement.sizeOf hdr) := by
  have hheader : ∀ h : U8, ((h >>> 4 &&& 0xF) <<< 4) |||
      BitVec.ofNat 8 (RtpExtElement.sizeOf h - 1) = h := by decide
  rw [RtpExtElement.bytes, List.length_take, Nat.min_eq_left h, hheader]

/-- A written element is read. -/
theorem extElements_written (e : WrittenElement) (x : Bytes) :
    extElements (e.element.bytes ++ x) = e.element :: extElements x := by
  have hheader : ∀ i < 15, ∀ n < 16, 1 ≤ i →
      ((BitVec.ofNat 8 i <<< 4) ||| BitVec.ofNat 8 n : U8) >>> 4 &&& 0xF = BitVec.ofNat 8 i ∧
        RtpExtElement.sizeOf ((BitVec.ofNat 8 i <<< 4) ||| BitVec.ofNat 8 n) = n + 1 := by
    decide
  have hid := e.id_le
  have hlen := e.data_le
  have hpos := e.data_pos
  obtain ⟨hread, hsize⟩ := hheader e.id.toNat (by omega) (e.data.length - 1) (by omega) e.id_pos
  rw [BitVec.ofNat_toNat, BitVec.setWidth_eq] at hread hsize
  rw [Nat.sub_add_cancel hpos] at hsize
  rw [RtpExtElement.bytes, WrittenElement.element, List.cons_append, extElements_cons, hread, hsize,
    if_neg (by simp), List.take_left, List.drop_left]

/-- Two zeros are passed over. -/
theorem named_zeros (n : ℕ) (x : Bytes) :
    named (extElements (List.replicate n 0 ++ x)) = named (extElements (x.drop (n % 2))) := by
  have hone (x : Bytes) : named (extElements (0 :: x)) = named (extElements (x.drop 1)) := by
    rw [extElements_cons]
    cases x with
    | nil => rfl
    | cons y x =>
      rw [if_neg (by simp [RtpExtElement.sizeOf])]
      rfl
  induction n using Nat.twoStepInduction with
  | zero => rfl
  | one => exact hone x
  | more n ih _ =>
    rw [List.replicate_succ, List.cons_append, hone, List.replicate_succ, List.cons_append,
      List.drop_succ_cons, List.drop_zero, ih, Nat.add_mod_right]

/-- The bytes of the first element with an id stand somewhere, and the others are read behind
it. -/
theorem named_next {l : List RtpExtElement} (h : named (extElements x) = e :: l) :
    ∃ before rest, x = before ++ (e.bytes ++ rest) ∧ named (extElements rest) = l := by
  induction hn : x.length using Nat.strong_induction_on generalizing x with
  | _ n ih =>
    cases x with
    | nil => cases h
    | cons hdr b =>
      rw [extElements_cons] at h
      split at h
      · cases h
      · rename_i hfit
        have hsize := Nat.not_lt.1 hfit
        have hsplit := List.take_append_drop (RtpExtElement.sizeOf hdr) b
        by_cases hid : hdr >>> 4 &&& 0xF = 0
        · rw [named, List.filter_cons_of_neg (by simpa using hid)] at h
          obtain ⟨before, rest, hx, hrest⟩ := ih _ (by simp at hn; simp; omega) h rfl
          refine ⟨hdr :: (b.take (RtpExtElement.sizeOf hdr) ++ before), rest, ?_, hrest⟩
          rw [List.cons_append, List.append_assoc, ← hx, hsplit]
        · rw [named, List.filter_cons_of_pos (by simpa using hid)] at h
          obtain ⟨rfl, hl⟩ := List.cons.inj h
          refine ⟨[], _, ?_, hl⟩
          rw [bytes_read hsize, List.nil_append, List.cons_append, hsplit]

end Iterator

/-! ### Out of step -/

/-- Behind the last byte that is not zero there are only zeros. -/
theorem exists_last_ne_zero {x : Bytes} (h : ∃ b ∈ x, b ≠ 0) :
    ∃ a b z, x = a ++ b :: List.replicate z 0 ∧ b ≠ 0 := by
  induction x using List.reverseRecOn with
  | nil => simp at h
  | append_singleton x c ih =>
    by_cases hc : c = 0
    · obtain ⟨a, b, z, rfl, hb⟩ := ih (by
        obtain ⟨b, hb, hne⟩ := h
        rcases List.mem_append.1 hb with hb | hb
        · exact ⟨b, hb, hne⟩
        · exact absurd ((List.mem_singleton.1 hb).trans hc) hne)
      refine ⟨a, b, z + 1, ?_, hb⟩
      rw [hc, List.append_assoc, List.cons_append, ← List.replicate_succ']
    · exact ⟨x, c, 0, rfl, hc⟩

/-- Where bytes that are not all zero stand again further on, there is no room for the copy in
`n` zeros behind them. -/
theorem zeros_before_copy {x before rest tail : Bytes} {n : ℕ} (hx : ∃ b ∈ x, b ≠ 0)
    (hbefore : 0 < before.length)
    (h : x ++ (List.replicate n 0 ++ tail) = before ++ (x ++ rest)) : n < before.length := by
  obtain ⟨a, b, z, rfl, hb⟩ := exists_last_ne_zero hx
  by_contra hle
  -- The place of the last byte that is not zero, in the copy.
  have hcopy : (before ++ ((a ++ b :: List.replicate z 0) ++ rest))[before.length + a.length]? =
      some b := by
    rw [List.append_assoc, List.getElem?_append_right (by omega), Nat.add_sub_cancel_left,
      List.getElem?_append_right le_rfl, Nat.sub_self]
    rfl
  rw [← h, List.append_assoc, List.getElem?_append_right (by omega), Nat.add_sub_cancel,
    List.cons_append, ← List.append_assoc, List.replicate_append_replicate,
    List.getElem?_cons, if_neg (by omega),
    List.getElem?_append_left (by rw [List.length_replicate]; omega),
    List.getElem?_replicate, if_pos (by omega)] at hcopy
  exact hb (Option.some.inj hcopy).symm

namespace WrittenElement

variable {e : WrittenElement} {es : List (ℕ × WrittenElement)} {trail : ℕ}

theorem id_ne_zero (e : WrittenElement) : e.id ≠ 0 := by
  intro h
  have := e.id_pos
  rw [h] at this
  exact absurd this (by decide)

/-- The header of an element is not zero. -/
theorem exists_ne_zero (e : WrittenElement) : ∃ b ∈ e.element.bytes, b ≠ 0 := by
  refine ⟨_, List.mem_cons_self, fun hzero => ?_⟩
  have hread := extElements_written e []
  rw [RtpExtElement.bytes, hzero, List.cons_append, extElements_cons] at hread
  split at hread
  · cases hread
  · exact e.id_ne_zero (congrArg RtpExtElement.id (List.cons.inj hread).1).symm

theorem named_cons (e : WrittenElement) (l : List RtpExtElement) :
    named (e.element :: l) = e.element :: named l :=
  List.filter_cons_of_pos (decide_eq_true e.id_ne_zero)

/-- Even runs of zeros are passed over as a whole. -/
theorem named_layout_even {n : ℕ} (hn : n % 2 = 0) (e : WrittenElement)
    (es : List (ℕ × WrittenElement)) (trail : ℕ) :
    named (extElements (layout ((n, e) :: es) trail)) =
      e.element :: named (extElements (layout es trail)) := by
  rw [layout_cons, named_zeros, hn, List.drop_zero, extElements_written, named_cons]

/-- Were the first element found again from inside it, then the others would be read from behind
the zeros that follow it. -/
theorem read_behind_zeros {s n : ℕ} {tail : Bytes} {l : List RtpExtElement} (hs : 1 ≤ s)
    (h : named (extElements ((e.element.bytes ++ (List.replicate n 0 ++ tail)).drop s)) =
      e.element :: l) :
    ∃ k, 1 ≤ k ∧ k ≤ tail.length ∧ named (extElements (tail.drop k)) = l := by
  obtain ⟨before, rest, hx, hrest⟩ := named_next h
  have hwhole := List.take_append_drop s (e.element.bytes ++ (List.replicate n 0 ++ tail))
  rw [hx, ← List.append_assoc] at hwhole
  set front := (e.element.bytes ++ (List.replicate n 0 ++ tail)).take s ++ before with hfront
  have hpos : 0 < front.length := by
    rw [hfront, RtpExtElement.bytes, List.length_append, List.length_take, List.cons_append,
      List.length_cons]
    omega
  have hzeros := zeros_before_copy e.exists_ne_zero hpos hwhole.symm
  have hlen := congrArg List.length hwhole
  simp only [List.length_append, List.length_replicate] at hlen
  refine ⟨front.length - n, by omega, by omega, ?_⟩
  have hdrop := congrArg (List.drop (e.element.bytes.length + front.length)) hwhole
  rw [Nat.add_comm, ← List.drop_drop, List.drop_left, List.drop_left, Nat.add_comm,
    ← List.drop_drop, List.drop_left, List.drop_append, List.length_replicate,
    List.drop_of_length_le (by rw [List.length_replicate]; omega), List.nil_append] at hdrop
  rwa [← hdrop]

/-- From inside the first element the elements are not found again. -/
theorem named_ne_of_drop {s : ℕ} (hs : 1 ≤ s) :
    named (extElements ((e.element.bytes ++ layout es trail).drop s)) ≠
      e.element :: es.map (·.2.element) := by
  intro hfound
  induction es generalizing e s with
  | nil =>
    rw [layout, List.flatMap_nil, List.nil_append, ← List.append_nil (List.replicate _ _)]
      at hfound
    obtain ⟨k, hpos, hle, -⟩ := read_behind_zeros hs hfound
    exact absurd hle (Nat.not_le.2 hpos)
  | cons p es ih =>
    rw [layout_cons] at hfound
    obtain ⟨k, hpos, -, hrest⟩ := read_behind_zeros hs hfound
    exact ih hpos hrest

end WrittenElement

open WrittenElement in
/-- **The elements are found in order exactly if each has an even number of zeros in front of
it**; behind the last there may be any number. -/
theorem traverse_written_iff (es : List (ℕ × WrittenElement)) (trail : ℕ) :
    (∃ found, RtpExtIterator.traverse (layout es trail) = .ok found ∧
        named found = es.map (·.2.element)) ↔
      ∀ p ∈ es, p.1 % 2 = 0 := by
  have hfound : (∃ found, RtpExtIterator.traverse (layout es trail) = .ok found ∧
      named found = es.map (·.2.element)) ↔
        named (extElements (layout es trail)) = es.map (·.2.element) := by
    rw [RtpExtIterator.traverse_eq]
    constructor
    · rintro ⟨found, hfound, h⟩
      exact (Except.ok.inj hfound) ▸ h
    · exact fun h => ⟨_, rfl, h⟩
  rw [hfound]
  clear hfound
  induction es with
  | nil =>
    have hzeros := named_zeros trail []
    rw [List.append_nil, List.drop_nil] at hzeros
    exact iff_of_true hzeros fun p hp => absurd hp List.not_mem_nil
  | cons p es ih =>
    obtain ⟨n, e⟩ := p
    rw [List.forall_mem_cons, List.map_cons]
    by_cases hn : n % 2 = 0
    · rw [named_layout_even hn, List.cons_inj_right]
      exact ih.trans (and_iff_right hn).symm
    · rw [layout_cons, named_zeros]
      exact iff_of_false (named_ne_of_drop (by omega)) fun h => hn h.1

/-- An element with one data byte, as the audio level has, behind one zero: the iterator stops
inside it. -/
theorem zero_hides_element : ∃ (es : List (ℕ × WrittenElement)) (trail : ℕ),
    RtpExtIterator.traverse (WrittenElement.layout es trail) = .ok [⟨0, [0x10]⟩] ∧
      named [⟨0, [0x10]⟩] ≠ es.map (·.2.element) :=
  ⟨[(1, ⟨1, [0x55], by decide, by decide, by decide, by decide⟩)], 0, by
    rw [RtpExtIterator.traverse_eq]
    decide, by decide⟩

end AsioRtc
