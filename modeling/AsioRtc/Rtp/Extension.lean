/-
# One-byte header extensions

`rtp::rtp_ext_iterator` and `rtp::rtp_ext_sentinel` of `include/asiortc/rtp.hpp`.
The iterator stands on an element header: the id in the high nibble, the length
less one in the low one.  It is at the end where no byte is left, or where the
element would reach past the end (`operator==`); going on skips the element.

`extElements` is what a traversal meets, as a function of the bytes.  `RtpExtIterator`
is the iterator itself, with every byte it dereferences checked: a traversal ends,
reads nothing outside the extension, and meets these elements
(`RtpExtIterator.traverse_eq`).
-/

import AsioRtc.Bytes

namespace AsioRtc

open Lib

/-- `rtp::rtp_ext_element`: the id and the data bytes. -/
structure RtpExtElement where
  id : U8
  data : Bytes
  deriving DecidableEq, Repr

/-- `rtp_ext_iterator::_size` of an element header. -/
def RtpExtElement.sizeOf (hdr : U8) : ℕ := (hdr &&& 0xF).toNat + 1

/-- The elements from the iterator's place on; `skip` bytes of the element before
are still to be passed over. -/
def extElementsFrom : ℕ → Bytes → List RtpExtElement
  | _, [] => []
  | skip + 1, _ :: rest => extElementsFrom skip rest
  | 0, hdr :: rest =>
      if rest.length < RtpExtElement.sizeOf hdr then []
      else
        ⟨hdr >>> 4 &&& 0xF, rest.take (RtpExtElement.sizeOf hdr)⟩ ::
          extElementsFrom (RtpExtElement.sizeOf hdr) rest

/-- All elements the iterator meets before the sentinel. -/
def extElements (ext : Bytes) : List RtpExtElement := extElementsFrom 0 ext

/-- Passing over `k` bytes is dropping them. -/
theorem extElementsFrom_eq_drop (k : ℕ) (b : Bytes) :
    extElementsFrom k b = extElements (b.drop k) := by
  induction b generalizing k with
  | nil => cases k <;> rfl
  | cons x b ih =>
    cases k with
    | zero => rfl
    | succ k => simpa [extElementsFrom] using ih k

/-- Where a byte is left, the traversal goes on with an element, if it fits. -/
theorem extElements_drop {ext : Bytes} {i : ℕ} {hdr : U8} (h : ext[i]? = some hdr) :
    extElements (ext.drop i) =
      if ext.length < i + RtpExtElement.sizeOf hdr + 1 then []
      else ⟨hdr >>> 4 &&& 0xF, (ext.drop (i + 1)).take (RtpExtElement.sizeOf hdr)⟩ ::
        extElements (ext.drop (i + (1 + RtpExtElement.sizeOf hdr))) := by
  obtain ⟨hi, rfl⟩ := List.getElem?_eq_some_iff.1 h
  rw [List.drop_eq_getElem_cons hi, extElements, extElementsFrom, extElementsFrom_eq_drop,
    List.drop_drop, List.length_drop, Nat.add_assoc i 1]
  by_cases hfit : ext.length < i + RtpExtElement.sizeOf ext[i] + 1
  · rw [if_pos hfit, if_pos (by omega)]
  · rw [if_neg hfit, if_neg (by omega)]

/-! ### The iterator -/

/-- `rtp::rtp_ext_iterator` into an extension: the offset of `_current`. -/
structure RtpExtIterator where
  current : ℕ := 0
  deriving DecidableEq, Repr

namespace RtpExtIterator

variable {ext : Bytes} {it : RtpExtIterator}

/-- `_size`, from the byte at `_current`. -/
def size (ext : Bytes) (it : RtpExtIterator) : Checked ℕ := do
  let hdr ← byteAt ext it.current
  pure ((hdr &&& 0xF).toNat + 1)

/-- `operator*`, with the bytes `data` and `length` make readable. -/
def deref (ext : Bytes) (it : RtpExtIterator) : Checked RtpExtElement := do
  let hdr ← byteAt ext it.current
  let len ← it.size ext
  let data ← slice ext (it.current + 1) len
  pure ⟨hdr >>> 4 &&& 0xF, data⟩

/-- `operator++`. -/
def next (ext : Bytes) (it : RtpExtIterator) : Checked RtpExtIterator := do
  let len ← it.size ext
  pure ⟨it.current + (1 + len)⟩

/-- `operator==` with the sentinel behind the last byte; the size is looked at only where
a byte is left. -/
def atEnd (ext : Bytes) (it : RtpExtIterator) : Checked Bool :=
  if ext.length ≤ it.current then pure true
  else do
    let len ← it.size ext
    pure (decide (ext.length < it.current + len + 1))

/-- A turn of `for (; iter != end; ++iter)` that takes every element. -/
def turn (ext : Bytes) (s : RtpExtIterator × List RtpExtElement) :
    Checked (Turn (RtpExtIterator × List RtpExtElement) (List RtpExtElement)) := do
  if ← s.1.atEnd ext then pure (.done s.2)
  else do
    let e ← s.1.deref ext
    let it ← s.1.next ext
    pure (.next (it, s.2 ++ [e]))

/-- A full traversal: no more turns than there are bytes, and one to stop. -/
def traverse (ext : Bytes) : Checked (List RtpExtElement) :=
  Checked.loop (turn ext) (ext.length + 1) ({}, [])

/-- A turn stops at the end of what `extElements` gives, or takes the next of it. -/
theorem turn_yields (ext : Bytes) (it : RtpExtIterator) (es : List RtpExtElement) :
    (turn ext (it, es)).Yields (Turn.Holds
      (fun s => s.2 ++ extElements (ext.drop s.1.current) =
          es ++ extElements (ext.drop it.current) ∧
        ext.length - s.1.current < ext.length - it.current)
      (fun out => out = es ++ extElements (ext.drop it.current))) := by
  by_cases hend : ext.length ≤ it.current
  · refine ⟨.done es, ?_, ?_⟩
    · rw [turn, atEnd, if_pos hend]
      rfl
    · rw [Turn.Holds, List.drop_of_length_le hend]
      exact (List.append_nil es).symm
  · have hlt : it.current < ext.length := by omega
    have hhdr := byteAt_ok hlt
    have hnext := extElements_drop (List.getElem?_eq_getElem hlt)
    have hsize : it.size ext = .ok (RtpExtElement.sizeOf ext[it.current]) := by
      rw [size, hhdr]
      rfl
    by_cases hfit : ext.length < it.current + RtpExtElement.sizeOf ext[it.current] + 1
    · refine ⟨.done es, ?_, ?_⟩
      · rw [turn, atEnd, if_neg hend, hsize]
        simp only [Checked.ok_bind]
        rw [decide_eq_true hfit]
        rfl
      · rw [Turn.Holds, hnext, if_pos hfit, List.append_nil]
    · rw [if_neg hfit] at hnext
      refine ⟨.next (⟨it.current + (1 + RtpExtElement.sizeOf ext[it.current])⟩,
        es ++ [⟨ext[it.current] >>> 4 &&& 0xF,
          (ext.drop (it.current + 1)).take (RtpExtElement.sizeOf ext[it.current])⟩]), ?_, ?_, ?_⟩
      · rw [turn, atEnd, if_neg hend, deref, next, hhdr, hsize]
        simp only [Checked.ok_bind]
        rw [decide_eq_false hfit, slice_ok (by omega)]
        rfl
      · rw [hnext, List.append_assoc]
        rfl
      · show ext.length - (it.current + _) < _
        omega

/-- **A traversal ends, and reads nothing outside the extension**; it meets the elements of
`extElements`. -/
theorem traverse_eq (ext : Bytes) : traverse ext = .ok (extElements ext) := by
  have hrun : (traverse ext).Yields fun out => out = extElements ext :=
    Checked.loop_yields (fun s => ext.length - s.1.current)
      (I := fun s => s.2 ++ extElements (ext.drop s.1.current) = extElements ext)
      (fun s hs => by
        refine (turn_yields ext s.1 s.2).mono fun r hr => ?_
        cases r with
        | next s' => exact ⟨hr.1.trans hs, hr.2⟩
        | done out => exact hr.trans hs)
      rfl (by show ext.length - 0 < _; omega)
  obtain ⟨out, hout, rfl⟩ := hrun
  exact hout

end RtpExtIterator

/-- One two-byte element with id `4`, as a transport-wide sequence number has. -/
example : extElements [0x41, 0x12, 0x34, 0x00] = [⟨4, [0x12, 0x34]⟩] := by decide

end AsioRtc
