/-
# PES packets and their presentation times

`parse_pes` of `src/mpegts_demuxer.hpp`: a PES packet comes in fragments, one in each
packet of the transport stream.  The first has the header, whose bytes are

| bytes | |
| ---: | --- |
| 3 | `00 00 01` |
| 1 | stream id |
| 2 | length of the packet |
| 2 | flags; the first two bits of the second byte say which times there are |
| 1 | `header_data_length` |
| 5 | presentation time, under the flags `10` and `11` |
| 5 | decoding time, under the flags `11` |

and the others carry on with its data.  A time has 33 bits, spread over five bytes
(`timestampField`) behind four bits that say which of the two it is: `0010` for a
presentation time alone, `0011` for one with a decoding time behind it.

`parse_pes` looks for `0010` whatever the flags are, so the presentation times that stand in
front of a decoding time are lost (`carriesPts_iff`).
-/

import AsioRtc.Mpegts.Psi
import Mathlib.Tactic.IntervalCases

namespace AsioRtc

open Lib

/-- `media_frame`, as far as the demuxer fills it. -/
structure MediaFrame where
  kind : MediaKind
  format : MediaFormat
  timestamp : U32 := 0
  data : Bytes
  deriving DecidableEq, Repr

/-- `MAX_PES_BUFFER`. -/
def maxPesBuffer : ℕ := 4 * 1024 * 1024

namespace StreamState

variable {st : StreamState}

/-- The frame made of the bytes that have been collected. -/
def pendingFrame (st : StreamState) : Option MediaFrame :=
  if st.pesBuffer = [] then none
  else some
    { kind := st.kind
      format := st.format
      timestamp := if st.hasPts then st.currentPts else 0
      data := st.pesBuffer }

/-- More bytes behind those that have been collected; where they get too many, all of them go. -/
def appendPes (st : StreamState) (bytes : Bytes) : StreamState :=
  if maxPesBuffer < st.pesBuffer.length + bytes.length then { st with pesBuffer := [] }
  else { st with pesBuffer := st.pesBuffer ++ bytes }

theorem pendingFrame_of_nil (h : st.pesBuffer = []) : st.pendingFrame = none := if_pos h

@[simp] theorem appendPes_hasPts (st : StreamState) (bytes : Bytes) :
    (st.appendPes bytes).hasPts = st.hasPts := by
  unfold appendPes
  split <;> rfl

@[simp] theorem appendPes_currentPts (st : StreamState) (bytes : Bytes) :
    (st.appendPes bytes).currentPts = st.currentPts := by
  unfold appendPes
  split <;> rfl

theorem appendPes_of_le {bytes : Bytes} (h : st.pesBuffer.length + bytes.length ≤ maxPesBuffer) :
    st.appendPes bytes = { st with pesBuffer := st.pesBuffer ++ bytes } :=
  if_neg (by omega)

end StreamState

/-- `off`: where the start code stands, at the first byte or behind one. -/
def pesOffset (data : Bytes) : ℕ :=
  if data.take 3 = [0x00, 0x00, 0x01] then 0
  else if (data.drop 1).take 3 = [0x00, 0x00, 0x01] then 1
  else 0

/-- What the stream id says of the kind. -/
def streamIdKind (streamId : U8) (kind : MediaKind) : MediaKind :=
  if (0xC0 ≤ streamId ∧ streamId ≤ 0xDF) ∨ streamId = 0xBD ∨ streamId = 0xBF then .audio
  else if 0xE0 ≤ streamId ∧ streamId ≤ 0xEF then .video
  else kind

/-- The 33 bits of the five bytes `pts_data`. -/
def ptsValue (d₀ d₁ d₂ d₃ d₄ : U8) : U64 :=
  (d₀ &&& 0x0E).setWidth 64 <<< 29 ||| d₁.setWidth 64 <<< 22 |||
    (d₂ &&& 0xFE).setWidth 64 <<< 14 ||| d₃.setWidth 64 <<< 7 |||
    (d₄ &&& 0xFE).setWidth 64 >>> 1

/-- The presentation time of the header at `off`, where it is got. -/
def pesPts (data : Bytes) (off : ℕ) (flags : U16) (hdrLen : U8) : Checked (Option U64) :=
  if flags &&& 0xC0 ≠ 0 ∧ 5 ≤ hdrLen.toNat ∧ 9 + 5 ≤ data.length - off then do
    let d₀ ← byteAt data (off + 9)
    let d₁ ← byteAt data (off + 10)
    let d₂ ← byteAt data (off + 11)
    let d₃ ← byteAt data (off + 12)
    let d₄ ← byteAt data (off + 13)
    let ptsDts := ((flags >>> 6) &&& 0x03).setWidth 8
    if (2 : U8) ≤ ptsDts ∧ d₀ &&& 0xF0 = 0x20 ∧ d₂ &&& 0x01 = 0x01 ∧ d₄ &&& 0x01 = 0x01 then
      pure (some (ptsValue d₀ d₁ d₂ d₃ d₄))
    else pure none
  else pure none

/-- `current_pts` and `has_pts` behind a header. -/
def StreamState.setPts (st : StreamState) : Option U64 → StreamState
  | some pts => { st with currentPts := pts.setWidth 32, hasPts := true }
  | none => { st with hasPts := false }

/-- `parse_pes`, with the frame it pushes.  A vector that is moved from is empty. -/
def parsePes (data : Bytes) (start : Bool) (st : StreamState) :
    Checked (StreamState × Option MediaFrame) :=
  if start = false then
    pure (if st.pesBuffer = [] then st else st.appendPes data, none)
  else
    let off := pesOffset data
    if data.length - off < 9 then pure (st, none)
    else do
      let streamId ← byteAt data (off + 3)
      let st := { st with kind := streamIdKind streamId st.kind }
      let pushed := st.pendingFrame
      let st := { st with pesBuffer := [] }
      let flags ← readBig16 data (off + 6)
      let hdrLen ← byteAt data (off + 8)
      let pts ← pesPts data off flags hdrLen
      let st := st.setPts pts
      let esStart := off + 9 + hdrLen.toNat
      pure (if esStart < data.length then st.appendPes (data.drop esStart) else st, pushed)

/-- The fragments behind the first one. -/
def continuePes (fragments : List Bytes) (st : StreamState) : Checked StreamState :=
  fragments.foldlM (fun st data => do pure (← parsePes data false st).1) st

/-! ### What a fragment does -/

section Fragments

variable {data : Bytes} {st : StreamState}

@[simp] theorem setPts_pesBuffer (st : StreamState) (pts : Option U64) :
    (st.setPts pts).pesBuffer = st.pesBuffer := by
  cases pts <;> rfl

theorem parsePes_continuation (data : Bytes) (st : StreamState) :
    parsePes data false st = .ok (if st.pesBuffer = [] then st else st.appendPes data, none) := rfl

theorem pesPts_safe (data : Bytes) (off : ℕ) (flags : U16) (hdrLen : U8) :
    (pesPts data off flags hdrLen).Safe := by
  unfold pesPts
  split
  · rename_i h
    obtain ⟨d₀, h₀⟩ : (byteAt data (off + 9)).Safe := safe_byteAt.2 (by omega)
    obtain ⟨d₁, h₁⟩ : (byteAt data (off + 10)).Safe := safe_byteAt.2 (by omega)
    obtain ⟨d₂, h₂⟩ : (byteAt data (off + 11)).Safe := safe_byteAt.2 (by omega)
    obtain ⟨d₃, h₃⟩ : (byteAt data (off + 12)).Safe := safe_byteAt.2 (by omega)
    obtain ⟨d₄, h₄⟩ : (byteAt data (off + 13)).Safe := safe_byteAt.2 (by omega)
    rw [h₀, Checked.ok_bind, h₁, Checked.ok_bind, h₂, Checked.ok_bind, h₃, Checked.ok_bind, h₄,
      Checked.ok_bind]
    exact Checked.Safe.ite (fun _ => Checked.safe_pure) fun _ => Checked.safe_pure
  · exact Checked.safe_pure

/-- The stream behind a header whose fields have been read. -/
def StreamState.openPes (st : StreamState) (streamId : U8) (pts : Option U64) : StreamState :=
  { st with kind := streamIdKind streamId st.kind, pesBuffer := [] }.setPts pts

/-- The stream behind the fragment with the header. -/
def StreamState.startPes (st : StreamState) (data : Bytes) (streamId hdrLen : U8)
    (pts : Option U64) : StreamState :=
  if pesOffset data + 9 + hdrLen.toNat < data.length then
    (st.openPes streamId pts).appendPes (data.drop (pesOffset data + 9 + hdrLen.toNat))
  else st.openPes streamId pts

/-- A header sets the presentation time or takes it away. -/
theorem startPes_hasPts (st : StreamState) (data : Bytes) (streamId hdrLen : U8)
    (pts : Option U64) : (st.startPes data streamId hdrLen pts).hasPts = pts.isSome := by
  have hopen : (st.openPes streamId pts).hasPts = pts.isSome := by cases pts <;> rfl
  unfold StreamState.startPes
  split
  · rw [StreamState.appendPes_hasPts, hopen]
  · exact hopen

theorem startPes_currentPts (st : StreamState) (data : Bytes) (streamId hdrLen : U8) (pts : U64) :
    (st.startPes data streamId hdrLen (some pts)).currentPts = pts.setWidth 32 := by
  unfold StreamState.startPes
  split
  · rw [StreamState.appendPes_currentPts]
    rfl
  · rfl

/-- **A first fragment** with a header pushes what has been collected, and starts again. -/
theorem parsePes_start (st : StreamState) (h : pesOffset data + 9 ≤ data.length) :
    ∃ streamId hdrLen flags pts, byteAt data (pesOffset data + 3) = .ok streamId ∧
      readBig16 data (pesOffset data + 6) = .ok flags ∧
      byteAt data (pesOffset data + 8) = .ok hdrLen ∧
      pesPts data (pesOffset data) flags hdrLen = .ok pts ∧
      parsePes data true st = .ok (st.startPes data streamId hdrLen pts,
        { st with kind := streamIdKind streamId st.kind }.pendingFrame) := by
  obtain ⟨streamId, hid⟩ : (byteAt data (pesOffset data + 3)).Safe := safe_byteAt.2 (by omega)
  obtain ⟨flags, hflags⟩ : (readBig16 data (pesOffset data + 6)).Safe :=
    readBig16_safe (by omega)
  obtain ⟨hdrLen, hlen⟩ : (byteAt data (pesOffset data + 8)).Safe := safe_byteAt.2 (by omega)
  obtain ⟨pts, hpts⟩ := pesPts_safe data (pesOffset data) flags hdrLen
  refine ⟨streamId, hdrLen, flags, pts, hid, hflags, hlen, hpts, ?_⟩
  rw [parsePes, if_neg (by decide)]
  simp only
  rw [if_neg (by omega), hid, Checked.ok_bind, hflags, Checked.ok_bind, hlen, Checked.ok_bind,
    hpts, Checked.ok_bind]
  rfl

/-- A first fragment without room for a header changes nothing. -/
theorem parsePes_short (st : StreamState) (h : data.length < pesOffset data + 9) :
    parsePes data true st = .ok (st, none) := by
  rw [parsePes, if_neg (by decide)]
  simp only
  rw [if_pos (by omega)]
  rfl

/-- **The frame that a fragment pushes is the one that has been collected.** -/
theorem parsePes_pushed (data : Bytes) (start : Bool) (st : StreamState) :
    (parsePes data start st).Yields fun r =>
      ∀ f ∈ r.2, ∃ kind, { st with kind }.pendingFrame = some f := by
  cases start with
  | false => exact Checked.yields_ok.2 fun f hf => by cases hf
  | true =>
    by_cases h : pesOffset data + 9 ≤ data.length
    · obtain ⟨streamId, hdrLen, flags, pts, -, -, -, -, heq⟩ := parsePes_start st h
      rw [heq]
      exact Checked.yields_ok.2 fun f hf => ⟨_, hf⟩
    · rw [parsePes_short st (by omega)]
      exact Checked.yields_ok.2 fun f hf => by cases hf

/-- The fragments behind the first one leave its presentation time as it is. -/
theorem continuePes_pts (fragments : List Bytes) (st : StreamState) :
    (continuePes fragments st).Yields fun st' =>
      st'.hasPts = st.hasPts ∧ st'.currentPts = st.currentPts := by
  refine Checked.Yields.foldlM (fun st' data h _ => ?_) ⟨rfl, rfl⟩
  rw [parsePes_continuation, Checked.ok_bind, Checked.yields_pure]
  split
  · exact h
  · rwa [StreamState.appendPes_hasPts, StreamState.appendPes_currentPts]

end Fragments

/-! ### Times in a header -/

/-- A time of 33 bits behind the four bits `tag`, with its marker bits. -/
def timestampField (tag : BitVec 4) (ts : BitVec 33) : Bytes :=
  [tag ++ ts.extractLsb' 30 3 ++ 1#1,
    ts.extractLsb' 22 8,
    ts.extractLsb' 15 7 ++ 1#1,
    ts.extractLsb' 7 8,
    ts.extractLsb' 0 7 ++ 1#1]

/-- The times behind the fixed part of a header. -/
def pesTimes (pts : BitVec 33) : Option (BitVec 33) → Bytes
  | none => timestampField 0b0010 pts
  | some dts => timestampField 0b0011 pts ++ timestampField 0b0001 dts

/-- A PES header with a presentation time, and a decoding time where there is one; `rest` are
the fields behind them and the stuffing. -/
structure PesHeader where
  streamId : U8
  packetLength : U16
  flags : U8
  otherFlags : BitVec 6
  pts : BitVec 33
  dts : Option (BitVec 33)
  rest : Bytes
  fits : (pesTimes pts dts ++ rest).length ≤ 255

namespace PesHeader

/-- `PTS_DTS_flags`. -/
def ptsDtsFlags (h : PesHeader) : BitVec 2 := if h.dts.isSome then 0b11 else 0b10

def bytes (h : PesHeader) : Bytes :=
  [0x00, 0x00, 0x01, h.streamId] ++ big16 h.packetLength ++
    [h.flags, h.ptsDtsFlags ++ h.otherFlags,
      BitVec.ofNat 8 (pesTimes h.pts h.dts ++ h.rest).length] ++
    (pesTimes h.pts h.dts ++ h.rest)

/-- The four bits in front of the presentation time. -/
def tag (h : PesHeader) : BitVec 4 := if h.dts.isSome then 0b0011 else 0b0010

end PesHeader

/-- **The masks and shifts take the 33 bits out of the five bytes.** -/
theorem ptsValue_timestampField (tag : BitVec 4) (ts : BitVec 33) :
    ptsValue (tag ++ ts.extractLsb' 30 3 ++ 1#1) (ts.extractLsb' 22 8)
      (ts.extractLsb' 15 7 ++ 1#1) (ts.extractLsb' 7 8) (ts.extractLsb' 0 7 ++ 1#1) =
      ts.setWidth 64 := by
  refine BitVec.eq_of_getLsbD_eq fun i hi => ?_
  simp only [ptsValue, BitVec.getLsbD_or, BitVec.getLsbD_shiftLeft, BitVec.getLsbD_setWidth,
    BitVec.getLsbD_and, BitVec.getLsbD_append, BitVec.getLsbD_ushiftRight,
    BitVec.getLsbD_extractLsb']
  -- bit by bit
  interval_cases i <;> simp [BitVec.getLsbD_of_ge]

/-- The marker bit behind seven bits. -/
theorem marker_bit : ∀ x : BitVec 7, (x ++ 1#1) &&& (0x01 : U8) = 0x01 := by decide

/-- The four bits in front of a time. -/
theorem tag_bits : ∀ (tag : BitVec 4) (x : BitVec 3),
    (tag ++ x ++ 1#1) &&& (0xF0 : U8) = 0x20 ↔ tag = 0b0010 := by decide

/-- The two flags in the middle of the word. -/
theorem ptsDts_flags {flags : U16} {high : U8} {ptsDts : BitVec 2} {other : BitVec 6}
    (h : flags = BitVec.ofNat 16 (high.toNat * 256 + (ptsDts ++ other : U8).toNat)) :
    (flags >>> 6) &&& 0x03 = ptsDts.setWidth 16 := by
  have hlow : (ptsDts ++ other : U8).toNat = ptsDts.toNat * 2 ^ 6 + other.toNat := by
    rw [BitVec.toNat_append, ← Nat.shiftLeft_add_eq_or_of_lt other.isLt, Nat.shiftLeft_eq]
  have hptsDts := ptsDts.isLt
  have hother := other.isLt
  rw [← BitVec.toNat_inj, toNat_and_mask 2 rfl, toNat_shiftRight, h, BitVec.toNat_ofNat,
    BitVec.toNat_setWidth, hlow]
  omega

namespace PesHeader

variable {h : PesHeader} {payload : Bytes} {st : StreamState}

/-- The bytes that `parse_pes` reads of a fragment with the header. -/
theorem exists_append_eq (h : PesHeader) (payload : Bytes) :
    ∃ tail, 5 ≤ (pesTimes h.pts h.dts ++ h.rest).length ∧
      h.bytes ++ payload = [0x00, 0x00, 0x01, h.streamId] ++ big16 h.packetLength ++
        [h.flags, h.ptsDtsFlags ++ h.otherFlags,
          BitVec.ofNat 8 (pesTimes h.pts h.dts ++ h.rest).length] ++
        (timestampField h.tag h.pts ++ tail) := by
  rcases hdts : h.dts with _ | dts
  · refine ⟨h.rest ++ payload, by simp [pesTimes, timestampField], ?_⟩
    simp [bytes, tag, hdts, pesTimes]
  · refine ⟨timestampField 0b0001 dts ++ h.rest ++ payload,
      by simp [pesTimes, timestampField], ?_⟩
    simp [bytes, tag, hdts, pesTimes]

/-- **A presentation time is got where no decoding time stands behind it.** -/
theorem pesPts_eq (h : PesHeader) (payload : Bytes) {flags : U16} {hdrLen : U8}
    (hflags : readBig16 (h.bytes ++ payload) 6 = .ok flags)
    (hlen : byteAt (h.bytes ++ payload) 8 = .ok hdrLen) :
    pesPts (h.bytes ++ payload) 0 flags hdrLen =
      .ok (if h.dts.isSome then none else some (h.pts.setWidth 64)) := by
  obtain ⟨tail, hfive, heq⟩ := h.exists_append_eq payload
  rw [heq] at hflags hlen ⊢
  have hfit := h.fits
  obtain rfl := Except.ok.inj hlen
  have hword := ptsDts_flags (Except.ok.inj hflags).symm
  have htwo : (2 : U8) ≤ ((flags >>> 6) &&& 0x03).setWidth 8 := by
    rw [hword, ptsDtsFlags]
    split <;> decide
  have hset : flags &&& 0xC0 ≠ 0 := fun hzero => by
    have hshift : (flags >>> 6) &&& (0x03 : U16) = (flags &&& 0xC0) >>> 6 := by
      rw [BitVec.ushiftRight_and_distrib]
      rfl
    rw [hshift, hzero] at htwo
    exact absurd htwo (by decide)
  have hlong : 5 ≤ (BitVec.ofNat 8 (pesTimes h.pts h.dts ++ h.rest).length).toNat := by
    rw [BitVec.toNat_ofNat]
    omega
  rw [pesPts, if_pos ⟨hset, hlong, by simp [timestampField, big16]⟩]
  change (if (2 : U8) ≤ _ ∧ _ then pure (some (ptsValue ..)) else pure none) = _
  rw [ptsValue_timestampField]
  rcases hdts : h.dts with _ | dts
  · rw [if_pos ⟨htwo, (tag_bits ..).2 (by simp [tag, hdts]), marker_bit _, marker_bit _⟩]
    rfl
  · rw [if_neg fun hall => absurd ((tag_bits ..).1 hall.2.1) (by simp [tag, hdts])]
    rfl

/-- The stream behind the fragment with the header: it has the time, or it has none. -/
theorem parsePes_bytes (h : PesHeader) (payload : Bytes) (st : StreamState) :
    (parsePes (h.bytes ++ payload) true st).Yields fun r =>
      r.1.hasPts = h.dts.isNone ∧ (h.dts = none → r.1.currentPts = h.pts.setWidth 32) := by
  obtain ⟨tail, -, heq⟩ := h.exists_append_eq payload
  have hoff : pesOffset (h.bytes ++ payload) = 0 := by
    rw [heq]
    rfl
  have hlen : pesOffset (h.bytes ++ payload) + 9 ≤ (h.bytes ++ payload).length := by
    rw [hoff, heq]
    simp [timestampField, big16]
  obtain ⟨streamId, hdrLen, flags, pts, -, hflags, hhdr, hpts, hparse⟩ := parsePes_start st hlen
  rw [hoff] at hflags hhdr hpts
  have hgot := Except.ok.inj (hpts.symm.trans (h.pesPts_eq payload hflags hhdr))
  rw [hparse, Checked.yields_ok, startPes_hasPts, hgot]
  cases hdts : h.dts with
  | none =>
    refine ⟨rfl, fun _ => (startPes_currentPts ..).trans ?_⟩
    exact BitVec.setWidth_setWidth_of_le _ (by decide)
  | some dts => exact ⟨rfl, fun hnone => by cases hnone⟩

/-- **The presentation time behind the fragment with a header**, and the frames that it goes
with: those that the next first fragment pushes, or that are pending at a flush. -/
def CarriesPts (h : PesHeader) (payload : Bytes) (st : StreamState) : Prop :=
  (parsePes (h.bytes ++ payload) true st).Yields fun r =>
    r.1.hasPts = true ∧ r.1.currentPts = h.pts.setWidth 32 ∧
      ∀ fragments, (continuePes fragments r.1).Yields fun st' =>
        (∀ f ∈ st'.pendingFrame, f.timestamp = h.pts.setWidth 32) ∧
        ∀ next, (parsePes next true st').Yields fun r' =>
          ∀ f ∈ r'.2, f.timestamp = h.pts.setWidth 32

/-- **When the frames of a packet carry its presentation time**: where its header has no decoding
time. -/
theorem carriesPts_iff (h : PesHeader) (payload : Bytes) (st : StreamState) :
    h.CarriesPts payload st ↔ h.dts = none := by
  obtain ⟨r, hr, hhas, hcurrent⟩ := h.parsePes_bytes payload st
  rw [CarriesPts, hr, Checked.yields_ok]
  constructor
  · intro hcarries
    rw [← Option.isNone_iff_eq_none, ← hhas]
    exact hcarries.1
  · intro hnone
    have hset : r.1.hasPts = true := by rw [hhas, hnone]; rfl
    refine ⟨hset, hcurrent hnone, fun fragments => ?_⟩
    refine (continuePes_pts fragments r.1).mono fun st' hst' => ?_
    have hframe : ∀ kind, ∀ f ∈ { st' with kind }.pendingFrame,
        f.timestamp = h.pts.setWidth 32 := by
      intro kind f hf
      unfold StreamState.pendingFrame at hf
      split at hf
      · cases hf
      · obtain rfl := Option.some.inj hf
        simp only [hst'.1, hset, hst'.2, hcurrent hnone, if_true]
    refine ⟨hframe st'.kind, fun next => (parsePes_pushed next true st').mono fun r' hr' f hf => ?_⟩
    obtain ⟨kind, hkind⟩ := hr' f hf
    exact hframe kind f hkind

/-- A header with both times, as streams with B-frames have it. -/
def withDts : PesHeader where
  streamId := 0xE0
  packetLength := 0
  flags := 0x80
  otherFlags := 0
  pts := 90000
  dts := some 86400
  rest := []
  fits := by decide

theorem withDts_loses_pts : ¬ ∀ (h : PesHeader) (payload : Bytes) (st : StreamState),
    h.CarriesPts payload st := by
  intro h
  obtain ⟨r, hr, hhas, -⟩ := h withDts [] {}
  obtain ⟨r', hr', hhas', -⟩ := withDts.parsePes_bytes [] {}
  cases hr.symm.trans hr'
  rw [hhas] at hhas'
  cases hhas'

end PesHeader

end AsioRtc
