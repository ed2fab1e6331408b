/-
# Program tables of a transport stream

`handle_psi_section`, `parse_pat` and `parse_pmt` of `src/mpegts_demuxer.hpp`.  A section
is handed over as `process_psi_sections` cuts it out (`PsiSection`): as long as it says,
with the last four bytes the CRC of those in front.  Every read of the two parsers is
checked against its end.

| bytes of a PMT | |
| --- | --- |
| 12 | header, its last 12 bits the length of the program descriptors |
| `pi_len` | program descriptors |
| 5, then `info_len`, for each stream | type, PID, length of the descriptors; the descriptors |
| 4 | CRC |

An entry is read where its five bytes stand in front of the CRC, but its descriptors are
followed as far as `info_len` says, which is compared with nothing.  So they are read past
the end of the section unless one of them ends the walk before (`DescriptorsInside`).
-/

import AsioRtc.Connection.Transceiver
import AsioRtc.Lib.OrdMap

namespace AsioRtc

open Lib

/-- `MPEGTSDemuxer::stream_state`. -/
structure StreamState where
  format : MediaFormat := .unknown
  kind : MediaKind := .video
  pesBuffer : Bytes := []
  currentPts : U32 := 0
  hasPts : Bool := false
  continuityCounter : U8 := 0
  firstCc : Bool := true
  psiSection : Bytes := []

/-- `MPEGTSDemuxer::program_info`. -/
structure ProgramInfo where
  number : ℕ
  pmtPid : ℕ

/-- What the sections fill: the first `program_count_` entries of `programs_`, and `streams_`. -/
structure MpegtsTables where
  programs : List ProgramInfo := []
  streams : OrdMap ℕ StreamState := .empty

/-- `MAX_PROGRAMS`. -/
def maxPrograms : ℕ := 5

/-- `((data[o] & mask) << 8) | data[o + 1]`. -/
def maskedBig16 (data : Bytes) (mask : U8) (o : ℕ) : Checked ℕ := do
  let a ← byteAt data o
  let b ← byteAt data (o + 1)
  pure ((a &&& mask).toNat * 256 + b.toNat)

/-- A turn of the inner loop of `calculate_crc32`. -/
def crcBit (crc : U32) : U32 :=
  if crc &&& 0x80000000 ≠ 0 then (crc <<< 1) ^^^ 0x04C11DB7 else crc <<< 1

/-- A turn of its outer loop. -/
def crcByte (crc : U32) (b : U8) : U32 := crcBit^[8] (crc ^^^ (b.setWidth 32 <<< 24))

def calculateCrc32 (data : Bytes) (len : ℕ) : Checked U32 := do
  let bs ← slice data 0 len
  pure (bs.foldl crcByte 0xFFFFFFFF)

/-- `crc_calculated == crc_received`. -/
def crcMatches (data : Bytes) (len : ℕ) : Checked Bool := do
  let calculated ← calculateCrc32 data (len - 4)
  let received ← readBig32 data (len - 4)
  pure (calculated = received)

/-! ### The program association table -/

/-- A turn of the loop of `parse_pat`, at entry `i`. -/
def patTurn (data : Bytes) (loopEnd : ℕ) (s : ℕ × List ProgramInfo) :
    Checked (Turn (ℕ × List ProgramInfo) (List ProgramInfo)) :=
  if s.1 + 4 ≤ loopEnd then do
    let prog ← maskedBig16 data 0xFF s.1
    let pid ← maskedBig16 data 0x1F (s.1 + 2)
    let programs :=
      if prog ≠ 0 ∧ s.2.length < maxPrograms then s.2 ++ [⟨prog, pid⟩] else s.2
    pure (.next (s.1 + 4, programs))
  else pure (.done s.2)

def parsePat (data : Bytes) (len : ℕ) (t : MpegtsTables) : Checked MpegtsTables := do
  let programs ← Checked.loop (patTurn data (len - 4)) (len + 1) (8, [])
  pure { t with programs }

/-! ### The program map table -/

/-- What a stream entry of the given `stream_type` starts with. -/
def streamTypeMedia (streamType : U8) : MediaFormat × MediaKind :=
  if streamType ∈ ([0x01, 0x02] : Bytes) then (.unknown, .video)
  else if streamType ∈ ([0x03, 0x04, 0x0F, 0x1C, 0x81, 0x87] : Bytes) then (.unknown, .audio)
  else if streamType ∈ ([0x1B, 0x24] : Bytes) then (.h264, .video)
  else (.unknown, .video)

/-- The bytes of a format identifier. -/
def fourCc (s : String) : Bytes := s.toList.map fun c => BitVec.ofNat 8 c.toNat

/-- What a registration descriptor makes of a stream. -/
def registeredMedia (fid : Bytes) (m : MediaFormat × MediaKind) : MediaFormat × MediaKind :=
  if fid = fourCc "Opus" then (.opus, .audio)
  else if fid = fourCc "VP80" then (.vp8, .video)
  else if fid = fourCc "VP90" then (.vp9, .video)
  else if fid = fourCc "AVC1" ∨ fid = fourCc "H264" then (.h264, .video)
  else m

/-- The `switch` over the tag of a descriptor, whose body starts at `body`. -/
def descriptorMedia (data : Bytes) (tag dlen : U8) (body : ℕ) (m : MediaFormat × MediaKind) :
    Checked (MediaFormat × MediaKind) :=
  if tag = 0x02 ∨ tag = 0x28 then pure (m.1, .video)
  else if tag = 0x03 ∨ tag = 0x6A ∨ tag = 0x7A then pure (m.1, .audio)
  else if tag = 0x05 ∧ 4 ≤ dlen.toNat then do
    let fid ← slice data body 4
    pure (registeredMedia fid m)
  else pure m

/-- A turn of the loop over the descriptors of an entry, which start at `base`. -/
def descriptorTurn (data : Bytes) (base infoLen : ℕ) (s : ℕ × MediaFormat × MediaKind) :
    Checked (Turn (ℕ × MediaFormat × MediaKind) (MediaFormat × MediaKind)) :=
  if s.1 + 2 ≤ infoLen then do
    let tag ← byteAt data (base + s.1)
    let dlen ← byteAt data (base + s.1 + 1)
    if infoLen < s.1 + 2 + dlen.toNat then pure (.done s.2)
    else do
      let m ← descriptorMedia data tag dlen (base + s.1 + 2) s.2
      pure (.next (s.1 + 2 + dlen.toNat, m))
  else pure (.done s.2)

/-- The loop over the descriptors of an entry. -/
def descriptorLoop (data : Bytes) (base infoLen : ℕ) (m : MediaFormat × MediaKind) :
    Checked (MediaFormat × MediaKind) :=
  Checked.loop (descriptorTurn data base infoLen) (infoLen + 1) (0, m)

/-- A turn of the loop over the stream entries, at `es_off`. -/
def entryTurn (data : Bytes) (loopEnd : ℕ) (s : ℕ × OrdMap ℕ StreamState) :
    Checked (Turn (ℕ × OrdMap ℕ StreamState) (OrdMap ℕ StreamState)) :=
  if s.1 + 5 ≤ loopEnd then do
    let streamType ← byteAt data s.1
    let esPid ← maskedBig16 data 0x1F (s.1 + 1)
    let infoLen ← maskedBig16 data 0x0F (s.1 + 3)
    let m ← descriptorLoop data (s.1 + 5) infoLen (streamTypeMedia streamType)
    let streams := s.2.update esPid fun st => { st.getD {} with format := m.1, kind := m.2 }
    pure (.next (s.1 + (5 + infoLen), streams))
  else pure (.done s.2)

def parsePmt (data : Bytes) (len : ℕ) (t : MpegtsTables) : Checked MpegtsTables :=
  if len < 12 then pure t
  else do
    let piLen ← maskedBig16 data 0x0F 10
    if len - 4 < 12 + piLen then pure t
    else do
      let streams ← Checked.loop (entryTurn data (len - 4)) (len + 1) (12 + piLen, t.streams)
      pure { t with streams }

def handlePsiSection (data : Bytes) (len : ℕ) (t : MpegtsTables) : Checked MpegtsTables :=
  if len < 4 then pure t
  else do
    if ← crcMatches data len then
      let tableId ← byteAt data 0
      if tableId = 0x00 then parsePat data len t
      else if tableId = 0x02 then parsePmt data len t
      else pure t
    else pure t

/-! ### What is read -/

section Reads

variable {data : Bytes} {base infoLen d o : ℕ} {m : MediaFormat × MediaKind}

theorem safe_maskedBig16 {mask : U8} : (maskedBig16 data mask o).Safe ↔ o + 2 ≤ data.length := by
  constructor
  · intro h
    obtain ⟨a, -, h⟩ := Checked.safe_bind_iff.1 h
    obtain ⟨b, hb, -⟩ := Checked.safe_bind_iff.1 h
    exact safe_byteAt.1 ⟨b, hb⟩
  · intro h
    exact (safe_byteAt.2 (by omega)).bind fun _ _ => (safe_byteAt.2 (by omega)).bind fun _ _ =>
      Checked.safe_pure

/-- The association table is read inside the section. -/
theorem parsePat_safe (t : MpegtsTables) (hlen : 4 ≤ data.length) :
    (parsePat data data.length t).Safe := by
  have hloop : (Checked.loop (patTurn data (data.length - 4)) (data.length + 1)
      (8, [])).Yields fun _ => True := by
    refine Checked.loop_yields (I := fun _ => True) (fun s => data.length - s.1) ?_ trivial
      (by omega)
    rintro ⟨i, programs⟩ -
    rw [patTurn]
    split
    · rename_i hi
      obtain ⟨prog, hprog⟩ : (maskedBig16 data 0xFF i).Safe := safe_maskedBig16.2 (by omega)
      obtain ⟨pid, hpid⟩ : (maskedBig16 data 0x1F (i + 2)).Safe := safe_maskedBig16.2 (by omega)
      rw [hprog, Checked.ok_bind, hpid, Checked.ok_bind, Checked.yields_next]
      exact ⟨trivial, by simp only; omega⟩
    · exact Checked.yields_done.2 trivial
  exact (Checked.safe_iff.2 hloop).bind fun _ _ => Checked.safe_pure

/-- A registration descriptor with room for an identifier reads its four bytes; no other reads
anything of its body. -/
theorem safe_descriptorMedia {tag dlen : U8} :
    (descriptorMedia data tag dlen o m).Safe ↔
      (tag = 0x05 → 4 ≤ dlen.toNat → o + 4 ≤ data.length) := by
  unfold descriptorMedia
  split_ifs with hvideo haudio hid
  · refine iff_of_true Checked.safe_pure fun h5 => ?_
    rcases hvideo with h | h <;> exact absurd (h5.symm.trans h) (by decide)
  · refine iff_of_true Checked.safe_pure fun h5 => ?_
    rcases haudio with h | h | h <;> exact absurd (h5.symm.trans h) (by decide)
  · constructor
    · intro h _ _
      obtain ⟨fid, hfid, -⟩ := Checked.safe_bind_iff.1 h
      by_contra hout
      rw [slice, if_neg hout] at hfid
      cases hfid
    · exact fun h => (safe_slice (h hid.1 hid.2)).bind fun _ _ => Checked.safe_pure
  · exact iff_of_true Checked.safe_pure fun h5 h4 => absurd ⟨h5, h4⟩ hid

/-- **Where the walk over the descriptors of an entry stays inside the section**, from the
descriptor at `d` on: each one that `info_len` leaves two bytes for has them there, an identifier
is there too, and the walk ends with one that is longer than `info_len` says or that leaves no
room for another. -/
inductive DescriptorsInside (data : Bytes) (base infoLen : ℕ) : ℕ → Prop
  | finished {d : ℕ} (h : infoLen < d + 2) : DescriptorsInside data base infoLen d
  | cut {d : ℕ} {dlen : U8} (hlen : byteAt data (base + d + 1) = .ok dlen)
      (h : infoLen < d + 2 + dlen.toNat) : DescriptorsInside data base infoLen d
  | next {d : ℕ} {tag dlen : U8} (htag : byteAt data (base + d) = .ok tag)
      (hlen : byteAt data (base + d + 1) = .ok dlen)
      (hid : tag = 0x05 → 4 ≤ dlen.toNat → base + d + 2 + 4 ≤ data.length)
      (hrest : DescriptorsInside data base infoLen (d + 2 + dlen.toNat)) :
      DescriptorsInside data base infoLen d

/-- A length that ends inside the section keeps the walk there. -/
theorem DescriptorsInside.of_le (h : base + infoLen ≤ data.length) (d : ℕ) :
    DescriptorsInside data base infoLen d := by
  by_cases hd : infoLen < d + 2
  · exact .finished hd
  · obtain ⟨tag, htag⟩ : (byteAt data (base + d)).Safe := safe_byteAt.2 (by omega)
    obtain ⟨dlen, hlen⟩ : (byteAt data (base + d + 1)).Safe := safe_byteAt.2 (by omega)
    by_cases hfit : infoLen < d + 2 + dlen.toNat
    · exact .cut hlen hfit
    · exact .next htag hlen (fun _ _ => by omega) (of_le h _)
  termination_by infoLen - d

/-- **The loop over the descriptors of an entry.** -/
theorem safe_descriptors {fuel : ℕ} (hfuel : infoLen - d < fuel) :
    (Checked.loop (descriptorTurn data base infoLen) fuel (d, m)).Safe ↔
      DescriptorsInside data base infoLen d := by
  induction fuel generalizing d m with
  | zero => omega
  | succ fuel ih =>
    rw [Checked.safe_loop_iff, descriptorTurn]
    split
    · rename_i hd
      constructor
      · rintro ⟨r, hr, h⟩
        obtain ⟨tag, htag, hr⟩ := Checked.bind_eq_ok.1 hr
        obtain ⟨dlen, hlen, hr⟩ := Checked.bind_eq_ok.1 hr
        split at hr
        · exact .cut hlen ‹_›
        · obtain ⟨m', hm, hr⟩ := Checked.bind_eq_ok.1 hr
          cases hr
          exact .next htag hlen (safe_descriptorMedia.1 ⟨m', hm⟩) ((ih (by omega)).1 h)
      · intro h
        cases h with
        | finished h => exact absurd hd (by simp only; omega)
        | cut hlen hcut =>
          have hin := safe_byteAt.1 ⟨_, hlen⟩
          obtain ⟨tag, htag⟩ : (byteAt data (base + d)).Safe := safe_byteAt.2 (by omega)
          rw [htag, Checked.ok_bind, hlen, Checked.ok_bind, if_pos hcut]
          exact Checked.yields_done.2 trivial
        | @next _ tag dlen htag hlen hid hrest =>
          rw [htag, Checked.ok_bind, hlen, Checked.ok_bind]
          split
          · exact Checked.yields_done.2 trivial
          · obtain ⟨m', hm⟩ : (descriptorMedia data tag dlen (base + d + 2) m).Safe :=
              safe_descriptorMedia.2 hid
            rw [hm, Checked.ok_bind, Checked.yields_next]
            exact (ih (by omega)).2 hrest
    · rename_i hd
      exact iff_of_true (Checked.yields_done.2 trivial) (.finished (by simp only at hd; omega))

/-- **Where the walk over the stream entries stays inside the section**, from the one at `off` on:
those that stand in front of the CRC have their descriptors read there. -/
inductive EntriesInside (data : Bytes) : ℕ → Prop
  | finished {off : ℕ} (h : data.length - 4 < off + 5) : EntriesInside data off
  | entry {off infoLen : ℕ} (h : off + 5 ≤ data.length - 4)
      (hinfo : maskedBig16 data 0x0F (off + 3) = .ok infoLen)
      (hinside : DescriptorsInside data (off + 5) infoLen 0)
      (hrest : EntriesInside data (off + (5 + infoLen))) : EntriesInside data off

/-- **The loop over the stream entries.** -/
theorem safe_entries {fuel off : ℕ} {streams : OrdMap ℕ StreamState}
    (hfuel : data.length - off < fuel) :
    (Checked.loop (entryTurn data (data.length - 4)) fuel (off, streams)).Safe ↔
      EntriesInside data off := by
  induction fuel generalizing off streams with
  | zero => omega
  | succ fuel ih =>
    rw [Checked.safe_loop_iff, entryTurn]
    split
    · rename_i hoff
      obtain ⟨streamType, htype⟩ : (byteAt data off).Safe := safe_byteAt.2 (by omega)
      obtain ⟨esPid, hpid⟩ : (maskedBig16 data 0x1F (off + 1)).Safe :=
        safe_maskedBig16.2 (by omega)
      obtain ⟨infoLen, hinfo⟩ : (maskedBig16 data 0x0F (off + 3)).Safe :=
        safe_maskedBig16.2 (by omega)
      rw [htype, Checked.ok_bind, hpid, Checked.ok_bind, hinfo, Checked.ok_bind]
      constructor
      · rintro ⟨r, hr, h⟩
        obtain ⟨m, hm, hr⟩ := Checked.bind_eq_ok.1 hr
        cases hr
        exact .entry hoff hinfo ((safe_descriptors (by omega)).1 ⟨m, hm⟩) ((ih (by omega)).1 h)
      · intro h
        cases h with
        | finished h => exact absurd hoff (by simp only; omega)
        | entry h hinfo' hinside hrest =>
          cases hinfo.symm.trans hinfo'
          obtain ⟨m, hm⟩ : (descriptorLoop data (off + 5) infoLen
              (streamTypeMedia streamType)).Safe := (safe_descriptors (by omega)).2 hinside
          rw [hm, Checked.ok_bind, Checked.yields_next]
          exact (ih (by omega)).2 hrest
    · rename_i hoff
      exact iff_of_true (Checked.yields_done.2 trivial) (.finished (by simp only at hoff; omega))

/-- **The map table** is read inside the section exactly where its entries are. -/
theorem safe_parsePmt (t : MpegtsTables) :
    (parsePmt data data.length t).Safe ↔
      (12 ≤ data.length → ∀ piLen, maskedBig16 data 0x0F 10 = .ok piLen →
        EntriesInside data (12 + piLen)) := by
  unfold parsePmt
  split
  · rename_i hshort
    exact iff_of_true Checked.safe_pure fun h => absurd hshort (by omega)
  · rename_i hlen
    obtain ⟨piLen, hpi⟩ : (maskedBig16 data 0x0F 10).Safe := safe_maskedBig16.2 (by omega)
    have hentries : (12 ≤ data.length → ∀ piLen', maskedBig16 data 0x0F 10 = .ok piLen' →
        EntriesInside data (12 + piLen')) ↔ EntriesInside data (12 + piLen) := by
      constructor
      · exact fun h => h (by omega) piLen hpi
      · rintro h - piLen' hpi'
        cases hpi.symm.trans hpi'
        exact h
    rw [hentries, hpi, Checked.ok_bind]
    split
    · exact iff_of_true Checked.safe_pure (.finished (by omega))
    · rw [← safe_entries (Nat.lt_succ_of_le (Nat.sub_le ..)), Checked.safe_bind_iff]
      constructor
      · rintro ⟨streams, h, -⟩
        exact ⟨streams, h⟩
      · rintro ⟨streams, h⟩
        exact ⟨streams, h, Checked.safe_pure⟩

end Reads

/-- A section as `process_psi_sections` hands it over, with a CRC that matches. -/
structure PsiSection where
  bytes : Bytes
  sectionLength : ℕ
  announced : maskedBig16 bytes 0x0F 1 = .ok sectionLength
  length_bytes : bytes.length = 3 + sectionLength
  sectionLength_le : sectionLength ≤ 1021
  crc : crcMatches bytes bytes.length = .ok true

namespace PsiSection

/-- The lengths inside a map table keep its walks inside the section; other tables have none. -/
def LengthsInside (s : PsiSection) : Prop :=
  byteAt s.bytes 0 = .ok 0x02 → 12 ≤ s.bytes.length →
    ∀ piLen, maskedBig16 s.bytes 0x0F 10 = .ok piLen → EntriesInside s.bytes (12 + piLen)

/-- The CRC has its four bytes. -/
theorem four_le (s : PsiSection) : 4 ≤ s.bytes.length := by
  obtain ⟨calculated, -, h⟩ := Checked.bind_eq_ok.1 s.crc
  obtain ⟨received, h, -⟩ := Checked.bind_eq_ok.1 h
  have hdrop := congrArg List.length (readBig32_iff_drop.1 h)
  rw [List.length_drop, List.length_append, length_big32] at hdrop
  omega

end PsiSection

/-- **A section with a matching CRC is read inside its bytes exactly where the lengths in it keep
to them.** -/
theorem handlePsiSection_inside_iff (s : PsiSection) (t : MpegtsTables) :
    (handlePsiSection s.bytes s.bytes.length t).Safe ↔ s.LengthsInside := by
  have hlen := s.four_le
  obtain ⟨tableId, hid⟩ : (byteAt s.bytes 0).Safe := safe_byteAt.2 (by omega)
  rw [handlePsiSection, if_neg (by omega), s.crc, Checked.ok_bind, if_pos rfl, hid,
    Checked.ok_bind, PsiSection.LengthsInside, hid, Except.ok.injEq]
  split_ifs with hpat hpmt
  · exact iff_of_true (parsePat_safe t hlen) fun h => absurd (hpat.symm.trans h) (by decide)
  · rw [safe_parsePmt]
    exact ⟨fun h _ => h, fun h => h hpmt⟩
  · exact iff_of_true Checked.safe_pure fun h => absurd h hpmt

/-- A map table with one stream, whose descriptors are announced as 4095 bytes and which has
none. -/
def bareEntry : PsiSection where
  bytes := [0x02, 0xB0, 0x12, 0x00, 0x01, 0xC1, 0x00, 0x00, 0xE1, 0x00, 0xF0, 0x00,
    0x1B, 0xE1, 0x00, 0xFF, 0xFF,
    0x19, 0xCD, 0x30, 0xCA]
  sectionLength := 18
  announced := rfl
  length_bytes := rfl
  sectionLength_le := by decide
  crc := by decide +kernel

/-- Its CRC is taken for descriptors, and the walk goes on behind it. -/
theorem bareEntry_reads_past : ¬ ∀ (s : PsiSection) (t : MpegtsTables),
    (handlePsiSection s.bytes s.bytes.length t).Safe := by
  intro h
  obtain ⟨t, ht⟩ := h bareEntry {}
  have hout : (handlePsiSection bareEntry.bytes bareEntry.bytes.length {}).toBool = false := by
    decide +kernel
  rw [ht] at hout
  cases hout

end AsioRtc
