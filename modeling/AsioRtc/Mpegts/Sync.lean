/-
# Where the packets of a stream are found

`process_ts_packets` of `src/mpegts_demuxer.hpp` as a search in the bytes that are left
(`resync`): which packets it finds depends on those alone, not on how the buffer was
compacted, nor on what is done with a packet (`processTsPackets_eq`).  In a row of packets
it finds just these (`resync_packets`).

Junk in front of them is looked through for a `0x47`.  One that is not a confirmed sync is
skipped together with a whole packet length and the byte behind it; where the junk ends
before, the start of the first packet is skipped too, and the search goes on inside it.  So
no packet is lost just where each such jump ends in the junk (`JumpsClear`,
`junk_handles_iff`).
-/

import AsioRtc.Lib.Blocks
import AsioRtc.Mpegts.Demuxer

namespace AsioRtc

open Lib

/-- The packets in the bytes that are left, and what stays of them for the next chunk. -/
def resync (rest : Bytes) : List Bytes × Bytes :=
  if rest.length < tsPacketSize then ([], rest)
  else
    let i := rest.idxOf 0x47
    if rest.length - i < tsPacketSize then ([], rest.drop i)
    else if rest.length - i = tsPacketSize ∨ rest[i + tsPacketSize]? = some 0x47 then
      let r := resync (rest.drop (i + tsPacketSize))
      ((rest.drop i).take tsPacketSize :: r.1, r.2)
    else resync (rest.drop (i + tsPacketSize + 1))
termination_by rest.length
decreasing_by all_goals
  simp only [tsPacketSize, List.length_drop] at *
  omega

namespace TsBuffer

/-- The bytes behind `read_offset_`. -/
def rest (b : TsBuffer) : Bytes := b.buffer.drop b.readOffset

theorem length_rest (b : TsBuffer) : b.rest.length = b.buffer.length - b.readOffset :=
  List.length_drop ..

/-- The search in the bytes that are left, at places in the buffer. -/
theorem resync_rest {b : TsBuffer} (hroom : b.readOffset + tsPacketSize ≤ b.buffer.length) :
    resync b.rest =
      if b.buffer.length - b.nextSync < tsPacketSize then ([], b.buffer.drop b.nextSync)
      else if b.buffer.length - b.nextSync = tsPacketSize ∨
          b.buffer[b.nextSync + tsPacketSize]? = some 0x47 then
        ((b.buffer.drop b.nextSync).take tsPacketSize ::
            (resync (b.buffer.drop (b.nextSync + tsPacketSize))).1,
          (resync (b.buffer.drop (b.nextSync + tsPacketSize))).2)
      else resync (b.buffer.drop (b.nextSync + tsPacketSize + 1)) := by
  have hnext : b.nextSync = b.readOffset + b.rest.idxOf 0x47 := rfl
  have hdrop : ∀ k, b.rest.drop (b.rest.idxOf 0x47 + k) = b.buffer.drop (b.nextSync + k) := by
    intro k
    rw [rest, List.drop_drop, hnext, Nat.add_assoc]
    rfl
  have hget : b.rest[b.rest.idxOf 0x47 + tsPacketSize]? =
      b.buffer[b.nextSync + tsPacketSize]? := by
    rw [rest, List.getElem?_drop, hnext, Nat.add_assoc]
    rfl
  have hlength : b.rest.length - b.rest.idxOf 0x47 = b.buffer.length - b.nextSync := by
    rw [length_rest, hnext]
    omega
  rw [resync, if_neg (by rw [length_rest]; omega)]
  simp only [hlength, hget, hdrop, Nat.add_assoc]
  rw [← Nat.add_zero (b.rest.idxOf 0x47), hdrop, Nat.add_zero]

/-- **A search** finds nothing in the bytes that are left, or their first packet. -/
theorem findSync_spec (b : TsBuffer) :
    (∃ rest, b.findSync = (⟨rest, 0⟩, none) ∧ resync b.rest = ([], rest)) ∨
      ∃ i, b.findSync = (⟨b.buffer, i⟩, some i) ∧ b.readOffset ≤ i ∧
        i + tsPacketSize ≤ b.buffer.length ∧
        resync b.rest =
          ((b.buffer.drop i).take tsPacketSize ::
              (resync (b.buffer.drop (i + tsPacketSize))).1,
            (resync (b.buffer.drop (i + tsPacketSize))).2) := by
  have hle := b.readOffset_le_nextSync
  have hpos : 0 < tsPacketSize := by decide
  induction b using findSync.induct with
  | case1 b hroom sync hend =>
    refine .inl ⟨[], by rw [findSync, if_pos hroom]; exact if_pos hend, ?_⟩
    rw [resync_rest hroom, if_pos (by omega), List.drop_of_length_le (by omega)]
  | case2 b hroom sync n hend hshort =>
    refine .inl ⟨b.buffer.drop b.nextSync, ?_, by rw [resync_rest hroom, if_pos (by omega)]⟩
    rw [findSync, if_pos hroom]
    simp only
    rw [if_neg hend, if_pos hshort]
  | case3 b hroom sync n hend hshort hlong hconfirmed =>
    refine .inr ⟨b.nextSync, ?_, hle, by omega, ?_⟩
    · rw [findSync, if_pos hroom]
      simp only
      rw [if_neg hend, if_neg hshort, if_pos hlong, if_pos hconfirmed]
    · rw [resync_rest hroom, if_neg (by omega), if_pos (.inr hconfirmed)]
  | case4 b hroom sync n hend hshort hlong hconfirmed ih =>
    have hjump : b.findSync =
        (⟨b.buffer, b.nextSync + tsPacketSize + 1⟩ : TsBuffer).findSync := by
      rw [findSync, if_pos hroom]
      simp only
      rw [if_neg hend, if_neg hshort, if_pos hlong, if_neg hconfirmed]
    have hskip : resync b.rest =
        resync (⟨b.buffer, b.nextSync + tsPacketSize + 1⟩ : TsBuffer).rest := by
      rw [resync_rest hroom, if_neg (by omega), if_neg (not_or.2 ⟨by omega, hconfirmed⟩)]
      rfl
    rw [hjump, hskip]
    rcases ih (readOffset_le_nextSync _) with h | ⟨i, hfind, hi, h⟩
    · exact .inl h
    · exact .inr ⟨i, hfind, by simp only at hi; omega, h⟩
  | case5 b hroom sync n hend hshort hlong =>
    refine .inr ⟨b.nextSync, ?_, hle, by omega, ?_⟩
    · rw [findSync, if_pos hroom]
      simp only
      rw [if_neg hend, if_neg hshort, if_neg hlong]
    · rw [resync_rest hroom, if_neg (by omega), if_pos (.inl (by omega))]
  | case6 b hroom =>
    refine .inl ⟨b.rest, by rw [findSync, if_neg hroom]; rfl, ?_⟩
    rw [resync, if_pos (by rw [length_rest]; omega)]

/-- **The loop over the packets** handles those of the search, one after the other, and leaves
what stays of it in the buffer. -/
theorem processTsPackets_eq {σ : Type} (handle : Bytes → σ → Checked σ) (s : σ) (b : TsBuffer) :
    b.processTsPackets handle s =
      (resync b.rest).1.foldlM (fun s packet => handle packet s) s >>= fun s =>
        pure (s, ⟨(resync b.rest).2, 0⟩) := by
  have hloop : ∀ fuel (s : σ) (b : TsBuffer), b.buffer.length - b.readOffset < fuel →
      Checked.loop (processTurn handle) fuel (s, b) =
        (resync b.rest).1.foldlM (fun s packet => handle packet s) s >>= fun s =>
          pure (s, ⟨(resync b.rest).2, 0⟩) := by
    intro fuel
    induction fuel with
    | zero => exact fun _ _ h => absurd h (Nat.not_lt_zero _)
    | succ fuel ih =>
      intro s b hfuel
      rcases b.findSync_spec with ⟨rest, hfind, hrest⟩ | ⟨i, hfind, hi, hroom, hrest⟩
      · rw [hrest, Checked.loop, processTurn]
        simp only [hfind]
        rfl
      · rw [hrest, Checked.loop, processTurn, List.foldlM_cons]
        simp only [hfind]
        cases handle ((b.buffer.drop i).take tsPacketSize) s with
        | error e => rfl
        | ok s' =>
          refine ih s' ⟨b.buffer, i + tsPacketSize⟩ ?_
          have : 0 < tsPacketSize := by decide
          simp only
          omega
  exact hloop _ s b (by omega)

end TsBuffer

/-! ### A row of packets -/

/-- A packet of a stream. -/
structure TsPacket where
  bytes : Bytes
  length_bytes : bytes.length = tsPacketSize
  sync : bytes.head? = some 0x47

/-- A packet with the payload at its end, behind an adaptation field that fills the rest. -/
def stuffedPacket (pid : BitVec 13) (start : Bool) (cc : BitVec 4) (payload : Bytes)
    (h : payload.length ≤ 182) : TsPacket where
  bytes := [0x47, 0#1 ++ BitVec.ofBool start ++ 0#1 ++ pid.extractLsb' 8 5, pid.extractLsb' 0 8,
      0x3#4 ++ cc, BitVec.ofNat 8 (183 - payload.length), 0x00] ++
    List.replicate (182 - payload.length) 0xFF ++ payload
  length_bytes := by
    simp only [List.length_append, List.length_cons, List.length_nil, List.length_replicate,
      tsPacketSize]
    omega
  sync := rfl

/-- What a search may end with: nothing, or the start of a packet. -/
def AtSync (rest : Bytes) : Prop := ∀ b ∈ rest.head?, b = 0x47

theorem atSync_nil : AtSync [] := fun _ h => by cases h

theorem resync_short {rest : Bytes} (h : rest.length < tsPacketSize) :
    resync rest = ([], rest) := by
  rw [resync, if_pos h]

/-- **A packet in front of another one**, or of the end. -/
theorem resync_packet (p : TsPacket) {rest : Bytes} (h : AtSync rest) :
    resync (p.bytes ++ rest) = (p.bytes :: (resync rest).1, (resync rest).2) := by
  have hidx : (p.bytes ++ rest).idxOf 0x47 = 0 := by
    have hsync := p.sync
    cases hp : p.bytes with
    | nil => rw [hp] at hsync; cases hsync
    | cons b bs =>
      rw [hp] at hsync
      obtain rfl := Option.some.inj hsync
      exact List.idxOf_cons_self
  have hlen : tsPacketSize ≤ (p.bytes ++ rest).length := by
    rw [List.length_append, p.length_bytes]
    omega
  have hconfirmed : (p.bytes ++ rest).length - 0 = tsPacketSize ∨
      (p.bytes ++ rest)[0 + tsPacketSize]? = some 0x47 := by
    cases rest with
    | nil => exact .inl (by simpa using p.length_bytes)
    | cons b rest =>
      obtain rfl := h b rfl
      right
      rw [List.getElem?_append_right (by rw [p.length_bytes]; omega), p.length_bytes]
      simp
  rw [resync, if_neg (by omega)]
  simp only [hidx]
  rw [if_neg (by omega), if_pos hconfirmed, List.drop_zero, Nat.zero_add,
    List.take_left' p.length_bytes, List.drop_left' p.length_bytes]

theorem atSync_packets (ps : List TsPacket) {tail : Bytes} (h : AtSync tail) :
    AtSync (ps.flatMap TsPacket.bytes ++ tail) := by
  cases ps with
  | nil => exact h
  | cons p ps =>
    intro b hb
    have hne : p.bytes ≠ [] := fun hnil => by
      have hsync := p.sync
      rw [hnil] at hsync
      cases hsync
    rw [List.flatMap_cons, List.append_assoc, List.head?_append_of_ne_nil _ hne, p.sync] at hb
    exact (Option.some.inj hb).symm

/-- **A row of packets is found packet by packet**, and what stays is the front of the next. -/
theorem resync_packets (ps : List TsPacket) {tail : Bytes} (hshort : tail.length < tsPacketSize)
    (htail : AtSync tail) :
    resync (ps.flatMap TsPacket.bytes ++ tail) = (ps.map TsPacket.bytes, tail) := by
  induction ps with
  | nil => exact resync_short hshort
  | cons p ps ih =>
    rw [List.flatMap_cons, List.append_assoc, resync_packet p (atSync_packets ps htail), ih]
    rfl

/-! ### Junk in front -/

/-- Each packet found takes its bytes. -/
theorem length_resync (rest : Bytes) : (resync rest).1.length * tsPacketSize ≤ rest.length := by
  induction rest using resync.induct with
  | case1 rest h =>
    rw [resync, if_pos h, List.length_nil, Nat.zero_mul]
    exact Nat.zero_le _
  | case2 rest h i hshort =>
    rw [resync, if_neg h]
    simp only
    rw [if_pos hshort, List.length_nil, Nat.zero_mul]
    exact Nat.zero_le _
  | case3 rest h i hshort hsync ih =>
    rw [List.length_drop] at ih
    rw [resync, if_neg h]
    simp only
    rw [if_neg hshort, if_pos hsync, List.length_cons, Nat.succ_mul]
    exact (Nat.add_le_add_right ih tsPacketSize).trans (by omega)
  | case4 rest h i hshort hsync ih =>
    rw [List.length_drop] at ih
    rw [resync, if_neg h]
    simp only
    rw [if_neg hshort, if_neg hsync]
    exact ih.trans (Nat.sub_le ..)

/-- Bytes without a sync byte are skipped. -/
theorem resync_append {junk rest : Bytes} (hjunk : (0x47 : U8) ∉ junk)
    (hrest : tsPacketSize ≤ rest.length) : resync (junk ++ rest) = resync rest := by
  have hidx : (junk ++ rest).idxOf 0x47 = junk.length + rest.idxOf 0x47 :=
    List.idxOf_append_of_notMem hjunk
  have hdrop : ∀ k, (junk ++ rest).drop (junk.length + k) = rest.drop k := fun k => by
    rw [← List.drop_drop, List.drop_left]
  have hget : ∀ k, (junk ++ rest)[junk.length + k]? = rest[k]? := fun k => by
    rw [List.getElem?_append_right (Nat.le_add_right ..), Nat.add_sub_cancel_left]
  have hlen : (junk ++ rest).length - (junk.length + rest.idxOf 0x47) =
      rest.length - rest.idxOf 0x47 := by
    rw [List.length_append, Nat.add_sub_add_left]
  rw [resync, if_neg (by rw [List.length_append]; omega)]
  simp only [hidx, hdrop, hget, hlen, Nat.add_assoc]
  rw [resync.eq_def rest, if_neg (Nat.not_lt.2 hrest)]
  simp only [Nat.add_assoc]

/-- **The jump** over a sync byte that is not confirmed, a packet length and one byte on. -/
theorem resync_jump {bytes : Bytes} (hlong : tsPacketSize < bytes.length)
    (hunconfirmed : (0x47 :: bytes)[tsPacketSize]? ≠ some 0x47) :
    resync (0x47 :: bytes) = resync (bytes.drop tsPacketSize) := by
  rw [resync, if_neg (by rw [List.length_cons]; omega)]
  simp only [List.idxOf_cons_self, Nat.zero_add]
  rw [if_neg (by rw [List.length_cons]; omega),
    if_neg (not_or.2 ⟨by rw [List.length_cons]; omega, hunconfirmed⟩), List.drop_succ_cons]

/-- A sync byte with another one a packet length behind it. -/
def ConfirmedSync (data : Bytes) (i : ℕ) : Prop :=
  data[i]? = some 0x47 ∧ data[i + tsPacketSize]? = some 0x47

/-- **The jumps of the search end in the junk**: behind its first sync byte there is a packet
length of junk to skip, and so on behind that; at last there is none. -/
inductive JumpsClear : Bytes → Prop
  | free {junk : Bytes} (h : (0x47 : U8) ∉ junk) : JumpsClear junk
  | jump {front skipped junk : Bytes} (hfront : (0x47 : U8) ∉ front)
      (hskipped : skipped.length = tsPacketSize) (h : JumpsClear junk) :
      JumpsClear (front ++ 0x47 :: (skipped ++ junk))

/-- The part of the junk behind a jump has no confirmed sync either. -/
theorem unconfirmed_drop (front : Bytes) {junk rest : Bytes}
    (h : ∀ i < (front ++ junk).length, ¬ ConfirmedSync (front ++ (junk ++ rest)) i) :
    ∀ i < junk.length, ¬ ConfirmedSync (junk ++ rest) i := by
  intro i hi hsync
  refine h (front.length + i) (by rw [List.length_append]; omega) ?_
  rwa [ConfirmedSync, Nat.add_assoc, List.getElem?_append_right (Nat.le_add_right ..),
    List.getElem?_append_right (Nat.le_add_right ..), Nat.add_sub_cancel_left,
    Nat.add_sub_cancel_left]

/-- A jump from the first sync byte of the junk. -/
theorem resync_junk {front bytes : Bytes} (hfront : (0x47 : U8) ∉ front)
    (hlong : tsPacketSize < bytes.length)
    (hunconfirmed : ¬ ConfirmedSync (front ++ 0x47 :: bytes) front.length) :
    resync (front ++ 0x47 :: bytes) = resync (bytes.drop tsPacketSize) := by
  rw [resync_append hfront (by rw [List.length_cons]; omega), resync_jump hlong]
  intro hsync
  refine hunconfirmed ⟨by simp, ?_⟩
  rwa [List.getElem?_append_right (Nat.le_add_right ..), Nat.add_sub_cancel_left]

section Junk

variable {junk : Bytes} {ps : List TsPacket}

theorem length_packets (ps : List TsPacket) :
    (ps.flatMap TsPacket.bytes).length = ps.length * tsPacketSize :=
  length_blocks TsPacket.length_bytes ps

/-- **Where the jumps end in the junk, just the packets are found.** -/
theorem JumpsClear.resync_eq (hclear : JumpsClear junk) (htwo : 2 ≤ ps.length)
    (hunconfirmed : ∀ i < junk.length,
      ¬ ConfirmedSync (junk ++ ps.flatMap TsPacket.bytes) i) :
    resync (junk ++ ps.flatMap TsPacket.bytes) = (ps.map TsPacket.bytes, []) := by
  have hlen := length_packets ps
  have hsize : 2 * tsPacketSize ≤ ps.length * tsPacketSize := Nat.mul_le_mul_right _ htwo
  have hnil : ([] : Bytes).length < tsPacketSize := by decide
  induction hclear with
  | free h =>
    rw [resync_append h (by omega)]
    simpa using resync_packets ps hnil atSync_nil
  | @jump front skipped junk hfront hskipped _ ih =>
    rw [List.append_assoc, List.cons_append, List.append_assoc] at hunconfirmed ⊢
    have hrest := hunconfirmed front.length (by simp)
    rw [resync_junk hfront (by simp only [List.length_append]; omega) hrest,
      List.drop_left' hskipped]
    refine ih (unconfirmed_drop (front ++ 0x47 :: skipped) ?_)
    simpa [List.append_assoc] using hunconfirmed

/-- **Where a jump ends behind the junk, fewer packets are found.** -/
theorem length_resync_lt (hclear : ¬ JumpsClear junk) (htwo : 2 ≤ ps.length)
    (hunconfirmed : ∀ i < junk.length,
      ¬ ConfirmedSync (junk ++ ps.flatMap TsPacket.bytes) i) :
    (resync (junk ++ ps.flatMap TsPacket.bytes)).1.length < ps.length := by
  have hlen := length_packets ps
  have hsize : 2 * tsPacketSize ≤ ps.length * tsPacketSize := Nat.mul_le_mul_right _ htwo
  have hpos : 0 < tsPacketSize := by decide
  induction hn : junk.length using Nat.strong_induction_on generalizing junk with
  | _ n ih =>
    by_cases hmem : (0x47 : U8) ∈ junk
    · obtain ⟨front, bytes, rfl, hfront⟩ := List.eq_append_cons_of_mem hmem
      rw [List.append_assoc, List.cons_append] at hunconfirmed ⊢
      rw [resync_junk hfront (by rw [List.length_append]; omega)
        (hunconfirmed front.length (by simp))]
      by_cases hlong : tsPacketSize ≤ bytes.length
      · -- the jump ends in the junk
        rw [List.drop_append_of_le_length hlong]
        have hsplit := List.take_append_drop tsPacketSize bytes
        have hskipped : (bytes.take tsPacketSize).length = tsPacketSize := by
          rw [List.length_take]
          omega
        refine ih _ ?_ (fun h => hclear ?_) ?_ rfl
        · rw [List.length_drop, ← hn, List.length_append, List.length_cons]
          omega
        · rw [← hsplit]
          exact .jump hfront hskipped h
        · have hwhole : front ++ 0x47 :: bytes.take tsPacketSize ++ bytes.drop tsPacketSize =
              front ++ 0x47 :: bytes := by
            rw [List.append_assoc, List.cons_append, hsplit]
          refine unconfirmed_drop (front ++ 0x47 :: bytes.take tsPacketSize) ?_
          rw [← List.append_assoc, hwhole, List.append_assoc, List.cons_append]
          exact hunconfirmed
      · -- the jump ends behind the start of the first packet
        have hcount := length_resync
          ((bytes ++ ps.flatMap TsPacket.bytes).drop tsPacketSize)
        rw [List.length_drop, List.length_append] at hcount
        have hlt : (resync ((bytes ++ ps.flatMap TsPacket.bytes).drop tsPacketSize)).1.length *
            tsPacketSize < ps.length * tsPacketSize := by omega
        exact Nat.lt_of_mul_lt_mul_right hlt
    · exact absurd (.free hmem) hclear

/-- The packets that `parse` hands to `handle_ts_packet` when it reads `data`. -/
def MpegtsDemuxer.handledPackets (d : MpegtsDemuxer) (data : Bytes) : Checked (List Bytes) := do
  let r ← (d.buffer.append data).processTsPackets
    (fun packet handled => .ok (handled ++ [packet])) []
  pure r.1

theorem handledPackets_eq (d : MpegtsDemuxer) (data : Bytes) :
    d.handledPackets data = .ok (resync (d.buffer.append data).rest).1 := by
  have hrecord : ∀ packets handled : List Bytes,
      packets.foldlM (fun handled packet => (.ok (handled ++ [packet]) : Checked (List Bytes)))
        handled = .ok (handled ++ packets) := by
    intro packets
    induction packets with
    | nil => exact fun handled => by rw [List.append_nil]; rfl
    | cons packet packets ih =>
      intro handled
      rw [List.foldlM_cons, Checked.ok_bind, ih, List.append_assoc]
      rfl
  rw [MpegtsDemuxer.handledPackets, TsBuffer.processTsPackets_eq, hrecord]
  rfl

/-- **What `parse` does with a chunk** when no frame is queued: it handles these packets. -/
theorem parse_eq {d : MpegtsDemuxer} {data : Bytes} (hqueue : d.frameQueue = [])
    (hdata : data ≠ []) (consumed : ℕ) :
    d.parse data consumed =
      (d.handledPackets data >>= fun packets =>
        packets.foldlM (fun s packet => queuePacket packet s) (d.tables, [])) >>= fun s =>
      pure ({ buffer := ⟨(resync (d.buffer.append data).rest).2, 0⟩, tables := s.1,
              frameQueue := s.2.tail }, s.2.head?, data.length) := by
  rw [MpegtsDemuxer.parse, if_neg (not_not.2 hqueue), if_neg hdata, handledPackets_eq,
    TsBuffer.processTsPackets_eq, hqueue, Checked.ok_bind, bind_assoc]
  rfl

/-- Every packet behind the junk is handled, in their order. -/
def HandlesAll (junk : Bytes) (ps : List TsPacket) : Prop :=
  (({} : MpegtsDemuxer).handledPackets (junk ++ ps.flatMap TsPacket.bytes)).Yields fun handled =>
    (ps.map TsPacket.bytes).Sublist handled

theorem append_fresh (data : Bytes) : (({} : TsBuffer).append data).rest = data := rfl

/-- **When no packet behind junk without a confirmed sync is skipped**: where the jumps of the
search end in the junk. -/
theorem junk_handles_iff (htwo : 2 ≤ ps.length)
    (hunconfirmed : ∀ i < junk.length,
      ¬ ConfirmedSync (junk ++ ps.flatMap TsPacket.bytes) i) :
    HandlesAll junk ps ↔ JumpsClear junk := by
  rw [HandlesAll, handledPackets_eq, append_fresh, Checked.yields_ok]
  constructor
  · intro hsub
    by_contra hclear
    have hle := hsub.length_le
    rw [List.length_map] at hle
    exact absurd (length_resync_lt hclear htwo hunconfirmed) (Nat.not_lt.2 hle)
  · intro hclear
    rw [hclear.resync_eq htwo hunconfirmed]

/-- Junk of up to a packet length is clear without a sync byte only. -/
theorem JumpsClear.notMem (hclear : JumpsClear junk) (hshort : junk.length ≤ tsPacketSize) :
    (0x47 : U8) ∉ junk := by
  cases hclear with
  | free h => exact h
  | jump _ hskipped _ =>
    simp only [List.length_append, List.length_cons] at hshort
    omega

/-- A packet whose bytes are all `0` behind the first. -/
def zeroPacket : TsPacket where
  bytes := 0x47 :: List.replicate 187 0x00
  length_bytes := by rw [List.length_cons, List.length_replicate]; rfl
  sync := rfl

/-- A `0x47` in front of two packets is not a confirmed sync. -/
theorem strayByte_unconfirmed : ∀ i < ([0x47] : Bytes).length,
    ¬ ConfirmedSync ([0x47] ++ [zeroPacket, zeroPacket].flatMap TsPacket.bytes) i := by
  intro i hi
  obtain rfl : i = 0 := by simpa using hi
  rintro ⟨-, hsync⟩
  revert hsync
  decide

/-- The first of the two packets is skipped. -/
theorem strayByte_skips_packet : ¬ ∀ (junk : Bytes) (ps : List TsPacket), 2 ≤ ps.length →
    (∀ i < junk.length, ¬ ConfirmedSync (junk ++ ps.flatMap TsPacket.bytes) i) →
      HandlesAll junk ps := by
  intro h
  have hsub := h [0x47] [zeroPacket, zeroPacket] le_rfl strayByte_unconfirmed
  rw [HandlesAll, handledPackets_eq, append_fresh, Checked.yields_ok] at hsub
  have hclear : ¬ JumpsClear [0x47] := fun hclear =>
    hclear.notMem (by decide) (List.mem_singleton.2 rfl)
  have hle := hsub.length_le
  rw [List.length_map] at hle
  exact absurd (length_resync_lt hclear le_rfl strayByte_unconfirmed) (Nat.not_lt.2 hle)

theorem junk_handles_iff_strayByte :
    2 ≤ [zeroPacket, zeroPacket].length ∧
      (∀ i < ([0x47] : Bytes).length,
        ¬ ConfirmedSync ([0x47] ++ [zeroPacket, zeroPacket].flatMap TsPacket.bytes) i) ∧
      (HandlesAll [0x47] [zeroPacket, zeroPacket] ↔ JumpsClear [0x47]) :=
  ⟨le_rfl, strayByte_unconfirmed, junk_handles_iff le_rfl strayByte_unconfirmed⟩

end Junk

end AsioRtc
