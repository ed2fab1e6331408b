/-
# A transport-cc feedback as its receiver reads it

The other end of `build_transport_cc`.  Nothing in `src/` parses these messages; this
is the reading the transport-wide congestion control draft gives them, and the measure
of what `transport_cc::report` sends.

Behind the common header and the two SSRCs come the base number, the number of
statuses, a reference time in units of 64 ms, and the feedback count.  Packet chunks of
sixteen bits follow (`chunkStatuses`): a run of one status, fourteen statuses of one
bit, or seven of two bits.  Then come the receive deltas in units of 250 µs, one for
each packet received with a delta: one byte without a sign for a small one, two bytes
with a sign for a large one (`readDeltas`).  The arrival of a packet is the reference time plus the
deltas up to its own (`arrivals`).
-/

import AsioRtc.Rtcp.FeedbackReadBack
import Mathlib.Tactic.Ring

namespace AsioRtc

open Lib

/-- The status a two-bit symbol stands for. -/
def TccPacketStatus.ofSymbol : ℕ → TccPacketStatus
  | 1 => .smallDelta
  | 2 => .largeDelta
  | 3 => .receivedWithoutDelta
  | _ => .notReceived

/-- The statuses of a packet chunk: a run length chunk, a status vector of one-bit
symbols, or one of two-bit symbols. -/
def chunkStatuses (chunk : ℕ) : List TccPacketStatus :=
  if chunk < 0x8000 then List.replicate (chunk % 0x2000) (.ofSymbol (chunk / 0x2000))
  else if chunk < 0xC000 then (List.range 14).map fun i => .ofSymbol (chunk / 2 ^ (13 - i) % 2)
  else (List.range 7).map fun i => .ofSymbol (chunk / 4 ^ (6 - i) % 4)

/-- The first `n` statuses of the chunks, and what stands behind them. -/
def readChunks : ℕ → Bytes → Option (List TccPacketStatus × Bytes)
  | 0, data => some ([], data)
  | n + 1, hi :: lo :: data => do
      let statuses := (chunkStatuses (hi.toNat * 256 + lo.toNat)).take (n + 1)
      let (rest, data) ← readChunks (n + 1 - statuses.length) data
      some (statuses ++ rest, data)
  | _ + 1, _ => none

/-- The deltas of the statuses, in units of 250 µs. -/
def readDeltas : List TccPacketStatus → Bytes → Option (List (Option ℤ))
  | [], _ => some []
  | .smallDelta :: ss, b :: data => (readDeltas ss data).map (some (b.toNat : ℤ) :: ·)
  | .largeDelta :: ss, hi :: lo :: data =>
      (readDeltas ss data).map
        (some (BitVec.ofNat 16 (hi.toNat * 256 + lo.toNat) : U16).toInt :: ·)
  | .notReceived :: ss, data => (readDeltas ss data).map (none :: ·)
  | .receivedWithoutDelta :: ss, data => (readDeltas ss data).map (none :: ·)
  | _, _ => none

/-- The deltas of the statuses, and what stands behind them. -/
def takeDeltas : List TccPacketStatus → Bytes → Option (List (Option ℤ) × Bytes)
  | [], data => some ([], data)
  | .smallDelta :: ss, b :: data =>
      (takeDeltas ss data).map (Prod.map (some (b.toNat : ℤ) :: ·) id)
  | .largeDelta :: ss, hi :: lo :: data =>
      (takeDeltas ss data).map
        (Prod.map (some (BitVec.ofNat 16 (hi.toNat * 256 + lo.toNat) : U16).toInt :: ·) id)
  | .notReceived :: ss, data => (takeDeltas ss data).map (Prod.map (none :: ·) id)
  | .receivedWithoutDelta :: ss, data => (takeDeltas ss data).map (Prod.map (none :: ·) id)
  | _, _ => none

/-- `count` packets with their statuses and deltas, out of the chunks and the deltas behind them,
and what stands behind these. -/
def decodePacketStatus (count : ℕ) (data : Bytes) :
    Option (List (TccPacketStatus × Option ℤ) × Bytes) := do
  let (statuses, data) ← readChunks count data
  let (deltas, rest) ← takeDeltas statuses data
  some (statuses.zip deltas, rest)

/-- The numbers that arrived and when, in microseconds: `time` is that of the packet
before, or the reference time. -/
def arrivals : U16 → ℤ → List (Option ℤ) → List (U16 × ℤ)
  | _, _, [] => []
  | seq, time, none :: ds => arrivals (seq + 1) time ds
  | seq, time, some d :: ds => (seq, time + d * 250) :: arrivals (seq + 1) (time + d * 250) ds

/-- The arrivals a feedback message tells of. -/
def decodeTransportCc (m : Bytes) : Option (List (U16 × ℤ)) :=
  match m.drop 12 with
  | b₁ :: b₀ :: c₁ :: c₀ :: r₂ :: r₁ :: r₀ :: _ :: data => do
      let (statuses, data) ← readChunks (c₁.toNat * 256 + c₀.toNat) data
      let deltas ← readDeltas statuses data
      some (arrivals (BitVec.ofNat 16 (b₁.toNat * 256 + b₀.toNat))
        ((r₂.toNat * 65536 + r₁.toNat * 256 + r₀.toNat : ℕ) * 64000) deltas)
  | _ => none

/-! ### Chunks -/

theorem TccPacketStatus.symbol_lt (s : TccPacketStatus) : s.symbol.toNat < 4 := by
  cases s <;> decide

theorem TccPacketStatus.ofSymbol_symbol (s : TccPacketStatus) : ofSymbol s.symbol.toNat = s := by
  cases s <;> rfl

section Places

variable {a n rest : ℕ}

/-- Two bits in front of `n` places of two bits are the place in front. -/
theorem place_front (ha : a < 4) (hrest : rest < 4 ^ n) : (a * 4 ^ n + rest) / 4 ^ n % 4 = a := by
  rw [Nat.add_comm, Nat.add_mul_div_right _ _ (Nat.pow_pos (by decide)), Nat.div_eq_of_lt hrest,
    Nat.zero_add, Nat.mod_eq_of_lt ha]

/-- What stands in front is a multiple of four in every place behind. -/
theorem place_behind {i : ℕ} (hi : i < n) :
    (a * 4 ^ n + rest) / 4 ^ (n - (i + 1)) % 4 = rest / 4 ^ (n - (i + 1)) % 4 := by
  have hpow : (4 : ℕ) ^ n = 4 ^ (i + 1) * 4 ^ (n - (i + 1)) := by
    rw [← pow_add, Nat.add_sub_cancel' hi]
  have hsplit : a * 4 ^ n = 4 * (a * 4 ^ i) * 4 ^ (n - (i + 1)) := by
    rw [hpow, pow_succ]
    ring
  rw [hsplit, Nat.add_comm, Nat.add_mul_div_right _ _ (Nat.pow_pos (by decide)),
    Nat.add_mul_mod_self_left]

end Places

/-- The first symbol stands in front of the places of the others. -/
theorem tccSymbols_cons {n : ℕ} {p : TccPacketInfo} {ps : List TccPacketInfo} (hn : n ≤ 6)
    (hlt : (tccSymbols (2 * n - 2) ps).toNat < 4 ^ n) :
    (tccSymbols (2 * n) (p :: ps)).toNat =
      p.status.symbol.toNat * 4 ^ n + (tccSymbols (2 * n - 2) ps).toNat := by
  have hpow : (4 : ℕ) ^ n ≤ 4 ^ 6 := Nat.pow_le_pow_right (by decide) hn
  have hsymbol : p.status.symbol.toNat * 4 ^ n ≤ 3 * 4 ^ n :=
    Nat.mul_le_mul_right _ (Nat.le_of_lt_succ p.status.symbol_lt)
  have hpow4 : (4 : ℕ) ^ n = 2 ^ (2 * n) := (pow_mul 2 2 n).symm
  rw [hpow4] at hpow hlt hsymbol ⊢
  exact toNat_shiftLeft_or hlt (by omega)

/-- The symbols of up to `n + 1` packets, the first one in the highest place. -/
theorem tccSymbols_places {n : ℕ} {ps : List TccPacketInfo} (hn : n ≤ 6)
    (hlen : ps.length ≤ n + 1) :
    (tccSymbols (2 * n) ps).toNat < 4 ^ (n + 1) ∧
      ∀ i p, ps[i]? = some p →
        (tccSymbols (2 * n) ps).toNat / 4 ^ (n - i) % 4 = p.status.symbol.toNat := by
  induction ps generalizing n with
  | nil => exact ⟨Nat.pow_pos (by decide), by simp⟩
  | cons p ps ih =>
    have hsym := p.status.symbol_lt
    -- What stands behind the first symbol stays below its place.
    obtain ⟨hlt, hplaces⟩ : (tccSymbols (2 * n - 2) ps).toNat < 4 ^ n ∧ ∀ i q, ps[i]? = some q →
        i < n ∧ (tccSymbols (2 * n - 2) ps).toNat / 4 ^ (n - (i + 1)) % 4 =
          q.status.symbol.toNat := by
      cases n with
      | zero =>
        obtain rfl : ps = [] := List.length_eq_zero_iff.1 (by simpa using hlen)
        exact ⟨by decide, by simp⟩
      | succ n =>
        obtain ⟨hlt, hplaces⟩ := ih (n := n) (by omega) (by simpa using hlen)
        refine ⟨hlt, fun i q hq => ?_⟩
        have hi := (List.getElem?_eq_some_iff.1 hq).1
        simp only [List.length_cons] at hlen
        refine ⟨by omega, ?_⟩
        rw [Nat.add_sub_add_right]
        exact hplaces i q hq
    rw [tccSymbols_cons hn hlt]
    refine ⟨?_, fun i q hq => ?_⟩
    · have := Nat.mul_le_mul_right (4 ^ n) (Nat.le_of_lt_succ hsym)
      rw [pow_succ]
      omega
    · cases i with
      | zero =>
        obtain rfl : p = q := by simpa using hq
        exact place_front hsym hlt
      | succ i =>
        obtain ⟨hi, hplace⟩ := hplaces i q (by simpa using hq)
        rw [place_behind hi, hplace]

/-- The chunk of the first seven packets is read back. -/
theorem chunkStatuses_written (ps : List TccPacketInfo) :
    (chunkStatuses (0xC000 ||| tccSymbols 12 (ps.take 7)).toNat).take ps.length =
      (ps.take 7).map TccPacketInfo.status := by
  obtain ⟨hlt, hplaces⟩ := tccSymbols_places (n := 6) le_rfl (show (ps.take 7).length ≤ 6 + 1 by simp)
  have hword : (0xC000 ||| tccSymbols 12 (ps.take 7)).toNat =
      3 * 4 ^ 7 + (tccSymbols 12 (ps.take 7)).toNat := by
    rw [BitVec.toNat_or, show (0xC000 : U16).toNat = 3 <<< 14 from rfl,
      ← Nat.shiftLeft_add_eq_or_of_lt (i := 14) hlt, Nat.shiftLeft_eq,
      show 3 * 2 ^ 14 = 3 * 4 ^ 7 by decide]
  rw [hword, chunkStatuses, if_neg (by omega), if_neg (by omega)]
  refine List.ext_getElem (by simp; omega) fun i hi hi' => ?_
  have hip : i < (ps.take 7).length := by simpa using hi'
  have hi7 : i < 7 := by simp at hip; omega
  -- The two high bits of the word stand in front of the seven places.
  rw [List.getElem_take, List.getElem_map, List.getElem_range, List.getElem_map,
    ← TccPacketStatus.ofSymbol_symbol (ps.take 7)[i].status,
    ← hplaces i (ps.take 7)[i] (List.getElem?_eq_getElem hip),
    show 6 - i = 7 - (i + 1) by omega, place_behind hi7]

theorem big16_toNat (x : U16) :
    big16 x = [BitVec.ofNat 8 (x.toNat / 256), BitVec.ofNat 8 x.toNat] ∧
      (BitVec.ofNat 8 (x.toNat / 256)).toNat * 256 + (BitVec.ofNat 8 x.toNat).toNat = x.toNat := by
  refine ⟨rfl, ?_⟩
  simp only [BitVec.toNat_ofNat]
  omega

/-- **The chunks are read back**, whatever stands behind them. -/
theorem readChunks_written {fuel : ℕ} {ps : List TccPacketInfo} (hfuel : ps.length ≤ fuel)
    (data : Bytes) :
    readChunks ps.length (tccChunks fuel ps ++ data) = some (ps.map TccPacketInfo.status, data) := by
  induction fuel generalizing ps with
  | zero =>
    obtain rfl : ps = [] := List.length_eq_zero_iff.1 (by omega)
    simp [readChunks, tccChunks]
  | succ fuel ih =>
    cases ps with
    | nil => simp [readChunks, tccChunks]
    | cons p ps =>
      obtain ⟨hbytes, hvalue⟩ := big16_toNat (0xC000 ||| tccSymbols 12 ((p :: ps).take 7))
      have hstatuses := chunkStatuses_written (p :: ps)
      have hrest := ih (show ((p :: ps).drop 7).length ≤ fuel by simp at hfuel ⊢; omega)
      have hleft : ps.length + 1 - (((p :: ps).take 7).map TccPacketInfo.status).length =
          ((p :: ps).drop 7).length := by
        simp
        omega
      rw [List.length_cons] at hstatuses
      rw [tccChunks, List.append_assoc, hbytes, List.length_cons]
      simp only [List.cons_append, List.nil_append, readChunks, hvalue, hstatuses, hleft, hrest]
      rw [Option.bind_eq_bind, Option.bind_some, ← List.map_append, List.take_append_drop]

/-! ### Deltas -/

/-- The low byte of a field, as the builder cuts it out. -/
theorem toNat_lowByte {w : ℕ} (hw : 8 ≤ w) (x : BitVec w) :
    ((x &&& 0xFF).setWidth 8 : U8).toNat = x.toNat % 256 := by
  have hmask : (0xFF : BitVec w).toNat = 2 ^ 8 - 1 := by
    rw [BitVec.ofNat_eq_ofNat, BitVec.toNat_ofNat]
    exact Nat.mod_eq_of_lt (lt_of_lt_of_le (by decide) (Nat.pow_le_pow_right (by decide) hw))
  rw [BitVec.toNat_setWidth, toNat_and_mask 8 hmask]
  exact Nat.mod_mod ..

theorem toNat_highByte (x : U16) : ((x >>> 8 &&& 0xFF).setWidth 8 : U8).toNat = x.toNat / 256 := by
  have h := toNat_lowByte (by decide) (x >>> 8)
  rw [toNat_shiftRight] at h
  refine h.trans (Nat.mod_eq_of_lt ?_)
  omega

/-- What the reader makes of the delta of a packet: a small one has lost its sign. -/
def TccPacketInfo.deltaRead (p : TccPacketInfo) : Option ℤ :=
  match p.status with
  | .smallDelta => some ((p.delta.setWidth 8).toNat : ℤ)
  | .largeDelta => some p.delta.toInt
  | _ => none

/-- `readDeltas` leaves out what stands behind the deltas. -/
theorem readDeltas_eq (ss : List TccPacketStatus) (data : Bytes) :
    readDeltas ss data = (takeDeltas ss data).map Prod.fst := by
  fun_induction takeDeltas ss data with
  | case1 => rfl
  | case2 ss b data ih => simp only [readDeltas, ih, Option.map_map]; rfl
  | case3 ss hi lo data ih => simp only [readDeltas, ih, Option.map_map]; rfl
  | case4 ss data ih => simp only [readDeltas, ih, Option.map_map]; rfl
  | case5 ss data ih => simp only [readDeltas, ih, Option.map_map]; rfl
  | case6 ss data => rw [readDeltas, Option.map_none] <;> assumption

/-- **The deltas are read back**, whatever stands behind them. -/
theorem takeDeltas_written (ps : List TccPacketInfo) (data : Bytes) :
    takeDeltas (ps.map TccPacketInfo.status) (ps.flatMap TccPacketInfo.deltaBytes ++ data) =
      some (ps.map TccPacketInfo.deltaRead, data) := by
  induction ps with
  | nil => simp [takeDeltas]
  | cons p ps ih =>
    obtain ⟨status, delta⟩ := p
    rw [List.map_cons, List.flatMap_cons, List.append_assoc, List.map_cons]
    cases status with
    | notReceived => simp [takeDeltas, TccPacketInfo.deltaBytes, TccPacketInfo.deltaRead, ih]
    | smallDelta => simp [takeDeltas, TccPacketInfo.deltaBytes, TccPacketInfo.deltaRead, ih]
    | receivedWithoutDelta => simp [takeDeltas, TccPacketInfo.deltaBytes, TccPacketInfo.deltaRead, ih]
    | largeDelta =>
      have hvalue : BitVec.ofNat 16 (((delta >>> 8 &&& 0xFF).setWidth 8 : U8).toNat * 256 +
          ((delta &&& 0xFF).setWidth 8 : U8).toNat) = delta := by
        rw [toNat_highByte, toNat_lowByte (by decide) delta, Nat.div_add_mod', BitVec.ofNat_toNat,
          BitVec.setWidth_eq]
      simp only [TccPacketInfo.deltaBytes, TccPacketInfo.deltaRead, List.cons_append,
        List.nil_append, takeDeltas, ih, hvalue, Option.map_some, Prod.map_apply, id_eq]

theorem readDeltas_written (ps : List TccPacketInfo) (data : Bytes) :
    readDeltas (ps.map TccPacketInfo.status) (ps.flatMap TccPacketInfo.deltaBytes ++ data) =
      some (ps.map TccPacketInfo.deltaRead) := by
  rw [readDeltas_eq, takeDeltas_written, Option.map_some]

/-! ### The statuses of a feedback -/

/-- What `tcc_build_packet_status` writes is read as the statuses, and the deltas as the reader
has them. -/
theorem decodePacketStatus_read (ps : List TccPacketInfo) (data : Bytes) :
    decodePacketStatus ps.length (tccBuildPacketStatus ps ++ data) =
      some (ps.map fun p => (p.status, p.deltaRead), data) := by
  rw [decodePacketStatus, tccBuildPacketStatus, List.append_assoc, readChunks_written le_rfl,
    Option.bind_eq_bind, Option.bind_some]
  dsimp only
  rw [takeDeltas_written, Option.bind_eq_bind, Option.bind_some, List.zip_map']

/-- The delta a packet is given, where its status has one. -/
def TccPacketInfo.deltaGiven (p : TccPacketInfo) : Option ℤ :=
  match p.status with
  | .smallDelta => some p.delta.toInt
  | .largeDelta => some p.delta.toInt
  | _ => none

/-- A small delta below 256 that has no sign is read as it is given. -/
theorem TccPacketInfo.deltaRead_eq {p : TccPacketInfo}
    (h : p.status = .smallDelta → 0 ≤ p.delta.toInt ∧ p.delta.toInt ≤ 255) :
    p.deltaRead = p.deltaGiven := by
  obtain ⟨status, delta⟩ := p
  cases status with
  | smallDelta =>
    obtain ⟨hlow, hhigh⟩ := h rfl
    have hdelta := BitVec.toInt_eq_toNat_cond delta
    dsimp only at hlow hhigh
    refine congrArg some ?_
    show ((delta.setWidth 8).toNat : ℤ) = delta.toInt
    rw [BitVec.toNat_setWidth]
    split at hdelta <;> omega
  | notReceived => rfl
  | largeDelta => rfl
  | receivedWithoutDelta => rfl

/-- **The statuses and deltas are read back**, and nothing is left over, where the small deltas
have no sign and fit a byte. -/
theorem decodePacketStatus_written (ps : List TccPacketInfo)
    (h : ∀ p ∈ ps, p.status = .smallDelta → 0 ≤ p.delta.toInt ∧ p.delta.toInt ≤ 255) :
    decodePacketStatus ps.length (tccBuildPacketStatus ps) =
      some (ps.map fun p => (p.status, p.deltaGiven), []) := by
  have hread := decodePacketStatus_read ps []
  rw [List.append_nil] at hread
  rw [hread, List.map_congr_left fun p hp => by rw [TccPacketInfo.deltaRead_eq (h p hp)]]

/-- Nine packets: every status, and deltas at both ends of their ranges. -/
theorem decodePacketStatus_nine :
    let ps : List TccPacketInfo :=
      [⟨.smallDelta, 0⟩, ⟨.notReceived, 0⟩, ⟨.largeDelta, BitVec.ofInt 16 (-1)⟩, ⟨.smallDelta, 255⟩,
        ⟨.receivedWithoutDelta, 7⟩, ⟨.largeDelta, 0x8000⟩, ⟨.notReceived, 0⟩, ⟨.smallDelta, 128⟩,
        ⟨.largeDelta, 0x7FFF⟩]
    decodePacketStatus ps.length (tccBuildPacketStatus ps) =
      some (ps.map fun p => (p.status, p.deltaGiven), []) :=
  decodePacketStatus_written _ (by decide)

/-! ### Messages -/

/-- The fields of a feedback stand behind the first twelve bytes of its message, the chunks behind
them. -/
theorem buildTransportCc_fields (fb : TransportCcFeedback) :
    ∃ b₁ b₀ c₁ c₀ r₂ r₁ r₀ n pad, (buildTransportCc fb).drop 12 =
        b₁ :: b₀ :: c₁ :: c₀ :: r₂ :: r₁ :: r₀ :: n :: (fb.packetChunks ++ pad) ∧
      b₁.toNat * 256 + b₀.toNat = fb.baseSeq.toNat ∧
      c₁.toNat * 256 + c₀.toNat = fb.statusCount.toNat ∧
      (fb.referenceTime.toNat < 2 ^ 24 →
        r₂.toNat * 65536 + r₁.toNat * 256 + r₀.toNat = fb.referenceTime.toNat) := by
  obtain ⟨-, -, -, -, hfci⟩ := read_feedbackBytes (if 0 < fb.pad then 0xAF else 0x8F)
    PacketType.RTPFB fb.senderSsrc fb.mediaSsrc fb.fci fb.pad
  obtain ⟨hbase, hbaseValue⟩ := big16_toNat fb.baseSeq
  obtain ⟨hstatus, hcountValue⟩ := big16_toNat fb.statusCount
  rw [← buildTransportCc_eq, TransportCcFeedback.fci, hbase, hstatus] at hfci
  simp only [List.cons_append, List.nil_append] at hfci
  refine ⟨_, _, _, _, _, _, _, _, _, hfci, hbaseValue, hcountValue, fun href => ?_⟩
  have h₂ := toNat_lowByte (by decide) (fb.referenceTime >>> 16)
  have h₁ := toNat_lowByte (by decide) (fb.referenceTime >>> 8)
  have h₀ := toNat_lowByte (by decide) fb.referenceTime
  rw [toNat_shiftRight] at h₂ h₁
  have hsum : ∀ n < 2 ^ 24, n / 2 ^ 16 % 256 * 65536 + n / 2 ^ 8 % 256 * 256 + n % 256 = n := by
    omega
  rw [h₂, h₁, h₀]
  exact hsum _ href

/-- **A feedback is read back**: the arrivals of its packets, from the reference time on. -/
theorem decodeTransportCc_written (fb : TransportCcFeedback) (ps : List TccPacketInfo)
    (hchunks : fb.packetChunks = tccBuildPacketStatus ps)
    (hcount : fb.statusCount.toNat = ps.length) (href : fb.referenceTime.toNat < 2 ^ 24) :
    decodeTransportCc (buildTransportCc fb) =
      some (arrivals fb.baseSeq (fb.referenceTime.toNat * 64000 : ℕ)
        (ps.map TccPacketInfo.deltaRead)) := by
  obtain ⟨b₁, b₀, c₁, c₀, r₂, r₁, r₀, n, pad, hdrop, hbase, hstatus, htime⟩ :=
    buildTransportCc_fields fb
  rw [decodeTransportCc, hdrop]
  dsimp only
  rw [hbase, hstatus, hcount, hchunks, tccBuildPacketStatus, List.append_assoc,
    readChunks_written le_rfl, Option.bind_eq_bind, Option.bind_some]
  dsimp only
  rw [readDeltas_written, Option.bind_eq_bind, Option.bind_some, htime href, BitVec.ofNat_toNat,
    BitVec.setWidth_eq]
  norm_cast

end AsioRtc
