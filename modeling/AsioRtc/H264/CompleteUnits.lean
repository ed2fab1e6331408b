/-
# What a frame with losses reads as

The jitter buffer hands over what it has of a frame, so `h264_packets_to_annex_b` meets FU-A runs
without their start, without their end, or with other payloads in between.  `OpenRun` says of the
payloads before a place which run is open there: from its start fragment on, with no other start
and no end behind it.  A unit is complete (`CompleteUnit`) where it is a payload of its own, a
member of a STAP-A, or a run up to its end fragment.

The output is the complete units in order, each behind a start code, exactly if no end fragment
stands where no run is open (`packetsToAnnexB_complete_iff`): such a fragment puts a start code
into the stream with nothing behind it.
-/

import AsioRtc.H264.AnnexB

namespace AsioRtc

namespace H264

/-! ### Units of a frame -/

/-- A payload of type 28: its bits, the header of the unit it is a part of, and its data. -/
structure Fragment where
  start : Bool
  stop : Bool
  header : U8
  data : Bytes

/-- The fragment in a payload. -/
def fragmentOf : Bytes → Option Fragment
  | fuIndicator :: fuHeader :: data =>
      if (fuIndicator &&& 0x1F).toNat = 28 then
        some
          { start := fuHeader &&& 0x80 ≠ 0
            stop := fuHeader &&& 0x40 ≠ 0
            header := (fuIndicator &&& 0xE0) ||| (fuHeader &&& 0x1F)
            data := data }
      else none
  | _ => none

/-- The data of a payload that is a fragment. -/
def fragmentData (p : Bytes) : Bytes := ((fragmentOf p).map Fragment.data).getD []

/-- The run that is open behind the payloads `before`: its start fragment, and what the fragments
behind it add, among which there is no start and no end. -/
def OpenRun (before : List Bytes) (run : Bytes) : Prop :=
  ∃ front p rest f, before = front ++ p :: rest ∧ fragmentOf p = some f ∧ f.start = true ∧
    f.stop = false ∧
    (∀ q ∈ rest, ∀ g, fragmentOf q = some g → g.start = false ∧ g.stop = false) ∧
    run = f.header :: (f.data ++ rest.flatMap fragmentData)

/-- An end fragment that is not a start as well. -/
def EndFragment (p : Bytes) : Prop := ∃ f, fragmentOf p = some f ∧ f.start = false ∧ f.stop = true

/-- The members of a STAP-A, behind its first byte: a member without a byte, or one that does not
fit, ends them. -/
def stapMembers (data : Bytes) : List Bytes :=
  match data with
  | hi :: lo :: rest =>
      let size := hi.toNat * 256 + lo.toNat
      if size = 0 ∨ rest.length < size then []
      else rest.take size :: stapMembers (rest.drop size)
  | _ => []
termination_by data.length
decreasing_by exact length_drop_lt_cons_cons _

/-- A unit that the payloads hold as a whole. -/
inductive CompleteUnit (payloads : List Bytes) : Bytes → Prop
  | single {b : U8} {rest : Bytes} : b :: rest ∈ payloads → 1 ≤ (b &&& 0x1F).toNat →
      (b &&& 0x1F).toNat ≤ 23 → CompleteUnit payloads (b :: rest)
  | member {b : U8} {rest u : Bytes} : b :: rest ∈ payloads → (b &&& 0x1F).toNat = 24 →
      u ∈ stapMembers rest → CompleteUnit payloads u
  | whole {p : Bytes} {f : Fragment} : p ∈ payloads → fragmentOf p = some f → f.start = true →
      f.stop = true → CompleteUnit payloads (f.header :: f.data)
  | run {before after : List Bytes} {p run : Bytes} {f : Fragment} :
      payloads = before ++ p :: after → fragmentOf p = some f → f.start = false → f.stop = true →
      OpenRun before run → CompleteUnit payloads (run ++ f.data)

/-- The run that is open behind one more payload. -/
def nextRun (run : Option Bytes) (p : Bytes) : Option Bytes :=
  match fragmentOf p with
  | none => run
  | some f =>
      if f.stop then none
      else if f.start then some (f.header :: f.data)
      else run.map (· ++ f.data)

/-- The run that is open behind the payloads. -/
def openRun (before : List Bytes) : Option Bytes := before.foldl nextRun none

/-- The units that are complete with the payload `p`, where `run` is open. -/
def unitsAt (run : Option Bytes) : Bytes → List Bytes
  | [] => []
  | b :: rest =>
      let nalType := (b &&& 0x1F).toNat
      if nalType = 24 then stapMembers rest
      else if nalType = 28 then
        match fragmentOf (b :: rest) with
        | none => []
        | some f =>
            if f.stop then
              if f.start then [f.header :: f.data] else (run.map (· ++ f.data)).toList
            else []
      else if 1 ≤ nalType ∧ nalType ≤ 23 then [b :: rest]
      else []

/-- The complete units of payloads, in order, where `run` is open before them. -/
def completeUnitsFrom (run : Option Bytes) : List Bytes → List Bytes
  | [] => []
  | p :: ps => unitsAt run p ++ completeUnitsFrom (nextRun run p) ps

def completeUnits (payloads : List Bytes) : List Bytes := completeUnitsFrom none payloads

/-! ### Open runs -/

section Runs

variable {before : List Bytes} {p run : Bytes} {f : Fragment}

theorem openRun_append_singleton (before : List Bytes) (p : Bytes) :
    openRun (before ++ [p]) = nextRun (openRun before) p := by
  rw [openRun, List.foldl_append]
  rfl

theorem fragmentData_of_some (h : fragmentOf p = some f) : fragmentData p = f.data := by
  rw [fragmentData, h]
  rfl

/-- A payload behind the start of a run that goes on. -/
theorem openRun_snoc_iff : OpenRun (before ++ [p]) run ↔
    (∃ f, fragmentOf p = some f ∧ f.start = true ∧ f.stop = false ∧ run = f.header :: f.data) ∨
      (∃ run', OpenRun before run' ∧
        (∀ g, fragmentOf p = some g → g.start = false ∧ g.stop = false) ∧
        run = run' ++ fragmentData p) := by
  constructor
  · rintro ⟨front, q, rest, f, heq, hf, hstart, hstop, hrest, rfl⟩
    rcases List.eq_nil_or_concat rest with rfl | ⟨rest, r, rfl⟩
    · obtain ⟨rfl, hp⟩ := List.append_inj' heq rfl
      obtain rfl := (List.cons.inj hp).1
      exact .inl ⟨f, hf, hstart, hstop, by simp⟩
    · rw [List.concat_eq_append, ← List.cons_append, ← List.append_assoc] at heq
      obtain ⟨rfl, hr⟩ := List.append_inj' heq rfl
      obtain rfl := (List.cons.inj hr).1
      rw [List.concat_eq_append, List.forall_mem_append, List.forall_mem_singleton] at hrest
      refine .inr ⟨_, ⟨front, q, rest, f, rfl, hf, hstart, hstop, hrest.1, rfl⟩, hrest.2, ?_⟩
      simp
  · rintro (⟨f, hf, hstart, hstop, rfl⟩ | ⟨run', ⟨front, q, rest, f, rfl, hf, hstart, hstop, hrest, rfl⟩,
      hp, rfl⟩)
    · exact ⟨before, p, [], f, rfl, hf, hstart, hstop, by simp, by simp⟩
    · refine ⟨front, q, rest ++ [p], f, by simp, hf, hstart, hstop, ?_, by simp⟩
      rw [List.forall_mem_append, List.forall_mem_singleton]
      exact ⟨hrest, hp⟩

/-- **The run that is carried along** is the one that is open. -/
theorem openRun_eq_some_iff : openRun before = some run ↔ OpenRun before run := by
  induction before using List.reverseRecOn generalizing run with
  | nil =>
    refine iff_of_false (by simp [openRun]) ?_
    rintro ⟨front, p, rest, f, heq, -⟩
    simp at heq
  | append_singleton before p ih =>
    rw [openRun_append_singleton, openRun_snoc_iff, nextRun]
    cases hf : fragmentOf p with
    | none =>
      have hdata : fragmentData p = [] := by rw [fragmentData, hf]; rfl
      simp [hdata, ih]
    | some f =>
      have hdata := fragmentData_of_some hf
      cases hstop : f.stop with
      | true => simp [hstop]
      | false =>
        cases hstart : f.start with
        | true =>
          have hrun : f.header :: f.data = run ↔ run = f.header :: f.data := eq_comm
          simp [hstop, hstart, hrun]
        | false => simp [hstop, hstart, hdata, ← ih, eq_comm (a := run)]

end Runs

/-! ### Reading the payloads -/

section Reading

variable {run : Option Bytes} {out p data : Bytes} {ps : List Bytes}

/-- Each unit behind a start code. -/
def stream (units : List Bytes) : Bytes := units.flatMap (startCode ++ ·)

theorem stream_append (us vs : List Bytes) : stream (us ++ vs) = stream us ++ stream vs :=
  List.flatMap_append

theorem stream_singleton (u : Bytes) : stream [u] = startCode ++ u := List.flatMap_singleton _ _

theorem stapUnits_eq (data : Bytes) : stapUnits data = stream (stapMembers data) := by
  fun_induction stapMembers data with
  | case1 hi lo rest size hbad => rw [stapUnits, if_pos hbad]; rfl
  | case2 hi lo rest size hgood ih =>
    rw [stapUnits, if_neg hgood, ih]
    rfl
  | case3 data h => rw [stapUnits]; rfl; exact h

/-- The state of the loop where `run` is open. -/
def Reassembly.of (out : Bytes) (run : Option Bytes) : Reassembly :=
  { out := out, partialNal := run.getD [], inFu := run.isSome }

/-- An end fragment that ends nothing. -/
def strayEnd (run : Option Bytes) (p : Bytes) : Bool :=
  run.isNone && (fragmentOf p).any fun f => f.stop && !f.start

/-- What a payload adds to the output: the units that are complete with it, or the start code of
an end fragment that ends nothing. -/
def added (run : Option Bytes) (p : Bytes) : Bytes :=
  if strayEnd run p then startCode else stream (unitsAt run p)

theorem fragmentOf_eq_none {b : U8} (rest : Bytes) (h : (b &&& 0x1F).toNat ≠ 28) :
    fragmentOf (b :: rest) = none := by
  cases rest with
  | nil => rfl
  | cons hdr data => exact if_neg h

/-- A payload that is no fragment leaves the run alone. -/
theorem added_of_none (run : Option Bytes) (h : fragmentOf p = none) :
    added run p = stream (unitsAt run p) ∧ nextRun run p = run := by
  simp [added, strayEnd, nextRun, h]

/-- **One payload.** -/
theorem add_of (out : Bytes) (run : Option Bytes) (p : Bytes) :
    (Reassembly.of out run).add p = .of (out ++ added run p) (nextRun run p) := by
  cases p with
  | nil =>
    obtain ⟨hadded, hnext⟩ := added_of_none run (p := []) rfl
    rw [hadded, hnext]
    simp [Reassembly.add, unitsAt, stream]
  | cons b rest =>
    by_cases hfu : (b &&& 0x1F).toNat = 28
    · cases rest with
      | nil =>
        obtain ⟨hadded, hnext⟩ := added_of_none run (p := [b]) rfl
        rw [hadded, hnext, Reassembly.add, unitsAt]
        simp only [hfu, if_neg (show ¬ 28 = 24 by decide), if_true, Reassembly.addFragment]
        simp [fragmentOf, stream]
      | cons hdr data =>
        have hf : fragmentOf (b :: hdr :: data) = some
            { start := hdr &&& 0x80 ≠ 0, stop := hdr &&& 0x40 ≠ 0,
              header := (b &&& 0xE0) ||| (hdr &&& 0x1F), data := data } := if_pos hfu
        rw [Reassembly.add, added, strayEnd, nextRun, unitsAt, hf]
        simp only [hfu, if_neg (show ¬ 28 = 24 by decide), if_true, Reassembly.addFragment]
        generalize hdr &&& 0x80 = start
        generalize hdr &&& 0x40 = stop
        by_cases hstart : start = 0#8 <;> by_cases hstop : stop = 0#8 <;> cases run <;>
          simp [hstart, hstop, Reassembly.of, stream]
    · obtain ⟨hadded, hnext⟩ := added_of_none run (fragmentOf_eq_none rest hfu)
      rw [hadded, hnext, Reassembly.add, unitsAt]
      simp only [if_neg hfu]
      split
      · rw [stapUnits_eq]
        rfl
      · split
        · rw [stream_singleton, ← List.append_assoc]
          rfl
        · rw [stream, List.flatMap_nil, List.append_nil]

/-- What payloads add to the output. -/
def addedAll (run : Option Bytes) : List Bytes → Bytes
  | [] => []
  | p :: ps => added run p ++ addedAll (nextRun run p) ps

/-- **All payloads.** -/
theorem foldl_add_of (out : Bytes) (run : Option Bytes) (ps : List Bytes) :
    (ps.foldl Reassembly.add (.of out run)).out = out ++ addedAll run ps := by
  induction ps generalizing out run with
  | nil => exact (List.append_nil out).symm
  | cons p ps ih => rw [List.foldl_cons, add_of, ih, addedAll, List.append_assoc]

/-- Where an end fragment ends nothing, no unit is complete. -/
theorem unitsAt_of_strayEnd (h : strayEnd run p = true) : unitsAt run p = [] := by
  rw [strayEnd, Bool.and_eq_true, Option.isNone_iff_eq_none] at h
  obtain ⟨rfl, hany⟩ := h
  cases p with
  | nil => rfl
  | cons b rest =>
    cases hf : fragmentOf (b :: rest) with
    | none => rw [hf] at hany; cases hany
    | some f =>
      rw [hf, Option.any_some, Bool.and_eq_true, Bool.not_eq_true'] at hany
      have hfu : (b &&& 0x1F).toNat = 28 := by
        by_contra hne
        rw [fragmentOf_eq_none rest hne] at hf
        cases hf
      rw [unitsAt]
      simp only [hfu, if_neg (show ¬ 28 = 24 by decide), if_true, hf, hany.1, hany.2, Option.map_none]
      rfl

/-- The complete units are never more than what is added. -/
theorem length_stream_le (run : Option Bytes) (ps : List Bytes) :
    (stream (completeUnitsFrom run ps)).length ≤ (addedAll run ps).length := by
  induction ps generalizing run with
  | nil => exact le_rfl
  | cons p ps ih =>
    rw [completeUnitsFrom, stream_append, addedAll, added, List.length_append, List.length_append]
    have := ih (nextRun run p)
    split
    · rename_i hstray
      rw [unitsAt_of_strayEnd hstray]
      exact Nat.add_le_add (Nat.zero_le _) this
    · exact Nat.add_le_add_left this _

/-- A statement about every place of a list. -/
theorem forall_place_cons {P : List Bytes → Bytes → Prop} :
    (∀ before q after, p :: ps = before ++ q :: after → P before q) ↔
      P [] p ∧ ∀ before q after, ps = before ++ q :: after → P (p :: before) q := by
  constructor
  · exact fun h => ⟨h [] p ps rfl, fun before q after heq => h (p :: before) q after (by rw [heq]; rfl)⟩
  · rintro ⟨hhead, htail⟩ before q after heq
    cases before with
    | nil =>
      obtain ⟨rfl, rfl⟩ := List.cons.inj heq
      exact hhead
    | cons r before =>
      obtain ⟨rfl, hrest⟩ := List.cons.inj heq
      exact htail before q after hrest

/-- **What is added is the complete units** exactly if no end fragment ends nothing. -/
theorem addedAll_eq_iff (run : Option Bytes) (ps : List Bytes) :
    addedAll run ps = stream (completeUnitsFrom run ps) ↔
      ∀ before p after, ps = before ++ p :: after → strayEnd (before.foldl nextRun run) p = false := by
  induction ps generalizing run with
  | nil => simp [addedAll, completeUnitsFrom, stream]
  | cons p ps ih =>
    rw [forall_place_cons (P := fun before q => strayEnd (before.foldl nextRun run) q = false)]
    simp only [List.foldl_cons, List.foldl_nil]
    rw [← ih (nextRun run p), addedAll, completeUnitsFrom, stream_append, added]
    cases hstray : strayEnd run p with
    | false => simp
    | true =>
      -- The start code has no room in the complete units.
      refine iff_of_false (fun heq => ?_) fun h => absurd h.1 (by decide)
      have hlen := congrArg List.length heq
      have hle := length_stream_le (nextRun run p) ps
      rw [unitsAt_of_strayEnd hstray] at hlen
      simp only [if_true, List.length_append, startCode, stream, List.flatMap_nil, List.length_cons,
        List.length_nil] at hlen hle
      omega

/-- An end fragment ends nothing where no run is open. -/
theorem strayEnd_eq_false_iff {before : List Bytes} :
    strayEnd (openRun before) p = false ↔ (EndFragment p → ∃ r, OpenRun before r) := by
  have hend : EndFragment p ↔ (fragmentOf p).any (fun f => f.stop && !f.start) = true := by
    cases hf : fragmentOf p with
    | none => simp [EndFragment, hf]
    | some f => simp [EndFragment, hf, and_comm]
  have hopen : (∃ r, OpenRun before r) ↔ (openRun before).isNone = false := by
    rw [Option.isNone_eq_false_iff, Option.isSome_iff_exists]
    exact exists_congr fun r => openRun_eq_some_iff.symm
  rw [strayEnd, hend, hopen]
  cases (openRun before).isNone <;> simp

/-! ### Every unit is complete -/

theorem ne_nil_of_mem_stapMembers {u : Bytes} (h : u ∈ stapMembers data) : u ≠ [] := by
  fun_induction stapMembers data with
  | case1 => cases h
  | case2 hi lo rest size hgood ih =>
    rcases List.mem_cons.1 h with rfl | h
    · intro hnil
      have := congrArg List.length hnil
      simp only [List.length_take, List.length_nil] at this
      omega
    · exact ih h
  | case3 => cases h

/-- A complete unit has a byte. -/
theorem CompleteUnit.ne_nil {payloads : List Bytes} {u : Bytes} (h : CompleteUnit payloads u) :
    u ≠ [] := by
  cases h with
  | single => exact List.cons_ne_nil _ _
  | member _ _ hmem => exact ne_nil_of_mem_stapMembers hmem
  | whole => exact List.cons_ne_nil _ _
  | run _ _ _ _ hrun =>
    obtain ⟨_, _, _, _, -, -, -, -, -, rfl⟩ := hrun
    exact List.cons_ne_nil _ _

/-- The units that are complete with a payload. -/
theorem complete_of_mem_unitsAt {before after : List Bytes} {u : Bytes}
    (h : u ∈ unitsAt (openRun before) p) : CompleteUnit (before ++ p :: after) u := by
  have hmem : p ∈ before ++ p :: after := List.mem_append_right _ List.mem_cons_self
  cases p with
  | nil => cases h
  | cons b rest =>
    rw [unitsAt] at h
    split at h
    · rename_i hstap
      exact .member hmem hstap h
    · split at h
      · split at h
        · cases h
        · rename_i f hf
          cases hstop : f.stop with
          | false => simp [hstop] at h
          | true =>
            cases hstart : f.start with
            | true =>
              simp only [hstop, hstart, if_true, List.mem_singleton] at h
              rw [h]
              exact .whole hmem hf hstart hstop
            | false =>
              simp only [hstop, hstart, if_true, if_false, Bool.false_eq_true] at h
              obtain ⟨r, hr, rfl⟩ := Option.map_eq_some_iff.1 (Option.mem_toList.1 h)
              exact .run rfl hf hstart hstop (openRun_eq_some_iff.1 hr)
      · split at h
        · rename_i htype
          obtain rfl := List.mem_singleton.1 h
          exact .single hmem htype.1 htype.2
        · cases h

/-- Every unit that is counted as complete is. -/
theorem complete_of_mem (before : List Bytes) {u : Bytes}
    (h : u ∈ completeUnitsFrom (openRun before) ps) : CompleteUnit (before ++ ps) u := by
  induction ps generalizing before with
  | nil => cases h
  | cons p ps ih =>
    rw [completeUnitsFrom] at h
    rcases List.mem_append.1 h with h | h
    · exact complete_of_mem_unitsAt h
    · rw [← openRun_append_singleton] at h
      have := ih _ h
      rwa [List.append_assoc, List.singleton_append] at this

end Reading

/-- The output is complete units in order, each behind a start code. -/
def CompleteStream (payloads : List Bytes) (out : Bytes) : Prop :=
  out = stream (completeUnits payloads) ∧
    ∀ u ∈ completeUnits payloads, u ≠ [] ∧ CompleteUnit payloads u

/-- **When the output is a stream of complete units**: every end fragment stands behind a start
fragment whose run is still open. -/
theorem packetsToAnnexB_complete_iff (packets : List RtpPacket) :
    CompleteStream (packets.map RtpPacket.payload) (packetsToAnnexB packets) ↔
      ∀ before p after, packets.map RtpPacket.payload = before ++ p :: after → EndFragment p →
        ∃ run, OpenRun before run := by
  have hout : packetsToAnnexB packets = addedAll none (packets.map RtpPacket.payload) := by
    rw [packetsToAnnexB, ← List.foldl_map (f := RtpPacket.payload) (g := Reassembly.add)]
    exact foldl_add_of [] none _
  have hunits : ∀ u ∈ completeUnits (packets.map RtpPacket.payload),
      u ≠ [] ∧ CompleteUnit (packets.map RtpPacket.payload) u := by
    intro u hu
    have hcomplete := complete_of_mem [] hu
    exact ⟨hcomplete.ne_nil, hcomplete⟩
  rw [CompleteStream, and_iff_left hunits, hout, completeUnits, addedAll_eq_iff]
  exact forall_congr' fun before => forall_congr' fun p => forall_congr' fun after =>
    imp_congr_right fun _ => strayEnd_eq_false_iff

/-- An end fragment whose start is lost: its start code goes out with nothing behind it. -/
theorem packetsToAnnexB_bare_startCode :
    packetsToAnnexB [{ payload := [0x7C, 0x45, 0xAA, 0xBB] }] = [0, 0, 1] ∧
      ¬ CompleteStream [[0x7C, 0x45, 0xAA, 0xBB]] [0, 0, 1] :=
  ⟨rfl, fun h => absurd h.1 (by decide)⟩

end H264

end AsioRtc
