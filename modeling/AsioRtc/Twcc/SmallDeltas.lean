/-
# Small deltas with a sign

`transport_cc::report` calls a delta of −128 to 127 ticks a small one, and
`tcc_build_packet_status` writes its low byte.  The reader takes that byte for a number without
a sign, so a small delta below zero is read as one of 128 to 255 ticks.

The entries of a report are in the order of their numbers, and a packet that overtook another
gives a delta below zero.  `report_smallRead_iff` says of which queues every small delta is read
as it was computed; `report_keepsTime_iff` has the same condition among those under which the
arrivals are known.
-/

import AsioRtc.Twcc.Arrival

namespace AsioRtc

open Lib

/-- The statuses and deltas that a feedback message gives. -/
def feedbackDeltas (m : Bytes) : Option (List (TccPacketStatus × Option ℤ)) :=
  match m.drop 12 with
  | _ :: _ :: c₁ :: c₀ :: _ :: _ :: _ :: _ :: data =>
      (decodePacketStatus (c₁.toNat * 256 + c₀.toNat) data).map Prod.fst
  | _ => none

/-- A small delta that is read as it was computed. -/
def TccPacketInfo.SmallRead (p : TccPacketInfo) : Prop :=
  p.status = .smallDelta → p.deltaRead = some p.delta.toInt

/-- The deltas of a feedback are read from its message. -/
theorem feedbackDeltas_written (fb : TransportCcFeedback) (ps : List TccPacketInfo)
    (hchunks : fb.packetChunks = tccBuildPacketStatus ps)
    (hcount : fb.statusCount.toNat = ps.length) :
    feedbackDeltas (buildTransportCc fb) = some (ps.map fun p => (p.status, p.deltaRead)) := by
  obtain ⟨b₁, b₀, c₁, c₀, r₂, r₁, r₀, n, pad, hdrop, -, hstatus, -⟩ := buildTransportCc_fields fb
  rw [feedbackDeltas, hdrop]
  dsimp only
  rw [hstatus, hcount, hchunks, decodePacketStatus_read, Option.map_some]

/-- A delta below zero that is called small is misread, and no other. -/
theorem smallRead_info_iff (w : TccWalk) (e : TccEntry) :
    (w.info e).SmallRead ↔ ¬ SlightlyBack (e.ts - w.lastTs) := by
  rw [slightlyBack_iff, ticks]
  unfold TccPacketInfo.SmallRead TccPacketInfo.deltaRead TccWalk.info
  dsimp only
  generalize ((e.ts - w.lastTs).tdiv 1000).tdiv 250 = delta
  by_cases hsmall : -128 ≤ delta ∧ delta ≤ 127
  · have hstatus : deltaStatus delta = .smallDelta := if_neg (by omega)
    have hint : (BitVec.ofInt 16 delta).toInt = delta := by
      rw [BitVec.toInt_ofInt, Int.bmod_def]
      split <;> omega
    rw [hstatus, hint]
    simp only [forall_const, Option.some.injEq, BitVec.toNat_setWidth, BitVec.toNat_ofInt]
    omega
  · have hstatus : deltaStatus delta ≠ .smallDelta := by
      unfold deltaStatus
      split_ifs <;> first | omega | decide
    exact iff_of_true (fun h => absurd h hstatus) fun h => hsmall ⟨h.1, by omega⟩

/-- **The small deltas of the walk** are read as they are computed exactly if no entry it meets
arrived slightly before the one in front of it. -/
theorem run_smallRead_iff :
    ∀ (es : List TccEntry) (w : TccWalk),
      (∀ p ∈ (TccWalk.run es w).2.packets, p.SmallRead) ↔
        (∀ p ∈ w.packets, p.SmallRead) ∧
          (w.lastTs :: (TransportCc.metBy w.next (maxTccCount - w.packets.length) es).map
            TccEntry.ts).IsChain fun x y => ¬ SlightlyBack (y - x)
  | [], w => by simp [TccWalk.run, TransportCc.metBy]
  | e :: es, w => by
    have hlost : ∀ n, ∀ p ∈ List.replicate n (⟨.notReceived, 0⟩ : TccPacketInfo), p.SmallRead := by
      intro n p hp h
      rw [List.eq_of_mem_replicate hp] at h
      cases h
    rw [TccWalk.run, TransportCc.metBy]
    by_cases hfull : maxTccCount ≤ w.packets.length
    · rw [if_pos hfull, if_neg (by omega)]
      simp
    rw [if_neg hfull, TccWalk.skipTo_eq]
    by_cases hroom : ahead w.next e.seq ≤ maxTccCount - w.packets.length
    · rw [if_pos hroom, if_pos ⟨by omega, hroom⟩]
      dsimp only
      rw [run_smallRead_iff es, meet_next_eq, meet_room, TransportCc.meet_packets,
        List.forall_mem_append, List.forall_mem_append, List.forall_mem_singleton,
        smallRead_info_iff, List.map_cons, List.isChain_cons_cons, and_iff_right (hlost _), and_assoc]
      rfl
    · rw [if_neg hroom, if_neg fun h => hroom h.2]
      dsimp only [TccWalk.loseMany]
      rw [List.forall_mem_append, and_iff_left (hlost _)]
      simp

namespace TransportCc

/-- Every status of the report is read from its message, and a small delta as it was computed. -/
def SmallDeltasRead (t : TransportCc) : Prop :=
  t.recv ≠ [] → ∃ read, feedbackDeltas t.report.2 = some read ∧
    List.Forall₂ (fun p r => r.1 = p.status ∧
      (p.status = .smallDelta → r.2 = some p.delta.toInt)) t.statuses read

/-- The message of a report gives its statuses, with the deltas as they are read. -/
theorem feedbackDeltas_report {t : TransportCc} {e : TccEntry} {es : List TccEntry}
    (h : t.recv = e :: es) :
    feedbackDeltas t.report.2 = some (t.statuses.map fun p => (p.status, p.deltaRead)) := by
  have hlen := (t.collect_counts e).1
  rw [statuses_of_cons h, report, h]
  exact feedbackDeltas_written _ _ rfl (by rw [BitVec.toNat_ofNat]; exact Nat.mod_eq_of_lt (by omega))

/-- The first entry a report speaks of never lies back: its delta counts from the reference
time. -/
theorem chain_reported {t : TransportCc} {e : TccEntry} {es : List TccEntry} (h : t.recv = e :: es) :
    ((e.ts - ((baseUs e - ref64ms e : ℕ) : ℤ) * 1000) :: t.reported.map TccEntry.ts).IsChain
        (fun x y => ¬ SlightlyBack (y - x)) ↔
      (t.reported.map TccEntry.ts).IsChain fun x y => ¬ SlightlyBack (y - x) := by
  have hfirst : ¬ SlightlyBack (e.ts - (e.ts - ((baseUs e - ref64ms e : ℕ) : ℤ) * 1000)) := by
    unfold SlightlyBack
    omega
  rw [reported, h, metBy]
  split
  · rw [List.map_cons, List.isChain_cons_cons, and_iff_right hfirst]
  · simp

/-- **When a report's small deltas are read as they were computed**: no entry it speaks of arrived
at least 250 µs and less than 32.25 ms before the entry in front of it. -/
theorem report_smallRead_iff (t : TransportCc) :
    t.SmallDeltasRead ↔ (t.reported.map TccEntry.ts).IsChain fun x y => ¬ SlightlyBack (y - x) := by
  cases hr : t.recv with
  | nil =>
    have hnone : t.reported = [] := by rw [reported, hr, metBy]
    rw [hnone]
    exact iff_of_true (fun h => absurd hr h) .nil
  | cons e es =>
    have hread : t.SmallDeltasRead ↔ ∀ p ∈ t.statuses, p.SmallRead := by
      rw [SmallDeltasRead, forall_prop_of_true (by rw [hr]; exact List.cons_ne_nil _ _),
        feedbackDeltas_report hr]
      simp only [Option.some.injEq, exists_eq_left', List.forall₂_map_right_iff, List.forall₂_same,
        true_and]
      rfl
    rw [hread, statuses_of_cons hr, collect, run_smallRead_iff, ← chain_reported hr]
    exact and_iff_right fun p hp => absurd hp List.not_mem_nil

/-- Number 1 arrives at 1 ms, and number 0 at 2 ms: the delta of −4 ticks is read as 252. -/
theorem report_misreads_overtaken :
    let t := (create 0 0).arrive 1 1000000 |>.arrive 0 2000000
    t.statuses[1]? = some ⟨.smallDelta, BitVec.ofInt 16 (-4)⟩ ∧
      feedbackDeltas t.report.2 = some [(.smallDelta, some 8), (.smallDelta, some 252)] ∧
      ¬ t.SmallDeltasRead := by
  intro t
  have hqueue : t.recv = [⟨0, 2000000⟩, ⟨1, 1000000⟩] := by decide
  have hstatuses : t.statuses = [⟨.smallDelta, 8⟩, ⟨.smallDelta, BitVec.ofInt 16 (-4)⟩] := by
    decide +kernel
  have hread : feedbackDeltas t.report.2 = some [(.smallDelta, some 8), (.smallDelta, some 252)] := by
    rw [feedbackDeltas_report hqueue, hstatuses]
    rfl
  refine ⟨by rw [hstatuses]; rfl, hread, fun h => ?_⟩
  obtain ⟨read, hsome, hall⟩ := h (by decide)
  obtain rfl := Option.some.inj (hread.symm.trans hsome)
  rw [hstatuses, List.forall₂_cons, List.forall₂_cons] at hall
  obtain ⟨-, ⟨-, hsmall⟩, -⟩ := hall
  exact absurd (hsmall rfl) (by decide)

end TransportCc
end AsioRtc
