/-
# How the feedbacks of a receiver follow one another

A feedback message speaks of `status_count` numbers from `base_seq` on
(`feedbackRange`).  The cursor is left just past the last of them
(`report_next`), and the next report starts there: the ranges tile the number
space.  `Tiled` says so of a list of messages.

The start is the exception.  A report made while the 8-bit feedback count is zero
takes the first queued number for its base, whatever the cursor says.  That is meant
for the very first report, but the count comes round: it is zero again at every 256th
report (`Logged.counts`).  `feedbacks_tiled_iff` says what this comes to, and
`feedbacks_not_tiled` loses one packet at the wrong moment.
-/

import AsioRtc.Lib.Tiling
import AsioRtc.Rtcp.FeedbackReadBack
import AsioRtc.Twcc.Cursor

namespace AsioRtc

open Lib

/-- The numbers a feedback message speaks of: `base_seq` and `status_count`. -/
def feedbackRange (m : Bytes) : Checked (U16 × ℕ) := do
  let base ← readBig16 m 12
  let count ← readBig16 m 14
  pure (base, count.toNat)

/-- The messages tile the number space: each begins where the one before ends, and
together they speak of every number from the first one's base on exactly once. -/
def Tiled (ms : List Bytes) : Prop :=
  ∃ ranges : List (U16 × ℕ), ms.mapM feedbackRange = .ok ranges ∧ ranges.IsChain Follows ∧
    ∀ first ∈ ranges.head?,
      (ranges.flatMap fun p => segment p.1 p.2) = segment first.1 (ranges.map Prod.snd).sum

theorem feedbackRange_buildTransportCc (fb : TransportCcFeedback) :
    feedbackRange (buildTransportCc fb) = .ok (fb.baseSeq, fb.statusCount.toNat) := by
  obtain ⟨-, -, -, -, hfci⟩ := read_feedbackBytes (if 0 < fb.pad then 0xAF else 0x8F)
    PacketType.RTPFB fb.senderSsrc fb.mediaSsrc fb.fci fb.pad
  rw [← buildTransportCc_eq, TransportCcFeedback.fci] at hfci
  simp only [List.append_assoc] at hfci
  obtain ⟨hbase, hfci⟩ := readBig16_written hfci
  obtain ⟨hcount, -⟩ := readBig16_written hfci
  rw [feedbackRange, hbase, Checked.ok_bind, hcount]
  rfl

namespace TransportCc

/-! ### One report -/

/-- The walk of a report counts its cursor and its statuses alike.  It makes at most 101:
the check against the full count stands before each loss and before each entry, not
between the last loss and the entry. -/
theorem run_counts (es : List TccEntry) {w : TccWalk} (hw : w.packets.length ≤ maxTccCount + 1) :
    ∃ k, (TccWalk.run es w).2.packets.length = w.packets.length + k ∧
      (TccWalk.run es w).2.next = w.next + BitVec.ofNat 16 k ∧
      w.packets.length + k ≤ maxTccCount + 1 := by
  induction es generalizing w with
  | nil => exact ⟨0, rfl, by simp [TccWalk.run], hw⟩
  | cons e es ih =>
    rw [TccWalk.run]
    by_cases hfull : maxTccCount ≤ w.packets.length
    · rw [if_pos hfull]
      exact ⟨0, rfl, by simp, hw⟩
    rw [if_neg hfull, TccWalk.skipTo_eq]
    by_cases hroom : ahead w.next e.seq ≤ maxTccCount - w.packets.length
    · rw [if_pos hroom]
      -- The losses up to the entry, the entry, and what the rest of the walk adds.
      have hlen : ((w.loseMany (ahead w.next e.seq)).receive e).packets.length =
          w.packets.length + (ahead w.next e.seq + 1) := by
        rw [meet_packets, List.length_append, List.length_append, List.length_replicate,
          List.length_singleton]
      obtain ⟨k, hpackets, hnext, hle⟩ := ih (w := (w.loseMany (ahead w.next e.seq)).receive e)
        (by omega)
      refine ⟨ahead w.next e.seq + 1 + k, hpackets.trans (by omega), hnext.trans ?_, by omega⟩
      rw [meet_next, BitVec.ofNat_add _ k, BitVec.add_assoc]
    · rw [if_neg hroom]
      refine ⟨maxTccCount - w.packets.length, ?_, rfl, by omega⟩
      simp [TccWalk.loseMany]

/-- Where the numbers a report speaks of end. -/
def reportEnd (t : TransportCc) : U16 := t.base + BitVec.ofNat 16 t.statuses.length

section Report

variable {t : TransportCc} {e : TccEntry} {es : List TccEntry}

theorem report_of_nil (h : t.recv = []) : t.report = (t, []) := by
  rw [report, h]

theorem statuses_of_cons (h : t.recv = e :: es) : t.statuses = (t.collect e).2.packets := by
  rw [statuses, h]

theorem collect_counts (t : TransportCc) (e : TccEntry) :
    (t.collect e).2.packets.length ≤ 101 ∧
      (t.collect e).2.next = t.base + BitVec.ofNat 16 (t.collect e).2.packets.length := by
  obtain ⟨k, hlen, hnext, hle⟩ := run_counts t.recv
    (w := ⟨[], t.base, e.ts - ((baseUs e - ref64ms e : ℕ) : ℤ) * 1000⟩) (Nat.zero_le _)
  rw [List.length_nil, Nat.zero_add] at hlen hle
  rw [collect, hlen, hnext]
  exact ⟨hle, rfl⟩

/-- **A report leaves the cursor just past its last number**, and counts itself. -/
theorem report_next (h : t.recv = e :: es) :
    t.report.1.nextReportSeq = t.reportEnd ∧ t.report.1.fbCount = t.fbCount + 1 := by
  have hrep : t.report.1 = { t with
      recv := (t.collect e).1, nextReportSeq := (t.collect e).2.next, fbCount := t.fbCount + 1 } := by
    rw [report, h]
  rw [hrep, reportEnd, statuses_of_cons h]
  exact ⟨(t.collect_counts e).2, rfl⟩

/-- The message of a report speaks of its statuses, from its base on. -/
theorem feedbackRange_report (h : t.recv = e :: es) :
    feedbackRange t.report.2 = .ok (t.base, t.statuses.length) := by
  have hle := (t.collect_counts e).1
  rw [statuses_of_cons h, report, h]
  simp only [feedbackRange_buildTransportCc, BitVec.toNat_ofNat]
  rw [Nat.mod_eq_of_lt (by omega)]

end Report

/-! ### Runs -/

/-- The states in which the calls of a history report something, oldest first. -/
def reports (a b : U16) (h : List (TransportCc × Call)) : List TransportCc :=
  ((machine a b).outputs h).flatten.filter fun r => r.recv ≠ []

/-- The non-empty feedback messages of a history. -/
def feedbacks (a b : U16) (h : List (TransportCc × Call)) : List Bytes :=
  (reports a b h).map fun r => r.report.2

theorem reports_cons (a b : U16) (t : TransportCc) (c : Call) (h : List (TransportCc × Call)) :
    reports a b ((t, c) :: h) = reports a b h ++ (t.call c).2.filter fun r => r.recv ≠ [] := by
  simp [reports, Machine.out, machine]

/-- What the reports `l` made so far have left behind in `t`. -/
structure Logged (l : List TransportCc) (t : TransportCc) : Prop where
  queued : ∀ r ∈ l, r.recv ≠ []
  chain : l.IsChain fun r r' => r'.nextReportSeq = r.reportEnd
  cursor : ∀ r ∈ l.getLast?, t.nextReportSeq = r.reportEnd
  counts : ∀ i r, l[i]? = some r → r.fbCount = BitVec.ofNat 8 i
  count : t.fbCount = BitVec.ofNat 8 l.length

namespace Logged

variable {l : List TransportCc} {t t' : TransportCc}

/-- What neither the cursor nor the feedback count sees. -/
theorem congr (h : Logged l t) (hnext : t'.nextReportSeq = t.nextReportSeq)
    (hcount : t'.fbCount = t.fbCount) : Logged l t' :=
  ⟨h.queued, h.chain, hnext ▸ h.cursor, h.counts, hcount ▸ h.count⟩

/-- One report. -/
theorem report (h : Logged l t) :
    Logged (l ++ [t].filter fun r => r.recv ≠ []) t.report.1 := by
  cases hr : t.recv with
  | nil => simpa [hr, report_of_nil hr] using h
  | cons e es =>
    obtain ⟨hnext, hcount⟩ := report_next hr
    have hone : [t].filter (fun r => r.recv ≠ []) = [t] := by simp [hr]
    rw [hone]
    refine ⟨?_, ?_, ?_, ?_, ?_⟩
    · intro r hmem
      rcases List.mem_append.1 hmem with hmem | hmem
      · exact h.queued r hmem
      · rw [List.mem_singleton.1 hmem, hr]
        exact List.cons_ne_nil _ _
    · refine List.isChain_append.2 ⟨h.chain, .singleton _, fun r hlast r' hfirst => ?_⟩
      obtain rfl : t = r' := by simpa using hfirst
      exact h.cursor r hlast
    · intro r hlast
      obtain rfl : t = r := by simpa using hlast
      exact hnext
    · intro i r hi
      rcases Nat.lt_trichotomy i l.length with hlt | rfl | hgt
      · rw [List.getElem?_append_left hlt] at hi
        exact h.counts i r hi
      · obtain rfl : t = r := by simpa using hi
        exact h.count
      · rw [List.getElem?_append_right (by omega), List.getElem?_eq_none (by simp; omega)] at hi
        cases hi
    · rw [hcount, h.count, List.length_append, List.length_singleton, BitVec.ofNat_add]
      rfl

theorem arriveAll (h : Logged l t) (now : ℕ → ℤ) (ss : List U16) (i : ℕ) :
    Logged l (t.arriveAll now i ss) := by
  induction ss generalizing i t with
  | nil => exact h
  | cons s ss ih =>
    have hone : Logged l (t.arrive s (now i)) := h.congr rfl rfl
    exact ih hone (i + 1)

/-- The reports of the loop of `handle_incoming`. -/
theorem drain (h : Logged l t) :
    Logged (l ++ t.drain.1.filter fun r => r.recv ≠ []) t.drain.2 := by
  induction t using drain.induct generalizing l with
  | case1 t hlen ih =>
    have hall := ih h.report
    rw [List.append_assoc, ← List.filter_append] at hall
    rw [TransportCc.drain, dif_pos hlen]
    exact hall
  | case2 t hlen =>
    rw [TransportCc.drain, dif_neg hlen]
    simpa using h

/-- **One call.** -/
theorem call (h : Logged l t) (c : Call) :
    Logged (l ++ (t.call c).2.filter fun r => r.recv ≠ []) (t.call c).1 := by
  cases c with
  | incoming ext now => exact (h.arriveAll now _ 0).drain
  | report => exact h.report
  | setSenderSsrc ssrc => exact (List.append_nil l).symm ▸ h.congr rfl rfl
  | setMediaSsrc ssrc => exact (List.append_nil l).symm ▸ h.congr rfl rfl

end Logged

/-- **Wherever a run gets to**, its reports have left the cursor just past the last of
them, and their number in the feedback count. -/
theorem logged_of_run {a b : U16} {h : List (TransportCc × Call)} {t : TransportCc}
    (hr : Run (machine a b) (fun _ _ _ => True) h t) : Logged (reports a b h) t := by
  refine hr.invariant (P := fun h t => Logged (reports a b h) t) ?_ fun h t c _ hlog _ => ?_
  · exact ⟨by simp [reports], .nil, by simp [reports], by simp [reports], rfl⟩
  · rw [reports_cons]
    exact hlog.call c

/-- A report starts at the cursor, unless the feedback count is zero and the first
queued number is another one. -/
theorem base_eq_cursor {t : TransportCc} (hq : t.recv ≠ []) :
    t.base = t.nextReportSeq ↔
      (t.fbCount = 0 → t.recv.head?.map TccEntry.seq = some t.nextReportSeq) := by
  obtain ⟨e, es, hr⟩ := List.exists_cons_of_ne_nil hq
  by_cases h0 : t.fbCount = 0
  · rw [base_of_zero h0 hr, hr]
    simp [h0]
  · rw [base_of_ne h0]
    exact iff_of_true rfl fun hz => absurd hz h0

/-- The messages of logged reports tile exactly when every 256th report finds its cursor
first in the queue. -/
theorem Logged.tiled_iff {l : List TransportCc} {t : TransportCc} (h : Logged l t) :
    Tiled (l.map fun r => r.report.2) ↔
      ∀ i r, l[i]? = some r → 0 < i → 256 ∣ i →
        r.recv.head?.map TccEntry.seq = some r.nextReportSeq := by
  have hranges : (l.map fun r => r.report.2).mapM feedbackRange =
      .ok (l.map fun r => (r.base, r.statuses.length)) := by
    rw [List.mapM_map]
    refine Checked.mapM_ok fun r hr => ?_
    obtain ⟨e, es, hcons⟩ := List.exists_cons_of_ne_nil (h.queued r hr)
    exact feedbackRange_report hcons
  have hchain : Tiled (l.map fun r => r.report.2) ↔
      l.IsChain fun r r' => r'.base = r.reportEnd := by
    have hfollows : (l.map fun r => (r.base, r.statuses.length)).IsChain Follows ↔
        l.IsChain fun r r' => r'.base = r.reportEnd := List.isChain_map _
    rw [← hfollows]
    constructor
    · rintro ⟨ranges, hmap, htiles, -⟩
      obtain rfl := Except.ok.inj (hmap.symm.trans hranges)
      exact htiles
    · refine fun htiles => ⟨_, hranges, htiles, fun first hfirst => ?_⟩
      obtain ⟨rest, hrest⟩ := List.head?_eq_some_iff.1 hfirst
      rw [hrest] at htiles ⊢
      exact flatMap_segment htiles
  rw [hchain, List.isChain_iff_getElem]
  have hprev := List.isChain_iff_getElem.1 h.chain
  -- The report behind another one: the cursor is the end of that one.
  have hstep : ∀ i (hi : i + 1 < l.length), l[i + 1].base = l[i].reportEnd ↔
      (256 ∣ i + 1 → l[i + 1].recv.head?.map TccEntry.seq = some l[i + 1].nextReportSeq) := by
    intro i hi
    have hzero : l[i + 1].fbCount = 0 ↔ 256 ∣ i + 1 := by
      rw [h.counts (i + 1) _ (List.getElem?_eq_getElem hi), ← BitVec.toNat_inj]
      simp [Nat.dvd_iff_mod_eq_zero]
    rw [← hprev i hi, base_eq_cursor (h.queued _ (List.getElem_mem hi)), hzero]
  constructor
  · intro hall i r hi hpos hdvd
    obtain ⟨j, rfl⟩ := Nat.exists_eq_add_of_le' hpos
    obtain ⟨hlt, rfl⟩ := List.getElem?_eq_some_iff.1 hi
    exact (hstep j hlt).1 (hall j hlt) hdvd
  · exact fun hall i hi => (hstep i hi).2 fun hdvd =>
      hall (i + 1) _ (List.getElem?_eq_getElem hi) (Nat.succ_pos i) hdvd

section Wrap

/-- The call that brings number `n`. -/
def carrying (n : ℕ) : Call :=
  .incoming (0x41 :: big16 (BitVec.ofNat 16 n) ++ [0]) fun _ => 0

/-- 256 packets, a report after each, then a lost packet, another one and its report. -/
def lossAtTheWrap : List Call :=
  ((List.range 256).flatMap fun n => [carrying n, .report]) ++ [carrying 257, .report]

/-- The receiver after the first `n` of them. -/
private def counted (n : ℕ) : TransportCc :=
  { nextReportSeq := BitVec.ofNat 16 n, fbCount := BitVec.ofNat 8 n }

private theorem seqs_carrying (n : ℕ) :
    transportSeqs (0x41 :: big16 (BitVec.ofNat 16 n) ++ [0]) = [BitVec.ofNat 16 n] := by
  have helem : ∀ hi lo : U8, transportSeqs [0x41, hi, lo, 0] =
      [BitVec.ofNat 16 (hi.toNat * 256 + lo.toNat)] := by
    intro hi lo
    have h : extElements [0x41, hi, lo, 0] = [⟨4, [hi, lo]⟩] := rfl
    rw [transportSeqs, h]
    rfl
  refine (helem _ _).trans (congrArg (fun s => [s]) (BitVec.eq_of_toNat_eq ?_))
  simp only [BitVec.toNat_ofNat]
  omega

private theorem call_carrying {t : TransportCc} (ht : t.recv = []) (n : ℕ) :
    t.call (carrying n) = ({ t with recv := [⟨BitVec.ofNat 16 n, 0⟩] }, []) := by
  have hall : t.arriveAll (fun _ => 0) 0 (transportSeqs (0x41 :: big16 (BitVec.ofNat 16 n) ++ [0])) =
      { t with recv := [⟨BitVec.ofNat 16 n, 0⟩] } := by
    rw [seqs_carrying]
    simp [arriveAll, arrive, insertEntry, ht]
  rw [carrying, call_incoming_of_le (by rw [hall]; exact Nat.le_add_left 1 199), hall]

/-- A report of one entry, which is the base. -/
theorem report_of_singleton {t : TransportCc} {e : TccEntry} (h : t.recv = [e])
    (hb : t.base = e.seq) :
    t.report.1 = { t with recv := [], nextReportSeq := e.seq + 1, fbCount := t.fbCount + 1 } := by
  simp [report, h, collect, TccWalk.run, TccWalk.skipTo_eq, hb, TccWalk.receive,
    TccWalk.loseMany, maxTccCount]

/-- A packet that is the base of its report. -/
private theorem packetRound {t : TransportCc} {n : ℕ} (ht : t.recv = [])
    (hbase : t.fbCount = 0 ∨ t.nextReportSeq = BitVec.ofNat 16 n) (h : List (TransportCc × Call)) :
    (machine 0 0).exec t [carrying n, .report] = { t with
        recv := [], nextReportSeq := BitVec.ofNat 16 n + 1, fbCount := t.fbCount + 1 } ∧
      reports 0 0 ((machine 0 0).trace h t [carrying n, .report]) =
        reports 0 0 h ++ [{ t with recv := [⟨BitVec.ofNat 16 n, 0⟩] }] := by
  have hbring := call_carrying ht n
  obtain ⟨r, hr⟩ : ∃ r : TransportCc, r = { t with recv := [⟨BitVec.ofNat 16 n, 0⟩] } := ⟨_, rfl⟩
  have hrecv : r.recv = [⟨BitVec.ofNat 16 n, 0⟩] := by rw [hr]
  have hb : r.base = BitVec.ofNat 16 n := by
    by_cases h0 : r.fbCount = 0
    · exact base_of_zero h0 hrecv
    · have hr0 : t.fbCount ≠ 0 := by simpa [hr] using h0
      rw [base_of_ne h0, hr]
      exact hbase.resolve_left hr0
  rw [← hr] at hbring ⊢
  constructor
  · simp only [Machine.exec, Machine.next, machine, hbring]
    rw [call, report_of_singleton hrecv hb, hr]
  · simp only [Machine.trace, Machine.next, machine, reports_cons, hbring, List.filter_nil,
      List.append_nil]
    simp [call, hrecv]

/-- **When the feedbacks tile.**  In every run, the non-empty feedback messages tile the
number space exactly when each report that comes 256, 512, … reports after the first one
is made while the first queued number is the cursor's. -/
theorem feedbacks_tiled_iff (a b : U16) (h : List (TransportCc × Call)) (t : TransportCc)
    (hr : Run (machine a b) (fun _ _ _ => True) h t) :
    Tiled (feedbacks a b h) ↔
      ∀ i r, (reports a b h)[i]? = some r → 0 < i → 256 ∣ i →
        r.recv.head?.map TccEntry.seq = some r.nextReportSeq :=
  (logged_of_run hr).tiled_iff

/-- One packet and its report. -/
theorem feedbacks_tiled_iff_one :
    Tiled (feedbacks 0 0 ((machine 0 0).trace [] (machine 0 0).init [carrying 0, .report])) := by
  refine (feedbacks_tiled_iff 0 0 _ _ ((machine 0 0).run_play [carrying 0, .report] .init)).2
    fun i r hi hpos _ => ?_
  obtain ⟨-, hreports⟩ := packetRound (t := (machine 0 0).init) (n := 0) rfl (.inl rfl) []
  rw [hreports] at hi
  obtain ⟨hlt, -⟩ := List.getElem?_eq_some_iff.1 hi
  simp [reports] at hlt
  omega

/-- As long as no packet is lost, each report takes one packet and the cursor one step. -/
private theorem after_counted (n : ℕ) :
    let calls := (List.range n).flatMap fun i => [carrying i, .report]
    (machine 0 0).exec (machine 0 0).init calls = counted n ∧
      (reports 0 0 ((machine 0 0).trace [] (machine 0 0).init calls)).length = n := by
  induction n with
  | zero => exact ⟨rfl, rfl⟩
  | succ n ih =>
    obtain ⟨hstate, hlen⟩ := ih
    obtain ⟨hexec, hreports⟩ := packetRound (t := counted n) (n := n) rfl (.inr rfl)
      ((machine 0 0).trace [] (machine 0 0).init
        ((List.range n).flatMap fun i => [carrying i, .report]))
    simp only [List.range_succ, List.flatMap_append, List.flatMap_singleton,
      Machine.exec_append, Machine.trace_append, hstate]
    rw [hexec, hreports, List.length_append, hlen]
    simp [counted, BitVec.ofNat_add]

/-- **A loss at the 256th report breaks the tiling.**  256 packets come in order and are
reported one by one; number 256 is lost, and the report of number 257 begins there: no
feedback speaks of the lost number. -/
theorem feedbacks_not_tiled :
    ¬ Tiled (feedbacks 0 0 ((machine 0 0).trace [] (machine 0 0).init lossAtTheWrap)) := by
  intro htiled
  have hrun := (machine 0 0).run_play lossAtTheWrap .init
  obtain ⟨hstate, hlen⟩ := after_counted 256
  obtain ⟨-, hreports⟩ := packetRound (t := counted 256) (n := 257) rfl (.inl rfl)
      ((machine 0 0).trace [] (machine 0 0).init
        ((List.range 256).flatMap fun i => [carrying i, .report]))
  have hlast := (logged_of_run hrun).tiled_iff.1 htiled 256
    { counted 256 with recv := [⟨257, 0⟩] }
    (by
      rw [lossAtTheWrap, Machine.trace_append, hstate, hreports,
        List.getElem?_append_right (by rw [hlen]), hlen]
      rfl)
    (by decide) (by decide)
  exact absurd hlast (by decide)

end Wrap

end TransportCc
end AsioRtc
