/-
# Transport-wide congestion control, receiver side

`src/twcc.hpp` and `src/twcc.cpp`.  `transport_cc` keeps the transport-wide
sequence numbers it has received and not yet reported, sorted by serial order,
and a cursor `_next_report_seq`, the first number the next feedback speaks of.
`report` walks the list from the cursor: a number that is not the next entry's is
reported as not received, an entry is reported with its receive delta, and the
walk stops at 100 statuses (`maxTccCount`).  `handle_incoming` reads the sequence
numbers out of a header extension, inserts each at the place `std::lower_bound` finds
(`insertEntry`), and reports until at most 200 are queued.  The search halves the queue,
so where the queued numbers and the new one are spread over more than half a circle, the
place is the one the halving comes to, and not the first one that is not older.

Times are nanoseconds of the steady clock.  A call reads the clock once for each
number it stores: `now i` is its `i`-th reading.

Every report makes progress: it takes the first entry out, or brings the cursor
100 numbers nearer to it (`report_progress`), which is why the loop of
`handle_incoming` ends (`drain`, `drain_ends`).
-/

import AsioRtc.Lib.LowerBound
import AsioRtc.Lib.Serial
import AsioRtc.Rtcp.Feedback
import AsioRtc.Rtp.Extension

namespace AsioRtc

open Lib

/-- `max_tcc_count`. -/
def maxTccCount : ℕ := 100

/-- `transport_cc::_entry`. -/
structure TccEntry where
  seq : U16
  ts : ℤ
  deriving DecidableEq, Repr

/-- `transport_cc`. -/
structure TransportCc where
  recv : List TccEntry := []
  nextReportSeq : U16 := 0
  senderSsrc : U32 := 0
  mediaSsrc : U32 := 0
  fbCount : U8 := 0
  deriving DecidableEq, Repr

/-- The transport-wide sequence numbers in a header extension: two bytes under id 4. -/
def transportSeqs (ext : Bytes) : List U16 :=
  (extElements ext).filterMap fun e =>
    match e.data with
    | [hi, lo] => if e.id = 4 then some (BitVec.ofNat 16 (hi.toNat * 256 + lo.toNat)) else none
    | _ => none

/-- The state of the walk of `report`: the statuses so far, the cursor, and the
arrival time the next delta counts from. -/
structure TccWalk where
  packets : List TccPacketInfo
  next : U16
  lastTs : ℤ

/-- The status of a received packet with a delta of `delta` quarter milliseconds. -/
def deltaStatus (delta : ℤ) : TccPacketStatus :=
  if delta < -128 ∨ 127 < delta then
    if delta < -32768 ∨ 32767 < delta then .receivedWithoutDelta else .largeDelta
  else .smallDelta

theorem deltaStatus_ne (delta : ℤ) : deltaStatus delta ≠ .notReceived := by
  unfold deltaStatus
  split_ifs <;> simp

namespace TccWalk

/-- One number that has not been received. -/
def lose (w : TccWalk) : TccWalk :=
  { w with packets := w.packets ++ [⟨.notReceived, 0⟩], next := w.next + 1 }

/-- The status and the delta of a received entry. -/
def info (w : TccWalk) (e : TccEntry) : TccPacketInfo :=
  let delta := ((e.ts - w.lastTs).tdiv 1000).tdiv 250
  ⟨deltaStatus delta, BitVec.ofInt 16 delta⟩

theorem info_status_ne (w : TccWalk) (e : TccEntry) : (w.info e).status ≠ .notReceived :=
  deltaStatus_ne _

/-- One received entry. -/
def receive (w : TccWalk) (e : TccEntry) : TccWalk :=
  { packets := w.packets ++ [w.info e], next := w.next + 1, lastTs := e.ts }

/-- The inner loop: losses up to `seq`, with room for `room` more statuses.
`false` is the early return at the full count. -/
def skipTo (seq : U16) : ℕ → TccWalk → Bool × TccWalk
  | 0, w => (w.next == seq, w)
  | room + 1, w => if w.next = seq then (true, w) else skipTo seq room w.lose

/-- The outer loop: the entries that stay queued, and the statuses. -/
def run : List TccEntry → TccWalk → List TccEntry × TccWalk
  | [], w => ([], w)
  | e :: es, w =>
      if maxTccCount ≤ w.packets.length then (e :: es, w)
      else
        match skipTo e.seq (maxTccCount - w.packets.length) w with
        | (false, w') => (e :: es, w')
        | (true, w') => run es (w'.receive e)

/-- Losing `n` numbers in a row. -/
def loseMany (w : TccWalk) (n : ℕ) : TccWalk :=
  { w with
    packets := w.packets ++ List.replicate n ⟨.notReceived, 0⟩
    next := w.next + BitVec.ofNat 16 n }

theorem loseMany_zero (w : TccWalk) : w.loseMany 0 = w := by
  simp [loseMany]

theorem loseMany_succ (w : TccWalk) (n : ℕ) : w.lose.loseMany n = w.loseMany (n + 1) := by
  have h : w.next + 1 + BitVec.ofNat 16 n = w.next + BitVec.ofNat 16 (n + 1) := by
    rw [BitVec.ofNat_add, BitVec.add_assoc, BitVec.add_comm (1 : U16)]
    rfl
  simp only [loseMany, lose, h, List.append_assoc, List.singleton_append, List.replicate_succ]

/-- **What the inner loop does.**  It loses every number on the way to `seq`, or
as many as there is room for. -/
theorem skipTo_eq (seq : U16) (room : ℕ) (w : TccWalk) :
    skipTo seq room w =
      if ahead w.next seq ≤ room then (true, w.loseMany (ahead w.next seq))
      else (false, w.loseMany room) := by
  induction room generalizing w with
  | zero =>
    by_cases h : w.next = seq
    · simp [skipTo, h, loseMany_zero]
    · have h0 : ahead w.next seq ≠ 0 := fun h0 => h (ahead_eq_zero.1 h0).symm
      simp [skipTo, h, h0, loseMany_zero]
  | succ room ih =>
    by_cases h : w.next = seq
    · simp [skipTo, h, loseMany_zero]
    · have h0 : ahead w.next seq ≠ 0 := fun h0 => h (ahead_eq_zero.1 h0).symm
      have h1 : ahead w.lose.next seq = ahead w.next seq - 1 :=
        ahead_add_left (c := w.next) (k := 1) (by omega)
      rw [skipTo, if_neg h, ih, h1]
      by_cases hr : ahead w.next seq ≤ room + 1
      · rw [if_pos hr, if_pos (by omega), loseMany_succ, Nat.sub_add_cancel (by omega)]
      · rw [if_neg hr, if_neg (by omega), loseMany_succ]

end TccWalk

namespace TransportCc

/-- The comparison of `std::lower_bound`: `a` is older than `b`. -/
def older (a b : TccEntry) : Bool := (a.seq - b.seq).toInt < 0

/-- The place that `std::lower_bound` finds for `e`. -/
def place (e : TccEntry) (l : List TccEntry) : ℕ := lowerBound (fun a => older a e) l

/-- Insertion at `std::lower_bound`, unless the number is there. -/
def insertEntry (e : TccEntry) (l : List TccEntry) : List TccEntry :=
  if l[place e l]?.map TccEntry.seq = some e.seq then l
  else l.take (place e l) ++ e :: l.drop (place e l)

-- Four numbers further apart than half a circle: the search looks at 33000 and 40000, both older
-- than 0, and puts a second 0 behind them.
example : (insertEntry ⟨0, 7⟩ [⟨0, 0⟩, ⟨8000, 1⟩, ⟨33000, 2⟩, ⟨40000, 3⟩]).map TccEntry.seq =
    [0, 8000, 33000, 40000, 0] := by
  decide

theorem mem_insertEntry {e x : TccEntry} {l : List TccEntry} (h : x ∈ insertEntry e l) :
    x = e ∨ x ∈ l := by
  unfold insertEntry at h
  split at h
  · exact .inr h
  · rcases List.mem_append.1 h with h | h
    · exact .inr (List.mem_of_mem_take h)
    · exact (List.mem_cons.1 h).imp_right List.mem_of_mem_drop

/-- One received number. -/
def arrive (t : TransportCc) (seq : U16) (ts : ℤ) : TransportCc :=
  { t with recv := insertEntry ⟨seq, ts⟩ t.recv }

/-- Where the next report starts: the cursor, or the first entry when the
feedback count is zero. -/
def base (t : TransportCc) : U16 :=
  if t.fbCount = 0 then (t.recv.head?.map TccEntry.seq).getD t.nextReportSeq else t.nextReportSeq

/-- Arrival of the first entry in microseconds. -/
def baseUs (first : TccEntry) : ℕ := (BitVec.ofInt 64 (first.ts.tdiv 1000)).toNat

/-- The reference time in microseconds, a multiple of 64 ms. -/
def ref64ms (first : TccEntry) : ℕ := baseUs first / 64000 * 64000

/-- The walk of a report whose first entry is `first`. -/
def collect (t : TransportCc) (first : TccEntry) : List TccEntry × TccWalk :=
  TccWalk.run t.recv
    ⟨[], t.base, first.ts - ((baseUs first - ref64ms first : ℕ) : ℤ) * 1000⟩

/-- `transport_cc::report`. -/
def report (t : TransportCc) : TransportCc × Bytes :=
  match t.recv with
  | [] => (t, [])
  | first :: _ =>
      let (rest, w) := t.collect first
      ({ t with recv := rest, nextReportSeq := w.next, fbCount := t.fbCount + 1 },
        buildTransportCc
          { senderSsrc := t.senderSsrc
            mediaSsrc := t.mediaSsrc
            baseSeq := t.base
            statusCount := BitVec.ofNat 16 w.packets.length
            referenceTime := BitVec.ofNat 32 (ref64ms first / 64000) &&& 0xFFFFFF
            feedbackPacketCount := t.fbCount + 1
            packetChunks := tccBuildPacketStatus w.packets })

/-- The statuses a report puts into its feedback, from `base` on. -/
def statuses (t : TransportCc) : List TccPacketInfo :=
  match t.recv with
  | [] => []
  | first :: _ => (t.collect first).2.packets

/-- **Every report makes progress.**  It takes the first entry out, or leaves the
queue as it is and brings the cursor 100 numbers nearer to the first entry. -/
theorem report_progress {t : TransportCc} {first : TccEntry} {es : List TccEntry}
    (h : t.recv = first :: es) :
    t.report.1.recv.length < t.recv.length ∨
      (t.report.1.recv = t.recv ∧ 100 ≤ ahead t.nextReportSeq first.seq ∧
        ahead t.report.1.nextReportSeq first.seq = ahead t.nextReportSeq first.seq - 100) := by
  have run_length : ∀ (l : List TccEntry) (w : TccWalk), (TccWalk.run l w).1.length ≤ l.length := by
    intro l
    induction l with
    | nil => exact fun w => le_rfl
    | cons e l ih =>
      intro w
      rw [TccWalk.run]
      split
      · exact le_rfl
      · split
        · exact le_rfl
        · exact (ih _).trans (Nat.le_succ _)
  simp only [report, collect, h, TccWalk.run, TccWalk.skipTo_eq, List.length_nil,
    maxTccCount]
  by_cases hd : ahead t.base first.seq ≤ 100
  · left
    simp only [hd, if_true]
    exact Nat.lt_succ_of_le (run_length _ _)
  · right
    -- A zero feedback count starts at the first entry, so the cursor was used.
    have hb : t.base = t.nextReportSeq := by
      unfold base at hd ⊢
      split
      · rename_i h0
        rw [if_pos h0, h] at hd
        simp at hd
      · rfl
    simp only [hd, if_false]
    rw [hb] at hd ⊢
    refine ⟨rfl, by omega, ?_⟩
    exact ahead_add_left (show 100 ≤ ahead t.nextReportSeq first.seq by omega)

/-- The loop of `handle_incoming`: the states it calls `report` in, and the last one. -/
def drain (t : TransportCc) : List TransportCc × TransportCc :=
  if _h : 200 < t.recv.length then
    let d := drain t.report.1
    (t :: d.1, d.2)
  else ([], t)
termination_by (t.recv.length, (t.recv.head?.map fun e => ahead t.nextReportSeq e.seq).getD 0)
decreasing_by
  obtain ⟨first, es, hr⟩ := List.exists_cons_of_length_pos (Nat.zero_lt_of_lt _h)
  rcases report_progress hr with hlt | ⟨heq, h100, hnear⟩
  · exact Prod.Lex.left _ _ hlt
  · rw [heq, hr]
    refine Prod.Lex.right _ ?_
    simp only [List.head?_cons, Option.map_some, Option.getD_some, hnear]
    omega

theorem drain_of_le {t : TransportCc} (h : t.recv.length ≤ 200) : t.drain = ([], t) := by
  rw [drain, dif_neg (by omega)]

/-! ### The loop ends -/

/-- A report has removed an entry, or has brought the cursor at least 100 numbers nearer to the
first entry. -/
def Progress (t : TransportCc) : Prop :=
  t.report.1.recv.length < t.recv.length ∨
    t.report.1.recv = t.recv ∧ ∃ first, t.recv.head? = some first ∧
      ahead t.report.1.nextReportSeq first.seq + 100 ≤ ahead t.nextReportSeq first.seq

theorem progress_of_ne {t : TransportCc} (h : t.recv ≠ []) : t.Progress := by
  obtain ⟨first, es, hr⟩ := List.exists_cons_of_ne_nil h
  rcases report_progress hr with hlt | ⟨heq, h100, hnear⟩
  · exact .inl hlt
  · exact .inr ⟨heq, first, by rw [hr, List.head?_cons], by omega⟩

/-- The numbers from the cursor up to the first entry. -/
def toFirst (t : TransportCc) : ℕ :=
  (t.recv.head?.map fun e => ahead t.nextReportSeq e.seq).getD 0

theorem toFirst_lt (t : TransportCc) : t.toFirst < 65536 := by
  unfold toFirst
  cases t.recv.head? with
  | none => exact Nat.zero_lt_succ _
  | some e => exact ahead_lt _ _

/-- The reports that are possible: for each entry one, and one for every hundred numbers in front
of it. -/
def reportsLeft (t : TransportCc) : ℕ := 656 * t.recv.length + t.toFirst / 100

theorem Progress.reportsLeft_lt {t : TransportCc} (h : t.Progress) :
    t.report.1.reportsLeft < t.reportsLeft := by
  unfold reportsLeft
  rcases h with hlt | ⟨heq, first, hfirst, hnear⟩
  · have := t.report.1.toFirst_lt
    omega
  · rw [heq, toFirst, toFirst, heq, hfirst, Option.map_some, Option.map_some, Option.getD_some,
      Option.getD_some]
    omega

/-- **The loop of `handle_incoming` ends**, from every state: after so many reports at most 200
numbers are queued, each report before has made progress, and `drain` is this loop. -/
theorem drain_ends (t : TransportCc) :
    ∃ n ≤ 656 * t.recv.length + 655,
      (∀ k < n, 200 < ((fun s => s.report.1)^[k] t).recv.length ∧
        ((fun s => s.report.1)^[k] t).Progress) ∧
      ((fun s => s.report.1)^[n] t).recv.length ≤ 200 ∧
      t.drain = ((List.range n).map fun k => (fun s => s.report.1)^[k] t,
        (fun s => s.report.1)^[n] t) := by
  suffices h : ∃ n ≤ t.reportsLeft,
      (∀ k < n, 200 < ((fun s => s.report.1)^[k] t).recv.length ∧
        ((fun s => s.report.1)^[k] t).Progress) ∧
      ((fun s => s.report.1)^[n] t).recv.length ≤ 200 ∧
      t.drain = ((List.range n).map fun k => (fun s => s.report.1)^[k] t,
        (fun s => s.report.1)^[n] t) by
    obtain ⟨n, hle, hn⟩ := h
    have := t.toFirst_lt
    exact ⟨n, by unfold reportsLeft at hle; omega, hn⟩
  induction t using drain.induct with
  | case1 t hlen ih =>
    obtain ⟨n, hle, hstates, hend, hdrain⟩ := ih
    have hprogress : t.Progress := progress_of_ne (List.ne_nil_of_length_pos (by omega))
    refine ⟨n + 1, Nat.lt_of_le_of_lt hle hprogress.reportsLeft_lt, fun k hk => ?_, hend, ?_⟩
    · cases k with
      | zero => exact ⟨hlen, hprogress⟩
      | succ k => exact hstates k (by omega)
    · rw [drain, dif_pos hlen, hdrain, List.range_succ_eq_map, List.map_cons, List.map_map]
      rfl
  | case2 t hlen =>
    refine ⟨0, Nat.zero_le _, fun k hk => absurd hk (Nat.not_lt_zero k), by simpa using hlen, ?_⟩
    rw [drain_of_le (by omega)]
    rfl

/-- The numbers of one extension arrive, with the readings of the clock from `i` on. -/
def arriveAll (now : ℕ → ℤ) : ℕ → TransportCc → List U16 → TransportCc
  | _, t, [] => t
  | i, t, s :: ss => arriveAll now (i + 1) (t.arrive s (now i)) ss

/-- `transport_cc::handle_incoming`, with the feedback given to the callback. -/
def handleIncoming (t : TransportCc) (ext : Bytes) (now : ℕ → ℤ) : TransportCc × List Bytes :=
  let d := (t.arriveAll now 0 (transportSeqs ext)).drain
  (d.2, d.1.map fun r => r.report.2)

end TransportCc
end AsioRtc
