/-
# What a transport-cc feedback may call lost

A feedback is truthful (`Truthful`) when it reports as not received only numbers
that are not newer than the newest one received, and that are not queued at that
moment.  The walk of `report` only compares its cursor with the next entry for
equality, so it is truthful as long as the queue lies ahead of the cursor
(`Aligned`): the walk then meets the entries one by one, and everything it loses
lies before an entry it has not met (`run_spec`).

A packet that arrives behind the cursor, after its number has been reported lost,
breaks this: it becomes the first entry, the cursor never meets it, and the walk
calls the next hundred numbers lost (`statuses_of_passed`).  `late_report_untruthful`
is such a run, with three packets; `reports_truthful` says that this is the only way
to go wrong.
-/

import AsioRtc.Lib.Machine
import AsioRtc.Twcc.TransportCc

namespace AsioRtc

open Lib

namespace TransportCc

/-! ### The walk -/

/-- What the statuses `added` call lost, counted from `k` steps after `c`, lies
before some entry and is none of the entries. -/
def LostBefore (c : U16) (k : ℕ) (es : List TccEntry) (added : List TccPacketInfo) : Prop :=
  ∀ i, (added[i]?).map TccPacketInfo.status = some .notReceived →
    (∃ e ∈ es, k + i < ahead c e.seq) ∧ ∀ e ∈ es, ahead c e.seq ≠ k + i

section Walk

variable {c : U16} {e : TccEntry} {es : List TccEntry} {k m : ℕ}

/-- Losses up to the first entry at most. -/
theorem lostBefore_replicate (he : e ∈ es) (hfront : ∀ x ∈ es, ahead c e.seq ≤ ahead c x.seq)
    (hm : k + m ≤ ahead c e.seq) :
    LostBefore c k es (List.replicate m ⟨.notReceived, 0⟩) := by
  intro i hi
  have him : i < m := by
    by_contra hge
    rw [List.getElem?_eq_none (by simpa using hge)] at hi
    exact absurd hi (by simp)
  exact ⟨⟨e, he, by omega⟩, fun x hx => by have := hfront x hx; omega⟩

/-- Losses up to the first entry, the entry itself, and what the rest of the walk
calls lost. -/
theorem lostBefore_meet {p : TccPacketInfo} {added : List TccPacketInfo}
    (hp : p.status ≠ .notReceived) (hk : k ≤ ahead c e.seq)
    (hfront : ∀ x ∈ e :: es, ahead c e.seq ≤ ahead c x.seq)
    (hrest : LostBefore c (ahead c e.seq + 1) es added) :
    LostBefore c k (e :: es)
      (List.replicate (ahead c e.seq - k) ⟨.notReceived, 0⟩ ++ p :: added) := by
  intro i hi
  rcases Nat.lt_trichotomy i (ahead c e.seq - k) with hlt | heq | hgt
  · exact ⟨⟨e, List.mem_cons_self .., by omega⟩, fun x hx => by have := hfront x hx; omega⟩
  · rw [List.getElem?_append_right (by simp; omega)] at hi
    simp [heq, hp] at hi
  · obtain ⟨j, hj⟩ : ∃ j, i = ahead c e.seq - k + 1 + j := ⟨_, (Nat.add_sub_cancel' hgt).symm⟩
    rw [List.getElem?_append_right (by simp; omega), List.length_replicate,
      show i - (ahead c e.seq - k) = j + 1 by omega, List.getElem?_cons_succ] at hi
    obtain ⟨⟨x, hx, hxlt⟩, hne⟩ := hrest j hi
    refine ⟨⟨x, List.mem_cons_of_mem _ hx, by omega⟩, fun y hy => ?_⟩
    rcases List.mem_cons.1 hy with rfl | hy
    · omega
    · have := hne y hy
      omega

/-- Meeting an entry after `m` losses. -/
theorem meet_packets (w : TccWalk) (m : ℕ) (e : TccEntry) :
    ((w.loseMany m).receive e).packets =
      w.packets ++ (List.replicate m ⟨.notReceived, 0⟩ ++ [(w.loseMany m).info e]) := by
  simp [TccWalk.receive, TccWalk.loseMany]

theorem meet_next (w : TccWalk) (m : ℕ) (e : TccEntry) :
    ((w.loseMany m).receive e).next = w.next + BitVec.ofNat 16 (m + 1) := by
  simp only [TccWalk.receive, TccWalk.loseMany, BitVec.ofNat_add, BitVec.add_assoc]
  rfl

/-- What a walk over `es` does that starts at `w`, with the cursor `k` steps after `c`,
and ends with `r`: it adds `added` and keeps the cursor in step with it, keeps only
entries at or after the cursor, goes at most one step past some entry, and loses only
what `LostBefore` allows. -/
structure WalkSpec (c : U16) (k : ℕ) (es : List TccEntry) (w : TccWalk)
    (r : List TccEntry × TccWalk) (added : List TccPacketInfo) : Prop where
  packets : r.2.packets = w.packets ++ added
  next : r.2.next = c + BitVec.ofNat 16 (k + added.length)
  sublist : r.1.Sublist es
  rest : ∀ e ∈ r.1, k + added.length ≤ ahead c e.seq
  last : es ≠ [] → ∃ e ∈ es, k + added.length ≤ ahead c e.seq + 1
  lost : LostBefore c k es added

namespace WalkSpec

variable {es : List TccEntry} {e : TccEntry} {w : TccWalk} {k : ℕ}

theorem nil (hw : w.next = c + BitVec.ofNat 16 k) : WalkSpec c k [] w ([], w) [] where
  packets := by simp
  next := by simp [hw]
  sublist := .refl _
  rest := by simp
  last := by simp
  lost := by simp [LostBefore]

/-- A walk that stops at once. -/
theorem full (hw : w.next = c + BitVec.ofNat 16 k) (hk : ∀ x ∈ e :: es, k ≤ ahead c x.seq) :
    WalkSpec c k (e :: es) w (e :: es, w) [] where
  packets := by simp
  next := by simp [hw]
  sublist := .refl _
  rest := by simpa using hk
  last _ := ⟨e, List.mem_cons_self .., by have := hk e (List.mem_cons_self ..); simp; omega⟩
  lost := by simp [LostBefore]

/-- No room up to the entry: everything lost lies before it. -/
theorem noRoom {m : ℕ} (hw : w.next = c + BitVec.ofNat 16 k)
    (hfront : ∀ x ∈ e :: es, ahead c e.seq ≤ ahead c x.seq) (hm : k + m ≤ ahead c e.seq) :
    WalkSpec c k (e :: es) w (e :: es, w.loseMany m) (List.replicate m ⟨.notReceived, 0⟩) where
  packets := rfl
  next := by
    simp only [TccWalk.loseMany, hw, List.length_replicate]
    rw [BitVec.add_assoc, ← BitVec.ofNat_add]
  sublist := .refl _
  rest x hx := by
    have := hfront x hx
    rw [List.length_replicate]
    omega
  last _ := ⟨e, List.mem_cons_self .., by rw [List.length_replicate]; omega⟩
  lost := lostBefore_replicate (List.mem_cons_self ..) hfront hm

/-- The cursor meets the entry after `m` losses, and the walk goes on one step
behind it. -/
theorem meet {m : ℕ} {r : List TccEntry × TccWalk} {added : List TccPacketInfo}
    (h : WalkSpec c (ahead c e.seq + 1) es ((w.loseMany m).receive e) r added)
    (hnil : es = [] → added = []) (hke : k ≤ ahead c e.seq) (hm : ahead c e.seq - k = m)
    (hfront : ∀ x ∈ e :: es, ahead c e.seq ≤ ahead c x.seq) :
    WalkSpec c k (e :: es) w r
      (List.replicate m ⟨.notReceived, 0⟩ ++ (w.loseMany m).info e :: added) := by
  have hlen : k + (List.replicate m (⟨.notReceived, 0⟩ : TccPacketInfo) ++
      (w.loseMany m).info e :: added).length = ahead c e.seq + 1 + added.length := by
    simp only [List.length_append, List.length_replicate, List.length_cons]
    omega
  refine ⟨?_, ?_, h.sublist.trans (List.sublist_cons_self ..), ?_, fun _ => ?_,
    hm ▸ lostBefore_meet (TccWalk.info_status_ne _ _) hke hfront h.lost⟩
  · rw [h.packets, meet_packets]
    simp
  · rw [h.next, hlen]
  · rw [hlen]
    exact h.rest
  · rw [hlen]
    by_cases hes : es = []
    · exact ⟨e, List.mem_cons_self .., by simp [hnil hes]⟩
    · obtain ⟨x, hx, hle⟩ := h.last hes
      exact ⟨x, List.mem_cons_of_mem _ hx, hle⟩

end WalkSpec

/-- **The walk over a queue that lies ahead of the cursor.** -/
theorem run_spec :
    ∀ {es : List TccEntry} {w : TccWalk} {k : ℕ}, SortedFrom c (es.map TccEntry.seq) →
      w.next = c + BitVec.ofNat 16 k → (∀ e ∈ es, k ≤ ahead c e.seq) →
      ∃ added, WalkSpec c k es w (TccWalk.run es w) added
  | [], w, k, _, hw, _ => ⟨[], by simpa [TccWalk.run] using WalkSpec.nil hw⟩
  | e :: es, w, k, hs, hw, hk => by
    have hke := hk e (List.mem_cons_self ..)
    have hfront : ∀ x ∈ e :: es, ahead c e.seq ≤ ahead c x.seq := fun x hx =>
      hs.front_le (List.mem_map_of_mem hx)
    have hd : ahead w.next e.seq = ahead c e.seq - k := by rw [hw, ahead_add_left hke]
    rw [TccWalk.run]
    split
    · exact ⟨[], .full hw hk⟩
    · rw [TccWalk.skipTo_eq, hd]
      by_cases hroom : ahead c e.seq - k ≤ maxTccCount - w.packets.length
      · rw [if_pos hroom]
        generalize hm : ahead c e.seq - k = m at hroom
        have hnext : ((w.loseMany m).receive e).next = c + BitVec.ofNat 16 (ahead c e.seq + 1) := by
          rw [meet_next, hw, BitVec.add_assoc, ← BitVec.ofNat_add]
          congr 2
          omega
        obtain ⟨added, h⟩ := run_spec hs.tail hnext fun x hx =>
          (List.pairwise_cons.1 hs.order).1 _ (List.mem_map_of_mem hx)
        refine ⟨_, h.meet (fun hes => ?_) hke hm hfront⟩
        subst hes
        simpa [TccWalk.run] using h.packets
      · rw [if_neg hroom]
        exact ⟨_, .noRoom hw hfront (by omega)⟩

end Walk

/-! ### Calls, and what they report -/

/-- `transport_cc::transport_cc`. -/
def create (senderSsrc mediaSsrc : U16) : TransportCc :=
  { senderSsrc := senderSsrc.setWidth 32, mediaSsrc := mediaSsrc.setWidth 32 }

/-- A call to the component. -/
inductive Call where
  | incoming (ext : Bytes) (now : ℕ → ℤ)
  | report
  | setSenderSsrc (ssrc : U32)
  | setMediaSsrc (ssrc : U32)

/-- The numbers a call brings. -/
def Call.seqs : Call → List U16
  | .incoming ext _ => transportSeqs ext
  | _ => []

/-- One call: the next state, and the states it makes its reports in. -/
def call (t : TransportCc) : Call → TransportCc × List TransportCc
  | .incoming ext now =>
      let d := (t.arriveAll now 0 (transportSeqs ext)).drain
      (d.2, d.1)
  | .report => (t.report.1, [t])
  | .setSenderSsrc ssrc => ({ t with senderSsrc := ssrc }, [])
  | .setMediaSsrc ssrc => ({ t with mediaSsrc := ssrc }, [])

/-- `transport_cc` as a machine. -/
def machine (senderSsrc mediaSsrc : U16) : Machine TransportCc Call (List TransportCc) :=
  ⟨create senderSsrc mediaSsrc, call⟩

/-- The newer of the newest number so far and `s`, in serial order. -/
def newer : Option U16 → U16 → Option U16
  | none, s => some s
  | some n, s => if 0 < (s - n).toInt then some s else some n

/-- The newest number received so far. -/
def newestOf : List (TransportCc × Call) → Option U16
  | [] => none
  | (_, c) :: h => c.seqs.foldl newer (newestOf h)

/-- A report in state `t` reports `n` as not received. -/
def ReportsLost (t : TransportCc) (n : U16) : Prop :=
  ∃ i, (t.statuses[i]?).map TccPacketInfo.status = some .notReceived ∧
    n = t.base + BitVec.ofNat 16 i

/-- What a report in state `t` may say when `newest` is the newest number received:
it loses nothing newer than that, and nothing that is queued. -/
structure Truthful (newest : Option U16) (t : TransportCc) : Prop where
  notNewer : ∀ n, t.ReportsLost n → ∃ m, newest = some m ∧ ¬ 0 < (n - m).toInt
  notQueued : ∀ n, t.ReportsLost n → ∀ e ∈ t.recv, e.seq ≠ n

/-- The numbers alive when `s` arrives lie within half a circle: those queued, the
newest one, and `s`. -/
def InWindow (newest : Option U16) (t : TransportCc) (s : U16) : Prop :=
  ∃ b, Near b s ∧ (∀ n ∈ newest, Near b n) ∧ ∀ e ∈ t.recv, Near b e.seq

/-- `s` has not been passed by the cursor, which is in use while the feedback
count is not zero. -/
def NotPassed (t : TransportCc) (s : U16) : Prop := t.fbCount ≠ 0 → Near t.nextReportSeq s

/-- `P` holds of every number of a call at the moment it arrives. -/
def Arrivals (P : Option U16 → TransportCc → U16 → Prop) (now : ℕ → ℤ) :
    ℕ → Option U16 → TransportCc → List U16 → Prop
  | _, _, _, [] => True
  | i, newest, t, s :: ss =>
      P newest t s ∧ Arrivals P now (i + 1) (newer newest s) (t.arrive s (now i)) ss

/-- The runs in which `P` holds of every number at the moment it arrives. -/
def Guard (P : Option U16 → TransportCc → U16 → Prop) (h : List (TransportCc × Call))
    (t : TransportCc) : Call → Prop
  | .incoming ext now => Arrivals P now 0 (newestOf h) t (transportSeqs ext)
  | _ => True

/-! ### The invariant -/

/-- The queue lies ahead of the cursor and not past the newest number; an empty
queue has left the cursor at most one step past it. -/
structure Aligned (newest : Option U16) (t : TransportCc) : Prop where
  sorted : SortedFrom t.base (t.recv.map TccEntry.seq)
  newest_of_ne : t.recv ≠ [] → ∃ n, newest = some n ∧ Near t.base n ∧
    ∀ e ∈ t.recv, ahead t.base e.seq ≤ ahead t.base n
  newest_of_nil : t.fbCount ≠ 0 → t.recv = [] → ∃ n, newest = some n ∧
    (t.nextReportSeq = n + 1 ∨ Near t.nextReportSeq n)

theorem base_of_zero {t : TransportCc} {e : TccEntry} {es : List TccEntry} (h0 : t.fbCount = 0)
    (h : t.recv = e :: es) : t.base = e.seq := by
  simp [base, h0, h]

theorem base_of_ne {t : TransportCc} (h0 : t.fbCount ≠ 0) : t.base = t.nextReportSeq := by
  rw [base, if_neg h0]

/-- In a queue with its base and the arrival in one half circle, the older entries stand in
front, and the search finds where they end. -/
theorem place_spec {b : U16} {e : TccEntry} {l : List TccEntry}
    (hl : SortedFrom b (l.map TccEntry.seq)) (he : Near b e.seq) :
    (∀ a ∈ l.take (place e l), ahead b a.seq < ahead b e.seq) ∧
      ∀ a ∈ l.drop (place e l), ahead b e.seq ≤ ahead b a.seq := by
  have holder : ∀ a ∈ l, older a e = true ↔ ahead b a.seq < ahead b e.seq := by
    intro a ha
    rw [older, decide_eq_true_iff, toInt_sub_neg_of_near (hl.near _ (List.mem_map_of_mem ha)) he]
  have hpart : Partitioned (fun a => older a e) l := by
    refine (List.pairwise_map.1 hl.order).imp_of_mem fun {x y} hx hy hxy hold => ?_
    exact (holder x hx).2 (hxy.trans ((holder y hy).1 hold))
  obtain ⟨htake, hdrop⟩ := lowerBound_spec hpart
  refine ⟨fun a ha => ?_, fun a ha => ?_⟩
  · exact (holder a (List.mem_of_mem_take ha)).1 (htake a ha)
  · exact not_lt.1 (mt (holder a (List.mem_of_mem_drop ha)).2 (hdrop a ha))

/-- Insertion keeps the order. -/
theorem insertEntry_sorted {b : U16} {e : TccEntry} {l : List TccEntry}
    (hl : SortedFrom b (l.map TccEntry.seq)) (he : Near b e.seq) :
    SortedFrom b ((insertEntry e l).map TccEntry.seq) := by
  obtain ⟨hfront, hbehind⟩ := place_spec hl he
  have hsplit : l.take (place e l) ++ l.drop (place e l) = l := List.take_append_drop ..
  have horder := List.pairwise_map.1 hl.order
  rw [← hsplit, List.pairwise_append] at horder
  obtain ⟨horderFront, horderBehind, hacross⟩ := horder
  unfold insertEntry
  split
  · exact hl
  · rename_i hnew
    -- What is behind the place is not older, and its first entry is not the number itself.
    have hbehind' : ∀ a ∈ l.drop (place e l), ahead b e.seq < ahead b a.seq := by
      rw [← List.head?_drop] at hnew
      cases hdrop : l.drop (place e l) with
      | nil => exact fun a ha => absurd ha List.not_mem_nil
      | cons c rest =>
        rw [hdrop] at hnew hbehind horderBehind
        have hc : ahead b e.seq < ahead b c.seq :=
          lt_of_le_of_ne (hbehind c List.mem_cons_self) fun heq =>
            hnew (congrArg some (ahead_inj heq).symm)
        intro a ha
        rcases List.mem_cons.1 ha with rfl | ha
        · exact hc
        · exact hc.trans ((List.pairwise_cons.1 horderBehind).1 a ha)
    refine ⟨List.pairwise_map.2 (List.pairwise_append.2 ⟨horderFront,
      List.pairwise_cons.2 ⟨hbehind', horderBehind⟩, fun x hx y hy => ?_⟩), fun x hx => ?_⟩
    · rcases List.mem_cons.1 hy with rfl | hy
      · exact hfront x hx
      · exact hacross x hx y hy
    · obtain ⟨a, ha, rfl⟩ := List.mem_map.1 hx
      rcases List.mem_append.1 ha with ha | ha
      · exact hl.near _ (List.mem_map_of_mem (List.mem_of_mem_take ha))
      · rcases List.mem_cons.1 ha with rfl | ha
        · exact he
        · exact hl.near _ (List.mem_map_of_mem (List.mem_of_mem_drop ha))

theorem insertEntry_ne_nil (e : TccEntry) (l : List TccEntry) : insertEntry e l ≠ [] := by
  unfold insertEntry
  split
  · rename_i hfound
    rintro rfl
    simp at hfound
  · simp

/-- The newest number, counted from a base that has it and the arrival in its half. -/
theorem newer_spec {b s : U16} {newest : Option U16} (hs : Near b s) (hn : ∀ n ∈ newest, Near b n) :
    ∃ m, newer newest s = some m ∧ (m = s ∨ newest = some m) ∧ ahead b s ≤ ahead b m ∧
      ∀ n ∈ newest, ahead b n ≤ ahead b m := by
  cases newest with
  | none => exact ⟨s, rfl, .inl rfl, le_rfl, by simp⟩
  | some n =>
    have hpos := toInt_sub_pos_of_near hs (hn n rfl)
    by_cases h : 0 < (s - n).toInt
    · exact ⟨s, if_pos h, .inl rfl, le_rfl, fun x hx => by cases hx; exact (hpos.1 h).le⟩
    · exact ⟨n, if_neg h, .inr rfl, not_lt.1 fun hlt => h (hpos.2 hlt),
        fun x hx => by cases hx; exact le_rfl⟩

/-- A number that is not newer than `n` is behind `n + 1`. -/
theorem not_near_succ {b n s : U16} (hle : ahead b s ≤ ahead b n) (hn : Near b n) :
    ¬ Near (n + 1) s := by
  unfold Near at *
  have hback := ahead_sub hle
  have hstep : ahead n (n + 1) = 1 := ahead_add (k := 1) (by decide)
  by_cases hsn : s = n
  · rw [hsn, ahead_swap fun h => by rw [← h, ahead_self] at hstep; exact absurd hstep (by decide),
      hstep]
    decide
  · have hs := ahead_swap hsn
    have hsucc : ahead (n + 1) s = ahead n s - 1 := ahead_add_left (k := 1) (by omega)
    omega

namespace Aligned

variable {newest : Option U16} {t : TransportCc} {s : U16} {hist : List (TransportCc × Call)}

theorem create (senderSsrc mediaSsrc : U16) : Aligned none (create senderSsrc mediaSsrc) :=
  ⟨.nil, fun h => absurd rfl h, fun h => absurd rfl h⟩

/-- A cursor in use that has not passed the arrival has not passed the newest number
either. -/
theorem near_newer {b m : U16} (h : Aligned newest t) (h0 : t.fbCount ≠ 0)
    (hns : Near t.nextReportSeq s) (hms : m = s ∨ newest = some m) (hbm : Near b m)
    (hle : ahead b s ≤ ahead b m) : Near t.nextReportSeq m := by
  rcases hms with rfl | hnew
  · exact hns
  by_cases hq : t.recv = []
  · obtain ⟨n, hn, hcur⟩ := h.newest_of_nil h0 hq
    obtain rfl : n = m := by simpa [hn] using hnew
    rcases hcur with hcur | hcur
    · -- The cursor is just past the newest number, and `s` is not behind the cursor.
      rw [hcur] at hns ⊢
      exact absurd hns (not_near_succ hle hbm)
    · exact hcur
  · obtain ⟨n, hn, hnear, -⟩ := h.newest_of_ne hq
    obtain rfl : n = m := by simpa [hn] using hnew
    exact base_of_ne h0 ▸ hnear

/-- **A number that is not behind the cursor keeps the queue ahead of it.** -/
theorem arrive (h : Aligned newest t) (hw : InWindow newest t s) (hp : NotPassed t s) (ts : ℤ) :
    Aligned (newer newest s) (t.arrive s ts) := by
  obtain ⟨b, hbs, hbn, hbq⟩ := hw
  obtain ⟨m, hm, hms, hle, hmax⟩ := newer_spec hbs hbn
  have hbm : Near b m := by
    rcases hms with rfl | h
    · exact hbs
    · exact hbn m h
  have hsorted : SortedFrom b (t.recv.map TccEntry.seq) := h.sorted.rebase fun x hx => by
    obtain ⟨e, he, rfl⟩ := List.mem_map.1 hx
    exact hbq e he
  have hs := insertEntry_sorted (e := ⟨s, ts⟩) hsorted hbs
  -- Nothing in the queue is newer than the newest number.
  have hlast : ∀ e ∈ t.recv, ahead b e.seq ≤ ahead b m := by
    intro e he
    obtain ⟨n, hn, hnear, hnle⟩ := h.newest_of_ne (List.ne_nil_of_mem he)
    have hee := h.sorted.near _ (List.mem_map_of_mem he)
    exact ((hee.le_iff hnear (hbq e he) (hbn n hn)).1 (hnle e he)).trans (hmax n hn)
  have hlast' : ∀ e ∈ insertEntry ⟨s, ts⟩ t.recv, ahead b e.seq ≤ ahead b m := by
    intro e he
    rcases mem_insertEntry he with rfl | he
    · exact hle
    · exact hlast e he
  -- It is enough that the cursor's half circle holds the queue and the newest number.
  suffices hbase : (∀ e ∈ insertEntry ⟨s, ts⟩ t.recv, Near (t.arrive s ts).base e.seq) ∧
      Near (t.arrive s ts).base m by
    refine ⟨hs.rebase fun x hx => ?_, fun _ => ⟨m, hm, hbase.2, fun e he => ?_⟩,
      fun _ hnil => absurd hnil (insertEntry_ne_nil _ _)⟩
    · obtain ⟨e, he, rfl⟩ := List.mem_map.1 hx
      exact hbase.1 e he
    · exact (Near.le_iff (hs.near _ (List.mem_map_of_mem he)) hbm (hbase.1 e he) hbase.2).1
        (hlast' e he)
  by_cases h0 : t.fbCount = 0
  · -- The first entry is the base.
    obtain ⟨e, es, he⟩ := List.exists_cons_of_ne_nil (insertEntry_ne_nil ⟨s, ts⟩ t.recv)
    have hb : (t.arrive s ts).base = e.seq := base_of_zero (t := t.arrive s ts) h0 he
    rw [hb]
    have hfront := hlast' e (he ▸ List.mem_cons_self ..)
    rw [he] at hs ⊢
    refine ⟨fun x hx => hs.from_front.near _ (List.mem_map_of_mem hx), ?_⟩
    unfold Near at *
    rw [ahead_sub hfront]
    omega
  · have hb : (t.arrive s ts).base = t.nextReportSeq := base_of_ne (t := t.arrive s ts) h0
    rw [hb]
    have hns := hp h0
    refine ⟨fun e he => ?_, ?_⟩
    · rcases mem_insertEntry he with rfl | he
      · exact hns
      · exact base_of_ne h0 ▸ h.sorted.near _ (List.mem_map_of_mem he)
    · exact h.near_newer h0 hns hms hbm hle

/-- What a report knows of its walk, when the queue is not empty. -/
theorem report_spec (h : Aligned newest t) (hq : t.recv ≠ []) :
    ∃ k, t.statuses.length = k ∧ t.report.1.recv.Sublist t.recv ∧
      t.report.1.nextReportSeq = t.base + BitVec.ofNat 16 k ∧
      t.report.1.fbCount = t.fbCount + 1 ∧
      (∀ e ∈ t.report.1.recv, k ≤ ahead t.base e.seq) ∧
      (∃ e ∈ t.recv, k ≤ ahead t.base e.seq + 1) ∧ LostBefore t.base 0 t.recv t.statuses := by
  obtain ⟨e, es, hr⟩ := List.exists_cons_of_ne_nil hq
  obtain ⟨added, hadd, hcur, hsub, hrest, hlast, hlost⟩ :=
    run_spec (k := 0) (w := ⟨[], t.base, e.ts - ((baseUs e - ref64ms e : ℕ) : ℤ) * 1000⟩)
      h.sorted (by simp) fun _ _ => Nat.zero_le _
  simp only [List.nil_append, Nat.zero_add] at hadd hcur hrest hlast
  have hst : t.statuses = added := by simp only [statuses, hr, collect]; rw [← hr, hadd]
  have hrep : t.report.1 = { t with
      recv := (t.collect e).1, nextReportSeq := (t.collect e).2.next, fbCount := t.fbCount + 1 } := by
    simp only [report, hr]
  rw [hrep, hst]
  exact ⟨added.length, rfl, hsub, hcur, rfl, hrest, hlast hq, hlost⟩

/-- A report keeps the queue ahead of the cursor. -/
theorem report (h : Aligned newest t) : Aligned newest t.report.1 := by
  by_cases hq : t.recv = []
  · have : t.report.1 = t := by simp only [TransportCc.report, hq]
    rwa [this]
  obtain ⟨k, -, hsub, hcur, hcount, hrest, ⟨e, he, hlast⟩, -⟩ := h.report_spec hq
  obtain ⟨n, hn, hnear, hnle⟩ := h.newest_of_ne hq
  have hs := h.sorted.sublist (hsub.map _)
  by_cases h0 : t.report.1.fbCount = 0
  · -- The feedback count has come round: the next report starts at its first entry.
    refine ⟨?_, fun hne => ?_, fun hne => absurd h0 hne⟩
    · cases hr : t.report.1.recv with
      | nil => exact .nil
      | cons x xs =>
        rw [base_of_zero h0 hr]
        rw [hr] at hs
        exact hs.from_front
    · obtain ⟨x, xs, hr⟩ := List.exists_cons_of_ne_nil hne
      rw [base_of_zero h0 hr]
      have hx := hnle x (hsub.subset (hr ▸ List.mem_cons_self ..))
      have hxn := ahead_sub hx
      refine ⟨n, hn, by unfold Near at *; omega, fun y hy => ?_⟩
      have hy' := hnle y (hsub.subset hy)
      rw [hr] at hs hy
      have hxy := hs.front_le (List.mem_map_of_mem hy)
      rw [hxn, ahead_sub hxy]
      omega
  · have hb : t.report.1.base = t.base + BitVec.ofNat 16 k := (base_of_ne h0).trans hcur
    have hadv : ∀ x, k ≤ ahead t.base x → ahead t.report.1.base x = ahead t.base x - k :=
      fun x hx => hb ▸ ahead_add_left hx
    refine ⟨hb ▸ hs.advance fun x hx => ?_, fun hne => ?_, fun _ _ => ⟨n, hn, ?_⟩⟩
    · obtain ⟨e, he, rfl⟩ := List.mem_map.1 hx
      exact hrest e he
    · obtain ⟨x, hx⟩ := List.exists_mem_of_ne_nil _ hne
      have hxk := hrest x hx
      have hxn := hnle x (hsub.subset hx)
      refine ⟨n, hn, ?_, fun y hy => ?_⟩
      · unfold Near at *
        rw [hadv n (hxk.trans hxn)]
        omega
      · have hy' := hnle y (hsub.subset hy)
        have hyk := hrest y hy
        rw [hadv n (hxk.trans hxn), hadv _ hyk]
        omega
    · have hen := hnle e he
      rw [hcur]
      rcases Nat.lt_or_ge (ahead t.base n) k with hlt | hge
      · -- The cursor went one step past the newest number.
        left
        have hk : k = ahead t.base n + 1 := by omega
        rw [hk, BitVec.ofNat_add, ← BitVec.add_assoc, add_ahead]
        rfl
      · right
        unfold Near at *
        rw [ahead_add_left hge]
        omega

/-- **A report over an aligned queue is truthful.** -/
theorem truthful (h : Aligned newest t) : t.Truthful newest := by
  have key : ∀ n, t.ReportsLost n → ∃ m, newest = some m ∧ ahead t.base n ≤ ahead t.base m ∧
      Near t.base m ∧ ∀ e ∈ t.recv, e.seq ≠ n := by
    rintro n ⟨i, hi, rfl⟩
    have hq : t.recv ≠ [] := by
      intro hq
      simp [statuses, hq] at hi
    obtain ⟨-, -, -, -, -, -, -, hlost⟩ := h.report_spec hq
    obtain ⟨m, hm, hnear, hle⟩ := h.newest_of_ne hq
    obtain ⟨⟨e, he, hlt⟩, hne⟩ := hlost i hi
    simp only [Nat.zero_add] at hlt hne
    have hi : ahead t.base (t.base + BitVec.ofNat 16 i) = i :=
      ahead_add (hlt.trans (ahead_lt _ _))
    have hem := hle e he
    exact ⟨m, hm, by omega, hnear, fun x hx heq => hne x hx (heq ▸ hi)⟩
  constructor
  · intro n hn
    obtain ⟨m, hm, hle, hnear, -⟩ := key n hn
    have hnn : Near t.base n := by unfold Near at *; omega
    exact ⟨m, hm, fun hpos => absurd ((toInt_sub_pos_of_near hnn hnear).1 hpos) (by omega)⟩
  · intro n hn
    obtain ⟨-, -, -, -, hne⟩ := key n hn
    exact hne

/-- The numbers of one call. -/
theorem arriveAll {now : ℕ → ℤ} {ss : List U16} {i : ℕ} (h : Aligned newest t)
    (hg : Arrivals (fun n t s => InWindow n t s ∧ NotPassed t s) now i newest t ss) :
    Aligned (ss.foldl newer newest) (t.arriveAll now i ss) := by
  induction ss generalizing i newest t with
  | nil => exact h
  | cons s ss ih => exact ih (h.arrive hg.1.1 hg.1.2 _) hg.2

/-- Every report of the loop of `handle_incoming` is truthful, and so is what comes after. -/
theorem drain (h : Aligned newest t) :
    (∀ r ∈ t.drain.1, r.Truthful newest) ∧ Aligned newest t.drain.2 := by
  induction t using drain.induct with
  | case1 t hlen ih =>
    rw [TransportCc.drain, dif_pos hlen]
    obtain ⟨hall, hend⟩ := ih h.report
    refine ⟨fun r hr => ?_, hend⟩
    rcases List.mem_cons.1 hr with rfl | hr
    · exact h.truthful
    · exact hall r hr
  | case2 t hlen =>
    rw [TransportCc.drain, dif_neg hlen]
    exact ⟨by simp, h⟩

/-- Setting a source leaves the queue and the cursor alone. -/
theorem withSsrcs (h : Aligned newest t) (sender media : U32) :
    Aligned newest { t with senderSsrc := sender, mediaSsrc := media } :=
  ⟨h.sorted, h.newest_of_ne, h.newest_of_nil⟩

/-- **One call.**  Its reports are truthful, and the queue stays ahead of the cursor. -/
theorem call (h : Aligned (newestOf hist) t) {c : Call}
    (hg : Guard (fun n t s => InWindow n t s ∧ NotPassed t s) hist t c) :
    (∀ r ∈ (t.call c).2, r.Truthful (newestOf ((t, c) :: hist))) ∧
      Aligned (newestOf ((t, c) :: hist)) (t.call c).1 := by
  cases c with
  | incoming ext now => exact (h.arriveAll hg).drain
  | report => exact ⟨fun r hr => List.mem_singleton.1 hr ▸ h.truthful, h.report⟩
  | setSenderSsrc ssrc => exact ⟨by simp [TransportCc.call], h.withSsrcs _ _⟩
  | setMediaSsrc ssrc => exact ⟨by simp [TransportCc.call], h.withSsrcs _ _⟩

end Aligned

/-- Wherever a run gets to in which no number arrives behind the cursor, the queue
lies ahead of it. -/
theorem aligned_of_run {a b : U16} {h : List (TransportCc × Call)} {t : TransportCc}
    (hr : Run (machine a b) (Guard fun n t s => InWindow n t s ∧ NotPassed t s) h t) :
    Aligned (newestOf h) t :=
  hr.invariant (M := machine a b) (P := fun h t => Aligned (newestOf h) t) (Aligned.create a b)
    fun _ _ _ _ hi hg => (hi.call hg).2

/-- **Feedbacks are truthful as long as no number arrives behind the cursor.**  In
every run whose numbers stay within half a circle of each other and are never behind
`_next_report_seq` when they arrive, every report of every call loses only numbers
that are not newer than the newest one received, and that are not queued. -/
theorem reports_truthful (a b : U16) (h : List (TransportCc × Call)) (t : TransportCc) (c : Call)
    (hr : Run (machine a b) (Guard fun n t s => InWindow n t s ∧ NotPassed t s) h t)
    (hg : Guard (fun n t s => InWindow n t s ∧ NotPassed t s) h t c) :
    ∀ r ∈ (machine a b).out t c, r.Truthful (newestOf ((t, c) :: h)) :=
  ((aligned_of_run hr).call hg).1

section Late

/-- The extension that brings number `s`, below 256. -/
private def brings (s : U8) : Call := .incoming [0x41, 0, s, 0] fun _ => 0

private theorem seqs_brings (s : U8) : transportSeqs [0x41, 0, s, 0] = [BitVec.ofNat 16 s.toNat] := by
  have h : extElements [0x41, 0, s, 0] = [⟨4, [0, s]⟩] := rfl
  rw [transportSeqs, h]
  simp

/-- Fewer than 200 queued numbers: nothing is reported yet. -/
theorem call_incoming_of_le {t : TransportCc} {ext : Bytes} {now : ℕ → ℤ}
    (h : (t.arriveAll now 0 (transportSeqs ext)).recv.length ≤ 200) :
    t.call (.incoming ext now) = (t.arriveAll now 0 (transportSeqs ext), []) := by
  simp only [call, drain_of_le h]

private theorem run_brings {P : Option U16 → TransportCc → U16 → Prop}
    {h : List (TransportCc × Call)} {t : TransportCc} (s : U8) (hr : Run (machine 0 0) (Guard P) h t)
    (hp : P (newestOf h) t (BitVec.ofNat 16 s.toNat))
    (hlen : (t.arrive (BitVec.ofNat 16 s.toNat) 0).recv.length ≤ 200) :
    Run (machine 0 0) (Guard P) ((t, brings s) :: h) (t.arrive (BitVec.ofNat 16 s.toNat) 0) := by
  refine hr.snoc ?_ ?_
  · simp only [brings, Guard, seqs_brings]
    exact ⟨hp, trivial⟩
  · have hall : t.arriveAll (fun _ => 0) 0 (transportSeqs [0x41, 0, s, 0]) =
        t.arrive (BitVec.ofNat 16 s.toNat) 0 := by rw [seqs_brings]; rfl
    simp only [Machine.next, machine, brings, call_incoming_of_le (hall ▸ hlen), hall]

private theorem newestOf_brings {s : U8} {t : TransportCc} {h : List (TransportCc × Call)} :
    newestOf ((t, brings s) :: h) = newer (newestOf h) (BitVec.ofNat 16 s.toNat) := by
  simp only [newestOf, brings, Call.seqs, seqs_brings, List.foldl_cons, List.foldl_nil]

/-- A first entry that the cursor does not meet: nothing but losses are reported. -/
theorem statuses_of_passed {t : TransportCc} {e : TccEntry} {es : List TccEntry}
    (h : t.recv = e :: es) (hd : 100 < ahead t.base e.seq) :
    t.statuses = List.replicate 100 ⟨.notReceived, 0⟩ := by
  simp only [statuses, h, collect, TccWalk.run, TccWalk.skipTo_eq, List.length_nil, maxTccCount]
  rw [if_neg (by decide), if_neg (by omega)]
  rfl

private theorem newestOf_report {t : TransportCc} {h : List (TransportCc × Call)} :
    newestOf ((t, .report) :: h) = newestOf h := rfl

/-- A report of number 10, after it arrived. -/
theorem reports_truthful_ten :
    ((machine 0 0).out (create 0 0 |>.arrive 10 0) .report).length = 1 ∧
      ∀ r ∈ (machine 0 0).out (create 0 0 |>.arrive 10 0) .report,
        r.Truthful (newestOf [(create 0 0 |>.arrive 10 0, .report), (create 0 0, brings 10)]) :=
  ⟨rfl, reports_truthful 0 0 [(create 0 0, brings 10)] (create 0 0 |>.arrive 10 0) .report
    (run_brings 10 .init ⟨⟨10, by decide, by simp [newestOf], by simp [create]⟩,
      fun h => absurd rfl h⟩ (by decide)) trivial⟩

/-- **A late packet makes feedbacks lie.**  Numbers 10 and 12 arrive and are reported,
then 11 arrives: the next report calls 13 lost, which is newer than anything received. -/
theorem late_report_untruthful :
    ∃ h t, Run (machine 0 0) (Guard InWindow) h t ∧
      ∃ r ∈ (machine 0 0).out t .report, ¬ r.Truthful (newestOf ((t, .report) :: h)) := by
  have r₁ := run_brings (P := InWindow) 10 .init
    ⟨10, by decide, by simp [newestOf], by simp [machine, create]⟩ (by decide)
  have n₁ : newestOf [((machine 0 0).init, brings 10)] = some 10 := by
    rw [newestOf_brings]; decide
  have r₂ := run_brings 12 r₁ ⟨10, by decide, by rw [n₁]; simp [Near], by decide⟩ (by decide)
  have r₃ : Run (machine 0 0) (Guard InWindow) ((_, .report) :: _)
      { nextReportSeq := 13, fbCount := 1 } := r₂.snoc trivial (by decide)
  have n₃ : ∀ t t', newestOf [(t, .report), (t', brings 12), ((machine 0 0).init, brings 10)] =
      some 12 := fun t t' => by rw [newestOf_report, newestOf_brings, n₁]; decide
  have r₄ := run_brings 11 r₃ ⟨10, by decide, by rw [n₃]; simp [Near, ahead], by decide⟩ (by decide)
  refine ⟨_, _, r₄, _, List.mem_singleton.2 rfl, fun ht => ?_⟩
  obtain ⟨m, hm, hnot⟩ := ht.notNewer 13
    ⟨0, by rw [statuses_of_passed rfl (by decide)]; rfl, by decide⟩
  rw [newestOf_report, newestOf_brings, n₃] at hm
  obtain rfl : m = 12 := Option.some.inj (hm.symm.trans (by decide))
  exact absurd hnot (by decide)

end Late

end TransportCc
end AsioRtc
