/-
# The numbers a move skips are asked for

When the highest number moves from `h` to `s`, the numbers in between are missing, and
the 1023 of them next to `s` stay in the window.  Each has a fresh slot
(`receivePacket_move`), which a late packet marks for its own number only
(`receivePacket_late`), and a fresh slot is put out at the first visit.  What is left to
ask is whether `get_nacks` visits it.

Its loop goes back from the highest number and stops one short of `_lowest_seq`
(`mem_scanned`).  After a step the number there was there before; after a jump of
`_history_size` or more it is one of the skipped ones, and it is never asked for
(`jump_forgets_last`).  `reports_skipped_iff` is the exact condition.
-/

import AsioRtc.Nack.Requests

namespace AsioRtc

open Lib

namespace NackGenerator

/-- `n` lies strictly between the numbers `a` and `b`, going forward. -/
def Between (a n b : U16) : Prop := 0 < ahead a n ∧ ahead a n < ahead a b

instance (a n b : U16) : Decidable (Between a n b) :=
  inferInstanceAs (Decidable (_ ∧ _))

/-- What the generator owes a move of the highest number to `t` with the packets `late` behind
it: at the next `get_nacks` every number skipped, of the 1023 below `t`, that did not come. -/
def ReportsSkipped (g : NackGenerator) (t : U16) (late : List U16) (now : ℤ) : Prop :=
  ∀ n, Between g.highestSeq n t → ahead n t ≤ 1023 → n ∉ late →
    n ∈ ((late.foldl receivePacket (g.receivePacket t)).getNacks now).2

variable {g : NackGenerator} {t n : U16} {late : List U16}

/-- The same seen from the end. -/
theorem between_iff {a b : U16} : Between a n b ↔ 0 < ahead n b ∧ ahead n b < ahead a b := by
  constructor
  · rintro ⟨hpos, hlt⟩
    have := ahead_sub hlt.le
    omega
  · rintro ⟨hpos, hlt⟩
    have := ahead_sub_right hlt.le
    exact ⟨by omega, by omega⟩

/-- A fresh slot is put out, where there is a retry to spend. -/
theorem visit_fresh {maxRetries : U8} {now backoff : ℤ} (hmax : 0 < maxRetries) :
    (NackInfo.visit maxRetries now backoff {}).2 = true := by
  have hle : ¬ maxRetries ≤ 0 := BitVec.not_le.2 hmax
  simp only [NackInfo.visit, Bool.false_eq_true, if_false, hle, Bool.not_false, if_true]

/-- **Late packets.**  They leave the window as it is, and the slots of all numbers of it that
are not among them. -/
theorem foldl_late (hg : g.historySize = 1024) (hi : g.initialized = true)
    (hl : ∀ x ∈ late, seqDistance g.highestSeq x ≤ 0) :
    ∃ buf, late.foldl receivePacket g = { g with buffer := buf } ∧
      ∀ s, ahead s g.highestSeq < 1024 → s ∉ late →
        buf (g.getIndex s) = g.buffer (g.getIndex s) := by
  induction late generalizing g with
  | nil => exact ⟨g.buffer, rfl, fun _ _ _ => rfl⟩
  | cons x late ih =>
    obtain ⟨hx, hl⟩ := List.forall_mem_cons.1 hl
    obtain ⟨buf, hrec, hbuf⟩ := receivePacket_late hg hi hx
    obtain ⟨buf', hfold, hbuf'⟩ := ih (g := { g with buffer := buf }) hg hi hl
    refine ⟨buf', by rw [List.foldl_cons, hrec, hfold], fun s hs hns => ?_⟩
    obtain ⟨hne, hns⟩ := not_or.1 (mt List.mem_cons.2 hns)
    exact (hbuf' s hs hns).trans ((hbuf s hs).trans (if_neg hne))

/-- Where the window begins after a move: at most 1023 numbers back, and never behind the
first number skipped unless the window is full. -/
theorem lowest_of_moves (hg : g.historySize = 1024) (hw : ahead g.lowestSeq g.highestSeq < 1024)
    (hm : g.Moves t) :
    (g.receivePacket t).lowestSeq = t - 1023 ∨
      ahead g.highestSeq t < 1024 ∧
        ahead g.highestSeq t ≤ ahead (g.receivePacket t).lowestSeq t := by
  obtain ⟨-, -, -, -, -, hlow⟩ := receivePacket_of_moves hm
  obtain ⟨hpos, hhalf⟩ := seqDistance_pos.1 hm.2
  have h1024 : (g.historySize.toNat : ℤ) = 1024 := by rw [hg]; rfl
  have hback : t - (g.historySize - 1) = t - 1023 := by rw [hg]; rfl
  rw [hback] at hlow
  rcases Nat.lt_or_ge (ahead g.highestSeq t) 1024 with hstep | hjump
  · obtain ⟨hlow', -⟩ := skipTo_step (s := t) hg hpos hstep (by simp)
    have hspan : ahead g.lowestSeq t = ahead g.lowestSeq g.highestSeq + ahead g.highestSeq t :=
      ahead_trans (by omega)
    rw [hlow'] at hlow
    split at hlow
    · exact .inl hlow
    · exact .inr ⟨hstep, by rw [hlow]; omega⟩
  · have hskip : (g.skipTo t (seqDistance g.highestSeq t)).lowestSeq = t - 1023 := by
      rw [seqDistance_eq hhalf, skipTo, if_pos (by omega), ← hback]
    rw [hskip, ite_self] at hlow
    exact .inl hlow

/-- **What `get_nacks` puts out after a move.**  Of the numbers skipped and still in the window,
and not among the late packets, exactly those in front of `_lowest_seq`. -/
theorem mem_getNacks_of_skipped (hg : g.historySize = 1024)
    (hw : ahead g.lowestSeq g.highestSeq < 1024) (hm : g.Moves t) (hmax : 0 < g.maxRetries)
    (hl : ∀ x ∈ late, seqDistance t x ≤ 0) (hb : Between g.highestSeq n t)
    (hn : ahead n t ≤ 1023) (hnl : n ∉ late) (now : ℤ) :
    n ∈ ((late.foldl receivePacket (g.receivePacket t)).getNacks now).2 ↔
      ahead n t < ahead (g.receivePacket t).lowestSeq t := by
  obtain ⟨hhigh, hinit, hsize, hret, -, -⟩ := receivePacket_of_moves hm
  obtain ⟨hwin, hslots⟩ := receivePacket_move hg hw hm
  obtain ⟨hpos, hlt⟩ := between_iff.1 hb
  rw [← hhigh] at hl
  obtain ⟨buf, hfold, hbuf⟩ := foldl_late (hsize.trans hg) hinit hl
  rw [hfold]
  set g' : NackGenerator := { g.receivePacket t with buffer := buf } with hg'
  have hsize' : g'.historySize = 1024 := hsize.trans hg
  have hwin' : ahead g'.lowestSeq g'.highestSeq < 1024 := by
    rw [hg']
    simpa only [hhigh] using hwin
  have hscan : n ∈ g'.scanned ↔ ahead n t < ahead (g.receivePacket t).lowestSeq t := by
    rw [mem_scanned hsize' hwin', hg']
    simp only [hhigh]
    omega
  rw [getNacks_snd hsize' hwin' hinit, List.mem_filter, hscan, and_iff_left_iff_imp]
  intro hin
  -- The slot is the fresh one the move left.
  have hfresh : g'.buffer (g'.getIndex n) = {} := by
    have hidx : g'.getIndex = g.getIndex := getIndex_congr hsize
    have h := hbuf n (by rw [hhigh]; omega) hnl
    rw [getIndex_congr hsize] at h
    rw [hidx]
    refine h.trans ?_
    rcases hslots n hin.le with ⟨rfl, -⟩ | ⟨-, -, hslot⟩ | ⟨-, hge, -⟩
    · simp at hpos
    · exact hslot
    · omega
  rw [hfresh]
  exact visit_fresh (hret.symm ▸ hmax)

/-- **A burst.**  After a step of the highest number, at least as many numbers are put out as
it skipped. -/
theorem le_length_getNacks (hg : g.historySize = 1024)
    (hw : ahead g.lowestSeq g.highestSeq < 1024) (hm : g.Moves t) (hmax : 0 < g.maxRetries)
    (hstep : ahead g.highestSeq t < 1024) (now : ℤ) :
    ahead g.highestSeq t - 1 ≤ ((g.receivePacket t).getNacks now).2.length := by
  have hnodup := nodup_before t (k := ahead g.highestSeq t - 1) (by omega)
  have hsub : (List.range (ahead g.highestSeq t - 1)).map (fun i => t - BitVec.ofNat 16 (i + 1)) ⊆
      ((g.receivePacket t).getNacks now).2 := by
    intro n hn
    obtain ⟨i, hi, rfl⟩ := List.mem_map.1 hn
    have hi := List.mem_range.1 hi
    have hback : ahead (t - BitVec.ofNat 16 (i + 1)) t = i + 1 := ahead_sub_ofNat (by omega)
    refine (mem_getNacks_of_skipped hg hw hm hmax (List.forall_mem_nil _)
      (between_iff.2 ⟨by omega, by omega⟩) (by omega) (by simp) now).2 ?_
    rcases lowest_of_moves hg hw hm with hlow | ⟨-, hle⟩
    · have : ahead (t - 1023) t = 1023 := ahead_sub_ofNat (k := 1023) (by decide)
      rw [hlow]
      omega
    · omega
  have hlen := (hnodup.subperm hsub).length_le
  rwa [List.length_map, List.length_range] at hlen

/-- **All skipped numbers are asked for, up to a jump.**  In every reachable generator with a
retry to spend: after a move of the highest number, whatever comes late, the next `get_nacks`
puts out every skipped number of the 1023 below the new highest one that has not come, exactly
where the move is less than 1024 long or the last of the 1023 has come. -/
theorem reports_skipped_iff (maxRetries : U8) (rttMs nackDelayMs : ℤ)
    (h : List (NackGenerator × Call)) (g : NackGenerator)
    (hr : Run (machine maxRetries rttMs nackDelayMs) (fun _ _ _ => True) h g)
    (hmax : 0 < maxRetries) (t : U16) (hm : g.Moves t) (late : List U16)
    (hl : ∀ x ∈ late, seqDistance t x ≤ 0) (now : ℤ) :
    ReportsSkipped g t late now ↔ seqDistance g.highestSeq t < 1024 ∨ t - 1023 ∈ late := by
  have ht := tracks_of_run hr
  obtain ⟨hpos, hhalf⟩ := seqDistance_pos.1 hm.2
  have hmax' : 0 < g.maxRetries := by rw [ht.retries]; exact hmax
  have hmem := fun {n} => mem_getNacks_of_skipped (n := n) ht.size ht.window hm hmax' hl
  have hback : ahead (t - 1023) t = 1023 := ahead_sub_ofNat (k := 1023) (by decide)
  rw [seqDistance_eq hhalf]
  constructor
  · intro hrep
    by_contra hnot
    obtain ⟨hjump, hlast⟩ := not_or.1 hnot
    have hb : Between g.highestSeq (t - 1023) t := between_iff.2 ⟨by omega, by omega⟩
    have hlt := (hmem hb hback.le hlast now).1 (hrep _ hb hback.le hlast)
    have := (receivePacket_move ht.size ht.window hm).1
    omega
  · intro hcond n hb hn hnl
    obtain ⟨-, hlt⟩ := between_iff.1 hb
    refine (hmem hb hn hnl now).2 ?_
    rcases lowest_of_moves ht.size ht.window hm with hlow | ⟨-, hle⟩
    · rw [hlow, hback]
      rcases hcond with hstep | hlast
      · omega
      · have hne : ahead n t ≠ 1023 := fun heq =>
          hnl (ahead_right_inj (heq.trans hback.symm) ▸ hlast)
        omega
    · omega

/-- A stream of 0 and 2: number 1 is skipped, and asked for. -/
theorem reports_skipped_iff_step :
    let g := (machine 10 100 10).exec (machine 10 100 10).init [.receivePacket 0]
    ReportsSkipped g 2 [] 0 ↔ seqDistance g.highestSeq 2 < 1024 ∨ (2 : U16) - 1023 ∈ [] :=
  reports_skipped_iff 10 100 10 _ _
    ((machine 10 100 10).run_play [.receivePacket 0] .init) (by decide) 2 (by decide) [] (by simp) 0

/-- **A jump forgets one number.**  In a stream of 0 and 1024, number 1 is the last of the 1023
below 1024, and it is never asked for. -/
theorem jump_forgets_last :
    ∃ h g, Run (machine 10 100 10) (fun _ _ _ => True) h g ∧ g.Moves 1024 ∧
      ¬ ReportsSkipped g 1024 [] 0 := by
  have hr := (machine 10 100 10).run_play [.receivePacket 0] .init
  refine ⟨_, _, hr, by decide, fun hrep => ?_⟩
  have hlt := (mem_getNacks_of_skipped (n := 1) rfl (by decide) (by decide) (by decide)
    (List.forall_mem_nil _) (by decide) (by decide) (by simp) 0).1 (hrep 1 (by decide) (by decide) (by simp))
  exact absurd hlt (by decide)

end NackGenerator
end AsioRtc
