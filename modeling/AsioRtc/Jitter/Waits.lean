/-
# The two waits of the jitter buffer

`pop_frame` waits for the rest of a video frame at the end of the buffer from
`_video_wait_start` on, and for a gap in front of the buffer from `_gap_start` on.  Both
are set by the call that first meets the situation and kept from call to call, and both
owe the same: the wait that is over is the wait for what stands there now.

`_video_wait_start` is also kept when the frame it was set for leaves at the end of the
buffer.  The next frame that is found there inherits it and leaves at once
(`early_of_stale`, `second_frame_early`).  As long as a frame that is found there for the
first time finds no wait running, each has its full wait (`full_wait_of_run`).

`_gap_start` is dropped whenever `_next_extended_seq` moves, so where it is set, a call
since the last reset has set it for the same number (`GapKnown.call`), and no loss is
given up before its own `max_delay` is over (`givesUp_waited`).
-/

import AsioRtc.Jitter.Buffer

namespace AsioRtc

open Lib

namespace JitterBuffer

variable {b : JitterBuffer} {h : List (JitterBuffer × Call)} {now : ℕ → ℤ}

/-- **One call, with its waits.**  It finds nothing; or it waits at the gap before the first
key `k`; or the cursor is at `k`, and the wait for video decides over the frame. -/
theorem popEntries_waits (hb : b.Wf) (now : ℕ → ℤ) :
    (b.sorted.entries = [] ∧ b.popEntries now = (b, [])) ∨
      ∃ k p es, b.sorted.entries = (k, p) :: es ∧
        ((b.waitGap (now 0) k).1 = true ∧ b.popEntries now = ((b.waitGap (now 0) k).2, []) ∨
          ∃ b', b.waitGap (now 0) k = (false, b') ∧ b'.sorted = b.sorted ∧
            b'.nextExtendedSeq = k ∧
            let r := scanFrame p.timestamp b'.nextExtendedSeq b'.sorted.entries
            let w := { b' with gapStart := none }.waitVideo (now 1)
              (b'.sorted.entries.drop r.2).isEmpty
            b.popEntries now =
              if w.1 then (w.2, [])
              else ({ w.2 with nextExtendedSeq := r.1, sorted := b'.sorted.erasePrefix r.2 },
                b'.sorted.entries.take r.2)) := by
  have hpass := popEntries_pass hb now
  split at hpass
  · rename_i hnil
    exact .inl ⟨hnil, hpass⟩
  rename_i k p es hes
  refine .inr ⟨k, p, es, hes, ?_⟩
  rcases waitGap_cases (hb.ahead _ (hes ▸ List.mem_cons_self ..)) (now 0) with
    ⟨hw, -⟩ | ⟨hw, hsorted, hnext, -⟩
  · rw [if_pos hw] at hpass
    exact .inl ⟨hw, hpass⟩
  · rw [if_neg (by simp [hw])] at hpass
    exact .inr ⟨_, Prod.ext hw rfl, hsorted, hnext,
      hpass.trans (takeFrame_cases (hb.waitGap hes hw) (now 1) p.timestamp)⟩

/-! ### The wait for video -/

/-- The value of `_next_extended_seq` for which `pop_frame` finds its frame at the end of the
buffer, where it does. -/
def endFound (b : JitterBuffer) (now : ℕ → ℤ) : Option ℕ :=
  match b.sorted.entries with
  | [] => none
  | (k, first) :: _ =>
      match b.waitGap (now 0) k with
      | (true, _) => none
      | (false, b') =>
          let r := scanFrame first.timestamp b'.nextExtendedSeq b'.sorted.entries
          if (b'.sorted.entries.drop r.2).isEmpty then some b'.nextExtendedSeq else none

/-- A `pop_frame`, at time `t` or before, found the frame from `c` on at the end of the
buffer. -/
def EndFoundBy (h : List (JitterBuffer × Call)) (c : ℕ) (t : ℤ) : Prop :=
  ∃ b now, (b, Call.popFrame now) ∈ h ∧ b.endFound now = some c ∧ now 1 ≤ t

/-- The readings of the clock do not go back, within a call or from call to call. -/
def Clock (h : List (JitterBuffer × Call)) (now : ℕ → ℤ) : Prop :=
  now 0 ≤ now 1 ∧ ∀ b' now', (b', Call.popFrame now') ∈ h → now' 1 ≤ now 0

/-- A run of `push` and `pop_frame` with a monotone clock. -/
def Forward (h : List (JitterBuffer × Call)) (_ : JitterBuffer) : Call → Prop
  | .push _ => True
  | .popFrame now => Clock h now
  | .reset => False

/-- A frame that is found at the end of the buffer for the first time finds no wait running. -/
def NoWaitRunning (h : List (JitterBuffer × Call)) (b : JitterBuffer) : Call → Prop
  | .popFrame now => ∀ c, b.endFound now = some c → (∀ t, ¬ EndFoundBy h c t) →
      b.videoWaitStart = none
  | _ => True

/-- What `pop_frame` owes a frame it returns from the end of the buffer: half of `max_delay`
since the frame was first found there. -/
def FullWait (h : List (JitterBuffer × Call)) (b : JitterBuffer) (now : ℕ → ℤ) : Prop :=
  ∀ c, b.endFound now = some c → (b.popEntries now).2 ≠ [] →
    EndFoundBy ((b, .popFrame now) :: h) c (now 1 - b.maxDelay.tdiv 2 * ms)

/-- The gap's wait leaves the video's alone. -/
theorem waitGap_video (b : JitterBuffer) (t : ℤ) (k : ℕ) :
    (b.waitGap t k).2.videoWaitStart = b.videoWaitStart ∧
      (b.waitGap t k).2.isVideo = b.isVideo ∧ (b.waitGap t k).2.maxDelay = b.maxDelay := by
  simp only [waitGap]
  split_ifs <;> exact ⟨rfl, rfl, rfl⟩

/-- The wait for video at the end of the buffer. -/
theorem waitVideo_atEnd (hv : b.isVideo = true) (t : ℤ) :
    b.waitVideo t true =
      (decide (t - b.videoWaitStart.getD t < b.maxDelay.tdiv 2 * ms),
        { b with videoWaitStart := some (b.videoWaitStart.getD t) }) := by
  simp [waitVideo, hv]

/-- The wait for video with a later packet in the buffer. -/
theorem waitVideo_inside (b : JitterBuffer) (t : ℤ) :
    b.waitVideo t false = (false, { b with videoWaitStart := none }) := by
  simp [waitVideo]

/-- The scan takes the entry it starts from. -/
theorem scanFrame_pos (k : ℕ) (p : RtpPacket) (es : List (ℕ × RtpPacket)) :
    0 < (scanFrame p.timestamp k ((k, p) :: es)).2 := by
  rw [scanFrame, if_pos ⟨rfl, rfl⟩]
  exact Nat.succ_pos _

/-- **At the end of the buffer.**  The wait runs from `_video_wait_start`, or from now on where
it is not set, and is kept; the frame leaves where it is over. -/
theorem popEntries_of_endFound (hb : b.Wf) (hv : b.isVideo = true) {c : ℕ}
    (hc : b.endFound now = some c) :
    (b.popEntries now).1.videoWaitStart = some (b.videoWaitStart.getD (now 1)) ∧
      ((b.popEntries now).2 = [] ↔
        now 1 - b.videoWaitStart.getD (now 1) < b.maxDelay.tdiv 2 * ms) := by
  rcases popEntries_waits hb now with
    ⟨hnil, -⟩ | ⟨k, p, es, hes, ⟨hw, -⟩ | ⟨b', hg, hsorted, hnext, heq⟩⟩
  · simp [endFound, hnil] at hc
  · have hg : b.waitGap (now 0) k = (true, (b.waitGap (now 0) k).2) := Prod.ext hw rfl
    simp only [endFound, hes] at hc
    rw [hg] at hc
    exact absurd hc (by simp)
  · obtain ⟨hwait, hvideo, hmax⟩ := waitGap_video b (now 0) k
    rw [hg] at hwait hvideo hmax
    simp only [endFound, hes, hg] at hc
    have hend : (b'.sorted.entries.drop
        (scanFrame p.timestamp b'.nextExtendedSeq b'.sorted.entries).2).isEmpty = true := by
      by_contra hne
      rw [if_neg hne] at hc
      exact absurd hc (by simp)
    have hpos := scanFrame_pos k p es
    rw [← hes, ← hsorted, ← hnext] at hpos
    simp only [hend] at heq
    rw [waitVideo_atEnd (b := { b' with gapStart := none }) (hvideo.trans hv)] at heq
    simp only [decide_eq_true_eq] at heq
    rw [heq, ← hwait, ← hmax]
    split
    · rename_i hlt
      exact ⟨rfl, iff_of_true rfl hlt⟩
    · rename_i hge
      refine ⟨rfl, iff_of_false ?_ hge⟩
      rw [hsorted, hes] at hpos ⊢
      obtain ⟨n, hn⟩ := Nat.exists_eq_succ_of_ne_zero hpos.ne'
      simp [hn]

/-- Anywhere else the wait is dropped, or stays what it was. -/
theorem popEntries_of_not_endFound (hb : b.Wf) (hc : b.endFound now = none) :
    (b.popEntries now).1.videoWaitStart = none ∨
      (b.popEntries now).1.videoWaitStart = b.videoWaitStart := by
  rcases popEntries_waits hb now with
    ⟨-, heq⟩ | ⟨k, p, es, hes, ⟨-, heq⟩ | ⟨b', hg, -, -, heq⟩⟩
  · exact .inr (by rw [heq])
  · exact .inr (by rw [heq]; exact (waitGap_video b (now 0) k).1)
  · left
    simp only [endFound, hes, hg] at hc
    have hend : (b'.sorted.entries.drop
        (scanFrame p.timestamp b'.nextExtendedSeq b'.sorted.entries).2).isEmpty = false := by
      by_contra hne
      rw [if_pos (by simpa using hne)] at hc
      exact absurd hc (by simp)
    simp only [hend, waitVideo_inside, Bool.false_eq_true, if_false] at heq
    rw [heq]

/-- A later call does not take back that the end was found. -/
theorem EndFoundBy.cons {c : ℕ} {t : ℤ} (hf : EndFoundBy h c t) (p : JitterBuffer × Call) :
    EndFoundBy (p :: h) c t := by
  obtain ⟨b', now', hmem, hrest⟩ := hf
  exact ⟨b', now', List.mem_cons_of_mem _ hmem, hrest⟩

/-- What was found by a time was found by a later one. -/
theorem EndFoundBy.mono {c : ℕ} {t t' : ℤ} (hf : EndFoundBy h c t) (ht : t ≤ t') :
    EndFoundBy h c t' := by
  obtain ⟨b', now', hmem, hc, hle⟩ := hf
  exact ⟨b', now', hmem, hc, hle.trans ht⟩

/-- What a history with one more call has found, that call has found or the rest has. -/
theorem EndFoundBy.cases {e : Call} {c : ℕ} {t : ℤ} (hf : EndFoundBy ((b, e) :: h) c t) :
    (∃ now, e = .popFrame now ∧ b.endFound now = some c ∧ now 1 ≤ t) ∨ EndFoundBy h c t := by
  obtain ⟨b', now', hmem, hrest⟩ := hf
  rcases List.mem_cons.1 hmem with heq | hmem
  · obtain ⟨rfl, rfl⟩ := Prod.mk.inj heq
    exact .inl ⟨now', rfl, hrest⟩
  · exact .inr ⟨b', now', hmem, hrest⟩

/-- Whatever was found at the end of the buffer so far, was found there when the running wait
started. -/
structure EndKnown (h : List (JitterBuffer × Call)) (b : JitterBuffer) : Prop where
  isVideo : b.isVideo = true
  found : ∀ s ∈ b.videoWaitStart, ∀ c t, EndFoundBy h c t → EndFoundBy h c s

/-- Taking entries does not change the kind of the stream. -/
theorem popEntries_isVideo (hb : b.Wf) (now : ℕ → ℤ) :
    (b.popEntries now).1.isVideo = b.isVideo := by
  rcases popEntries_waits hb now with
    ⟨-, heq⟩ | ⟨k, p, es, hes, ⟨-, heq⟩ | ⟨b', hg, -, -, heq⟩⟩
  · rw [heq]
  · rw [heq]
    exact (waitGap_video b (now 0) k).2.1
  · have hvideo := (waitGap_video b (now 0) k).2.1
    rw [hg] at hvideo
    rw [heq, ← hvideo]
    simp only [waitVideo]
    split_ifs <;> rfl

/-- A `push` finds nothing, and leaves the wait alone. -/
theorem EndKnown.push (hb : b.Wf) (hk : EndKnown h b) (pkt : RtpPacket) :
    EndKnown ((b, .push pkt) :: h) (b.push pkt) := by
  have hcons : ∀ c t, EndFoundBy ((b, .push pkt) :: h) c t → EndFoundBy h c t :=
    fun c t hf => hf.cases.resolve_left fun ⟨_, he, _⟩ => by cases he
  have hkeep : ∀ s ∈ b.videoWaitStart, ∀ c t, EndFoundBy ((b, .push pkt) :: h) c t →
      EndFoundBy ((b, .push pkt) :: h) c s :=
    fun s hs c t hf => (hk.found s hs c t (hcons c t hf)).cons _
  rcases push_cases hb pkt with heq | ⟨c, -, -, -, heq⟩
  · rw [heq]
    exact ⟨hk.isVideo, hkeep⟩
  · rw [heq]
    exact ⟨hk.isVideo, hkeep⟩

/-- A `pop_frame` keeps it, where a frame found for the first time finds no wait running. -/
theorem EndKnown.popFrame (hb : b.Wf) (hk : EndKnown h b) (hclock : Clock h now)
    (hno : NoWaitRunning h b (.popFrame now)) :
    EndKnown ((b, .popFrame now) :: h) (b.popEntries now).1 := by
  refine ⟨(popEntries_isVideo hb now).trans hk.isVideo, fun s hs c t hf => ?_⟩
  cases hc : b.endFound now with
  | none =>
    -- Nothing new was found, and a wait that still runs is the old one.
    have hf' : EndFoundBy h c t := hf.cases.resolve_left fun ⟨now', he, hc', _⟩ => by
      cases he
      rw [hc] at hc'
      exact absurd hc' (by simp)
    rcases popEntries_of_not_endFound hb hc with hw | hw
    · simp [hw] at hs
    · exact (hk.found s (hw ▸ hs) c t hf').cons _
  | some c' =>
    obtain ⟨hw, -⟩ := popEntries_of_endFound hb hk.isVideo hc
    rw [hw] at hs
    cases hv : b.videoWaitStart with
    | none =>
      -- The wait starts now, after everything found so far.
      obtain rfl : now 1 = s := by simpa [hv] using hs
      rcases hf.cases with ⟨now', he, hc', -⟩ | ⟨b', now', hmem, hc', -⟩
      · cases he
        exact ⟨b, now, List.mem_cons_self .., hc', le_rfl⟩
      · exact ⟨b', now', List.mem_cons_of_mem _ hmem, hc', (hclock.2 b' now' hmem).trans hclock.1⟩
    | some s' =>
      -- The wait goes on, and the frame was found before.
      obtain rfl : s' = s := by simpa [hv] using hs
      rcases hf.cases with ⟨now', he, hc', -⟩ | hf'
      · cases he
        by_contra hne
        have hnone := hno c hc' fun t' hf' => hne ((hk.found s' hv c t' hf').cons _)
        rw [hv] at hnone
        exact absurd hnone (by simp)
      · exact (hk.found s' hv c t hf').cons _

/-- Runs of `push` and `pop_frame` with a monotone clock, where a frame that is found at the
end of the buffer for the first time finds no wait running. -/
abbrev WaitRun (maxDelay : ℤ) : List (JitterBuffer × Call) → JitterBuffer → Prop :=
  Run (machine maxDelay true) fun h b e => Forward h b e ∧ NoWaitRunning h b e

/-- Such a run knows what it has found. -/
theorem endKnown_of_run {maxDelay : ℤ} (hr : WaitRun maxDelay h b) : EndKnown h b := by
  refine hr.invariant (M := machine maxDelay true)
    ⟨rfl, by simp [machine, create]⟩ fun h b e hr hk hg => ?_
  have hb : b.Wf := wf_of_run hr
  cases e with
  | push pkt => exact hk.push hb pkt
  | popFrame now => exact hk.popFrame hb hg.1 hg.2
  | reset => exact hg.1.elim

/-- **Each frame has its own wait.**  In every run of `push` and `pop_frame` on a video buffer
with a monotone clock, in which a frame that is found at the end of the buffer for the first
time finds no wait running: a frame that leaves at the end of the buffer was found there, with
the same `_next_extended_seq`, half of `max_delay` before or earlier. -/
theorem full_wait_of_run (maxDelay : ℤ) (h : List (JitterBuffer × Call)) (b : JitterBuffer)
    (hr : WaitRun maxDelay h b) (now : ℕ → ℤ)
    (hg : Forward h b (.popFrame now) ∧ NoWaitRunning h b (.popFrame now)) :
    FullWait h b now := by
  have hk := endKnown_of_run hr
  intro c hc hne
  obtain ⟨-, hleaves⟩ := popEntries_of_endFound (wf_of_run hr) hk.isVideo hc
  have hover := mt hleaves.2 hne
  cases hv : b.videoWaitStart with
  | none =>
    rw [hv, Option.getD_none] at hover
    exact ⟨b, now, List.mem_cons_self .., hc, by omega⟩
  | some s =>
    rw [hv, Option.getD_some] at hover
    by_contra hnot
    have hnone := hg.2 c hc fun t hf =>
      hnot (((hk.found s hv c t hf).mono (by omega)).cons _)
    rw [hv] at hnone
    exact absurd hnone (by simp)

/-- **A wait that still runs is inherited.**  A frame that is found at the end of the buffer
for the first time leaves at once, where half of `max_delay` has passed for a frame before it. -/
theorem early_of_stale (hb : b.Wf) (hv : b.isVideo = true) {c : ℕ} (hc : b.endFound now = some c)
    (hfirst : ∀ t, ¬ EndFoundBy h c t) {s : ℤ} (hs : b.videoWaitStart = some s)
    (hpos : 0 < b.maxDelay.tdiv 2) (hd : b.maxDelay.tdiv 2 * ms ≤ now 1 - s) :
    ¬ FullWait h b now := by
  intro hw
  obtain ⟨-, hleaves⟩ := popEntries_of_endFound hb hv hc
  rw [hs, Option.getD_some] at hleaves
  have hne : (b.popEntries now).2 ≠ [] := mt hleaves.1 (not_lt.2 hd)
  rcases (hw c hc hne).cases with ⟨now', he, -, hle⟩ | hf
  · cases he
    have : 0 < b.maxDelay.tdiv 2 * ms := Int.mul_pos hpos (by decide)
    omega
  · exact hfirst _ hf

/-- Packet 0 of a video stream has arrived. -/
private def arrived : JitterBuffer :=
  { create 500 true with
    sorted := OrdMap.empty.emplace 0 { payload := [1] }
    firstPacket := false }

/-- It was found at time 0. -/
private def waiting : JitterBuffer := { arrived with videoWaitStart := some 0 }

/-- It has left 250 ms later. -/
private def sent : JitterBuffer := { waiting with nextExtendedSeq := 1, sorted := .empty }

/-- The first packet arrives. -/
private theorem push_create : (create 500 true).push { payload := [1] } = arrived := by
  simp [push, create, extendSeq, arrived, OrdMap.contains]

/-- The buffer with one packet is well formed. -/
private theorem wf_arrived : arrived.Wf := push_create ▸ (wf_create 500 true).push _

/-- The first call starts the wait. -/
private theorem pop_arrived : (arrived.popEntries fun _ => 0).1 = waiting := by
  rw [popEntries_pass wf_arrived]
  simp [waitGap, arrived, takeFrame, waitVideo, create, ms, waiting, scanFrame, OrdMap.emplace,
    OrdMap.insertEntry]

/-- It stays well formed. -/
private theorem wf_waiting : waiting.Wf := pop_arrived ▸ wf_arrived.popEntries _

/-- When the wait is over, the packet is given. -/
private theorem pop_waiting : (waiting.popEntries fun _ => 250000000).1 = sent := by
  rw [popEntries_pass wf_waiting]
  simp [waitGap, arrived, takeFrame, waitVideo, create, ms, waiting, scanFrame, OrdMap.emplace,
    OrdMap.insertEntry, sent, OrdMap.erasePrefix, OrdMap.empty]

/-- The frame ends at the packet that is there. -/
private theorem endFound_arrived : arrived.endFound (fun _ => 0) = some 0 := rfl

/-- So it does while the buffer waits. -/
private theorem endFound_waiting : waiting.endFound (fun _ => 250000000) = some 0 := rfl

/-- The calls up to there. -/
private abbrev waitingCalls : List (JitterBuffer × Call) :=
  [(arrived, .popFrame fun _ => 0), (create 500 true, .push { payload := [1] })]

/-- The buffer that waits is reached. -/
private theorem run_waiting : WaitRun 500 waitingCalls waiting := by
  have hr : WaitRun 500 [(create 500 true, .push { payload := [1] })] arrived :=
    push_create ▸ run_push .init _ ⟨trivial, trivial⟩
  exact pop_arrived ▸ run_popFrame hr _ ⟨⟨le_rfl, by simp⟩, fun _ _ _ => rfl⟩

/-- The second call is later, and no wait of an older frame is running. -/
private theorem guard_waiting :
    Forward waitingCalls waiting (.popFrame fun _ => 250000000) ∧
      NoWaitRunning waitingCalls waiting (.popFrame fun _ => 250000000) := by
  refine ⟨⟨le_rfl, by simp⟩, fun c hc hf => ?_⟩
  obtain rfl : 0 = c := Option.some.inj (endFound_waiting.symm.trans hc)
  exact absurd ⟨_, _, List.mem_cons_self .., endFound_arrived, le_rfl⟩ (hf 0)

/-- The frame of packet 0 has had its wait. -/
theorem full_wait_of_run_first : FullWait waitingCalls waiting fun _ => 250000000 :=
  full_wait_of_run 500 _ _ run_waiting _ guard_waiting

/-- The buffer that has given its packet is reached. -/
private theorem run_sent :
    Run (machine 500 true) Forward ((waiting, .popFrame fun _ => 250000000) :: waitingCalls) sent :=
  pop_waiting ▸ run_popFrame (run_waiting.mono fun _ _ _ hg => hg.1) _ guard_waiting.1

/-- Then packet 1 arrives. -/
private def second : JitterBuffer :=
  { sent with sorted := OrdMap.empty.emplace 1 { sequenceNumber := 1, payload := [2] } }

/-- The second packet arrives. -/
private theorem push_sent : sent.push { sequenceNumber := 1, payload := [2] } = second := by
  simp [push, sent, waiting, arrived, create, extendSeq, second, OrdMap.contains]

/-- **The second frame leaves at once.**  Packet 0 is found at the end of the buffer and leaves
after 250 ms; packet 1 arrives, and a nanosecond later it leaves without a wait. -/
theorem second_frame_early : ∃ h b now,
    Run (machine 500 true) Forward h b ∧ Forward h b (.popFrame now) ∧ ¬ FullWait h b now := by
  have hr : Run (machine 500 true) Forward _ second := push_sent ▸ run_push run_sent _ trivial
  refine ⟨_, second, fun _ => 250000001, hr, ⟨le_rfl, fun b' now' hmem => ?_⟩, ?_⟩
  · simp only [List.mem_cons, Prod.mk.injEq, reduceCtorEq, and_false, false_or,
      List.not_mem_nil, or_false, Call.popFrame.injEq] at hmem
    rcases hmem with ⟨-, rfl⟩ | ⟨-, rfl⟩ <;> decide
  · refine early_of_stale (c := 1) (s := 0) (wf_of_run hr) rfl rfl (fun t hf => ?_) rfl
      (by decide) (by decide)
    obtain ⟨b', now', hmem, hc, -⟩ := hf
    simp only [List.mem_cons, Prod.mk.injEq, reduceCtorEq, and_false, false_or,
      List.not_mem_nil, or_false, Call.popFrame.injEq] at hmem
    rcases hmem with ⟨rfl, rfl⟩ | ⟨rfl, rfl⟩
    · exact absurd (endFound_waiting.symm.trans hc) (by simp)
    · exact absurd (endFound_arrived.symm.trans hc) (by simp)

/-! ### The wait for a gap -/

/-- The smallest buffered number is above `_next_extended_seq`. -/
def Gap (b : JitterBuffer) : Prop := ∃ k ∈ b.sorted.keys.head?, b.nextExtendedSeq < k

/-- `pop_frame` moves `_next_extended_seq` past a missing number: one that is not buffered lies
between where it stood and where it comes to stand, on the circle of `2 ^ 32`. -/
def GivesUp (b : JitterBuffer) (now : ℕ → ℤ) : Prop :=
  ∃ n < 2 ^ 32, n ∉ b.sorted.keys ∧
    (n + 2 ^ 32 - b.nextExtendedSeq) % 2 ^ 32 <
      ((b.popEntries now).1.nextExtendedSeq + 2 ^ 32 - b.nextExtendedSeq) % 2 ^ 32

/-- The numbers of a frame are buffered. -/
theorem Pops.mem_keys {c n i : ℕ} {r : JitterBuffer × List (ℕ × RtpPacket)} (h : Pops b c n r)
    (hi : i < n) : c + i ∈ b.sorted.keys := by
  have hmem : c + i ∈ r.2.map Prod.fst := by
    rw [h.keys]
    exact List.mem_range'_1.2 ⟨by omega, by omega⟩
  rw [h.frame] at hmem
  exact List.map_subset _ (List.take_subset ..) hmem

/-- What a frame takes is buffered, so a missing number is passed at a gap only, and there wherever
the cursor moves. -/
theorem givesUp_iff (hb : b.Wf) :
    b.GivesUp now ↔ b.Gap ∧ (b.popEntries now).1.nextExtendedSeq ≠ b.nextExtendedSeq := by
  have hlt := hb.next_lt
  have hlt' := (hb.popEntries now).next_lt
  constructor
  · rintro ⟨n, hn, hmiss, hpassed⟩
    have hmoved : (b.popEntries now).1.nextExtendedSeq ≠ b.nextExtendedSeq := by
      intro heq
      rw [heq] at hpassed
      omega
    refine ⟨?_, hmoved⟩
    cases hes : b.sorted.entries with
    | nil => exact absurd (by rw [popEntries_pass hb, hes]) hmoved
    | cons e es =>
      have he : e ∈ b.sorted.entries := hes ▸ List.mem_cons_self ..
      refine ⟨e.1, by simp [OrdMap.keys, hes], lt_of_le_of_ne (hb.ahead e he) fun hfirst =>
        hmiss ?_⟩
      -- Without a gap the frame starts at the cursor, and the number is one of its own.
      obtain ⟨c, k, hpops⟩ := popEntries_pops hb now
      obtain rfl : c = b.nextExtendedSeq := by
        have := hpops.next_le
        have := hpops.ahead e he
        omega
      have hbelow : ∀ i, i < k → b.nextExtendedSeq + i < 2 ^ 32 := by
        intro i hi
        obtain ⟨e', he', hkey⟩ := List.mem_map.1 (hpops.mem_keys hi)
        exact hkey ▸ hb.keys_lt e' he'
      rw [hpops.next] at hpassed
      have hlast := hbelow (k - 1)
      have hown : n = b.nextExtendedSeq + (n - b.nextExtendedSeq) ∧ n - b.nextExtendedSeq < k := by
        omega
      rw [hown.1]
      exact hpops.mem_keys hown.2
  · rintro ⟨⟨k, hk, hgap⟩, hmoved⟩
    refine ⟨b.nextExtendedSeq, hlt, fun hmem => ?_, by omega⟩
    obtain ⟨e, he, hkey⟩ := List.mem_map.1 hmem
    cases hes : b.sorted.entries with
    | nil => simp [hes] at he
    | cons first es =>
      obtain rfl : first.1 = k := by simpa [OrdMap.keys, hes] using hk
      have hle := le_of_entries hes e he
      omega

/-- The calls since the last reset, newest first. -/
def sinceReset : List (JitterBuffer × Call) → List (JitterBuffer × Call)
  | [] => []
  | (_, .reset) :: _ => []
  | p :: h => p :: sinceReset h

/-- A `pop_frame` since the last reset, at time `t`, found the smallest buffered number above
the value `c` of `_next_extended_seq`. -/
def GapFound (h : List (JitterBuffer × Call)) (c : ℕ) (t : ℤ) : Prop :=
  ∃ b now, (b, Call.popFrame now) ∈ sinceReset h ∧ b.Gap ∧ b.nextExtendedSeq = c ∧ now 0 = t

/-- Where `_gap_start` is set, a call has set it for the present `_next_extended_seq`. -/
structure GapKnown (h : List (JitterBuffer × Call)) (b : JitterBuffer) : Prop where
  found : ∀ s ∈ b.gapStart, GapFound h b.nextExtendedSeq s
  fresh : b.firstPacket = true → b.gapStart = none

/-- Without a running wait, there is nothing to know of it. -/
theorem GapKnown.of_none (hb : b.gapStart = none) : GapKnown h b :=
  ⟨fun s hs => by simp [hb] at hs, fun _ => hb⟩

/-- A later call other than a reset does not take back that the gap was found. -/
theorem GapFound.cons {c : ℕ} {t : ℤ} (hf : GapFound h c t) (b : JitterBuffer) {e : Call}
    (he : e ≠ .reset) : GapFound ((b, e) :: h) c t := by
  obtain ⟨b', now', hmem, hrest⟩ := hf
  refine ⟨b', now', ?_, hrest⟩
  cases e with
  | push pkt => exact List.mem_cons_of_mem _ hmem
  | popFrame now => exact List.mem_cons_of_mem _ hmem
  | reset => exact absurd rfl he

/-- A call that finds a gap has found it at its first reading of the clock. -/
theorem GapFound.here (hgap : b.Gap) (h : List (JitterBuffer × Call)) (now : ℕ → ℤ) :
    GapFound ((b, .popFrame now) :: h) b.nextExtendedSeq (now 0) :=
  ⟨b, now, List.mem_cons_self .., hgap, rfl, rfl⟩

/-- Where the gap is waited for, the wait runs from `_gap_start`, or from now on where it is
not set. -/
theorem waitGap_waits {t : ℤ} {k : ℕ} (hw : (b.waitGap t k).1 = true) :
    b.nextExtendedSeq < k ∧
      (b.waitGap t k).2 = { b with gapStart := some (b.gapStart.getD t) } := by
  simp only [waitGap] at hw ⊢
  split at hw
  · rename_i hlt
    split at hw
    · exact absurd hw (by simp)
    · rename_i hd
      rw [if_pos hlt, if_neg hd]
      exact ⟨hlt, rfl⟩
  · exact absurd hw (by simp)

/-- Behind the gap its wait is dropped. -/
theorem waitVideo_gapStart (b : JitterBuffer) (t : ℤ) (atEnd : Bool) :
    (b.waitVideo t atEnd).2.gapStart = b.gapStart := by
  simp only [waitVideo]
  split <;> rfl

/-- A `push` leaves the gap's wait alone, and the cursor too, unless nothing is waited for. -/
theorem GapKnown.push (hb : b.Wf) (hk : GapKnown h b) (pkt : RtpPacket) :
    GapKnown ((b, .push pkt) :: h) (b.push pkt) := by
  have hkeep : ∀ s ∈ b.gapStart, GapFound ((b, .push pkt) :: h) b.nextExtendedSeq s :=
    fun s hs => (hk.found s hs).cons b (by simp)
  rcases push_cases hb pkt with heq | ⟨c, hc, -, -, heq⟩
  · rw [heq]
    exact ⟨hkeep, hk.fresh⟩
  · rw [heq]
    rcases hc with rfl | ⟨hf, -⟩
    · exact ⟨hkeep, by simp⟩
    · exact .of_none (hk.fresh hf)

/-- A `pop_frame` that waits at a gap has found it, and any other drops the wait. -/
theorem GapKnown.popFrame (hb : b.Wf) (hk : GapKnown h b) (now : ℕ → ℤ) :
    GapKnown ((b, .popFrame now) :: h) (b.popEntries now).1 := by
  rcases popEntries_waits hb now with
    ⟨-, heq⟩ | ⟨k, p, es, hes, ⟨hw, heq⟩ | ⟨b', -, -, -, heq⟩⟩
  · rw [heq]
    exact ⟨fun s hs => (hk.found s hs).cons b (by simp), hk.fresh⟩
  · obtain ⟨hlt, hwait⟩ := waitGap_waits hw
    have hgap : b.Gap := ⟨k, by simp [OrdMap.keys, hes], hlt⟩
    rw [heq, hwait]
    refine ⟨fun s hs => ?_, fun hf => ?_⟩
    · cases hg : b.gapStart with
      | none =>
        obtain rfl : now 0 = s := by simpa [hg] using hs
        exact .here hgap h now
      | some s' =>
        obtain rfl : s' = s := by simpa [hg] using hs
        exact (hk.found s' hg).cons b (by simp)
    · have hnil := (hb.fresh hf).1
      rw [hes] at hnil
      exact absurd hnil (by simp)
  · refine .of_none ?_
    rw [heq]
    split <;> exact waitVideo_gapStart ..

/-- **The gap's wait is the gap's own.**  Every call keeps it. -/
theorem GapKnown.call (hb : b.Wf) (hk : GapKnown h b) (e : Call) :
    GapKnown ((b, e) :: h) (b.call e).1 := by
  cases e with
  | push pkt => exact hk.push hb pkt
  | popFrame now => exact hk.popFrame hb now
  | reset => exact .of_none rfl

/-- Wherever a run gets to, the gap's wait is the gap's own. -/
theorem gapKnown_of_run {maxDelay : ℤ} {isVideo : Bool}
    (hr : Run (machine maxDelay isVideo) (fun _ _ _ => True) h b) : GapKnown h b :=
  hr.invariant (M := machine maxDelay isVideo) (.of_none rfl)
    fun _ _ e hr hk _ => hk.call (wf_of_run hr) e

/-- **No loss is given up early.**  In every run of `push`, `pop_frame` and `reset`, whatever
the clock reads: where `pop_frame` moves `_next_extended_seq` past a missing number, a
`pop_frame` since the last reset, this one or an earlier one, found the smallest buffered number
above the same `_next_extended_seq`, `max_delay` ago or earlier. -/
theorem givesUp_waited (maxDelay : ℤ) (isVideo : Bool) (h : List (JitterBuffer × Call))
    (b : JitterBuffer) (hr : Run (machine maxDelay isVideo) (fun _ _ _ => True) h b)
    (now : ℕ → ℤ) (hg : b.GivesUp now) :
    ∃ t ≤ now 0 - b.maxDelay * ms,
      GapFound ((b, .popFrame now) :: h) b.nextExtendedSeq t := by
  obtain ⟨hgap, hmoved⟩ := (givesUp_iff (wf_of_run hr)).1 hg
  obtain ⟨k, hk, hlt⟩ := id hgap
  rcases popEntries_waits (wf_of_run hr) now with
    ⟨hnil, -⟩ | ⟨k', p, es, hes, ⟨hw, heq⟩ | ⟨b', hpass, -, -, -⟩⟩
  · simp [OrdMap.keys, hnil] at hk
  · -- A call that waits leaves the cursor where it is.
    obtain ⟨-, hwait⟩ := waitGap_waits hw
    exact absurd (by rw [heq, hwait]) hmoved
  · obtain rfl : k' = k := by simpa [OrdMap.keys, hes] using hk
    simp only [waitGap, if_pos hlt] at hpass
    split at hpass
    · rename_i hd
      cases hs : b.gapStart with
      | none =>
        refine ⟨now 0, ?_, .here hgap h now⟩
        rw [hs, Option.getD_none] at hd
        omega
      | some s =>
        refine ⟨s, ?_, ((gapKnown_of_run hr).found s hs).cons b (by simp)⟩
        rw [hs, Option.getD_some] at hd
        omega
    · exact absurd (congrArg Prod.fst hpass) (by simp)

/-- Packet 2 arrives instead of packet 1. -/
private def gapped : JitterBuffer :=
  { sent with sorted := OrdMap.empty.emplace 2 { sequenceNumber := 2, payload := [3] } }

/-- A packet arrives behind a gap. -/
private theorem push_gapped : sent.push { sequenceNumber := 2, payload := [3] } = gapped := by
  simp [push, sent, waiting, arrived, create, extendSeq, gapped, OrdMap.contains]

/-- The call that finds the gap starts its wait. -/
private theorem pop_gapped (hb : gapped.Wf) :
    (gapped.popEntries fun _ => 300000000).1 = { gapped with gapStart := some 300000000 } := by
  rw [popEntries_pass hb]
  simp [gapped, sent, waiting, arrived, create, waitGap, ms, OrdMap.emplace, OrdMap.insertEntry]

/-- Packet 1 is given up, 500 ms after the gap was found. -/
theorem givesUp_waited_lost : ∃ h, Run (machine 500 true) (fun _ _ _ => True) h
    { gapped with gapStart := some 300000000 } ∧
      ∃ t ≤ 300000000, GapFound (({ gapped with gapStart := some 300000000 },
        .popFrame fun _ => 800000000) :: h) 1 t := by
  have hr : Run (machine 500 true) (fun _ _ _ => True) _ gapped :=
    push_gapped ▸ run_push (run_sent.mono fun _ _ _ _ => trivial) _ trivial
  have hr₂ : Run (machine 500 true) (fun _ _ _ => True) _
      { gapped with gapStart := some 300000000 } :=
    pop_gapped (wf_of_run hr) ▸ run_popFrame hr (fun _ => 300000000) trivial
  refine ⟨_, hr₂, givesUp_waited 500 true _ _ hr₂ (fun _ => 800000000)
    ⟨1, by decide, by decide, ?_⟩⟩
  have hcursor : ({ gapped with gapStart := some 300000000 }.popEntries
      fun _ => 800000000).1.nextExtendedSeq = 3 := by
    rw [popEntries_pass (wf_of_run hr₂)]
    simp [gapped, sent, waiting, arrived, create, waitGap, takeFrame, scanFrame, waitVideo, ms,
      OrdMap.emplace, OrdMap.insertEntry]
  rw [hcursor]
  decide

end JitterBuffer
end AsioRtc
