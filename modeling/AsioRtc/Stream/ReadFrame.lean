/-
# Several readers of one stream

`any_stream_track::impl_t::read_frame` of `src/any_stream_track.cpp`.  A call takes a
frame from the queue if there is one, and otherwise waits for the lock of the track; the
call that has it reads from the stream, gives what it has read to the split callback, and
takes the first frame that comes out.  The calls are coroutines: between two `co_await`s
nothing else happens, so a step (`Event`) is what one call does between two of them, or
one call of the callback.  The lock belongs to a library outside this repository; of it
only this is used: at most one call has it, and one that waits may get it when it is free.

The queue is looked at before the lock is taken and not again behind it.  A call that has
waited while another one filled the queue reads on, and where the stream ends there, it
returns the end although frames are queued; from then on no call looks at the queue.
`delivers_all_iff` says that this, and a read that still brings frames after the end, are
the only ways to lose one; with one caller at a time neither happens (`alone_delivers`).
-/

import AsioRtc.Bytes
import AsioRtc.Lib.Machine

namespace AsioRtc

open Lib

variable {α : Type}

/-- The call that has the lock: it waits for its read (`none`), or has given this much of the
buffer to the split callback. -/
structure StreamReader where
  call : ℕ
  total : Option ℕ := none
  deriving DecidableEq, Repr

/-- `any_stream_track::impl_t`, with the calls of `read_frame` that are under way; `α` is
`media_frame`. -/
structure StreamTrack (α : Type) where
  ended : Bool := false
  q : List α := []
  buffer : Bytes := []
  waiting : List ℕ := []
  reader : Option StreamReader := none
  deriving DecidableEq, Repr

/-- What `read_some` completes with: the bytes it has put behind the buffer, and whether
there was an error. -/
structure StreamRead where
  failed : Bool := false
  data : Bytes := []
  deriving DecidableEq, Repr

/-- The stream has ended for the call that reads: an error, or no byte. -/
def StreamRead.ends (r : StreamRead) : Bool := r.failed || r.data.isEmpty

/-- What a call returns: a frame, the end that its own read has met, or the empty result of a
track that has ended before. -/
inductive FrameResult (α : Type)
  | frame (f : α)
  | endOfStream
  | alreadyEnded
  deriving DecidableEq, Repr

namespace StreamTrack

/-- A step of some call. -/
inductive Event (α : Type)
  | call (i : ℕ)
  | lock (i : ℕ)
  | read (r : StreamRead)
  | split (frame : Option α) (consumed : ℕ)
  | stop
  deriving DecidableEq, Repr

/-- The front of the queue, for call `i`. -/
def takeFront (t : StreamTrack α) (i : ℕ) : Option (StreamTrack α × (ℕ × FrameResult α)) :=
  match t.q with
  | [] => none
  | f :: rest => some ({ t with q := rest }, (i, .frame f))

/-- Behind the loop over the buffer: what has been consumed goes, and the call takes a frame
or reads on. -/
def afterSplit (t : StreamTrack α) (i total : ℕ) :
    StreamTrack α × Option (ℕ × FrameResult α) :=
  let t := { t with buffer := t.buffer.drop total }
  match t.takeFront i with
  | some (t, r) => ({ t with reader := none }, some r)
  | none => ({ t with reader := some { call := i } }, none)

/-- One step, and what a call returns in it. -/
def step (t : StreamTrack α) : Event α → StreamTrack α × Option (ℕ × FrameResult α)
  | .call i =>
      if t.ended then (t, some (i, .alreadyEnded))
      else
        match t.takeFront i with
        | some (t, r) => (t, some r)
        | none => ({ t with waiting := t.waiting ++ [i] }, none)
  | .lock i => ({ t with waiting := t.waiting.erase i, reader := some { call := i } }, none)
  | .read r =>
      match t.reader with
      | none => (t, none)
      | some c =>
          let t := { t with buffer := t.buffer ++ r.data }
          if r.ends then ({ t with ended := true, reader := none }, some (c.call, .endOfStream))
          else ({ t with reader := some { c with total := some 0 } }, none)
  | .split frame consumed =>
      match t.reader with
      | some { call := i, total := some total } =>
          match frame with
          | none => t.afterSplit i (total + consumed)
          | some f =>
              let t := { t with q := t.q ++ [f] }
              if total + consumed = t.buffer.length then t.afterSplit i (total + consumed)
              else ({ t with reader := some { call := i, total := some (total + consumed) } }, none)
      | _ => (t, none)
  | .stop => ({ t with ended := true }, none)

/-- The steps that can happen: a call that is not under way begins, one that waits gets the
free lock, the read of the call that has it completes, and the callback stays in the buffer. -/
def Enabled (t : StreamTrack α) : Event α → Prop
  | .call i => i ∉ t.waiting ∧ ∀ c ∈ t.reader, c.call ≠ i
  | .lock i => i ∈ t.waiting ∧ t.reader = none
  | .read _ => ∃ c, t.reader = some c ∧ c.total = none
  | .split _ consumed =>
      ∃ c total, t.reader = some c ∧ c.total = some total ∧ total + consumed ≤ t.buffer.length
  | .stop => True

/-- A track and its readers, from the first call on. -/
def machine (α : Type) : Machine (StreamTrack α) (Event α) (Option (ℕ × FrameResult α)) :=
  ⟨{}, step⟩

/-! ### What has happened -/

/-- A history of steps, newest first. -/
abbrev History (α : Type) := List (StreamTrack α × Event α)

/-- The frame the split callback returns in a step. -/
def Event.frames : Event α → List α
  | .split (some f) _ => [f]
  | _ => []

/-- The step is a read that meets the end of the stream. -/
def Event.meetsEnd : Event α → Bool
  | .read r => r.ends
  | _ => false

/-- The frames the split callback has returned, in stream order. -/
def produced (h : History α) : List α := h.reverse.flatMap fun p => p.2.frames

/-- What the calls have returned, in order. -/
def returned (h : History α) : List (ℕ × FrameResult α) :=
  ((machine α).outputs h).filterMap fun r => r

/-- The frames among the results. -/
def delivered (rs : List (ℕ × FrameResult α)) : List α :=
  rs.filterMap fun r => match r.2 with
    | .frame f => some f
    | _ => none

/-- The frames are delivered in stream order, each by one call, and whenever a call has
returned the end of the stream, all of them had been delivered by then. -/
def DeliversAll (h : History α) : Prop :=
  delivered (returned h) <+: produced h ∧
    ∀ before i after, returned h = before ++ (i, .endOfStream) :: after →
      delivered before = produced h

/-- A read has met the end of the stream. -/
def EndMet (h : History α) : Prop := ∃ p ∈ h, p.2.meetsEnd = true

/-- The steps that lose no frame: the end of the stream is met with an empty queue only, and
the callback returns no frame after it. -/
def Lossless (h : History α) (t : StreamTrack α) (e : Event α) : Prop :=
  (e.meetsEnd = true → t.q = []) ∧ (e.frames ≠ [] → ¬ EndMet h)

/-- What a run has returned, with one more event. -/
theorem returned_cons (t : StreamTrack α) (e : Event α) (h : History α) :
    returned ((t, e) :: h) = returned h ++ (t.step e).2.toList := by
  rw [returned, Machine.outputs_cons, List.filterMap_append]
  congr 1

/-- The frames a run has made, with one more event. -/
theorem produced_cons (t : StreamTrack α) (e : Event α) (h : History α) :
    produced ((t, e) :: h) = produced h ++ e.frames := by
  simp [produced]

/-- The frames of two lists of results. -/
theorem delivered_append (rs rs' : List (ℕ × FrameResult α)) :
    delivered (rs ++ rs') = delivered rs ++ delivered rs' := List.filterMap_append

/-- The end is met by the last event or before it. -/
theorem endMet_cons {t : StreamTrack α} {e : Event α} {h : History α} :
    EndMet ((t, e) :: h) ↔ e.meetsEnd = true ∨ EndMet h := by
  simp [EndMet]

/-! ### One step -/

/-- Somebody is told that the stream has ended. -/
def TellsEnd (r : Option (ℕ × FrameResult α)) : Prop := ∃ i, r = some (i, .endOfStream)

section Step

variable {t : StreamTrack α} {i total : ℕ}

/-- What a call takes out of the queue it returns. -/
theorem takeFront_queue {t' : StreamTrack α} {r : ℕ × FrameResult α}
    (h : t.takeFront i = some (t', r)) :
    delivered [r] ++ t'.q = t.q ∧ ¬ TellsEnd (some r) := by
  unfold takeFront at h
  split at h
  · cases h
  · rename_i f rest hq
    obtain ⟨rfl, rfl⟩ := Prod.mk.inj (Option.some.inj h)
    rw [hq]
    exact ⟨rfl, by simp [TellsEnd]⟩

/-- Nothing else changes. -/
theorem takeFront_frame {t' : StreamTrack α} {r : ℕ × FrameResult α}
    (h : t.takeFront i = some (t', r)) : t'.waiting = t.waiting ∧ t'.reader = t.reader := by
  unfold takeFront at h
  split at h
  · cases h
  · obtain ⟨rfl, -⟩ := Prod.mk.inj (Option.some.inj h)
    exact ⟨rfl, rfl⟩

/-- Nothing is taken from an empty queue only. -/
theorem takeFront_none (h : t.takeFront i = none) : t.q = [] := by
  unfold takeFront at h
  split at h
  · assumption
  · cases h

/-- What a call takes from the queue is its front, and it does not tell the end. -/
theorem afterSplit_queue :
    delivered (t.afterSplit i total).2.toList ++ (t.afterSplit i total).1.q = t.q ∧
      ¬ TellsEnd (t.afterSplit i total).2 := by
  unfold afterSplit
  dsimp only
  split
  · rename_i t' r h
    have hq := takeFront_queue h
    exact hq
  · exact ⟨rfl, by simp [TellsEnd]⟩

/-- **What a step does to the frames**: those that are queued and those that the callback
returns are delivered in front and stay queued behind. -/
theorem step_queue {e : Event α} (he : t.Enabled e) :
    delivered (t.step e).2.toList ++ (t.step e).1.q = t.q ++ e.frames := by
  cases e with
  | call i =>
    simp only [step, Event.frames, List.append_nil]
    split
    · rfl
    · split
      · rename_i t' r h
        exact (takeFront_queue h).1
      · rfl
  | lock i => simp [step, Event.frames, delivered]
  | read r =>
    obtain ⟨c, hc, -⟩ := he
    simp only [step, hc, Event.frames, List.append_nil]
    split <;> rfl
  | split frame consumed =>
    obtain ⟨⟨i, t0⟩, total, hc, rfl, -⟩ := he
    cases frame with
    | none =>
      simp only [step, hc, Event.frames, List.append_nil]
      exact afterSplit_queue.1
    | some f =>
      simp only [step, hc, Event.frames]
      split
      · exact afterSplit_queue.1
      · rfl
  | stop => simp [step, Event.frames, delivered]

/-- Only a read that meets the end tells it. -/
theorem step_tellsEnd {e : Event α} (he : t.Enabled e) :
    TellsEnd (t.step e).2 ↔ e.meetsEnd = true := by
  cases e with
  | call i =>
    refine iff_of_false ?_ (by simp [Event.meetsEnd])
    rw [step]
    split
    · simp [TellsEnd]
    · split
      · rename_i t' r h
        exact (takeFront_queue h).2
      · simp [TellsEnd]
  | lock i => simp [step, Event.meetsEnd, TellsEnd]
  | read r =>
    obtain ⟨c, hc, -⟩ := he
    simp only [step, hc, Event.meetsEnd, TellsEnd]
    split <;> simp_all
  | split frame consumed =>
    refine iff_of_false ?_ (by simp [Event.meetsEnd])
    obtain ⟨⟨i, t0⟩, total, hc, rfl, -⟩ := he
    cases frame with
    | none =>
      simp only [step, hc]
      exact afterSplit_queue.2
    | some f =>
      simp only [step, hc]
      split
      · exact afterSplit_queue.2
      · simp [TellsEnd]
  | stop => simp [step, Event.meetsEnd, TellsEnd]

end Step

/-! ### Runs -/

/-- The runs of a track and its readers. -/
abbrev Reaches (h : History α) (t : StreamTrack α) : Prop :=
  Run (machine α) (fun _ t e => t.Enabled e) h t

/-- **Frames are delivered in stream order**, and those not delivered yet are queued. -/
theorem delivered_queue {h : History α} {t : StreamTrack α} (hr : Reaches h t) :
    delivered (returned h) ++ t.q = produced h := by
  refine hr.invariant (P := fun h t => delivered (returned h) ++ t.q = produced h) rfl
    fun h t e _ hinv he => ?_
  have hstep : delivered (t.step e).2.toList ++ ((machine α).next t e).q = t.q ++ e.frames :=
    step_queue he
  rw [returned_cons, delivered_append, produced_cons, List.append_assoc, hstep,
    ← List.append_assoc, hinv]

/-- A call has returned the end exactly when a read has met it. -/
theorem endOfStream_iff {h : History α} {t : StreamTrack α} (hr : Reaches h t) :
    (∃ i, (i, FrameResult.endOfStream) ∈ returned h) ↔ EndMet h := by
  refine hr.invariant (P := fun h _ => (∃ i, (i, FrameResult.endOfStream) ∈ returned h) ↔ EndMet h)
    (by simp [returned, EndMet]) fun h t e _ hinv he => ?_
  rw [returned_cons, endMet_cons, ← hinv, ← step_tellsEnd he]
  simp only [List.mem_append, Option.mem_toList, exists_or, TellsEnd]
  exact or_comm

/-- A result among those of a run and the last step is one of the run, or the last one. -/
theorem split_append_toList {β : Type} {l before after : List β} {x : β} {o : Option β}
    (h : l ++ o.toList = before ++ x :: after) :
    (∃ after', l = before ++ x :: after') ∨ (o = some x ∧ before = l) := by
  cases o with
  | none => exact .inl ⟨after, by simpa using h⟩
  | some y =>
    rcases List.eq_nil_or_concat after with rfl | ⟨after', z, rfl⟩
    · obtain ⟨hl, hx⟩ := List.append_inj' h rfl
      exact .inr ⟨by simpa using hx, hl.symm⟩
    · rw [List.concat_eq_append, ← List.cons_append, ← List.append_assoc] at h
      exact .inl ⟨after', (List.append_inj' h rfl).1⟩

/-- The event that meets the end brings no frame. -/
theorem frames_of_meetsEnd {e : Event α} (h : e.meetsEnd = true) : e.frames = [] := by
  cases e with
  | read r => rfl
  | _ => simp [Event.meetsEnd] at h

/-- What was delivered in front of some result is a part of what has been produced. -/
theorem delivered_length_le {h : History α} {t : StreamTrack α} (hr : Reaches h t)
    {before after : List (ℕ × FrameResult α)} {r : ℕ × FrameResult α}
    (hret : returned h = before ++ r :: after) :
    (delivered before).length ≤ (produced h).length := by
  rw [← delivered_queue hr, hret, delivered_append]
  simp only [List.length_append]
  omega

/-- Where nothing is lost up to a step and behind it, the callback returns nothing in that
step once the end has been told. -/
theorem DeliversAll.told {h : History α} {t : StreamTrack α} {e : Event α} (hr : Reaches h t)
    (hall : DeliversAll ((t, e) :: h)) {before after : List (ℕ × FrameResult α)} {i : ℕ}
    (hret : returned h = before ++ (i, .endOfStream) :: after) :
    e.frames = [] ∧ delivered before = produced h := by
  have hfull := hall.2 before i (after ++ (t.step e).2.toList) (by rw [returned_cons, hret]; simp)
  rw [produced_cons] at hfull
  have hlen := congrArg List.length hfull
  have hle := delivered_length_le hr hret
  rw [List.length_append] at hlen
  have hframes : e.frames = [] := List.length_eq_zero_iff.1 (by omega)
  rw [hframes, List.append_nil] at hfull
  exact ⟨hframes, hfull⟩

/-- A run that delivers all has lost nothing in its last step. -/
theorem DeliversAll.lossless {h : History α} {t : StreamTrack α} {e : Event α}
    (hr : Reaches h t) (he : t.Enabled e) (hall : DeliversAll ((t, e) :: h)) :
    Lossless h t e := by
  constructor
  · intro hmeets
    obtain ⟨i, hi⟩ := (step_tellsEnd he).2 hmeets
    have hfull := hall.2 (returned h) i [] (by rw [returned_cons, hi]; rfl)
    rw [produced_cons, frames_of_meetsEnd hmeets, List.append_nil, ← delivered_queue hr] at hfull
    simpa using hfull
  · intro hframes hmet
    obtain ⟨i, hi⟩ := (endOfStream_iff hr).2 hmet
    obtain ⟨before, after, hret⟩ := List.append_of_mem hi
    exact hframes (hall.told hr hret).1

/-- A step that loses nothing keeps it so. -/
theorem DeliversAll.cons {h : History α} {t : StreamTrack α} {e : Event α} (hr : Reaches h t)
    (he : t.Enabled e) (hall : DeliversAll h) (hlossless : Lossless h t e) :
    DeliversAll ((t, e) :: h) := by
  refine ⟨⟨_, delivered_queue (hr.step (M := machine α) he)⟩, fun before i after hret => ?_⟩
  rw [returned_cons] at hret
  rw [produced_cons]
  rcases split_append_toList hret with ⟨after', hold⟩ | ⟨hout, rfl⟩
  · have hframes : e.frames = [] := by
      by_contra hne
      exact hlossless.2 hne ((endOfStream_iff hr).1 ⟨i, by rw [hold]; simp⟩)
    rw [hframes, List.append_nil]
    exact hall.2 before i after' hold
  · have hmeets := (step_tellsEnd he).1 ⟨i, hout⟩
    rw [frames_of_meetsEnd hmeets, List.append_nil, ← delivered_queue hr, hlossless.1 hmeets,
      List.append_nil]

/-- **One step more.**  Nothing is lost up to a step and behind it exactly when nothing is
lost up to it and it loses nothing. -/
theorem deliversAll_cons {h : History α} {t : StreamTrack α} {e : Event α} (hr : Reaches h t)
    (he : t.Enabled e) : DeliversAll ((t, e) :: h) ↔ DeliversAll h ∧ Lossless h t e := by
  constructor
  · intro hall
    exact ⟨⟨⟨t.q, delivered_queue hr⟩, fun before i after hret => (hall.told hr hret).2⟩,
      hall.lossless hr he⟩
  · rintro ⟨hall, hlossless⟩
    exact hall.cons hr he hlossless

/-- **When every frame is delivered.**  The runs in which no read meets the end of the stream
while frames are queued, and the callback returns no frame after one has, are exactly the
runs in which every frame is delivered by one call, in stream order, before any call returns
the end. -/
theorem delivers_all_iff (h : History α) (t : StreamTrack α) :
    Run (machine α) (fun h t e => t.Enabled e ∧ Lossless h t e) h t ↔
      Reaches h t ∧ DeliversAll h := by
  constructor
  · intro hr
    refine ⟨hr.mono fun _ _ _ hg => hg.1, ?_⟩
    refine hr.invariant (P := fun h _ => DeliversAll h) ?_ fun h t e hr hinv hg => ?_
    · exact ⟨List.nil_prefix, fun before i after h => by simp [returned] at h⟩
    · exact (deliversAll_cons (hr.mono fun _ _ _ hg => hg.1) hg.1).2 ⟨hinv, hg.2⟩
  · rintro ⟨hr, hall⟩
    induction hr with
    | init => exact .init
    | step hr he ih =>
      obtain ⟨hold, hlossless⟩ := (deliversAll_cons hr he).1 hall
      exact .step (ih hold) ⟨he, hlossless⟩

/-! ### One caller -/

/-- A track with one call at a time: who waits or reads finds no frame, and behind the end
nobody does. -/
structure Calm (h : History α) (t : StreamTrack α) : Prop where
  one : t.waiting.length + t.reader.toList.length ≤ 1
  waits : t.waiting ≠ [] → t.q = []
  reads : ∀ c ∈ t.reader, c.total = none → t.q = []
  ended : EndMet h → t.ended = true ∧ t.waiting = [] ∧ t.reader = none

/-- A call begins while no other one is under way. -/
def Alone (t : StreamTrack α) (e : Event α) : Prop :=
  ∀ i, e = .call i → t.waiting = [] ∧ t.reader = none

/-- A call that returns with nobody waiting leaves the track calm. -/
theorem Calm.afterSplit {h : History α} {t : StreamTrack α} {i total : ℕ} (hw : t.waiting = [])
    (hend : ¬ EndMet h) : Calm h (t.afterSplit i total).1 := by
  unfold StreamTrack.afterSplit
  dsimp only
  split
  · rename_i t' r hfront
    obtain ⟨hwait, -⟩ := takeFront_frame hfront
    exact ⟨by simp [hwait, hw], by simp [hwait, hw], by simp, fun h => absurd h hend⟩
  · rename_i hfront
    have hq := takeFront_none hfront
    exact ⟨by simp [hw], fun _ => hq, fun _ _ _ => hq, fun h => absurd h hend⟩

/-- Who reads is the only call, and the end has not been met. -/
theorem Calm.reading {h : History α} {t : StreamTrack α} {c : StreamReader} (hc : Calm h t)
    (hreader : t.reader = some c) : t.waiting = [] ∧ ¬ EndMet h := by
  constructor
  · have hone := hc.one
    rw [hreader] at hone
    exact List.length_eq_zero_iff.1 (Nat.le_zero.1 (Nat.le_of_succ_le_succ hone))
  · intro hmet
    rw [(hc.ended hmet).2.2] at hreader
    cases hreader

/-- A step that meets no end leaves it as unmet as it was. -/
theorem endMet_cons_of_not {t : StreamTrack α} {e : Event α} {h : History α}
    (he : e.meetsEnd = false) : EndMet ((t, e) :: h) ↔ EndMet h := by
  simp [endMet_cons, he]

/-- A call with nobody in front of it. -/
theorem Calm.call {h : History α} {t : StreamTrack α} {i : ℕ} (hc : Calm h t)
    (hw : t.waiting = []) (hr : t.reader = none) :
    Calm ((t, .call i) :: h) (t.step (.call i)).1 := by
  have hmet : EndMet ((t, .call i) :: h) ↔ EndMet h := endMet_cons_of_not rfl
  rw [StreamTrack.step]
  split
  · exact ⟨hc.one, hc.waits, hc.reads, fun h => hc.ended (hmet.1 h)⟩
  · rename_i hlive
    have hend : ¬ EndMet ((t, .call i) :: h) := fun h => hlive (hc.ended (hmet.1 h)).1
    split
    · rename_i t' r hfront
      obtain ⟨hwait, hreader⟩ := takeFront_frame hfront
      exact ⟨by simp [hwait, hreader, hw, hr], by simp [hwait, hw], by simp [hreader, hr],
        fun h => absurd h hend⟩
    · rename_i hfront
      have hq := takeFront_none hfront
      exact ⟨by simp [hw, hr], fun _ => hq, by simp [hr], fun h => absurd h hend⟩

/-- A call that gets the lock. -/
theorem Calm.lock {h : History α} {t : StreamTrack α} {i : ℕ} (hc : Calm h t)
    (hi : i ∈ t.waiting) : Calm ((t, .lock i) :: h) (t.step (.lock i)).1 := by
  have hq := hc.waits (List.ne_nil_of_mem hi)
  have hone := hc.one
  have hlen := List.length_erase_of_mem hi
  have hpos := List.length_pos_of_mem hi
  have hw : t.waiting.erase i = [] := List.length_eq_zero_iff.1 (by omega)
  refine ⟨by simp [StreamTrack.step, hw], fun _ => hq, fun _ _ _ => hq, fun h => ?_⟩
  rw [(hc.ended ((endMet_cons_of_not rfl).1 h)).2.1] at hi
  cases hi

/-- A read of the call that has the lock. -/
theorem Calm.read {h : History α} {t : StreamTrack α} {r : StreamRead} {c : StreamReader}
    (hc : Calm h t) (hreader : t.reader = some c) :
    Calm ((t, .read r) :: h) (t.step (.read r)).1 := by
  obtain ⟨hw, hend⟩ := hc.reading hreader
  simp only [StreamTrack.step, hreader]
  split
  · exact ⟨by simp [hw], by simp [hw], by simp, fun _ => ⟨rfl, hw, rfl⟩⟩
  · rename_i hends
    have hmet : ¬ EndMet ((t, .read r) :: h) := by
      rw [endMet_cons]
      exact fun h => h.elim hends hend
    exact ⟨by simp [hw], by simp [hw], by simp, fun h => absurd h hmet⟩

/-- A frame that is split off for it. -/
theorem Calm.split {h : History α} {t : StreamTrack α} {frame : Option α} {consumed total : ℕ}
    {c : StreamReader} (hc : Calm h t) (hreader : t.reader = some c) (ht : c.total = some total) :
    Calm ((t, .split frame consumed) :: h) (t.step (.split frame consumed)).1 := by
  obtain ⟨i, t0⟩ := c
  obtain rfl : t0 = some total := ht
  obtain ⟨hw, hend⟩ := hc.reading hreader
  have hmet : ¬ EndMet ((t, .split frame consumed) :: h) := fun h =>
    hend ((endMet_cons_of_not rfl).1 h)
  cases frame with
  | none =>
    simp only [StreamTrack.step, hreader]
    exact Calm.afterSplit hw hmet
  | some f =>
    simp only [StreamTrack.step, hreader]
    split
    · exact Calm.afterSplit hw hmet
    · exact ⟨by simp [hw], by simp [hw], by simp, fun h => absurd h hmet⟩

/-- The track is stopped. -/
theorem Calm.stop {h : History α} {t : StreamTrack α} (hc : Calm h t) :
    Calm ((t, .stop) :: h) (t.step .stop).1 :=
  ⟨hc.one, hc.waits, hc.reads,
    fun hmet => ⟨rfl, (hc.ended ((endMet_cons_of_not rfl).1 hmet)).2⟩⟩

/-- Each event of a call that is alone keeps the track calm. -/
theorem Calm.step {h : History α} {t : StreamTrack α} {e : Event α} (hc : Calm h t)
    (he : t.Enabled e) (ha : Alone t e) : Calm ((t, e) :: h) (t.step e).1 := by
  cases e with
  | call i =>
    obtain ⟨hw, hr⟩ := ha i rfl
    exact hc.call hw hr
  | lock i => exact hc.lock he.1
  | read r =>
    obtain ⟨c, hreader, -⟩ := he
    exact hc.read hreader
  | split frame consumed =>
    obtain ⟨c, total, hreader, htotal, -⟩ := he
    exact hc.split hreader htotal
  | stop => exact hc.stop

/-- Such a step loses nothing. -/
theorem Calm.lossless {h : History α} {t : StreamTrack α} {e : Event α} (hc : Calm h t)
    (he : t.Enabled e) : Lossless h t e := by
  refine ⟨fun hmeets => ?_, fun hframes hmet => ?_⟩
  · cases e with
    | read r =>
      obtain ⟨c, hreader, htotal⟩ := he
      exact hc.reads c hreader htotal
    | _ => simp [Event.meetsEnd] at hmeets
  · cases e with
    | split frame consumed =>
      obtain ⟨c, total, hreader, -⟩ := he
      exact (hc.reading hreader).2 hmet
    | _ => simp [Event.frames] at hframes

/-- **One caller at a time loses nothing.**  Where each call begins after the one before has
returned, every frame is delivered before the end is. -/
theorem alone_delivers {h : History α} {t : StreamTrack α}
    (hr : Run (machine α) (fun _ t e => t.Enabled e ∧ Alone t e) h t) : DeliversAll h := by
  suffices hcalm : Calm h t ∧ DeliversAll h from hcalm.2
  refine hr.invariant (P := fun h t => Calm h t ∧ DeliversAll h) ?_ fun h t e hr hinv hg => ?_
  · refine ⟨⟨by simp [machine], by simp [machine], by simp [machine], by simp [EndMet]⟩,
      List.nil_prefix, fun before i after h => by simp [returned] at h⟩
  · have hreach : Reaches h t := hr.mono fun _ _ _ hg => hg.1
    exact ⟨hinv.1.step hg.1 hg.2,
      (deliversAll_cons hreach hg.1).2 ⟨hinv.2, hinv.1.lossless hg.1⟩⟩

/-! ### Two callers -/

/-- Two calls, one after the other for the lock: the first one gets two frames out of its
read, the second one meets the end. -/
def twoReaders : List (Event ℕ) :=
  [.call 0, .lock 0, .call 1, .read { data := [1, 2] }, .split (some 10) 1, .split (some 11) 1,
    .lock 1, .read { data := [] }]

/-- **A queued frame is lost at the end of the stream.** -/
theorem twoReaders_lose :
    Reaches ((machine ℕ).trace [] (machine ℕ).init twoReaders)
        ((machine ℕ).exec (machine ℕ).init twoReaders) ∧
      ¬ DeliversAll ((machine ℕ).trace [] (machine ℕ).init twoReaders) := by
  constructor
  · refine Run.guarded_iff.2 ⟨(machine ℕ).run_play twoReaders .init, ?_⟩
    simp only [twoReaders, Machine.trace, Machine.next, machine, List.forall_mem_cons]
    simp [Enabled, step, takeFront, afterSplit, StreamRead.ends]
  · rintro ⟨-, hall⟩
    have hproduced : produced ((machine ℕ).trace [] (machine ℕ).init twoReaders) = [10, 11] := by
      decide
    have hreturned : returned ((machine ℕ).trace [] (machine ℕ).init twoReaders) =
        [(0, .frame 10), (1, .endOfStream)] := by
      decide
    have hlost := hall [(0, .frame 10)] 1 [] hreturned
    rw [hproduced] at hlost
    exact absurd hlost (by decide)

end StreamTrack
end AsioRtc
