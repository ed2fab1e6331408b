/-
# Deterministic machines and their runs

A component that only changes when it is called is a state, a start value and
one function that takes the state and a call to the next state and to what the
call puts out (`Machine`).  What holds of it over time is a statement about a
run: the calls made so far, each with the state it was made in, newest first
(`Run`).  The history is kept with its states, so that a statement may speak of
"the newest number received so far" or "the time the gap was first seen"
without the component itself remembering it.

A run carries a guard `G h s e`: the step `e` is taken in state `s` after the
history `h` only where the guard allows it.  `fun _ _ _ => True` is the run with
no restriction (`Machine.run_play`).  An invariant is proved once per kind of
call and holds of every run by `Run.invariant`; `Run.simulates` carries a run of
one machine over to a machine that is easier to reason about.
-/

import Mathlib.Data.List.Basic
import Mathlib.Logic.Relation

namespace AsioRtc
namespace Lib

variable {σ ε ω τ : Type*}

/-- A component: where it starts, and what one call does and puts out. -/
structure Machine (σ ε ω : Type*) where
  init : σ
  step : σ → ε → σ × ω

namespace Machine

/-- The state after one call. -/
def next (M : Machine σ ε ω) (s : σ) (e : ε) : σ := (M.step s e).1

/-- What one call puts out. -/
def out (M : Machine σ ε ω) (s : σ) (e : ε) : ω := (M.step s e).2

/-- The state after the calls `es`, in order. -/
def exec (M : Machine σ ε ω) : σ → List ε → σ
  | s, [] => s
  | s, e :: es => M.exec (M.next s e) es

/-- The history that the calls `es` leave behind, on top of `h`. -/
def trace (M : Machine σ ε ω) : List (σ × ε) → σ → List ε → List (σ × ε)
  | h, _, [] => h
  | h, s, e :: es => M.trace ((s, e) :: h) (M.next s e) es

theorem exec_append (M : Machine σ ε ω) (s : σ) (es es' : List ε) :
    M.exec s (es ++ es') = M.exec (M.exec s es) es' := by
  induction es generalizing s with
  | nil => rfl
  | cons e es ih => exact ih (M.next s e)

theorem trace_append (M : Machine σ ε ω) (h : List (σ × ε)) (s : σ) (es es' : List ε) :
    M.trace h s (es ++ es') = M.trace (M.trace h s es) (M.exec s es) es' := by
  induction es generalizing h s with
  | nil => rfl
  | cons e es ih => exact ih ((s, e) :: h) (M.next s e)

/-- What the calls of a history put out, oldest first. -/
def outputs (M : Machine σ ε ω) (h : List (σ × ε)) : List ω :=
  (h.map fun p => M.out p.1 p.2).reverse

@[simp] theorem outputs_nil (M : Machine σ ε ω) : M.outputs [] = [] := rfl

@[simp] theorem outputs_cons (M : Machine σ ε ω) (s : σ) (e : ε) (h : List (σ × ε)) :
    M.outputs ((s, e) :: h) = M.outputs h ++ [M.out s e] := by
  simp [outputs]

end Machine

/-- `h` is the history of a run of `M` that has reached `s`, every step of which
met the guard `G`. -/
inductive Run (M : Machine σ ε ω) (G : List (σ × ε) → σ → ε → Prop) :
    List (σ × ε) → σ → Prop
  | init : Run M G [] M.init
  | step {h s e} : Run M G h s → G h s e → Run M G ((s, e) :: h) (M.next s e)

namespace Run

variable {M : Machine σ ε ω} {G G' : List (σ × ε) → σ → ε → Prop} {h : List (σ × ε)} {s : σ}

/-- **The invariant rule.**  What holds at the start and is kept by every
guarded step holds wherever a run gets to. -/
theorem invariant {P : List (σ × ε) → σ → Prop} (hinit : P [] M.init)
    (hstep : ∀ h s e, Run M G h s → P h s → G h s e → P ((s, e) :: h) (M.next s e))
    (hr : Run M G h s) : P h s := by
  induction hr with
  | init => exact hinit
  | step hr hg ih => exact hstep _ _ _ hr ih hg

/-- One more step, with the state it leads to. -/
theorem snoc {e : ε} {s' : σ} (hr : Run M G h s) (hg : G h s e) (hs : M.next s e = s') :
    Run M G ((s, e) :: h) s' :=
  hs ▸ .step hr hg

/-- A run under a guard is a run under any weaker one. -/
theorem mono (hG : ∀ h s e, G h s e → G' h s e) (hr : Run M G h s) : Run M G' h s := by
  induction hr with
  | init => exact .init
  | step _ hg ih => exact .step ih (hG _ _ _ hg)

/-- Every step of a run met the guard, in the state it was taken in. -/
theorem guard_of_mem (hr : Run M G h s) {t : σ} {e : ε} (hm : (t, e) ∈ h) :
    ∃ h', Run M G h' t ∧ G h' t e := by
  induction hr with
  | init => exact absurd hm List.not_mem_nil
  | step hr hg ih =>
    rcases List.mem_cons.1 hm with heq | hm
    · obtain ⟨rfl, rfl⟩ := Prod.mk.inj heq
      exact ⟨_, hr, hg⟩
    · exact ih hm

/-- A run whose steps all meet a condition on the state they are taken in is a run with no
restriction, every step of which meets it. -/
theorem guarded_iff {P : σ → ε → Prop} :
    Run M (fun _ s e => P s e) h s ↔
      Run M (fun _ _ _ => True) h s ∧ ∀ p ∈ h, P p.1 p.2 := by
  constructor
  · intro hr
    refine ⟨hr.mono fun _ _ _ _ => trivial, fun p hp => ?_⟩
    obtain ⟨_, -, hP⟩ := hr.guard_of_mem hp
    exact hP
  · rintro ⟨hr, hall⟩
    induction hr with
    | init => exact .init
    | step hr _ ih =>
      exact .step (ih fun p hp => hall p (List.mem_cons_of_mem _ hp)) (hall _ (List.mem_cons_self ..))

/-- **When a property holds all along a run.**  Where each step keeps it just under a condition, it
holds in every state of a run just where every step meets that condition. -/
theorem always_iff {P : σ → Prop} {Q : σ → ε → Prop} (hinit : P M.init)
    (hstep : ∀ h s e, G h s e → P s → (P (M.next s e) ↔ Q s e)) (hr : Run M G h s) :
    (∀ t ∈ s :: h.map Prod.fst, P t) ↔ ∀ p ∈ h, Q p.1 p.2 := by
  induction hr with
  | init => simpa using hinit
  | @step h s e _ hg ih =>
    rw [List.map_cons, List.forall_mem_cons, ih, List.forall_mem_cons]
    refine and_congr_left fun hall => hstep h s e hg (ih.2 hall s (List.mem_cons_self ..))

/-- **The simulation rule.**  If every guarded step of `M` is matched by some run of
steps of `N`, from related states to related states, then whatever `M` reaches is
related to something `N` reaches.  The relation may speak of the history. -/
theorem simulates {N : τ → τ → Prop} {R : List (σ × ε) → σ → τ → Prop} {b₀ : τ}
    (hinit : R [] M.init b₀)
    (hstep : ∀ h s e b, Run M G h s → R h s b → G h s e →
      ∃ b', Relation.ReflTransGen N b b' ∧ R ((s, e) :: h) (M.next s e) b')
    (hr : Run M G h s) : ∃ b, Relation.ReflTransGen N b₀ b ∧ R h s b := by
  induction hr with
  | init => exact ⟨b₀, .refl, hinit⟩
  | step hr hg ih =>
    obtain ⟨b, hb, hR⟩ := ih
    obtain ⟨b', hb', hR'⟩ := hstep _ _ _ b hr hR hg
    exact ⟨b', hb.trans hb', hR'⟩

end Run

/-- Playing a list of calls is a run, when nothing restricts it. -/
theorem Machine.run_play (M : Machine σ ε ω) (es : List ε) {h : List (σ × ε)} {s : σ}
    (hr : Run M (fun _ _ _ => True) h s) :
    Run M (fun _ _ _ => True) (M.trace h s es) (M.exec s es) := by
  induction es generalizing h s with
  | nil => exact hr
  | cons e es ih => exact ih (.step hr trivial)

end Lib
end AsioRtc
