/-
# Two machines side by side

Two machines whose steps are taken in any order (`PairRun`).  What links them is the guards: a
step of either may depend on what both have done, so what one hands to the other, and when, is
said there.  Each side is a run of its own (`PairRun.left`), the two sides may change places
(`PairRun.swap`), and an invariant of both is proved once for each side (`PairRun.invariant`).
-/

import AsioRtc.Lib.Machine

namespace AsioRtc
namespace Lib

variable {σ τ α β ω υ : Type*}

/-- When a machine takes a step: its history and state, and those of the other one. -/
abbrev PairGuard (σ α τ β : Type*) := List (σ × α) → σ → List (τ × β) → τ → α → Prop

/-- `h` and `h'` are the histories of two machines that have reached `s` and `t`. -/
inductive PairRun (A : Machine σ α ω) (GA : PairGuard σ α τ β) (B : Machine τ β υ)
    (GB : PairGuard τ β σ α) : List (σ × α) → σ → List (τ × β) → τ → Prop
  | init : PairRun A GA B GB [] A.init [] B.init
  | left {h s h' t e} : PairRun A GA B GB h s h' t → GA h s h' t e →
      PairRun A GA B GB ((s, e) :: h) (A.next s e) h' t
  | right {h s h' t e} : PairRun A GA B GB h s h' t → GB h' t h s e →
      PairRun A GA B GB h s ((t, e) :: h') (B.next t e)

namespace PairRun

variable {A : Machine σ α ω} {GA : PairGuard σ α τ β} {B : Machine τ β υ} {GB : PairGuard τ β σ α}
  {h : List (σ × α)} {s : σ} {h' : List (τ × β)} {t : τ}

/-- The sides change places. -/
theorem swap (hr : PairRun A GA B GB h s h' t) : PairRun B GB A GA h' t h s := by
  induction hr with
  | init => exact .init
  | left _ hg ih => exact .right ih hg
  | right _ hg ih => exact .left ih hg

/-- The left side is a run of its own, under whatever its guard says of it alone. -/
theorem left_run {G : List (σ × α) → σ → α → Prop} (hG : ∀ h s h' t e, GA h s h' t e → G h s e)
    (hr : PairRun A GA B GB h s h' t) : Run A G h s := by
  induction hr with
  | init => exact .init
  | left _ hg ih => exact .step ih (hG _ _ _ _ _ hg)
  | right _ _ ih => exact ih

/-- **The invariant rule for two sides.** -/
theorem invariant {P : List (σ × α) → σ → List (τ × β) → τ → Prop} (hinit : P [] A.init [] B.init)
    (hleft : ∀ h s h' t e, PairRun A GA B GB h s h' t → P h s h' t → GA h s h' t e →
      P ((s, e) :: h) (A.next s e) h' t)
    (hright : ∀ h s h' t e, PairRun A GA B GB h s h' t → P h s h' t → GB h' t h s e →
      P h s ((t, e) :: h') (B.next t e))
    (hr : PairRun A GA B GB h s h' t) : P h s h' t := by
  induction hr with
  | init => exact hinit
  | left hr hg ih => exact hleft _ _ _ _ _ hr ih hg
  | right hr hg ih => exact hright _ _ _ _ _ hr ih hg

end PairRun

end Lib
end AsioRtc
