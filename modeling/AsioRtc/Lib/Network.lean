/-
# A sender, a receiver, and a network between them

Two machines that share nothing but messages.  A call of the sender puts out the
messages it sends; the receiver gets messages and takes steps of its own.  What
lies between is a parameter (`Network`): which message may arrive next, given what
has been sent and what has arrived.  `Network.lossy` loses, repeats and reorders;
`Network.fifo` brings each message once and in order, at any time.

A run of the pair (`NetRun`) is a run of the sender (`NetRun.sender`), whatever arrives of
what it sends.  What holds of both at every time is an invariant of their two histories,
kept by what the sender sends, by what arrives, and by what the receiver does of its own
(`NetRun.invariant`).
-/

import AsioRtc.Lib.Machine

namespace AsioRtc
namespace Lib

variable {σ τ α β γ μ ω : Type*}

/-- A step of a receiver: a message arrives, in circumstances that are not the
sender's, or the receiver does something of its own. -/
inductive Arrival (μ γ β : Type*)
  | message (m : μ) (circumstances : γ)
  | own (b : β)

/-- Which message may arrive next, given what has been sent and what has arrived,
both oldest first. -/
abbrev Network (μ : Type*) := List μ → List μ → μ → Prop

namespace Network

/-- Any message that has been sent, as often as it likes. -/
def lossy (μ : Type*) : Network μ := fun sent _ m => m ∈ sent

/-- The messages in their order, each once. -/
def fifo (μ : Type*) : Network μ := fun sent arrived m => arrived ++ [m] <+: sent

end Network

namespace Machine

/-- The messages that the calls of a history sent, oldest first. -/
def sent (A : Machine σ α (List μ)) (h : List (σ × α)) : List μ := (A.outputs h).flatten

@[simp] theorem sent_nil (A : Machine σ α (List μ)) : A.sent [] = [] := rfl

@[simp] theorem sent_cons (A : Machine σ α (List μ)) (s : σ) (e : α) (h : List (σ × α)) :
    A.sent ((s, e) :: h) = A.sent h ++ A.out s e := by
  simp [sent]

end Machine

/-- The messages that have arrived in a history, oldest first. -/
def arrived : List (τ × Arrival μ γ β) → List μ
  | [] => []
  | (_, .message m _) :: h => arrived h ++ [m]
  | (_, .own _) :: h => arrived h

/-- `h` and `h'` are the histories of a sender that has reached `s` and of a receiver
that has reached `t`, with the network `N` between them.  The guard of the receiver may
speak of both histories. -/
inductive NetRun (N : Network μ) (A : Machine σ α (List μ)) (GA : List (σ × α) → σ → α → Prop)
    (B : Machine τ (Arrival μ γ β) ω)
    (GB : List (σ × α) → List (τ × Arrival μ γ β) → τ → Arrival μ γ β → Prop) :
    List (σ × α) → σ → List (τ × Arrival μ γ β) → τ → Prop
  | init : NetRun N A GA B GB [] A.init [] B.init
  | send {h s h' t e} : NetRun N A GA B GB h s h' t → GA h s e →
      NetRun N A GA B GB ((s, e) :: h) (A.next s e) h' t
  | arrive {h s h' t m c} : NetRun N A GA B GB h s h' t → N (A.sent h) (arrived h') m →
      GB h h' t (.message m c) →
      NetRun N A GA B GB h s ((t, .message m c) :: h') (B.next t (.message m c))
  | own {h s h' t b} : NetRun N A GA B GB h s h' t → GB h h' t (.own b) →
      NetRun N A GA B GB h s ((t, .own b) :: h') (B.next t (.own b))

namespace NetRun

variable {N : Network μ} {A : Machine σ α (List μ)} {GA : List (σ × α) → σ → α → Prop}
  {B : Machine τ (Arrival μ γ β) ω}
  {GB : List (σ × α) → List (τ × Arrival μ γ β) → τ → Arrival μ γ β → Prop}
  {h : List (σ × α)} {s : σ} {h' : List (τ × Arrival μ γ β)} {t : τ}

/-- The sender's side is a run of the sender. -/
theorem sender (hr : NetRun N A GA B GB h s h' t) : Run A GA h s := by
  induction hr with
  | init => exact .init
  | send _ hg ih => exact .step ih hg
  | arrive _ _ _ ih => exact ih
  | own _ _ ih => exact ih

/-- **The invariant rule for a pair.** -/
theorem invariant {P : List (σ × α) → σ → List (τ × Arrival μ γ β) → τ → Prop}
    (hinit : P [] A.init [] B.init)
    (hsend : ∀ h s h' t e, NetRun N A GA B GB h s h' t → P h s h' t → GA h s e →
      P ((s, e) :: h) (A.next s e) h' t)
    (harrive : ∀ h s h' t m c, NetRun N A GA B GB h s h' t → P h s h' t →
      N (A.sent h) (arrived h') m → GB h h' t (.message m c) →
      P h s ((t, .message m c) :: h') (B.next t (.message m c)))
    (hown : ∀ h s h' t b, NetRun N A GA B GB h s h' t → P h s h' t → GB h h' t (.own b) →
      P h s ((t, .own b) :: h') (B.next t (.own b)))
    (hr : NetRun N A GA B GB h s h' t) : P h s h' t := by
  induction hr with
  | init => exact hinit
  | send hr hg ih => exact hsend _ _ _ _ _ hr ih hg
  | arrive hr hm hg ih => exact harrive _ _ _ _ _ _ hr ih hm hg
  | own hr hg ih => exact hown _ _ _ _ _ hr ih hg

end NetRun

end Lib
end AsioRtc
