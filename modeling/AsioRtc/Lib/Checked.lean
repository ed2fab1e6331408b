/-
# Computations whose memory accesses are checked

A reader that indexes a buffer, takes the front of a container or cuts a
substring goes wrong where the position is not there.  `Checked α` is such a
computation with every access checked: it ends in a value, or in the first
`Fault` it would have made.  A `while` loop is run for a bounded number of turns
(`loop`); one that has not ended by then is a fault too.

`x.Yields P` says that `x` makes no fault and ends in a value with `P`.  Its rules
are those of a Hoare logic: `Yields.bind` for a sequence, `Yields.mono` for a
consequence, `loop_yields` for a loop with an invariant and a variant.
`Checked.Safe` is the part that speaks of faults alone, and `Checked.Ends` of loops alone:
a fault there may be, but not for want of turns.
-/

import Mathlib.Data.List.Basic

namespace AsioRtc
namespace Lib

/-- An access outside the object it is made on, or a loop that does not end. -/
inductive Fault
  | index (i size : ℕ)
  | front
  | back
  | substr (pos size : ℕ)
  | removePrefix (n size : ℕ)
  | removeSuffix (n size : ℕ)
  | endless
  deriving DecidableEq, Repr

/-- A computation that ends in a value or in a fault. -/
abbrev Checked (α : Type) := Except Fault α

/-- What a turn of a loop ends in: a state to go on with, or the result. -/
inductive Turn (σ β : Type)
  | next (s : σ)
  | done (b : β)

/-- What holds of a turn: `N` of a state to go on with, `D` of the result. -/
def Turn.Holds {σ β : Type} (N : σ → Prop) (D : β → Prop) : Turn σ β → Prop
  | .next s => N s
  | .done b => D b

namespace Checked

variable {α β : Type} {x : Checked α} {f : α → Checked β} {P Q : α → Prop} {R : β → Prop}

/-- No fault, and the value satisfies `P`. -/
def Yields (x : Checked α) (P : α → Prop) : Prop := ∃ a, x = .ok a ∧ P a

/-- No fault. -/
def Safe (x : Checked α) : Prop := ∃ a, x = .ok a

/-- What yields something is safe. -/
theorem Yields.safe (h : Yields x P) : Safe x := ⟨h.choose, h.choose_spec.1⟩

/-- To be safe is to yield anything. -/
theorem safe_iff : Safe x ↔ Yields x fun _ => True := by simp [Safe, Yields]

/-- A weaker result. -/
theorem Yields.mono (h : Yields x P) (hPQ : ∀ a, P a → Q a) : Yields x Q := by
  obtain ⟨a, rfl, ha⟩ := h
  exact ⟨a, rfl, hPQ a ha⟩

/-- What is returned is the result. -/
@[simp] theorem yields_pure {a : α} : Yields (pure a : Checked α) P ↔ P a := by
  constructor
  · rintro ⟨_, h, hp⟩
    cases h
    exact hp
  · exact fun h => ⟨a, rfl, h⟩

/-- What is returned is the result. -/
@[simp] theorem yields_ok {a : α} : Yields (.ok a : Checked α) P ↔ P a := yields_pure

/-- Returning is safe. -/
@[simp] theorem safe_pure {a : α} : Safe (pure a : Checked α) := ⟨a, rfl⟩

/-- A fault is not safe. -/
@[simp] theorem not_safe_error {e : Fault} : ¬ Safe (.error e : Checked α) := by
  rintro ⟨_, h⟩
  cases h

/-- What follows a result. -/
@[simp] theorem ok_bind {a : α} : ((.ok a : Checked α) >>= f) = f a := rfl

/-- The value of a sequence of two steps comes from the values of both. -/
theorem bind_eq_ok {b : β} : (x >>= f) = .ok b ↔ ∃ a, x = .ok a ∧ f a = .ok b := by
  cases x with
  | error e => simp [bind, Except.bind]
  | ok a => simp [bind, Except.bind]

/-- **The rule of sequencing.** -/
theorem Yields.bind (hx : Yields x P) (hf : ∀ a, P a → Yields (f a) R) : Yields (x >>= f) R := by
  obtain ⟨a, rfl, ha⟩ := hx
  exact hf a ha

/-- One safe step after the other. -/
theorem Safe.bind (hx : Safe x) (hf : ∀ a, x = .ok a → Safe (f a)) : Safe (x >>= f) := by
  obtain ⟨a, rfl⟩ := hx
  exact hf a rfl

/-- A sequence is safe exactly when its first step is and what follows it is. -/
theorem safe_bind_iff : Safe (x >>= f) ↔ ∃ a, x = .ok a ∧ Safe (f a) := by
  constructor
  · rintro ⟨b, hb⟩
    obtain ⟨a, ha, hfa⟩ := bind_eq_ok.1 hb
    exact ⟨a, ha, b, hfa⟩
  · rintro ⟨a, rfl, hs⟩
    exact hs

/-- A choice between safe steps. -/
theorem Safe.ite {c : Prop} [Decidable c] {x y : Checked α} (hx : c → Safe x) (hy : ¬ c → Safe y) :
    Safe (if c then x else y) := by
  split
  · exact hx ‹_›
  · exact hy ‹_›

/-- Running a safe step for each element of a list is safe. -/
theorem Safe.foldlM {γ : Type} {g : β → γ → Checked β} {l : List γ} {b : β}
    (hg : ∀ b c, c ∈ l → Safe (g b c)) : Safe (l.foldlM g b) := by
  induction l generalizing b with
  | nil => exact safe_pure
  | cons c l ih =>
    rw [List.foldlM_cons]
    exact (hg b c (List.mem_cons_self ..)).bind fun b' _ =>
      ih fun b'' c' hc' => hg b'' c' (List.mem_cons_of_mem _ hc')

/-- What every step keeps is kept by a run over a list. -/
theorem Yields.foldlM {γ : Type} {g : β → γ → Checked β} {l : List γ} {b : β}
    (hg : ∀ b c, R b → c ∈ l → Yields (g b c) R) (hb : R b) : Yields (l.foldlM g b) R := by
  induction l generalizing b with
  | nil => exact yields_pure.2 hb
  | cons c l ih =>
    rw [List.foldlM_cons]
    exact (hg b c hb (List.mem_cons_self ..)).bind fun b' hb' =>
      ih (fun b'' c' h hc' => hg b'' c' h (List.mem_cons_of_mem _ hc')) hb'

/-- Running a step that ends in a value for each element of a list. -/
theorem mapM_ok {f : α → Checked β} {g : α → β} {l : List α} (h : ∀ a ∈ l, f a = .ok (g a)) :
    l.mapM f = .ok (l.map g) := by
  induction l with
  | nil => rfl
  | cons a l ih =>
    rw [List.mapM_cons, h a (List.mem_cons_self ..), ok_bind,
      ih fun b hb => h b (List.mem_cons_of_mem _ hb), ok_bind]
    rfl

/-- What each step of a run over a list ended in. -/
theorem forall₂_of_mapM {f : α → Checked β} {l : List α} {l' : List β} (h : l.mapM f = .ok l') :
    List.Forall₂ (fun a b => f a = .ok b) l l' := by
  induction l generalizing l' with
  | nil =>
    obtain rfl := Except.ok.inj h
    exact .nil
  | cons a l ih =>
    rw [List.mapM_cons] at h
    obtain ⟨b, hb, h⟩ := bind_eq_ok.1 h
    obtain ⟨bs, hbs, h⟩ := bind_eq_ok.1 h
    obtain rfl := Except.ok.inj h
    exact .cons hb (ih hbs)

/-- A `while` loop of at most `fuel` turns. -/
def loop {σ : Type} (turn : σ → Checked (Turn σ β)) : ℕ → σ → Checked β
  | 0, _ => .error .endless
  | fuel + 1, s => do
      match ← turn s with
      | .next s' => loop turn fuel s'
      | .done b => pure b

/-- A turn that ends the loop. -/
theorem yields_done {σ : Type} {N : σ → Prop} {b : β} :
    Yields (pure (.done b) : Checked (Turn σ β)) (Turn.Holds N R) ↔ R b := yields_pure

/-- A turn that goes on. -/
theorem yields_next {σ : Type} {N : σ → Prop} {s : σ} :
    Yields (pure (.next s) : Checked (Turn σ β)) (Turn.Holds N R) ↔ N s := yields_pure

/-- A turn that goes on. -/
theorem loop_next {σ : Type} {turn : σ → Checked (Turn σ β)} {s s' : σ} (fuel : ℕ)
    (h : turn s = .ok (.next s')) : loop turn (fuel + 1) s = loop turn fuel s' := by
  rw [loop, h]
  rfl

/-- A turn that ends. -/
theorem loop_done {σ : Type} {turn : σ → Checked (Turn σ β)} {s : σ} {b : β} (fuel : ℕ)
    (h : turn s = .ok (.done b)) : loop turn (fuel + 1) s = .ok b := by
  rw [loop, h]
  rfl

/-- A loop is safe when its first turn is, and so is the loop behind it if it goes on. -/
theorem safe_loop_iff {σ : Type} {turn : σ → Checked (Turn σ β)} {fuel : ℕ} {s : σ} :
    Safe (loop turn (fuel + 1) s) ↔
      (turn s).Yields (Turn.Holds (fun s' => Safe (loop turn fuel s')) fun _ => True) := by
  rw [loop, safe_bind_iff]
  constructor
  · rintro ⟨r, hr, h⟩
    cases r with
    | next s' => exact ⟨_, hr, h⟩
    | done b => exact ⟨_, hr, trivial⟩
  · rintro ⟨r, hr, h⟩
    cases r with
    | next s' => exact ⟨_, hr, h⟩
    | done b => exact ⟨_, hr, safe_pure⟩

/-- **The rule of loops.**  A turn that keeps `I` and makes the variant `size` smaller, or ends
with `R`, makes a loop that ends with `R`. -/
theorem loop_yields {σ : Type} {turn : σ → Checked (Turn σ β)} {I : σ → Prop} (size : σ → ℕ)
    (hturn : ∀ s, I s → (turn s).Yields (Turn.Holds (fun s' => I s' ∧ size s' < size s) R))
    {fuel : ℕ} {s : σ} (hs : I s) (hfuel : size s < fuel) : (loop turn fuel s).Yields R := by
  induction fuel generalizing s with
  | zero => omega
  | succ fuel ih =>
    refine (hturn s hs).bind fun r hr => ?_
    cases r with
    | next s' => exact ih hr.1 (Nat.lt_of_lt_of_le hr.2 (Nat.le_of_lt_succ hfuel))
    | done b => exact yields_pure.2 hr

/-- **The rule of loops that end.**  What every turn keeps holds where the loop ends, if it
does. -/
theorem loop_ok {σ : Type} {turn : σ → Checked (Turn σ β)} {I : σ → Prop}
    (hturn : ∀ s r, I s → turn s = .ok r → r.Holds I R) {fuel : ℕ} {s : σ} {b : β} (hs : I s)
    (h : loop turn fuel s = .ok b) : R b := by
  induction fuel generalizing s with
  | zero => cases h
  | succ fuel ih =>
    obtain ⟨r, hr, h⟩ := bind_eq_ok.1 h
    have hr := hturn s r hs hr
    cases r with
    | next s' => exact ih hr h
    | done b' => exact Except.ok.inj h ▸ hr

/-! ### Loops that end -/

/-- A value, or an invalid access. -/
structure Ends (x : Checked α) : Prop where
  ne_endless : x ≠ .error .endless

/-- A result is an end. -/
@[simp] theorem ends_ok {a : α} : Ends (.ok a : Checked α) := ⟨fun h => by cases h⟩

/-- Returning is an end. -/
@[simp] theorem ends_pure {a : α} : Ends (pure a : Checked α) := ends_ok

/-- What is safe ends. -/
theorem Safe.ends (h : Safe x) : Ends x := by
  obtain ⟨a, rfl⟩ := h
  exact ends_ok

/-- One step that ends after the other. -/
theorem Ends.bind (hx : Ends x) (hf : ∀ a, x = .ok a → Ends (f a)) : Ends (x >>= f) := by
  cases x with
  | error e => exact ⟨fun h => hx.ne_endless (congrArg Except.error (Except.error.inj h))⟩
  | ok a => exact hf a rfl

/-- A choice between steps that end. -/
theorem Ends.ite {c : Prop} [Decidable c] {x y : Checked α} (hx : c → Ends x) (hy : ¬ c → Ends y) :
    Ends (if c then x else y) := by
  split
  · exact hx ‹_›
  · exact hy ‹_›

/-- **The rule of loops with a variant.** -/
theorem loop_ends {σ : Type} {turn : σ → Checked (Turn σ β)} (size : σ → ℕ)
    (hturn : ∀ s, Ends (turn s)) (hnext : ∀ s s', turn s = .ok (.next s') → size s' < size s)
    {fuel : ℕ} {s : σ} (hfuel : size s < fuel) : Ends (loop turn fuel s) := by
  induction fuel generalizing s with
  | zero => omega
  | succ fuel ih =>
    refine (hturn s).bind fun r hr => ?_
    cases r with
    | next s' => exact ih (Nat.lt_of_lt_of_le (hnext s s' hr) (Nat.le_of_lt_succ hfuel))
    | done b => exact ends_pure

end Checked

end Lib
end AsioRtc
