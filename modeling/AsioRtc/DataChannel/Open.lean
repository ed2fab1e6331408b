/-
# Opening a data channel

`data_channel::open` of `src/data_channel.cpp`, called any number of times on one
object.  It looks whether there is a channel, waits for `create_data_channel` of the
manager, and puts what comes back into `_channel`, whatever is there by then.

A call that comes while another one waits finds no channel either, and asks for one of
its own.  So two that both succeed leave two channels, and one that fails takes away
what another one has opened.  `opening_iff` says that this is all that can go wrong:
there is one channel, and every call that returned `true` speaks of it, just as long as
no creation ends where there is a channel already.
-/

import AsioRtc.Lib.Machine
import AsioRtc.Text

namespace AsioRtc

open Lib

namespace DataChannel

variable {Options : Type}

/-- An underlying channel: the one a peer has opened, or one that the manager created. -/
inductive Channel
  | remote
  | made (n : ℕ)
  deriving DecidableEq, Repr

/-- `data_channel`, with the calls of `open` that wait for the manager, all the channels there have
been, and the channel of each call that returned `true`. -/
structure State (Options : Type) where
  label : Text
  options : Options
  channel : Option Channel
  waiting : List ℕ := []
  channels : List Channel := channel.toList
  opened : List (ℕ × Option Channel) := []

/-- A call of `open`, which finds the connection and its manager or not, and the end of a creation
for one that waits, with the options of the channel where there is one. -/
inductive Event (Options : Type)
  | open (call : ℕ) (conn manager : Bool)
  | completes (call : ℕ) (created : Option Options)

/-- What a call does: `create_data_channel` is called, or `open` returns. -/
inductive Out (Options : Type)
  | creates (label : Text) (options : Options)
  | returns (ok : Bool)

/-- The first half of `open`. -/
def State.open (s : State Options) (call : ℕ) (conn manager : Bool) :
    State Options × Out Options :=
  if s.channel.isSome then ({ s with opened := (call, s.channel) :: s.opened }, .returns true)
  else if !conn then (s, .returns false)
  else if !manager then (s, .returns false)
  else ({ s with waiting := call :: s.waiting }, .creates s.label s.options)

/-- The second half. -/
def State.completes (s : State Options) (call : ℕ) :
    Option Options → State Options × Out Options
  | none => ({ s with waiting := s.waiting.erase call, channel := none }, .returns false)
  | some options =>
      let channel := Channel.made s.channels.length
      ({ s with
        waiting := s.waiting.erase call
        channels := s.channels ++ [channel]
        channel := some channel
        options := options
        opened := (call, some channel) :: s.opened }, .returns true)

def State.step (s : State Options) : Event Options → State Options × Out Options
  | .open call conn manager => s.open call conn manager
  | .completes call created => s.completes call created

/-- The calls on one object; `channel` is there from the start where a peer has opened it. -/
def opening (label : Text) (options : Options) (remote : Bool) :
    Machine (State Options) (Event Options) (Out Options) where
  init :=
    { label := label, options := options, channel := if remote then some .remote else none }
  step := State.step

/-- A creation ends for a call that waits. -/
def Event.Enabled (s : State Options) : Event Options → Prop
  | .open _ _ _ => True
  | .completes call _ => call ∈ s.waiting

/-- **One channel**: it is the only one there has been, it is kept, and every call that returned
`true` speaks of it. -/
structure State.OneChannel (s : State Options) : Prop where
  kept : s.channels = s.channel.toList
  opened : ∀ r ∈ s.opened, r.2.isSome = true ∧ r.2 = s.channel

/-- **A creation ends where there is no channel.** -/
def Event.FindsNone (s : State Options) : Event Options → Prop
  | .open _ _ _ => True
  | .completes _ _ => s.channel = none

section Runs

variable {s : State Options} {e : Event Options} {label : Text} {options : Options} {remote : Bool}

/-- **One step** keeps the one channel just where a creation that ends finds none. -/
theorem State.OneChannel.step_iff (h : s.OneChannel) :
    (s.step e).1.OneChannel ↔ e.FindsNone s := by
  cases e with
  | «open» call conn manager =>
    refine iff_of_true ?_ trivial
    rw [State.step, State.open]
    split
    · rename_i hsome
      exact ⟨h.kept, List.forall_mem_cons.2 ⟨⟨hsome, rfl⟩, h.opened⟩⟩
    · split
      · exact h
      · split
        · exact h
        · exact ⟨h.kept, h.opened⟩
  | completes call created =>
    rw [Event.FindsNone]
    -- Without a channel no call has returned `true`.
    have hnone (hc : s.channel = none) : s.channels = [] ∧ s.opened = [] := by
      refine ⟨by rw [h.kept, hc]; rfl, List.eq_nil_iff_forall_not_mem.2 fun r hr => ?_⟩
      obtain ⟨hsome, heq⟩ := h.opened r hr
      rw [heq, hc] at hsome
      cases hsome
    have hkept := h.kept
    cases created with
    | none =>
      constructor
      · intro h'
        have hnil : s.channels = [] := h'.kept
        rw [hkept] at hnil
        exact Option.toList_eq_nil_iff.1 hnil
      · intro hc
        obtain ⟨hchannels, hopened⟩ := hnone hc
        exact ⟨hchannels, by simp [State.step, State.completes, hopened]⟩
    | some options =>
      constructor
      · intro h'
        have hone : s.channels ++ [_] = [_] := h'.kept
        have hlen := congrArg List.length hone
        rw [hkept] at hlen
        simpa using hlen
      · intro hc
        obtain ⟨hchannels, hopened⟩ := hnone hc
        exact ⟨by simp [State.step, State.completes, hchannels],
          by simp [State.step, State.completes, hopened]⟩

theorem opening_init : (opening label options remote).init.OneChannel :=
  ⟨rfl, by simp [opening]⟩

/-- **When an object has one channel all along.**  In a run of any calls and any ends of the
creations they wait for, it has just where every creation that ends finds no channel. -/
theorem opening_iff {h : List (State Options × Event Options)}
    (hr : Run (opening label options remote) (fun _ s e => e.Enabled s) h s) :
    (∀ t ∈ s :: h.map Prod.fst, t.OneChannel) ↔ ∀ p ∈ h, p.2.FindsNone p.1 :=
  hr.always_iff opening_init fun _ _ _ _ h => h.step_iff

end Runs

/-- Two calls, one behind the other. -/
theorem opening_one :
    ∃ h s, Run (opening "chat".toList () false) (fun _ s e => e.Enabled s) h s ∧
      s.opened = [(2, some (.made 0)), (1, some (.made 0))] ∧
      ∀ t ∈ s :: h.map Prod.fst, t.OneChannel := by
  let G := fun (_ : List (State Unit × Event Unit)) (s : State Unit) (e : Event Unit) => e.Enabled s
  have h₀ : Run (opening "chat".toList () false) G [] _ := .init
  have h₁ := Run.step (e := Event.open 1 true true) h₀ trivial
  have h₂ := Run.step (e := Event.completes 1 (some ())) h₁ (List.mem_cons_self ..)
  have h₃ := Run.step (e := Event.open 2 true true) h₂ trivial
  refine ⟨_, _, h₃, rfl, (opening_iff h₃).2 ?_⟩
  simp only [List.forall_mem_cons]
  exact ⟨trivial, rfl, trivial, by simp⟩

/-- **Two calls at once** leave two channels. -/
theorem opening_two :
    ∃ h s, Run (opening "chat".toList () false) (fun _ s e => e.Enabled s) h s ∧
      s.channels = [.made 0, .made 1] ∧
      s.opened = [(2, some (.made 1)), (1, some (.made 0))] ∧ ¬ s.OneChannel := by
  let G := fun (_ : List (State Unit × Event Unit)) (s : State Unit) (e : Event Unit) => e.Enabled s
  have h₀ : Run (opening "chat".toList () false) G [] _ := .init
  have h₁ := Run.step (e := Event.open 1 true true) h₀ trivial
  have h₂ := Run.step (e := Event.open 2 true true) h₁ trivial
  have h₃ := Run.step (e := Event.completes 1 (some ())) h₂
    (List.mem_cons_of_mem _ (List.mem_cons_self ..))
  have h₄ := Run.step (e := Event.completes 2 (some ())) h₃ (List.mem_cons_self ..)
  refine ⟨_, _, h₄, rfl, rfl, fun h => ?_⟩
  have hkept := h.kept
  exact absurd (congrArg List.length hkept) (by decide)

end DataChannel

end AsioRtc
