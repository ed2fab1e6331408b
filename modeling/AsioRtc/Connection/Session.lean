/-
# The signaling of a connection over time

`set_local_description` and `set_remote_description` to their ends, and `close`.
Behind the part that stores a description (`Connection.setLocalDescription`,
`Connection.setRemoteDescription`) both setters tell the agent its role, run
`apply_descriptions` and start the connect task.  The ICE agent, the transports and
the task itself are outside: a call puts out what it asks of them
(`SessionEffect`), and it is told whether the agent throws in `apply_descriptions`.

Over every run of calls without a `close` the stored descriptions match the signaling
state (`Session.Consistent`, kept by `Consistent.setLocal` and `Consistent.setRemote`).
A `close` leaves the signaling state as it is, so which calls are refused after it
depends on the state it was made in (`staysClosed_iff`).
-/

import AsioRtc.Connection.Rejection
import AsioRtc.Lib.Machine

namespace AsioRtc

open Lib Text

/-- What the body of `apply_descriptions` tells the agent and the DTLS transport. -/
structure RemoteParameters where
  trickle : Bool
  username : Option Text
  password : Option Text
  fingerprint : Text
  candidates : List Text
  deriving DecidableEq, Repr

/-- What a call asks of the agent and the transports. -/
inductive SessionEffect
  | applied (p : RemoteParameters)
  | gather
  | connect
  deriving DecidableEq, Repr

/-- What a setter throws: one of its own exceptions, or one of the agent. -/
inductive SessionError
  | jsep (e : JsepError)
  | agent
  deriving DecidableEq, Repr

/-- What a call does besides changing the connection. -/
structure SessionOutput where
  effects : List SessionEffect := []
  tracks : List OnTrack := []
  thrown : Option SessionError := none
  deriving DecidableEq, Repr

/-- A call that negotiates; `agentThrows` is whether the agent throws in
`apply_descriptions`. -/
inductive SignalingCall
  | setLocal (desc : SessionDescription) (agentThrows : Bool)
  | setRemote (desc : SessionDescription) (agentThrows : Bool)
  | createOffer
  | createAnswer

/-- A call of a run. -/
inductive SessionCall
  | signal (e : SignalingCall)
  | close

/-- `connection_impl` with what the ends of the setters keep: `_roles_set`, the role of the
agent, and whether there is a `_connecting_task`. -/
structure Session where
  conn : Connection
  rolesSet : Bool := false
  iceControlling : Bool := false
  connectingTask : Bool := false

/-! ### What `apply_descriptions` reads -/

/-- A field of the session, or of its first section. -/
def sessionOrFirst (desc : SessionDescription) (ofSession : Text) (ofMedia : SdpMedia → Text) :
    Text :=
  if ofSession ≠ [] then ofSession else desc.medias.head?.elim [] ofMedia

/-- `ice_ufrag_from`. -/
def iceUfragFrom (desc : SessionDescription) : Text :=
  sessionOrFirst desc desc.iceUfrag SdpMedia.iceUfrag

/-- `ice_pwd_from`. -/
def icePwdFrom (desc : SessionDescription) : Text :=
  sessionOrFirst desc desc.icePwd SdpMedia.icePwd

/-- `fingerprint_from`. -/
def fingerprintFrom (desc : SessionDescription) : Text :=
  let fp := desc.fingerprints.head?.orElse fun _ =>
    desc.medias.head?.bind fun m => m.fingerprints.head?
  fp.elim [] fun fp => fp.algorithm ++ ' ' :: fp.value

/-- `candidates_from`. -/
def candidatesFrom (desc : SessionDescription) : List Text :=
  desc.candidates ++ desc.medias.head?.elim [] SdpMedia.candidates

/-- A name or password is only given to the agent where it is not empty. -/
def nonEmpty (s : Text) : Option Text := if s ≠ [] then some s else none

/-- What `apply_descriptions` takes from the remote description. -/
def RemoteParameters.of (remote : SessionDescription) : RemoteParameters where
  trickle := Connection.iceOptionsTrickleFrom remote
  username := nonEmpty (iceUfragFrom remote)
  password := nonEmpty (icePwdFrom remote)
  fingerprint := fingerprintFrom remote
  candidates := candidatesFrom remote

/-! ### The calls -/

namespace Session

/-- `connection_impl::apply_descriptions`. -/
def applyDescriptions (s : Session) : Session × List SessionEffect :=
  if s.rolesSet then (s, [])
  else
    match s.conn.localDesc, s.conn.remoteDesc with
    | some _, some remote => ({ s with rolesSet := true }, [.applied (.of remote)])
    | _, _ => (s, [])

/-- `connection_impl::start_connecting`. -/
def startConnecting (s : Session) : Session × List SessionEffect :=
  if s.conn.localDesc.isSome ∧ s.conn.remoteDesc.isSome then
    ({ s with connectingTask := true }, [.connect])
  else (s, [])

/-- The end of both setters; only `set_local_description` gathers candidates. -/
def finish (s : Session) (tracks : List OnTrack) (gathers agentThrows : Bool) :
    Session × SessionOutput :=
  let (s, applied) := s.applyDescriptions
  if applied ≠ [] ∧ agentThrows then (s, { effects := applied, tracks, thrown := some .agent })
  else
    let (s, connect) := s.startConnecting
    (s, { effects := applied ++ (if gathers then [.gather] else []) ++ connect, tracks })

variable [NoCaseEq]

/-- `connection_impl::set_local_description`. -/
def setLocal (s : Session) (desc : SessionDescription) (agentThrows : Bool) :
    Session × SessionOutput :=
  let o := s.conn.setLocalDescription desc
  match o.thrown with
  | some e => ({ s with conn := o.state }, { tracks := o.tracks, thrown := some (.jsep e) })
  | none =>
      finish { s with conn := o.state, iceControlling := desc.sdpType = "offer".toList } o.tracks
        true agentThrows

/-- `connection_impl::set_remote_description`. -/
def setRemote (s : Session) (desc : SessionDescription) (agentThrows : Bool) :
    Session × SessionOutput :=
  let o := s.conn.setRemoteDescription desc
  match o.thrown with
  | some e => ({ s with conn := o.state }, { tracks := o.tracks, thrown := some (.jsep e) })
  | none =>
      finish { s with conn := o.state, iceControlling := desc.sdpType ≠ "offer".toList } o.tracks
        false agentThrows

/-- A call that negotiates.  What `create_offer` and `create_answer` return is not kept. -/
def signal (s : Session) : SignalingCall → Session × SessionOutput
  | .setLocal desc agentThrows => s.setLocal desc agentThrows
  | .setRemote desc agentThrows => s.setRemote desc agentThrows
  | .createOffer =>
      match s.conn.createOffer with
      | .ok (c, _) => ({ s with conn := c }, {})
      | .error _ => (s, {})
  | .createAnswer => (s, {})

/-- `connection_impl::close`, of what there is here. -/
def close (s : Session) : Session :=
  { s with
    conn := { s.conn with
      ssrcSet := fun _ => none
      srtpTransport := false
      transceivers := []
      midExtId := none
      localDesc := none
      remoteDesc := none }
    connectingTask := false }

end Session

/-- A connection and the calls made on it. -/
def sessionMachine [NoCaseEq] (c : Connection) : Machine Session SessionCall SessionOutput where
  init := { conn := c }
  step s
    | .signal e => s.signal e
    | .close => (s.close, {})

/-! ### What the calls do to the descriptions -/

namespace Connection

/-- The same descriptions, in the same signaling state. -/
structure SameSignaling (c c' : Connection) : Prop where
  localDesc : c'.localDesc = c.localDesc
  remoteDesc : c'.remoteDesc = c.remoteDesc
  signalingState : c'.signalingState = c.signalingState

namespace SameSignaling

variable {c c' c'' : Connection}

/-- Nothing has been signalled. -/
theorem refl (c : Connection) : SameSignaling c c := ⟨rfl, rfl, rfl⟩

/-- Two changes one after the other. -/
theorem trans (h : SameSignaling c c') (h' : SameSignaling c' c'') : SameSignaling c c'' :=
  ⟨h'.localDesc.trans h.localDesc, h'.remoteDesc.trans h.remoteDesc,
    h'.signalingState.trans h.signalingState⟩

/-- What is said of one step holds of a fold. -/
theorem foldl {α : Type} {f : Connection → α → Connection} (hf : ∀ c a, SameSignaling c (f c a))
    (l : List α) (c : Connection) : SameSignaling c (l.foldl f c) := by
  induction l generalizing c with
  | nil => exact refl c
  | cons a l ih => exact (hf c a).trans (ih (f c a))

end SameSignaling

variable [NoCaseEq]

/-- Building the map of the sources signals nothing. -/
theorem buildSsrcMap_same (c : Connection) (i : ℕ) (rm : SdpMedia) :
    SameSignaling c (c.buildSsrcMap i rm) := by
  have hone : ∀ c ssrc, SameSignaling c (createSsrcContext i c ssrc) := by
    intro c ssrc
    unfold createSsrcContext
    split <;> exact ⟨rfl, rfl, rfl⟩
  unfold buildSsrcMap
  simp only []
  split
  · exact .refl c
  · exact ⟨(SameSignaling.foldl hone _ _).localDesc, (SameSignaling.foldl hone _ _).remoteDesc,
      (SameSignaling.foldl hone _ _).signalingState⟩

/-- Joining a section with a transceiver signals nothing. -/
theorem associate_same (c : Connection) (i : ℕ) (t : RtpTransceiver) (rm : SdpMedia) :
    SameSignaling c (c.associate i t rm).1 := by
  obtain ⟨hl, hr, hs⟩ := buildSsrcMap_same { c with
    transceivers := c.transceivers.set i
      (({ t with mid := rm.mid } : RtpTransceiver).fromRemoteOffer rm) } i rm
  unfold associate
  simp only []
  split
  · exact ⟨rfl, rfl, rfl⟩
  · split <;> split <;> first | exact ⟨hl, hr, hs⟩ | exact ⟨rfl, rfl, rfl⟩

/-- The loop over an offer sets no description. -/
theorem applyOffer_same (rms : List SdpMedia) (c : Connection) (tracks : List OnTrack) :
    SameSignaling c (applyOffer rms c tracks).state := by
  induction rms generalizing c tracks with
  | nil => exact .refl c
  | cons rm rms ih =>
    rw [applyOffer]
    split
    · exact ih c tracks
    · split
      · exact .refl c
      · split
        · exact ih c tracks
        · exact (associate_same c _ _ rm).trans (ih _ _)

/-- Applying an answer to a transceiver signals nothing. -/
theorem applyAnswerTo_same (medias : List SdpMedia) (c : Connection) (i : ℕ)
    (t : RtpTransceiver) : SameSignaling c (applyAnswerTo medias c i t).1 := by
  unfold applyAnswerTo
  split
  · exact ⟨rfl, rfl, rfl⟩
  · rename_i rm _
    obtain ⟨hl, hr, hs⟩ := buildSsrcMap_same { c with
      transceivers := c.transceivers.set i (t.fromRemoteAnswer rm) } i rm
    simp only []
    split
    · exact ⟨rfl, rfl, rfl⟩
    · split
      · exact ⟨hl, hr, hs⟩
      · exact ⟨rfl, rfl, rfl⟩

/-- The loop over an answer sets no description. -/
theorem applyAnswer_same (medias : List SdpMedia) (ts : List (RtpTransceiver × ℕ))
    (c : Connection) (tracks : List OnTrack) :
    SameSignaling c (applyAnswer medias ts c tracks).state := by
  induction ts generalizing c tracks with
  | nil => exact .refl c
  | cons t ts ih =>
    rw [applyAnswer]
    exact (applyAnswerTo_same medias c t.2 t.1).trans (ih _ _)

omit [NoCaseEq] in
/-- **What `set_local_description` does to the descriptions.**  It throws and changes nothing, or
it stores an offer where there is none, or an answer to the offer of the other side. -/
theorem setLocalDescription_cases (c : Connection) (desc : SessionDescription) :
    ((c.setLocalDescription desc).thrown ≠ none ∧ (c.setLocalDescription desc).state = c) ∨
      ((c.setLocalDescription desc).thrown = none ∧
        (c.setLocalDescription desc).state.localDesc = some desc ∧
        (c.setLocalDescription desc).state.remoteDesc = c.remoteDesc ∧
        ((c.signalingState = .stable ∨ c.signalingState = .closed) ∧
            desc.sdpType = "offer".toList ∧
            (c.setLocalDescription desc).state.signalingState = .haveLocalOffer ∨
          c.signalingState = .haveRemoteOffer ∧ desc.sdpType = "answer".toList ∧
            (c.setLocalDescription desc).state.signalingState = .haveLocalPranswer)) := by
  unfold setLocalDescription
  cases hs : c.signalingState with
  | haveLocalOffer => exact Or.inl ⟨by simp, rfl⟩
  | haveLocalPranswer => exact Or.inl ⟨by simp, rfl⟩
  | haveRemotePranswer => exact Or.inl ⟨by simp, rfl⟩
  | haveRemoteOffer =>
    simp only []
    by_cases ht : desc.sdpType = "answer".toList
    · rw [if_neg (fun hne => hne ht)]
      exact Or.inr ⟨rfl, rfl, rfl, Or.inr ⟨by simp, ht, rfl⟩⟩
    · rw [if_pos ht]
      exact Or.inl ⟨by simp, rfl⟩
  | stable | closed =>
    simp only []
    by_cases ht : desc.sdpType = "offer".toList
    · rw [if_neg (fun hne => hne ht)]
      split
      · exact Or.inl ⟨by simp, rfl⟩
      · exact Or.inr ⟨rfl, rfl, rfl, Or.inl ⟨by simp, ht, rfl⟩⟩
    · rw [if_pos ht]
      exact Or.inl ⟨by simp, rfl⟩

/-- **What `set_remote_description` does to the descriptions.** -/
theorem setRemoteDescription_cases (c : Connection) (desc : SessionDescription) :
    ((c.setRemoteDescription desc).thrown ≠ none ∧
        SameSignaling c (c.setRemoteDescription desc).state) ∨
      ((c.setRemoteDescription desc).thrown = none ∧
        (c.setRemoteDescription desc).state.remoteDesc = some desc ∧
        (c.setRemoteDescription desc).state.localDesc = c.localDesc ∧
        ((c.signalingState = .stable ∨ c.signalingState = .closed) ∧
            desc.sdpType = "offer".toList ∧
            (c.setRemoteDescription desc).state.signalingState = .haveRemoteOffer ∨
          c.signalingState = .haveLocalOffer ∧ desc.sdpType = "answer".toList ∧
            (c.setRemoteDescription desc).state.signalingState = .haveRemotePranswer)) := by
  unfold setRemoteDescription
  cases hs : c.signalingState with
  | haveRemoteOffer => exact Or.inl ⟨by simp, .refl c⟩
  | haveLocalPranswer => exact Or.inl ⟨by simp, .refl c⟩
  | haveRemotePranswer => exact Or.inl ⟨by simp, .refl c⟩
  | haveLocalOffer =>
    simp only []
    by_cases ht : desc.sdpType = "answer".toList
    · rw [if_neg (fun hne => hne ht)]
      refine Or.inr ⟨?_, rfl, (applyAnswer_same _ _ c []).localDesc, Or.inr ⟨by simp, ht, rfl⟩⟩
      exact (applyAnswer_transceivers desc.medias [] (c := c) rfl []).1
    · rw [if_pos ht]
      exact Or.inl ⟨by simp, .refl c⟩
  | stable | closed =>
    simp only []
    by_cases ht : desc.sdpType = "offer".toList
    · rw [if_neg (fun hne => hne ht)]
      split
      · exact Or.inl ⟨by simp, .refl c⟩
      · split
        · rename_i hthrown
          exact Or.inl ⟨fun h => by simp [h] at hthrown, applyOffer_same _ c []⟩
        · rename_i hthrown
          refine Or.inr ⟨by simpa using hthrown, rfl, (applyOffer_same _ c []).localDesc,
            Or.inl ⟨by simp, ht, rfl⟩⟩
    · rw [if_pos ht]
      exact Or.inl ⟨by simp, .refl c⟩

omit [NoCaseEq] in
/-- Giving out the places of the sections makes no transceiver. -/
@[simp] theorem setMlineIndices_length (es : List MediaEntry) (ts : List RtpTransceiver) :
    (setMlineIndices es ts).length = ts.length := by
  refine List.foldlRecOn (motive := fun ts' : List RtpTransceiver => ts'.length = ts.length)
    es.zipIdx _ rfl ?_
  intro ts' hts' p _
  split
  · rwa [List.length_modify]
  · exact hts'

/-- `create_offer` sets no description. -/
theorem createOffer_same {c c' : Connection} {offer : SessionDescription}
    (h : c.createOffer = .ok (c', offer)) :
    SameSignaling c c' ∧ ∃ es, c'.transceivers = setMlineIndices es c.transceivers := by
  unfold createOffer at h
  obtain ⟨⟨es, counter⟩, -, h⟩ := Checked.bind_eq_ok.1 h
  obtain ⟨sections, -, h⟩ := Checked.bind_eq_ok.1 h
  cases h
  exact ⟨⟨rfl, rfl, rfl⟩, es, rfl⟩

end Connection

/-! ### The descriptions and the signaling state -/

/-- A description of type `t` is stored. -/
def HasType (t : Text) (desc : Option SessionDescription) : Prop :=
  ∃ d, desc = some d ∧ d.sdpType = t

/-- The stored descriptions are the ones that the signaling state says. -/
def Connection.DescriptionsMatch (c : Connection) : Prop :=
  match c.signalingState with
  | .stable => c.localDesc = none ∧ c.remoteDesc = none
  | .haveLocalOffer => HasType "offer".toList c.localDesc ∧ c.remoteDesc = none
  | .haveRemoteOffer => c.localDesc = none ∧ HasType "offer".toList c.remoteDesc
  | .haveLocalPranswer =>
      HasType "answer".toList c.localDesc ∧ HasType "offer".toList c.remoteDesc
  | .haveRemotePranswer =>
      HasType "offer".toList c.localDesc ∧ HasType "answer".toList c.remoteDesc
  | .closed => False

/-- Both descriptions are stored. -/
def Connection.BothStored (c : Connection) : Prop :=
  c.localDesc.isSome = true ∧ c.remoteDesc.isSome = true

/-- The remote parameters are handed to the agent. -/
def SessionEffect.isApplied : SessionEffect → Bool
  | .applied _ => true
  | _ => false

/-- The connect task is started. -/
def SessionEffect.isConnect : SessionEffect → Bool
  | .connect => true
  | _ => false

namespace Session

/-- What holds of a session in which no call has closed the connection, and of what its calls
have asked for so far. -/
structure Consistent (s : Session) (effects : List SessionEffect) : Prop where
  descriptions : s.conn.DescriptionsMatch
  controlling : s.iceControlling = true ↔ HasType "offer".toList s.conn.localDesc
  rolesSet : s.rolesSet = true → s.conn.BothStored
  applied : effects.countP SessionEffect.isApplied ≤ if s.rolesSet then 1 else 0
  connected : effects.countP SessionEffect.isConnect ≤ 1
  notConnected : ¬ s.conn.BothStored → effects.countP SessionEffect.isConnect = 0

variable {s : Session} {effects : List SessionEffect}

/-- Before both descriptions are stored the end of a setter does nothing but gather. -/
theorem finish_early (h : ¬ s.conn.BothStored) (tracks : List OnTrack) (gathers agentThrows : Bool) :
    finish s tracks gathers agentThrows =
      (s, { effects := if gathers then [.gather] else [], tracks }) := by
  have happly : s.applyDescriptions = (s, []) := by
    unfold applyDescriptions
    split
    · rfl
    · split
      · rename_i hl hr
        exact absurd ⟨by simp [hl], by simp [hr]⟩ h
      · rfl
  have hconnect : s.startConnecting = (s, []) := if_neg h
  simp [finish, happly, hconnect]

/-- **The end of a setter that has both descriptions** and comes to it for the first time. -/
theorem finish_both (h : s.conn.BothStored) (hroles : s.rolesSet = false) (tracks : List OnTrack)
    (gathers agentThrows : Bool) :
    (finish s tracks gathers agentThrows).1.conn = s.conn ∧
      (finish s tracks gathers agentThrows).1.iceControlling = s.iceControlling ∧
      (finish s tracks gathers agentThrows).1.rolesSet = true ∧
      (finish s tracks gathers agentThrows).2.effects.countP SessionEffect.isApplied = 1 ∧
      (finish s tracks gathers agentThrows).2.effects.countP SessionEffect.isConnect ≤ 1 := by
  obtain ⟨l, hl⟩ := Option.isSome_iff_exists.1 h.1
  obtain ⟨r, hr⟩ := Option.isSome_iff_exists.1 h.2
  have happly : s.applyDescriptions = ({ s with rolesSet := true }, [.applied (.of r)]) := by
    simp [applyDescriptions, hroles, hl, hr]
  have hconnect : startConnecting { s with rolesSet := true } =
      ({ s with rolesSet := true, connectingTask := true }, [.connect]) := if_pos h
  cases agentThrows <;> cases gathers <;>
    simp [finish, happly, hconnect, List.countP_cons, SessionEffect.isApplied,
      SessionEffect.isConnect]

/-- The end of a setter leaves the connection alone. -/
theorem finish_conn (s : Session) (tracks : List OnTrack) (gathers agentThrows : Bool) :
    (finish s tracks gathers agentThrows).1.conn = s.conn := by
  have happly : s.applyDescriptions.1.conn = s.conn := by
    unfold applyDescriptions
    split
    · rfl
    · split <;> rfl
  have hconnect : ∀ s : Session, s.startConnecting.1.conn = s.conn := fun s => by
    unfold startConnecting
    split <;> rfl
  unfold finish
  simp only []
  split
  · exact happly
  · exact (hconnect _).trans happly

/-- A setter leaves the connection as the connection's own setter does. -/
theorem setLocal_conn (s : Session) (desc : SessionDescription) (b : Bool) :
    (s.setLocal desc b).1.conn = (s.conn.setLocalDescription desc).state := by
  unfold setLocal
  simp only []
  split
  · rfl
  · exact finish_conn _ _ _ _

/-- The connection behind `set_remote_description` is that of its body. -/
theorem setRemote_conn [NoCaseEq] (s : Session) (desc : SessionDescription) (b : Bool) :
    (s.setRemote desc b).1.conn = (s.conn.setRemoteDescription desc).state := by
  unfold setRemote
  simp only []
  split
  · rfl
  · exact finish_conn _ _ _ _

/-- A session whose descriptions match its state has both where a setter takes none. -/
theorem Consistent.not_both (h : s.Consistent effects)
    (hs : s.conn.signalingState ≠ .haveLocalPranswer)
    (hs' : s.conn.signalingState ≠ .haveRemotePranswer) : ¬ s.conn.BothStored := by
  rintro ⟨hl, hr⟩
  have hd := h.descriptions
  unfold Connection.DescriptionsMatch at hd
  cases hstate : s.conn.signalingState <;> simp only [hstate] at hd
  · rw [hd.1] at hl
    cases hl
  · rw [hd.2] at hr
    cases hr
  · rw [hd.1] at hl
    cases hl
  · exact hs hstate
  · exact hs' hstate

/-- **The end of a setter keeps a session consistent**, where it has stored a description in a
session that had not both. -/
theorem Consistent.finish (h : s.Consistent effects) (hboth : ¬ s.conn.BothStored)
    {c : Connection} {controlling : Bool} (hd : c.DescriptionsMatch)
    (hc : controlling = true ↔ HasType "offer".toList c.localDesc) (tracks : List OnTrack)
    (gathers agentThrows : Bool) :
    (finish { s with conn := c, iceControlling := controlling } tracks gathers
        agentThrows).1.Consistent
      (effects ++ (finish { s with conn := c, iceControlling := controlling } tracks gathers
        agentThrows).2.effects) := by
  have hroles : s.rolesSet = false := by
    by_contra hne
    exact hboth (h.rolesSet (by simpa using hne))
  have happlied : effects.countP SessionEffect.isApplied = 0 := by
    have := h.applied
    rw [hroles] at this
    simpa using this
  have hconnected := h.notConnected hboth
  by_cases hnow : c.BothStored
  · obtain ⟨hconn, hctrl, hset, ha, hn⟩ := finish_both
      (s := { s with conn := c, iceControlling := controlling }) hnow hroles tracks gathers agentThrows
    exact
      { descriptions := by rw [hconn]; exact hd
        controlling := by rw [hctrl, hconn]; exact hc
        rolesSet := fun _ => by rw [hconn]; exact hnow
        applied := by rw [List.countP_append, happlied, ha, hset]; simp
        connected := by rw [List.countP_append, hconnected]; omega
        notConnected := fun hnot => absurd (by rw [hconn]; exact hnow) hnot }
  · rw [finish_early hnow]
    have hgather : ∀ p : SessionEffect → Bool, p .gather = false →
        (effects ++ if gathers then [SessionEffect.gather] else []).countP p = effects.countP p := by
      intro p hp
      cases gathers <;> simp [hp]
    exact
      { descriptions := hd
        controlling := hc
        rolesSet := fun ht => absurd (hroles.symm.trans ht) (by decide)
        applied := by rw [hgather _ rfl, happlied]; omega
        connected := by rw [hgather _ rfl]; omega
        notConnected := fun _ => by rw [hgather _ rfl]; exact hconnected }

variable [NoCaseEq]

omit [NoCaseEq] in
/-- A call that is thrown out by a setter itself keeps a session consistent. -/
theorem Consistent.same (h : s.Consistent effects) {c : Connection}
    (hc : Connection.SameSignaling s.conn c) :
    ({ s with conn := c } : Session).Consistent (effects ++ []) := by
  have hboth : ({ s with conn := c } : Session).conn.BothStored ↔ s.conn.BothStored := by
    unfold Connection.BothStored
    rw [hc.localDesc, hc.remoteDesc]
  rw [List.append_nil]
  exact
    { descriptions := by
        have hd := h.descriptions
        unfold Connection.DescriptionsMatch at hd ⊢
        simp only [hc.localDesc, hc.remoteDesc, hc.signalingState]
        exact hd
      controlling := by
        simp only [hc.localDesc]
        exact h.controlling
      rolesSet := fun hr => hboth.2 (h.rolesSet hr)
      applied := h.applied
      connected := h.connected
      notConnected := fun hn => h.notConnected fun hb => hn (hboth.2 hb) }

omit [NoCaseEq] in
/-- Setting a local description keeps a session consistent. -/
theorem Consistent.setLocal (h : s.Consistent effects) (desc : SessionDescription)
    (agentThrows : Bool) : (s.setLocal desc agentThrows).1.Consistent
      (effects ++ (s.setLocal desc agentThrows).2.effects) := by
  unfold Session.setLocal
  simp only []
  rcases s.conn.setLocalDescription_cases desc with ⟨hthrown, hstate⟩ | ⟨hthrown, hl, hr, hcase⟩
  · obtain ⟨e, he⟩ := Option.ne_none_iff_exists'.1 hthrown
    rw [he, hstate]
    exact h.same (.refl _)
  · rw [hthrown]
    have hd := h.descriptions
    unfold Connection.DescriptionsMatch at hd
    rcases hcase with ⟨hs, ht, hs'⟩ | ⟨hs, ht, hs'⟩
    · rcases hs with hs | hs <;> simp only [hs] at hd
      refine h.finish (h.not_both (by simp [hs]) (by simp [hs])) ?_ ?_ _ _ _
      · unfold Connection.DescriptionsMatch
        rw [hs', hl, hr]
        exact ⟨⟨desc, rfl, ht⟩, hd.2⟩
      · simp [hl, HasType, ht]
    · simp only [hs] at hd
      refine h.finish (h.not_both (by simp [hs]) (by simp [hs])) ?_ ?_ _ _ _
      · unfold Connection.DescriptionsMatch
        rw [hs', hl, hr]
        exact ⟨⟨desc, rfl, ht⟩, hd.2⟩
      · simp [hl, HasType, ht]

/-- Setting a remote description keeps a session consistent. -/
theorem Consistent.setRemote (h : s.Consistent effects) (desc : SessionDescription)
    (agentThrows : Bool) : (s.setRemote desc agentThrows).1.Consistent
      (effects ++ (s.setRemote desc agentThrows).2.effects) := by
  unfold Session.setRemote
  simp only []
  rcases s.conn.setRemoteDescription_cases desc with ⟨hthrown, hsame⟩ | ⟨hthrown, hr, hl, hcase⟩
  · obtain ⟨e, he⟩ := Option.ne_none_iff_exists'.1 hthrown
    rw [he]
    exact h.same hsame
  · rw [hthrown]
    have hd := h.descriptions
    have hctrl := h.controlling
    unfold Connection.DescriptionsMatch at hd
    rcases hcase with ⟨hs, ht, hs'⟩ | ⟨hs, ht, hs'⟩
    · rcases hs with hs | hs <;> simp only [hs] at hd
      refine h.finish (h.not_both (by simp [hs]) (by simp [hs])) ?_ ?_ _ _ _
      · unfold Connection.DescriptionsMatch
        rw [hs', hl, hr]
        exact ⟨hd.1, ⟨desc, rfl, ht⟩⟩
      · simp [hl, hd.1, HasType, ht]
    · simp only [hs] at hd
      refine h.finish (h.not_both (by simp [hs]) (by simp [hs])) ?_ ?_ _ _ _
      · unfold Connection.DescriptionsMatch
        rw [hs', hl, hr]
        exact ⟨hd.1, ⟨desc, rfl, ht⟩⟩
      · rw [hl]
        exact iff_of_true (by simp [ht]) hd.1

/-- **One call** keeps a session consistent. -/
theorem Consistent.signal (h : s.Consistent effects) (e : SignalingCall) :
    (s.signal e).1.Consistent (effects ++ (s.signal e).2.effects) := by
  cases e with
  | setLocal desc agentThrows => exact h.setLocal desc agentThrows
  | setRemote desc agentThrows => exact h.setRemote desc agentThrows
  | createAnswer => exact h.same (.refl _)
  | createOffer =>
    unfold Session.signal
    simp only []
    split
    · rename_i c offer hoffer
      exact h.same (Connection.createOffer_same hoffer).1
    · exact h.same (.refl _)

end Session

/-- A connection on which no description has been set. -/
structure Connection.Unnegotiated (c : Connection) : Prop where
  localDesc : c.localDesc = none
  remoteDesc : c.remoteDesc = none
  signalingState : c.signalingState = .stable

/-- What the calls of a history have asked of the agent and the transports. -/
def sessionEffects (outs : List SessionOutput) : List SessionEffect :=
  outs.flatMap SessionOutput.effects

section Runs

variable [NoCaseEq] {c : Connection} {h : List (Session × SessionCall)} {s : Session}

/-- **Every run without a `close` is consistent.** -/
theorem run_consistent (hc : c.Unnegotiated)
    (hr : Run (sessionMachine c) (fun _ _ e => e ≠ .close) h s) :
    s.Consistent (sessionEffects ((sessionMachine c).outputs h)) := by
  refine hr.invariant (P := fun h s => s.Consistent (sessionEffects ((sessionMachine c).outputs h)))
    ?_ ?_
  · refine ⟨?_, ?_, fun h => absurd h Bool.false_ne_true, Nat.zero_le _, Nat.zero_le _,
      fun _ => rfl⟩
    · unfold Connection.DescriptionsMatch
      simp only [sessionMachine, hc.signalingState]
      exact ⟨hc.localDesc, hc.remoteDesc⟩
    · simp [sessionMachine, hc.localDesc, HasType]
  · intro h s e _ ih hne
    cases e with
    | close => exact absurd rfl hne
    | signal e =>
      rw [Machine.outputs_cons, sessionEffects, List.flatMap_append]
      simpa [sessionMachine, Machine.out, Machine.next, sessionEffects] using ih.signal e

/-- **The signaling of a connection.**  In every run of calls without a `close`, whatever they
throw: the stored descriptions match the signaling state; the agent is controlling exactly
where the local description is the offer; the body of `apply_descriptions` runs at most once,
and only where both descriptions are stored; and at most one connect task is started. -/
theorem signaling_consistent (hc : c.Unnegotiated)
    (hr : Run (sessionMachine c) (fun _ _ e => e ≠ .close) h s) :
    s.conn.DescriptionsMatch ∧
      (s.iceControlling = true ↔ HasType "offer".toList s.conn.localDesc) ∧
      (sessionEffects ((sessionMachine c).outputs h)).countP SessionEffect.isApplied ≤ 1 ∧
      (∀ t e p, (t, e) ∈ h → .applied p ∈ ((sessionMachine c).out t e).effects →
        ((sessionMachine c).next t e).conn.BothStored) ∧
      (sessionEffects ((sessionMachine c).outputs h)).countP SessionEffect.isConnect ≤ 1 := by
  have hs := run_consistent hc hr
  refine ⟨hs.descriptions, hs.controlling, hs.applied.trans (by split <;> omega), ?_, hs.connected⟩
  intro t e p hmem happlied
  obtain ⟨h', hr', hne⟩ := hr.guard_of_mem hmem
  have ht := run_consistent hc (hr'.step hne)
  refine ht.rolesSet ?_
  by_contra hroles
  have hcount := ht.applied
  rw [if_neg hroles, Machine.outputs_cons, sessionEffects, List.flatMap_append, List.countP_append]
    at hcount
  have hzero : ((sessionMachine c).out t e).effects.countP SessionEffect.isApplied = 0 := by
    simp only [List.flatMap_cons, List.flatMap_nil, List.append_nil] at hcount
    omega
  exact absurd rfl (List.countP_eq_zero.1 hzero _ happlied)

end Runs

/-- An offer of its own and the answer to it, on a new connection: it is controlling, and the
descriptions are applied, once. -/
theorem signaling_consistent_answered :
    let M := @sessionMachine asciiNoCase {}
    let offered := M.next M.init (.signal (.setLocal { sdpType := "offer".toList } false))
    let answered := M.next offered (.signal (.setRemote { sdpType := "answer".toList } false))
    answered.conn.BothStored ∧ answered.conn.DescriptionsMatch ∧ answered.iceControlling = true ∧
      (sessionEffects (M.outputs
        [(offered, .signal (.setRemote { sdpType := "answer".toList } false)),
          (M.init, .signal (.setLocal { sdpType := "offer".toList } false))])).countP
            SessionEffect.isApplied = 1 := by
  intro M offered answered
  have hinit : Run M (fun _ _ e => e ≠ .close) [] M.init := .init
  have hoffered := hinit.step (e := .signal (.setLocal { sdpType := "offer".toList } false))
    (by simp)
  have hrun := hoffered.step (e := .signal (.setRemote { sdpType := "answer".toList } false))
    (by simp)
  obtain ⟨hmatch, hcontrols, happlied, -⟩ :=
    @signaling_consistent asciiNoCase {} _ _ ⟨rfl, rfl, rfl⟩ hrun
  exact ⟨⟨rfl, rfl⟩, hmatch, hcontrols.2 ⟨_, rfl, rfl⟩, Nat.le_antisymm happlied (by decide)⟩

/-! ### After `close` -/

section Closed

variable [NoCaseEq]

/-- A call of one of the two setters. -/
def SignalingCall.isSet : SignalingCall → Bool
  | .setLocal _ _ | .setRemote _ _ => true
  | .createOffer | .createAnswer => false

/-- The setters refuse a call in signaling state `st` for that state, the type of the
description or, where it is an offer of the other side, for its groups and mids. -/
def Refuses (st : SignalingState) : SignalingCall → Prop
  | .setLocal desc _ =>
      ¬ ((st = .stable ∨ st = .closed) ∧ desc.sdpType = "offer".toList) ∧
        ¬ (st = .haveRemoteOffer ∧ desc.sdpType = "answer".toList)
  | .setRemote desc _ =>
      ¬ ((st = .stable ∨ st = .closed) ∧ desc.sdpType = "offer".toList ∧
          Connection.checkBundle desc = none ∧ ∀ rm ∈ desc.medias, ¬ Connection.Refused rm) ∧
        ¬ (st = .haveLocalOffer ∧ desc.sdpType = "answer".toList)
  | .createOffer | .createAnswer => True

/-- Each call of a setter is rejected, and no call changes a description, the signaling state or
the connect task, or asks for anything. -/
def StaysClosed : Session → List SignalingCall → Prop
  | _, [] => True
  | s, e :: es =>
      (e.isSet = true → (s.signal e).2.thrown.isSome = true) ∧
        Connection.SameSignaling s.conn (s.signal e).1.conn ∧
        (s.signal e).1.connectingTask = s.connectingTask ∧ (s.signal e).2.effects = [] ∧
        StaysClosed (s.signal e).1 es

omit [NoCaseEq] in
/-- A setter that throws by itself leaves the session as it was, but for the sections it has
given away. -/
theorem Session.setLocal_thrown {s : Session} {desc : SessionDescription} {b : Bool}
    (h : (s.conn.setLocalDescription desc).thrown ≠ none) :
    (s.setLocal desc b).2.thrown.isSome = true ∧ (s.setLocal desc b).2.effects = [] ∧
      (s.setLocal desc b).1 = { s with conn := (s.conn.setLocalDescription desc).state } := by
  obtain ⟨e, he⟩ := Option.ne_none_iff_exists'.1 h
  simp [Session.setLocal, he]

/-- Where the body throws, nothing else is done. -/
theorem Session.setRemote_thrown {s : Session} {desc : SessionDescription} {b : Bool}
    (h : (s.conn.setRemoteDescription desc).thrown ≠ none) :
    (s.setRemote desc b).2.thrown.isSome = true ∧ (s.setRemote desc b).2.effects = [] ∧
      (s.setRemote desc b).1 = { s with conn := (s.conn.setRemoteDescription desc).state } := by
  obtain ⟨e, he⟩ := Option.ne_none_iff_exists'.1 h
  simp [Session.setRemote, he]

omit [NoCaseEq] in
/-- Without transceivers `set_local_description` throws exactly where it refuses. -/
theorem Connection.setLocalDescription_thrown_iff {c : Connection} (hc : c.transceivers = [])
    (desc : SessionDescription) (b : Bool) :
    (c.setLocalDescription desc).thrown ≠ none ↔
      Refuses c.signalingState (.setLocal desc b) := by
  have hcheck : Connection.checkMlines desc.medias c.transceivers = none := by
    rw [hc]
    rfl
  unfold Connection.setLocalDescription Refuses
  rw [hcheck]
  generalize "offer".toList = offer
  generalize "answer".toList = answer
  cases c.signalingState with
  | stable => by_cases ht : desc.sdpType = offer <;> simp [ht]
  | closed => by_cases ht : desc.sdpType = offer <;> simp [ht]
  | haveRemoteOffer => by_cases ht : desc.sdpType = answer <;> simp [ht]
  | haveLocalOffer => simp
  | haveLocalPranswer => simp
  | haveRemotePranswer => simp

/-- `set_remote_description` throws exactly where it refuses. -/
theorem Connection.setRemoteDescription_thrown_iff (c : Connection) (desc : SessionDescription)
    (b : Bool) :
    (c.setRemoteDescription desc).thrown ≠ none ↔
      Refuses c.signalingState (.setRemote desc b) := by
  by_cases hpass : (c.signalingState = .stable ∨ c.signalingState = .closed) ∧
      desc.sdpType = "offer".toList ∧ Connection.checkBundle desc = none
  · obtain ⟨hs, ht, hb⟩ := hpass
    rw [(Connection.setRemoteDescription_offer hs ht hb).1, Connection.applyOffer_thrown]
    have hstate : c.signalingState ≠ .haveLocalOffer := by
      rcases hs with hs | hs <;> rw [hs] <;> decide
    simp [Refuses, hs, ht, hb, hstate]
  · have hfirst : ¬ ((c.signalingState = .stable ∨ c.signalingState = .closed) ∧
        desc.sdpType = "offer".toList ∧ Connection.checkBundle desc = none ∧
        ∀ rm ∈ desc.medias, ¬ Connection.Refused rm) := fun ⟨hs, ht, hb, _⟩ => hpass ⟨hs, ht, hb⟩
    simp only [Refuses, hfirst, not_false_eq_true, true_and]
    rcases c.setRemoteDescription_cases desc with ⟨hthrown, -⟩ | ⟨hthrown, -, -, hcase⟩
    · refine iff_of_true hthrown ?_
      rintro ⟨hs, ht⟩
      refine hthrown ?_
      unfold Connection.setRemoteDescription
      simp only [hs, ht, ne_eq, not_true, if_false]
      exact (Connection.applyAnswer_transceivers desc.medias [] (c := c) rfl []).1
    · refine iff_of_false (fun h => h hthrown) fun hnot => ?_
      rcases hcase with ⟨hs, ht, -⟩ | ⟨hs, ht, -⟩
      · cases hb : Connection.checkBundle desc with
        | none => exact hpass ⟨hs, ht, hb⟩
        | some e =>
          unfold Connection.setRemoteDescription at hthrown
          rcases hs with hs | hs <;> simp [hs, ht, hb] at hthrown
      · exact hnot ⟨hs, ht⟩

/-- **One call on a connection without transceivers.**  A call that is refused changes nothing
that `StaysClosed` speaks of, and leaves no transceivers. -/
theorem Session.signal_refused {s : Session} (hs : s.conn.transceivers = []) {e : SignalingCall}
    (h : Refuses s.conn.signalingState e) :
    (e.isSet = true → (s.signal e).2.thrown.isSome = true) ∧
      Connection.SameSignaling s.conn (s.signal e).1.conn ∧
      (s.signal e).1.connectingTask = s.connectingTask ∧ (s.signal e).2.effects = [] ∧
      (s.signal e).1.conn.transceivers = [] := by
  cases e with
  | setLocal desc b =>
    have hthrown := (s.conn.setLocalDescription_thrown_iff hs desc b).2 h
    obtain ⟨hsome, heffects, hstate⟩ := Session.setLocal_thrown (b := b) hthrown
    have hkept : (s.conn.setLocalDescription desc).state = s.conn := by
      rcases s.conn.setLocalDescription_cases desc with ⟨-, h⟩ | ⟨h, -⟩
      · exact h
      · exact absurd h hthrown
    rw [hkept] at hstate
    refine ⟨fun _ => hsome, ?_, ?_, heffects, ?_⟩ <;> simp only [Session.signal, hstate]
    · exact .refl _
    · exact hs
  | setRemote desc b =>
    have hthrown := (s.conn.setRemoteDescription_thrown_iff desc b).2 h
    obtain ⟨hsome, heffects, hstate⟩ := Session.setRemote_thrown (b := b) hthrown
    have hnone : ∀ k, s.conn.freeTransceiver k = none := fun k => by
      simp [Connection.freeTransceiver, hs]
    have hkept : (s.conn.setRemoteDescription desc).state = s.conn := by
      refine (Connection.unchanged_of_not_takes ?_ hthrown).1
      rintro ⟨-, -, -, _, _, _, _, _, _, _, _, k, _, hsome⟩
      rw [hnone k] at hsome
      cases hsome
    rw [hkept] at hstate
    refine ⟨fun _ => hsome, ?_, ?_, heffects, ?_⟩ <;> simp only [Session.signal, hstate]
    · exact .refl _
    · exact hs
  | createAnswer => exact ⟨fun h => absurd h (by decide), .refl _, rfl, rfl, hs⟩
  | createOffer =>
    unfold Session.signal
    simp only []
    split
    · rename_i c offer hoffer
      obtain ⟨hsame, es, hts⟩ := Connection.createOffer_same hoffer
      refine ⟨fun h => absurd h (by decide), hsame, rfl, rfl, ?_⟩
      rw [hs] at hts
      exact List.eq_nil_of_length_eq_zero (by rw [hts, Connection.setMlineIndices_length]; rfl)
    · exact ⟨fun h => absurd h (by decide), .refl _, rfl, rfl, hs⟩

/-- A call that is not refused changes the signaling state. -/
theorem Session.signal_accepted {s : Session} (hs : s.conn.transceivers = []) {e : SignalingCall}
    (h : ¬ Refuses s.conn.signalingState e) :
    (s.signal e).1.conn.signalingState ≠ s.conn.signalingState := by
  cases e with
  | createOffer => exact absurd trivial h
  | createAnswer => exact absurd trivial h
  | setLocal desc b =>
    have hnone : (s.conn.setLocalDescription desc).thrown = none := by
      by_contra hthrown
      exact h ((s.conn.setLocalDescription_thrown_iff hs desc b).1 hthrown)
    simp only [Session.signal, Session.setLocal_conn]
    rcases s.conn.setLocalDescription_cases desc with ⟨h, -⟩ | ⟨-, -, -, hcase⟩
    · exact absurd hnone h
    · rcases hcase with ⟨hst | hst, -, hnew⟩ | ⟨hst, -, hnew⟩ <;> rw [hnew, hst] <;> decide
  | setRemote desc b =>
    have hnone : (s.conn.setRemoteDescription desc).thrown = none := by
      by_contra hthrown
      exact h ((s.conn.setRemoteDescription_thrown_iff desc b).1 hthrown)
    simp only [Session.signal, Session.setRemote_conn]
    rcases s.conn.setRemoteDescription_cases desc with ⟨h, -⟩ | ⟨-, -, -, hcase⟩
    · exact absurd hnone h
    · rcases hcase with ⟨hst | hst, -, hnew⟩ | ⟨hst, -, hnew⟩ <;> rw [hnew, hst] <;> decide

/-- Over any run, from a connection without transceivers on. -/
theorem staysClosed_iff_of_nil {s : Session} (hs : s.conn.transceivers = [])
    (es : List SignalingCall) :
    StaysClosed s es ↔ ∀ e ∈ es, Refuses s.conn.signalingState e := by
  induction es generalizing s with
  | nil => simp [StaysClosed]
  | cons e es ih =>
    rw [List.forall_mem_cons]
    constructor
    · rintro ⟨-, hsame, -, -, hrest⟩
      have hrefused : Refuses s.conn.signalingState e := by
        by_contra hnot
        exact Session.signal_accepted hs hnot hsame.signalingState
      obtain ⟨-, -, -, -, hnil⟩ := Session.signal_refused hs hrefused
      have hrest := (ih hnil).1 hrest
      rw [hsame.signalingState] at hrest
      exact ⟨hrefused, hrest⟩
    · rintro ⟨hrefused, hrest⟩
      obtain ⟨hset, hsame, htask, heffects, hnil⟩ := Session.signal_refused hs hrefused
      refine ⟨hset, hsame, htask, heffects, (ih hnil).2 ?_⟩
      rw [hsame.signalingState]
      exact hrest

/-- **When a closed connection stays closed**: exactly where each later call of a setter is one
that it refuses in the signaling state in which the connection was closed. -/
theorem staysClosed_iff (s : Session) (es : List SignalingCall) :
    StaysClosed s.close es ↔ ∀ e ∈ es, Refuses s.conn.signalingState e :=
  staysClosed_iff_of_nil rfl es

end Closed

/-- A new connection that is closed takes an offer. -/
theorem not_staysClosed :
    ¬ @StaysClosed asciiNoCase
        ((@sessionMachine asciiNoCase {}).next (@sessionMachine asciiNoCase {}).init .close)
        [.setLocal { sdpType := "offer".toList } false] := by
  rintro ⟨hset, -⟩
  exact absurd (hset rfl) (by decide)

end AsioRtc
