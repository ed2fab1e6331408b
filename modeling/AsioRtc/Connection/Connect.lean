/-
# Connecting

`do_connect`, the task that both setters start once both descriptions are there: it waits for the
candidates where they cannot trickle, for ICE, for the DTLS handshake and for SCTP, and asks for
the SRTP transport, its loops and the data channels on the way.  The agent and the transports are
outside; they answer with an event each (`ConnectEvent`).  `we_are_active` is computed once, and
decides who is the client of DTLS, whose keys are whose in SRTP, and who waits for the other in
SCTP.

A `Peer` is a session with this task.  Its descriptions are set once and stay, up to candidates
(`Peer.Reached.locals`, `Peer.Reached.remotes`), and all that the task asks for is asked for in one
role, which the remote description gives (`Peer.Reached.roles`).
-/

import AsioRtc.Connection.Application
import AsioRtc.Lib.Network

namespace AsioRtc

open Lib Text

/-- `connection_state_t`. -/
inductive ConnectionState
  | init
  | connecting
  | connected
  | disconnected
  | failed
  | closed
  deriving DecidableEq, Repr

/-- Where `do_connect` waits; from the handshake on it knows `we_are_active`. -/
inductive ConnectWait
  | gathering
  | ice
  | handshake (weAreActive : Bool)
  | sctp (weAreActive : Bool)
  deriving DecidableEq, Repr

/-- What `do_connect` waited for: the candidates are there; ICE has come up or not; the handshake
is done or not, and whether there are keys with a profile; SCTP has come up or not. -/
inductive ConnectEvent
  | gathered
  | ice (connected : Bool)
  | handshake (done keys : Bool)
  | sctp (up : Bool)

/-- What a peer asks of the agent and the transports. -/
inductive PeerEffect
  | session (e : SessionEffect)
  | iceConnect
  | iceSendLoop
  | handshake (client : Bool)
  | srtp (client : Bool)
  | senderLoops (i : ℕ)
  | nackLoop
  | receiverLoop (i : ℕ)
  | sctpStart
  | sctp (accept : Bool)
  | dataChannels (weAreActive : Bool)
  deriving DecidableEq, Repr

/-- The role that an effect is asked for in. -/
def PeerEffect.role? : PeerEffect → Option Bool
  | handshake client => some client
  | srtp client => some client
  | sctp accept => some accept
  | dataChannels weAreActive => some weAreActive
  | _ => none

/-- The role that the task knows where it waits. -/
def ConnectWait.role? : ConnectWait → Option Bool
  | handshake weAreActive => some weAreActive
  | sctp weAreActive => some weAreActive
  | _ => none

/-- `connection_impl` with its connect task; `hasSctp` is whether there is an `_sctp_transport`. -/
structure Peer extends Session where
  connectionState : ConnectionState := .init
  waits : Option ConnectWait := none
  hasSctp : Bool := false

/-! ### What `do_connect` reads -/

namespace Connection

/-- `we_are_active`, by the remote description. -/
def weAreActive (remote : SessionDescription) : Bool := setupFrom remote ≠ .active

/-- A description has a section of audio or video. -/
def hasMedia (desc : SessionDescription) : Bool :=
  desc.medias.any fun m => m.mediaType = .audio ∨ m.mediaType = .video

/-- A description has an application section. -/
def hasApplication (desc : SessionDescription) : Bool :=
  desc.medias.any fun m => m.mediaType = .application

/-- `needs_srtp`. -/
def needsSrtp (c : Connection) : Bool := c.remoteDesc.elim false hasMedia

/-- `needs_sctp`. -/
def needsSctp (c : Connection) : Bool := c.needSctp || c.remoteDesc.elim false hasApplication

/-- `_start_sender_loops`: the senders that have a track and are not stopped. -/
def startSenderLoops (c : Connection) : List PeerEffect :=
  c.transceivers.zipIdx.filterMap fun p =>
    if p.1.sender.stopped = false ∧ p.1.sender.trackId.isSome then some (.senderLoops p.2) else none

/-- `_start_nack_loop`. -/
def startNackLoop (c : Connection) : List PeerEffect :=
  if c.transceivers.any fun t => t.direction.receives then [.nackLoop] else []

/-- What is started when there are keys for SRTP. -/
def startSrtp (c : Connection) (client : Bool) : List PeerEffect :=
  .srtp client :: c.startSenderLoops ++ c.startNackLoop ++
    (List.range c.transceivers.length).map .receiverLoop

end Connection

namespace Peer

/-! ### The task -/

/-- `co_return` on the way: the guard at the end of the task sees that it has not connected. -/
def fail (p : Peer) : Peer := { p with connectionState := .failed, waits := none }

/-- The beginning of `do_connect`.  `trickle_ice` is what `apply_descriptions` has set it to, and
there is a gathering task, since a local description has been set. -/
def startConnect (p : Peer) : Peer × List PeerEffect :=
  let p := { p with connectionState := .connecting }
  if p.conn.remoteDesc.elim false Connection.iceOptionsTrickleFrom then
    ({ p with waits := some .ice }, [.iceConnect])
  else ({ p with waits := some .gathering }, [])

/-- `do_connect` behind the handshake. -/
def handshaken (p : Peer) (active keys : Bool) : Peer × List PeerEffect :=
  let srtp := p.conn.needsSrtp && keys
  let needsSctp := p.conn.needsSctp
  let started := if srtp then p.conn.startSrtp active else []
  let p := if srtp then { p with conn.srtpTransport := true } else p
  if needsSctp then
    ({ p with hasSctp := true, waits := some (.sctp active) },
      started ++ [.sctpStart, .sctp active])
  else ({ p with connectionState := .connected, waits := none }, started)

/-- `do_connect` goes on; an event that it does not wait for does not happen. -/
def resume (p : Peer) (e : ConnectEvent) : Peer × List PeerEffect :=
  match p.waits, e with
  | some .gathering, .gathered => ({ p with waits := some .ice }, [.iceConnect])
  | some .ice, .ice connected =>
      if connected then
        let active := p.conn.remoteDesc.elim true Connection.weAreActive
        ({ p with waits := some (.handshake active) }, [.iceSendLoop, .handshake active])
      else (p.fail, [])
  | some (.handshake active), .handshake done keys =>
      if done then p.handshaken active keys else (p.fail, [])
  | some (.sctp active), .sctp up =>
      if up then
        ({ p with connectionState := .connected, waits := none }, [.dataChannels active])
      else (p.fail, [])
  | _, _ => (p, [])

/-! ### The calls -/

/-- What a call asks of the agent and the transports. -/
def asks [NoCaseEq] (s : Session) : ApplicationCall → List SessionEffect
  | .session e => ((sessionMachine s.conn).out s e).effects
  | _ => []

/-- A call as it finds the connection. -/
def told (p : Peer) : ApplicationCall → ApplicationCall
  | .createDataChannel _ => .createDataChannel p.hasSctp
  | e => e

end Peer

/-- What happens to a peer: a call of the application, local candidates, which
`do_on_candidates` appends to the local description, and what the connect task waits for. -/
inductive PeerCall
  | app (e : ApplicationCall)
  | candidates (lines : List Text)
  | resume (e : ConnectEvent)

namespace Peer

/-- `connection_impl::do_on_candidates`, as far as the local description goes. -/
def doOnCandidates (p : Peer) (lines : List Text) : Peer :=
  { p with conn.localDesc := p.conn.localDesc.map fun d =>
      { d with candidates := d.candidates ++ lines } }

/-- A step. -/
def step [NoCaseEq] (p : Peer) : PeerCall → Peer × List PeerEffect
  | .app e =>
      let asked := asks p.toSession (p.told e)
      let p := { p with toSession := p.toSession.call (p.told e) }
      if .connect ∈ asked then
        let (p, more) := p.startConnect
        (p, asked.map .session ++ more)
      else (p, asked.map .session)
  | .candidates lines => (p.doOnCandidates lines, [])
  | .resume e => p.resume e

end Peer

/-- A peer over time, from the connection `c` on. -/
def peerMachine [NoCaseEq] (c : Connection) : Machine Peer PeerCall (List PeerEffect) where
  init := { conn := c }
  step := Peer.step

/-! ### What the calls change -/

namespace Connection

/-- Only what packets are routed by is different. -/
def Rerouted (c c' : Connection) : Prop :=
  c' = { c with
    transceivers := c'.transceivers, midExtId := c'.midExtId, ssrcSet := c'.ssrcSet
    rtxPtToPt := c'.rtxPtToPt, rtxSsrcToSsrc := c'.rtxSsrcToSsrc }

/-- The same names, passwords and fingerprint. -/
structure SameAgent (c c' : Connection) : Prop where
  username : c'.localUsername = c.localUsername
  password : c'.localPassword = c.localPassword
  fingerprint : c'.fingerprint = c.fingerprint

/-- The agent stays the same over two changes. -/
theorem SameAgent.trans {c c' c'' : Connection} (h : c.SameAgent c') (h' : c'.SameAgent c'') :
    c.SameAgent c'' :=
  ⟨h'.username.trans h.username, h'.password.trans h.password,
    h'.fingerprint.trans h.fingerprint⟩

namespace Rerouted

variable {c c' c'' : Connection}

/-- A connection is a rerouting of itself. -/
theorem refl (c : Connection) : c.Rerouted c := rfl

/-- One rerouting after the other. -/
theorem trans (h : c.Rerouted c') (h' : c'.Rerouted c'') : c.Rerouted c'' := by
  unfold Rerouted at h h'
  rw [h] at h'
  exact h'

/-- Rerouting for each element of a list. -/
theorem foldl {α : Type} {f : Connection → α → Connection}
    (hf : ∀ (c : Connection) a, c.Rerouted (f c a))
    (l : List α) (c : Connection) : c.Rerouted (l.foldl f c) := by
  induction l generalizing c with
  | nil => exact refl c
  | cons a l ih => exact (hf c a).trans (ih (f c a))

/-- Rerouting leaves the agent alone. -/
theorem sameAgent (h : c.Rerouted c') : c.SameAgent c' := by
  unfold Rerouted at h
  constructor <;> rw [h]

/-- The transceivers are others. -/
theorem transceivers (c : Connection) (ts : List RtpTransceiver) :
    c.Rerouted { c with transceivers := ts } := rfl

end Rerouted

variable [NoCaseEq]

/-- Building the map of the sources only reroutes. -/
theorem buildSsrcMap_rerouted (c : Connection) (i : ℕ) (rm : SdpMedia) :
    c.Rerouted (c.buildSsrcMap i rm) := by
  have hone (c : Connection) (ssrc : U32) : c.Rerouted (createSsrcContext i c ssrc) := by
    unfold createSsrcContext
    split <;> exact Eq.refl _
  have hmaps (f : U8 → Option U8) (g : U32 → Option U32) :
      c.Rerouted { c with rtxPtToPt := f, rtxSsrcToSsrc := g } := Eq.refl _
  unfold buildSsrcMap
  simp only []
  split
  · exact .refl c
  · exact (hmaps _ _).trans (.foldl hone _ _)

/-- Joining a section with a transceiver only reroutes. -/
theorem associate_rerouted (c : Connection) (i : ℕ) (t : RtpTransceiver) (rm : SdpMedia) :
    c.Rerouted (c.associate i t rm).1 := by
  have hset := Rerouted.transceivers c
    (c.transceivers.set i (({ t with mid := rm.mid } : RtpTransceiver).fromRemoteOffer rm))
  have hmid (c : Connection) (id : Option U16) : c.Rerouted { c with midExtId := id } := Eq.refl _
  unfold associate
  simp only []
  split
  · exact hset
  · have hmap := hset.trans (buildSsrcMap_rerouted _ i rm)
    split <;> split
    · exact hmap.trans (hmid _ _)
    · exact hset.trans (hmid _ _)
    · exact hmap
    · exact hset

/-- Applying an offer only reroutes. -/
theorem applyOffer_rerouted (rms : List SdpMedia) (c : Connection) (tracks : List OnTrack) :
    c.Rerouted (applyOffer rms c tracks).state := by
  induction rms generalizing c tracks with
  | nil => exact .refl c
  | cons rm rms ih =>
    rw [applyOffer]
    split
    · exact ih c tracks
    · split
      · exact .refl c
      · split
        · exact ih c tracks
        · exact (associate_rerouted c _ _ rm).trans (ih _ _)

/-- Applying an answer only reroutes. -/
theorem applyAnswer_rerouted (medias : List SdpMedia) (ts : List (RtpTransceiver × ℕ))
    (c : Connection) (tracks : List OnTrack) :
    c.Rerouted (applyAnswer medias ts c tracks).state := by
  have hone (c : Connection) (i : ℕ) (t : RtpTransceiver) :
      c.Rerouted (applyAnswerTo medias c i t).1 := by
    unfold applyAnswerTo
    split
    · exact .transceivers c _
    · simp only []
      split
      · exact .transceivers c _
      · split
        · exact (Rerouted.transceivers c _).trans (buildSsrcMap_rerouted _ i _)
        · exact .transceivers c _
  induction ts generalizing c tracks with
  | nil => exact .refl c
  | cons t ts ih =>
    rw [applyAnswer]
    exact (hone c t.2 t.1).trans (ih _ _)

omit [NoCaseEq] in
/-- A local description leaves the agent alone. -/
theorem setLocalDescription_sameAgent (c : Connection) (desc : SessionDescription) :
    c.SameAgent (c.setLocalDescription desc).state := by
  unfold setLocalDescription
  split
  case h_4 | h_5 =>
    split
    · exact ⟨rfl, rfl, rfl⟩
    · split <;> exact ⟨rfl, rfl, rfl⟩
  case h_6 => split <;> exact ⟨rfl, rfl, rfl⟩
  all_goals exact ⟨rfl, rfl, rfl⟩

/-- A remote description leaves the agent alone. -/
theorem setRemoteDescription_sameAgent (c : Connection) (desc : SessionDescription) :
    c.SameAgent (c.setRemoteDescription desc).state := by
  unfold setRemoteDescription
  split
  case h_4 | h_5 =>
    split
    · exact ⟨rfl, rfl, rfl⟩
    · split
      · exact ⟨rfl, rfl, rfl⟩
      · simp only []
        split
        · exact (applyOffer_rerouted _ c []).sameAgent
        · exact ((applyOffer_rerouted _ c []).sameAgent).trans ⟨rfl, rfl, rfl⟩
  case h_6 =>
    split
    · exact ⟨rfl, rfl, rfl⟩
    · exact ((applyAnswer_rerouted _ _ c []).sameAgent).trans ⟨rfl, rfl, rfl⟩
  all_goals exact ⟨rfl, rfl, rfl⟩

/-- Making an offer leaves the agent alone. -/
theorem createOffer_sameAgent {c c' : Connection} {offer : SessionDescription}
    (h : c.createOffer = .ok (c', offer)) : c.SameAgent c' := by
  unfold createOffer at h
  obtain ⟨⟨es, counter⟩, -, h⟩ := Checked.bind_eq_ok.1 h
  obtain ⟨sections, -, h⟩ := Checked.bind_eq_ok.1 h
  cases h
  exact ⟨rfl, rfl, rfl⟩

end Connection

/-! ### A call of the application -/

/-- A call of one of the two setters, or `close`. -/
def ApplicationCall.isSet : ApplicationCall → Bool
  | .session .close => true
  | .session (.signal e) => e.isSet
  | _ => false

/-- A call closes, sets one of the two descriptions, or sets none. -/
theorem ApplicationCall.cases_isSet (e : ApplicationCall) :
    e = .session .close ∨ (∃ desc b, e = .session (.signal (.setLocal desc b))) ∨
      (∃ desc b, e = .session (.signal (.setRemote desc b))) ∨ e.isSet = false := by
  cases e with
  | session e =>
    cases e with
    | close => exact .inl rfl
    | signal e =>
      cases e with
      | setLocal desc b => exact .inr (.inl ⟨desc, b, rfl⟩)
      | setRemote desc b => exact .inr (.inr (.inl ⟨desc, b, rfl⟩))
      | createOffer => exact .inr (.inr (.inr rfl))
      | createAnswer => exact .inr (.inr (.inr rfl))
  | _ => exact .inr (.inr (.inr rfl))

namespace Session

variable [NoCaseEq] {s : Session} {effects : List SessionEffect}

omit [NoCaseEq] in
/-- The end of a setter starts to connect only where both descriptions are there, and applies the
remote one. -/
theorem finish_effects (s : Session) (tracks : List OnTrack) (gathers agentThrows : Bool) :
    (.connect ∈ (finish s tracks gathers agentThrows).2.effects → s.conn.BothStored) ∧
      ∀ p, .applied p ∈ (finish s tracks gathers agentThrows).2.effects →
        ∃ r, s.conn.remoteDesc = some r ∧ p = .of r := by
  by_cases hboth : s.conn.BothStored
  · refine ⟨fun _ => hboth, fun p hp => ?_⟩
    obtain ⟨l, hl⟩ := Option.isSome_iff_exists.1 hboth.1
    obtain ⟨r, hr⟩ := Option.isSome_iff_exists.1 hboth.2
    refine ⟨r, hr, ?_⟩
    have hconnect (s : Session) : .applied p ∉ s.startConnecting.2 := by
      unfold startConnecting
      split <;> simp
    have happly (h : .applied p ∈ s.applyDescriptions.2) : p = .of r := by
      unfold applyDescriptions at h
      simp only [hl, hr] at h
      split at h
      · cases h
      · simpa using h
    unfold finish at hp
    simp only [] at hp
    split at hp
    · exact happly hp
    · rcases List.mem_append.1 hp with hp | hp
      · rcases List.mem_append.1 hp with hp | hp
        · exact happly hp
        · cases gathers <;> simp at hp
      · exact absurd hp (hconnect _)
  · rw [finish_early hboth]
    cases gathers <;> simp

/-- What a call of the application does, other than `close`: the descriptions that are there stay,
and the agent and the transports are asked for something only where one of them has been missing. -/
structure Steps (s s' : Session) (asked : List SessionEffect) (effects : List SessionEffect) :
    Prop where
  consistent : s'.Consistent (effects ++ asked)
  agent : s.conn.SameAgent s'.conn
  localDesc : s.conn.localDesc = none ∨ s'.conn.localDesc = s.conn.localDesc
  remoteDesc : s.conn.remoteDesc = none ∨ s'.conn.remoteDesc = s.conn.remoteDesc
  fresh : asked ≠ [] → ¬ s.conn.BothStored
  connect : .connect ∈ asked → s'.conn.BothStored
  applied : ∀ p, .applied p ∈ asked → ∃ r, s'.conn.remoteDesc = some r ∧ p = .of r

omit [NoCaseEq] in
/-- A call that changes the connection, but not what has been signalled. -/
theorem Consistent.steps_same (h : s.Consistent effects) {c : Connection}
    (hc : s.conn.SameSignaling c) (hagent : s.conn.SameAgent c) :
    Steps s { s with conn := c } [] effects :=
  ⟨h.same hc, hagent, .inr hc.localDesc, .inr hc.remoteDesc, fun h => absurd rfl h,
    fun h => absurd h List.not_mem_nil, fun _ h => absurd h List.not_mem_nil⟩

omit [NoCaseEq] in
/-- Setting a local description is a step of the negotiation. -/
theorem Consistent.steps_setLocal (h : s.Consistent effects) (desc : SessionDescription)
    (b : Bool) :
    Steps s (s.setLocal desc b).1 (s.setLocal desc b).2.effects effects := by
  have hagent := s.conn.setLocalDescription_sameAgent desc
  rcases s.conn.setLocalDescription_cases desc with ⟨hthrown, -⟩ | ⟨hthrown, hl, hr, hcase⟩
  · obtain ⟨-, heffects, hstate⟩ := setLocal_thrown (b := b) hthrown
    have hsame : s.conn.SameSignaling (s.conn.setLocalDescription desc).state := by
      rcases s.conn.setLocalDescription_cases desc with ⟨-, heq⟩ | ⟨hnone, -⟩
      · rw [heq]
        exact .refl _
      · exact absurd hnone hthrown
    rw [heffects, hstate]
    exact h.steps_same hsame hagent
  · have hset : s.setLocal desc b = Session.finish { s with
        conn := (s.conn.setLocalDescription desc).state
        iceControlling := desc.sdpType = "offer".toList } (s.conn.setLocalDescription desc).tracks
          true b := by
      rw [Session.setLocal]
      simp only [hthrown]
    have hstep := h.setLocal desc b
    have hnone : s.conn.localDesc = none := by
      have hd := h.descriptions
      unfold Connection.DescriptionsMatch at hd
      rcases hcase with ⟨hs | hs, -⟩ | ⟨hs, -⟩ <;> simp only [hs] at hd
      · exact hd.1
      · exact hd.1
    obtain ⟨hconnect, happlied⟩ := Session.finish_effects { s with
      conn := (s.conn.setLocalDescription desc).state
      iceControlling := desc.sdpType = "offer".toList }
      (s.conn.setLocalDescription desc).tracks true b
    rw [hset] at hstep ⊢
    refine ⟨hstep, ?_, .inl hnone, .inr ?_, fun _ hboth => ?_, ?_, ?_⟩
    · rw [finish_conn]
      exact hagent
    · rw [finish_conn]
      exact hr
    · have hsome := hboth.1
      rw [hnone] at hsome
      cases hsome
    · rw [finish_conn]
      exact hconnect
    · rw [finish_conn]
      exact happlied

/-- Setting a remote description is a step of the negotiation. -/
theorem Consistent.steps_setRemote (h : s.Consistent effects) (desc : SessionDescription)
    (b : Bool) :
    Steps s (s.setRemote desc b).1 (s.setRemote desc b).2.effects effects := by
  have hagent := s.conn.setRemoteDescription_sameAgent desc
  rcases s.conn.setRemoteDescription_cases desc with ⟨hthrown, hsame⟩ | ⟨hthrown, hr, hl, hcase⟩
  · obtain ⟨-, heffects, hstate⟩ := setRemote_thrown (b := b) hthrown
    rw [heffects, hstate]
    exact h.steps_same hsame hagent
  · have hset : s.setRemote desc b = Session.finish { s with
        conn := (s.conn.setRemoteDescription desc).state
        iceControlling := desc.sdpType ≠ "offer".toList } (s.conn.setRemoteDescription desc).tracks
          false b := by
      rw [Session.setRemote]
      simp only [hthrown]
    have hstep := h.setRemote desc b
    have hnone : s.conn.remoteDesc = none := by
      have hd := h.descriptions
      unfold Connection.DescriptionsMatch at hd
      rcases hcase with ⟨hs | hs, -⟩ | ⟨hs, -⟩ <;> simp only [hs] at hd
      · exact hd.2
      · exact hd.2
    obtain ⟨hconnect, happlied⟩ := Session.finish_effects { s with
      conn := (s.conn.setRemoteDescription desc).state
      iceControlling := desc.sdpType ≠ "offer".toList }
      (s.conn.setRemoteDescription desc).tracks false b
    rw [hset] at hstep ⊢
    refine ⟨hstep, ?_, .inr ?_, .inl hnone, fun _ hboth => ?_, ?_, ?_⟩
    · rw [finish_conn]
      exact hagent
    · rw [finish_conn]
      exact hl
    · have hsome := hboth.2
      rw [hnone] at hsome
      cases hsome
    · rw [finish_conn]
      exact hconnect
    · rw [finish_conn]
      exact happlied

/-- A call that sets no description and does not close only changes the connection, and not what has
been signalled. -/
theorem call_same (s : Session) {e : ApplicationCall} (he : e.isSet = false) :
    s.call e = { s with conn := (s.call e).conn } ∧ s.conn.SameSignaling (s.call e).conn ∧
      s.conn.SameAgent (s.call e).conn ∧ Peer.asks s e = [] := by
  have hwith (r : Except AddError Connection)
      (hr : ∀ c, r = .ok c → s.conn.SameSignaling c ∧ s.conn.SameAgent c) :
      s.withConn r = { s with conn := (s.withConn r).conn } ∧
        s.conn.SameSignaling (s.withConn r).conn ∧ s.conn.SameAgent (s.withConn r).conn := by
    cases r with
    | ok c => exact ⟨rfl, hr c rfl⟩
    | error _ => exact ⟨rfl, .refl _, rfl, rfl, rfl⟩
  have hadd {desc : MediaDescription} {init : TransceiverInit} {draws : ℕ → U32} {c : Connection}
      (hc : s.conn.addTransceiver desc init draws = .ok c) :
      s.conn.SameSignaling c ∧ s.conn.SameAgent c := by
    obtain ⟨codec, -, -, rfl⟩ := Connection.addTransceiver_ok hc
    exact ⟨⟨rfl, rfl, rfl⟩, rfl, rfl, rfl⟩
  cases e with
  | session e =>
    cases e with
    | close => cases he
    | signal e =>
      cases e with
      | setLocal desc b => cases he
      | setRemote desc b => cases he
      | createAnswer => exact ⟨rfl, .refl _, ⟨rfl, rfl, rfl⟩, rfl⟩
      | createOffer =>
        show (s.signal .createOffer).1 = { s with conn := (s.signal .createOffer).1.conn } ∧
          s.conn.SameSignaling (s.signal .createOffer).1.conn ∧
            s.conn.SameAgent (s.signal .createOffer).1.conn ∧ (s.signal .createOffer).2.effects = []
        rw [Session.signal]
        split
        · rename_i c offer hoffer
          exact ⟨rfl, (Connection.createOffer_same hoffer).1,
            Connection.createOffer_sameAgent hoffer, rfl⟩
        · exact ⟨rfl, .refl _, ⟨rfl, rfl, rfl⟩, rfl⟩
  | addTransceiver desc init draws =>
    obtain ⟨hs, hsame, hagent⟩ := hwith _ fun c hc => hadd hc
    exact ⟨hs, hsame, hagent, rfl⟩
  | addTrack id desc streams draws =>
    obtain ⟨hs, hsame, hagent⟩ := hwith (s.conn.addTrack id desc streams draws) fun c hc => by
      rw [Connection.addTrack] at hc
      split at hc
      · rw [Connection.addTransceiverWithTrack, Except.map.eq_def] at hc
        split at hc
        · cases hc
        · rename_i c' hc'
          obtain ⟨hsame, hagent⟩ := hadd hc'
          obtain rfl := Except.ok.inj hc
          exact ⟨hsame.trans ⟨rfl, rfl, rfl⟩, hagent.trans ⟨rfl, rfl, rfl⟩⟩
      · obtain rfl := Except.ok.inj hc
        exact ⟨⟨rfl, rfl, rfl⟩, rfl, rfl, rfl⟩
    exact ⟨hs, hsame, hagent, rfl⟩
  | createDataChannel hasSctp =>
    rw [call]
    split
    · exact ⟨rfl, .refl _, ⟨rfl, rfl, rfl⟩, rfl⟩
    · exact ⟨rfl, ⟨rfl, rfl, rfl⟩, ⟨rfl, rfl, rfl⟩, rfl⟩
  | _ => exact ⟨rfl, ⟨rfl, rfl, rfl⟩, ⟨rfl, rfl, rfl⟩, rfl⟩

/-- **A call of the application**, other than `close`. -/
theorem Consistent.steps (h : s.Consistent effects) {e : ApplicationCall}
    (he : e ≠ .session .close) :
    Steps s (s.call e) (Peer.asks s e) effects := by
  rcases ApplicationCall.cases_isSet e with rfl | ⟨desc, b, rfl⟩ | ⟨desc, b, rfl⟩ | hset
  · exact absurd rfl he
  · exact h.steps_setLocal desc b
  · exact h.steps_setRemote desc b
  · obtain ⟨hs, hsame, hagent, hasks⟩ := s.call_same hset
    rw [hs, hasks]
    exact h.steps_same hsame hagent

end Session

/-! ### A step of a peer -/

/-- The same description, with other candidates. -/
def SessionDescription.SameButCandidates (d d' : SessionDescription) : Prop :=
  d' = { d with candidates := d'.candidates }

/-- Candidates are added twice. -/
theorem SessionDescription.SameButCandidates.trans {d d' d'' : SessionDescription}
    (h : d.SameButCandidates d') (h' : d'.SameButCandidates d'') : d.SameButCandidates d'' := by
  unfold SameButCandidates at h h'
  rw [h] at h'
  exact h'

namespace Peer

/-- The role that the remote description gives. -/
def role (p : Peer) : Option Bool := p.conn.remoteDesc.map Connection.weAreActive

/-- The descriptions match the signaling state, and the task waits only where both are there, in
the role that the remote one gives. -/
structure Sound (p : Peer) : Prop where
  consistent : ∃ effects, p.Consistent effects
  waits : p.waits ≠ none → p.conn.BothStored
  roles : ∀ w, p.waits = some w → ∀ a, w.role? = some a → p.role = some a

/-- What a step makes of a peer: descriptions that are there stay, and what it asks for is asked for
in the role of the remote one. -/
structure Goes (p p' : Peer) (out : List PeerEffect) : Prop where
  sound : p'.Sound
  agent : p.conn.SameAgent p'.conn
  localDesc : ∀ l, p.conn.localDesc = some l →
    ∃ l', p'.conn.localDesc = some l' ∧ l.SameButCandidates l'
  remoteDesc : ∀ r, p.conn.remoteDesc = some r → p'.conn.remoteDesc = some r
  roles : ∀ x ∈ out, ∀ a, x.role? = some a → p'.conn.BothStored ∧ p'.role = some a
  applied : ∀ q, .session (.applied q) ∈ out → ∃ r, p'.conn.remoteDesc = some r ∧ q = .of r

variable {p p' : Peer}

/-- A step of the task: of the connection only the SRTP transport may be new. -/
theorem Goes.of_task (hp : p.Sound)
    (hsession : p'.toSession =
      { p.toSession with conn := { p.conn with srtpTransport := p'.conn.srtpTransport } })
    (hboth : p.conn.BothStored) (hwaits : ∀ w, p'.waits = some w → ∀ a, w.role? = some a →
      p.role = some a) {out : List PeerEffect}
    (hout : ∀ x ∈ out, ∀ a, x.role? = some a → p.role = some a)
    (happlied : ∀ q, .session (.applied q) ∉ out) : p.Goes p' out := by
  obtain ⟨effects, hconsistent⟩ := hp.consistent
  have hconn := congrArg Session.conn hsession
  have hrole : p'.role = p.role := by rw [role, hconn, role]
  have hboth' : p'.conn.BothStored := by
    rw [hconn]
    exact hboth
  have hconsistent' : p'.Consistent (effects ++ []) := by
    rw [hsession]
    exact hconsistent.same ⟨rfl, rfl, rfl⟩
  refine ⟨⟨⟨_, hconsistent'⟩, fun _ => hboth', fun w hw a ha => ?_⟩, ?_,
    fun l hl => ⟨l, ?_, rfl⟩, fun r hr => ?_, fun x hx a ha => ⟨hboth', ?_⟩,
    fun q hq => absurd hq (happlied q)⟩
  · rw [hrole]
    exact hwaits w hw a ha
  · rw [hconn]
    exact ⟨rfl, rfl, rfl⟩
  · rw [hconn]
    exact hl
  · rw [hconn]
    exact hr
  · rw [hrole]
    exact hout x hx a ha

/-- What is started with SRTP has its role. -/
theorem startSrtp_role (c : Connection) (client : Bool) :
    (∀ x ∈ c.startSrtp client, ∀ a, x.role? = some a → a = client) ∧
      ∀ q, .session (.applied q) ∉ c.startSrtp client := by
  have hloops : ∀ x ∈ c.startSenderLoops, ∃ i, x = .senderLoops i := by
    intro x hx
    obtain ⟨q, -, hq⟩ := List.mem_filterMap.1 hx
    split at hq
    · exact ⟨_, (Option.some.inj hq).symm⟩
    · cases hq
  have hnack : ∀ x ∈ c.startNackLoop, x = .nackLoop := by
    intro x hx
    unfold Connection.startNackLoop at hx
    split at hx
    · exact List.mem_singleton.1 hx
    · cases hx
  have hcases : ∀ x ∈ c.startSrtp client,
      x = .srtp client ∨ x.role? = none ∧ ∀ e, x ≠ .session e := by
    intro x hx
    rw [Connection.startSrtp, List.mem_append, List.mem_append, List.mem_cons] at hx
    rcases hx with ((rfl | hx) | hx) | hx
    · exact .inl rfl
    · obtain ⟨i, rfl⟩ := hloops x hx
      exact .inr ⟨rfl, fun _ h => by cases h⟩
    · obtain rfl := hnack x hx
      exact .inr ⟨rfl, fun _ h => by cases h⟩
    · obtain ⟨i, -, rfl⟩ := List.mem_map.1 hx
      exact .inr ⟨rfl, fun _ h => by cases h⟩
  refine ⟨fun x hx a ha => ?_, fun q hq => ?_⟩
  · rcases hcases x hx with rfl | ⟨hnone, -⟩
    · exact (Option.some.inj ha).symm
    · rw [hnone] at ha
      cases ha
  · rcases hcases _ hq with h | ⟨-, h⟩
    · cases h
    · exact h _ rfl

/-- Behind the handshake. -/
theorem handshaken_goes (hp : p.Sound) (hboth : p.conn.BothStored) {active : Bool}
    (hrole : p.role = some active) (keys : Bool) :
    p.Goes (p.handshaken active keys).1 (p.handshaken active keys).2 := by
  have hstarted (b : Bool) : (∀ x ∈ (if b then p.conn.startSrtp active else []), ∀ a,
      x.role? = some a → p.role = some a) ∧
      ∀ q, .session (.applied q) ∉ (if b then p.conn.startSrtp active else []) := by
    obtain ⟨h, h'⟩ := startSrtp_role p.conn active
    split
    · exact ⟨fun x hx a ha => h x hx a ha ▸ hrole, h'⟩
    · exact ⟨fun x hx => absurd hx List.not_mem_nil, fun q => List.not_mem_nil⟩
  unfold handshaken
  generalize (p.conn.needsSrtp && keys) = b
  obtain ⟨hroles, happlied⟩ := hstarted b
  simp only []
  split
  · refine .of_task hp (by cases b <;> rfl) hboth (fun w hw a ha => ?_) (fun x hx a ha => ?_)
      fun q hq => ?_
    · obtain rfl := Option.some.inj hw
      exact Option.some.inj ha ▸ hrole
    · rcases List.mem_append.1 hx with hx | hx
      · exact hroles x hx a ha
      · simp only [List.mem_cons, List.not_mem_nil, or_false] at hx
        rcases hx with rfl | rfl
        · cases ha
        · exact Option.some.inj ha ▸ hrole
    · rcases List.mem_append.1 hq with hq | hq
      · exact happlied q hq
      · simp at hq
  · exact .of_task hp (by cases b <;> rfl) hboth (fun w hw => by cases hw) hroles happlied

/-- **The task goes on.** -/
theorem resume_goes (hp : p.Sound) (e : ConnectEvent) : p.Goes (p.resume e).1 (p.resume e).2 := by
  -- Where it does not wait for the event nothing happens.
  have hrefl : p.Goes p [] := by
    refine ⟨hp, ⟨rfl, rfl, rfl⟩, fun l hl => ⟨l, hl, rfl⟩, fun _ h => h, fun x hx => ?_,
      fun q hq => ?_⟩
    · cases hx
    · cases hq
  have hfail (hboth : p.conn.BothStored) : p.Goes p.fail [] :=
    .of_task hp (by rfl) hboth (fun w hw => by cases hw) (fun x hx => absurd hx List.not_mem_nil)
      fun q => List.not_mem_nil
  unfold resume
  cases hw : p.waits with
  | none => exact hrefl
  | some w =>
    have hboth := hp.waits (by rw [hw]; exact Option.some_ne_none w)
    have hroles := hp.roles w hw
    cases w with
    | gathering =>
      cases e with
      | gathered =>
        refine .of_task hp (by rfl) hboth (fun w hw a ha => ?_) (fun x hx a ha => ?_) fun q hq => ?_
        · obtain rfl := Option.some.inj hw
          cases ha
        · obtain rfl := List.mem_singleton.1 hx
          cases ha
        · cases List.mem_singleton.1 hq
      | ice connected => exact hrefl
      | handshake done keys => exact hrefl
      | sctp up => exact hrefl
    | ice =>
      cases e with
      | gathered => exact hrefl
      | ice connected =>
        cases connected with
        | false => exact hfail hboth
        | true =>
          obtain ⟨r, hr⟩ := Option.isSome_iff_exists.1 hboth.2
          have hrole : p.role = some (Connection.weAreActive r) := by rw [role, hr, Option.map_some]
          simp only [hr, Option.elim_some, if_true]
          refine .of_task hp (by rfl) hboth (fun w hw a ha => ?_) (fun x hx a ha => ?_)
            fun q hq => ?_
          · obtain rfl := Option.some.inj hw
            exact Option.some.inj ha ▸ hrole
          · simp only [List.mem_cons, List.not_mem_nil, or_false] at hx
            rcases hx with rfl | rfl
            · cases ha
            · exact Option.some.inj ha ▸ hrole
          · simp at hq
      | handshake done keys => exact hrefl
      | sctp up => exact hrefl
    | handshake active =>
      cases e with
      | gathered => exact hrefl
      | ice connected => exact hrefl
      | handshake done keys =>
        cases done with
        | false => exact hfail hboth
        | true => exact handshaken_goes hp hboth (hroles active rfl) keys
      | sctp up => exact hrefl
    | sctp active =>
      cases e with
      | gathered => exact hrefl
      | ice connected => exact hrefl
      | handshake done keys => exact hrefl
      | sctp up =>
        cases up with
        | false => exact hfail hboth
        | true =>
          refine .of_task hp (by rfl) hboth (fun w hw => by cases hw) (fun x hx a ha => ?_)
            fun q hq => ?_
          · obtain rfl := List.mem_singleton.1 hx
            exact Option.some.inj ha ▸ hroles active rfl
          · cases List.mem_singleton.1 hq

/-- The task starts where both descriptions are there. -/
theorem startConnect_goes (hp : p.Sound) (hboth : p.conn.BothStored) :
    p.Goes p.startConnect.1 p.startConnect.2 := by
  unfold startConnect
  simp only []
  split <;> refine .of_task hp (by rfl) hboth (fun w hw a ha => ?_) (fun x hx a ha => ?_)
    fun q hq => ?_
  · obtain rfl := Option.some.inj hw
    cases ha
  · obtain rfl := List.mem_singleton.1 hx
    cases ha
  · cases List.mem_singleton.1 hq
  · obtain rfl := Option.some.inj hw
    cases ha
  · cases hx
  · cases hq

/-- One thing behind another. -/
theorem Goes.trans {p'' : Peer} {out out' : List PeerEffect} (h : p.Goes p' out)
    (h' : p'.Goes p'' out') : p.Goes p'' (out ++ out') := by
  have hboth (hb : p'.conn.BothStored) : p''.conn.BothStored := by
    obtain ⟨l, hl⟩ := Option.isSome_iff_exists.1 hb.1
    obtain ⟨r, hr⟩ := Option.isSome_iff_exists.1 hb.2
    obtain ⟨l', hl', -⟩ := h'.localDesc l hl
    exact ⟨by rw [hl']; rfl, by rw [h'.remoteDesc r hr]; rfl⟩
  have hrole {a : Bool} (ha : p'.role = some a) : p''.role = some a := by
    obtain ⟨r, hr, hactive⟩ := Option.map_eq_some_iff.1 ha
    rw [role, h'.remoteDesc r hr, Option.map_some, hactive]
  refine ⟨h'.sound, h.agent.trans h'.agent, fun l hl => ?_, fun r hr => h'.remoteDesc r
    (h.remoteDesc r hr), fun x hx a ha => ?_, fun q hq => ?_⟩
  · obtain ⟨l', hl', hsame⟩ := h.localDesc l hl
    obtain ⟨l'', hl'', hsame'⟩ := h'.localDesc l' hl'
    exact ⟨l'', hl'', hsame.trans hsame'⟩
  · rcases List.mem_append.1 hx with hx | hx
    · obtain ⟨hb, ha⟩ := h.roles x hx a ha
      exact ⟨hboth hb, hrole ha⟩
    · exact h'.roles x hx a ha
  · rcases List.mem_append.1 hq with hq | hq
    · obtain ⟨r, hr, hq⟩ := h.applied q hq
      exact ⟨r, h'.remoteDesc r hr, hq⟩
    · exact h'.applied q hq

/-- Local candidates. -/
theorem doOnCandidates_goes (hp : p.Sound) (lines : List Text) :
    p.Goes (p.doOnCandidates lines) [] := by
  obtain ⟨effects, hconsistent⟩ := hp.consistent
  have htype (t : Text) : HasType t (p.doOnCandidates lines).conn.localDesc ↔
      HasType t p.conn.localDesc := by
    unfold HasType doOnCandidates
    cases p.conn.localDesc <;> simp
  have hnone : (p.doOnCandidates lines).conn.localDesc = none ↔ p.conn.localDesc = none :=
    Option.map_eq_none_iff
  have hboth : (p.doOnCandidates lines).conn.BothStored ↔ p.conn.BothStored := by
    unfold Connection.BothStored
    exact and_congr_left fun _ => by
      rw [← Option.ne_none_iff_isSome, ← Option.ne_none_iff_isSome, Ne,
      Ne, hnone]
  have hdescriptions : (p.doOnCandidates lines).conn.DescriptionsMatch := by
    have hd := hconsistent.descriptions
    unfold Connection.DescriptionsMatch at hd ⊢
    rw [show (p.doOnCandidates lines).conn.signalingState = p.conn.signalingState from rfl]
    cases hs : p.conn.signalingState <;> simp only [hs] at hd ⊢
    · exact ⟨hnone.2 hd.1, hd.2⟩
    · exact ⟨(htype _).2 hd.1, hd.2⟩
    · exact ⟨hnone.2 hd.1, hd.2⟩
    · exact ⟨(htype _).2 hd.1, hd.2⟩
    · exact ⟨(htype _).2 hd.1, hd.2⟩
  refine ⟨⟨⟨effects, hdescriptions, ?_, fun h => hboth.2 (hconsistent.rolesSet h),
    hconsistent.applied,
    hconsistent.connected, fun h => hconsistent.notConnected fun hb => h (hboth.2 hb)⟩,
    fun h => hboth.2 (hp.waits h), hp.roles⟩, ⟨rfl, rfl, rfl⟩, fun l hl => ?_, fun r hr => hr,
    fun x hx => absurd hx List.not_mem_nil, fun q hq => absurd hq List.not_mem_nil⟩
  · rw [htype]
    exact hconsistent.controlling
  · refine ⟨{ l with candidates := l.candidates ++ lines }, ?_, rfl⟩
    show p.conn.localDesc.map _ = _
    rw [hl, Option.map_some]

variable [NoCaseEq]

/-- A call of the application, up to the connect task. -/
theorem call_goes (hp : p.Sound) {e : ApplicationCall} (he : e ≠ .session .close) :
    p.Goes { p with toSession := p.toSession.call e } ((asks p.toSession e).map .session) := by
  obtain ⟨effects, hconsistent⟩ := hp.consistent
  have hsteps := hconsistent.steps he
  have hlocal {l : SessionDescription} (hl : p.conn.localDesc = some l) :
      (p.toSession.call e).conn.localDesc = some l := by
    rcases hsteps.localDesc with hnone | hsame
    · rw [hl] at hnone
      cases hnone
    · exact hsame.trans hl
  have hremote {r : SessionDescription} (hr : p.conn.remoteDesc = some r) :
      (p.toSession.call e).conn.remoteDesc = some r := by
    rcases hsteps.remoteDesc with hnone | hsame
    · rw [hr] at hnone
      cases hnone
    · exact hsame.trans hr
  refine ⟨⟨⟨_, hsteps.consistent⟩, fun hw => ?_, fun w hw a ha => ?_⟩, hsteps.agent,
    fun l hl => ⟨l, hlocal hl, rfl⟩, fun r hr => hremote hr, fun x hx a ha => ?_, fun q hq => ?_⟩
  · obtain ⟨hl, hr⟩ := hp.waits hw
    obtain ⟨l, hl⟩ := Option.isSome_iff_exists.1 hl
    obtain ⟨r, hr⟩ := Option.isSome_iff_exists.1 hr
    exact ⟨by rw [hlocal hl]; rfl, by rw [hremote hr]; rfl⟩
  · obtain ⟨r, hr, hactive⟩ := Option.map_eq_some_iff.1 (hp.roles w hw a ha)
    show (p.toSession.call e).conn.remoteDesc.map Connection.weAreActive = some a
    rw [hremote hr, Option.map_some, hactive]
  · obtain ⟨y, -, rfl⟩ := List.mem_map.1 hx
    cases ha
  · obtain ⟨y, hy, heq⟩ := List.mem_map.1 hq
    obtain rfl := PeerEffect.session.inj heq
    exact hsteps.applied q hy

omit [NoCaseEq] in
/-- The task leaves the descriptions alone. -/
theorem resume_conn (p : Peer) (e : ConnectEvent) :
    (p.resume e).1.conn.localDesc = p.conn.localDesc ∧
    (p.resume e).1.conn.remoteDesc = p.conn.remoteDesc := by
  unfold resume
  split
  case h_2 => split <;> exact ⟨rfl, rfl⟩
  case h_3 =>
    split
    · unfold handshaken
      generalize (p.conn.needsSrtp && _) = b
      simp only []
      cases b <;> split <;> exact ⟨rfl, rfl⟩
    · exact ⟨rfl, rfl⟩
  case h_4 => split <;> exact ⟨rfl, rfl⟩
  all_goals exact ⟨rfl, rfl⟩

/-- **A step of a peer**, other than `close`. -/
theorem step_goes (hp : p.Sound) {e : PeerCall} (he : e ≠ .app (.session .close)) :
    p.Goes (p.step e).1 (p.step e).2 := by
  cases e with
  | candidates lines => exact doOnCandidates_goes hp lines
  | resume e => exact resume_goes hp e
  | app e =>
    have htold : p.told e ≠ .session .close := by
      cases e with
      | session e =>
        intro h
        exact he (congrArg PeerCall.app h)
      | _ => intro h; cases h
    have hcall := call_goes hp htold
    obtain ⟨effects, hconsistent⟩ := hp.consistent
    have hconnect := (hconsistent.steps htold).connect
    unfold step
    simp only []
    split
    · rename_i hmem
      exact hcall.trans (startConnect_goes hcall.sound (hconnect hmem))
    · exact hcall

/-- A description is new only where a setter has been called with it. -/
theorem step_sets (p : Peer) {e : PeerCall} (he : e ≠ .app (.session .close)) :
    (p.conn.localDesc = none → ∀ l, (p.step e).1.conn.localDesc = some l →
      ∃ b, e = .app (.session (.signal (.setLocal l b)))) ∧
    (p.conn.remoteDesc = none → ∀ r, (p.step e).1.conn.remoteDesc = some r →
      ∃ b, e = .app (.session (.signal (.setRemote r b)))) := by
  cases e with
  | candidates lines =>
    refine ⟨fun hnone l hl => ?_, fun hnone r hr => ?_⟩
    · rw [step, doOnCandidates] at hl
      simp only [hnone] at hl
      cases hl
    · cases hnone.symm.trans (show p.conn.remoteDesc = some r from hr)
  | resume e =>
    obtain ⟨hl', hr'⟩ := p.resume_conn e
    refine ⟨fun hnone l hl => ?_, fun hnone r hr => ?_⟩
    · cases (hnone.symm.trans (hl'.symm.trans hl))
    · cases (hnone.symm.trans (hr'.symm.trans hr))
  | app e =>
    have hconn : (p.step (.app e)).1.conn = (p.toSession.call (p.told e)).conn := by
      unfold step
      simp only []
      split
      · unfold startConnect
        simp only []
        split <;> rfl
      · rfl
    rw [hconn]
    have hsame (h : p.conn.SameSignaling (p.toSession.call (p.told e)).conn) :
        (p.conn.localDesc = none → ∀ l, (p.toSession.call (p.told e)).conn.localDesc = some l →
          ∃ b, PeerCall.app e = .app (.session (.signal (.setLocal l b)))) ∧
        (p.conn.remoteDesc = none → ∀ r, (p.toSession.call (p.told e)).conn.remoteDesc = some r →
          ∃ b, PeerCall.app e = .app (.session (.signal (.setRemote r b)))) :=
      ⟨fun hnone l hl => (by cases hnone.symm.trans (h.localDesc.symm.trans hl)),
        fun hnone r hr => (by cases hnone.symm.trans (h.remoteDesc.symm.trans hr))⟩
    have htold : p.told e = e ∨ (p.told e).isSet = false := by
      cases e with
      | createDataChannel hasSctp => exact .inr rfl
      | _ => exact .inl rfl
    rcases htold with htold | hset
    · rw [htold] at hsame ⊢
      rcases ApplicationCall.cases_isSet e with rfl | ⟨desc, b, rfl⟩ | ⟨desc, b, rfl⟩ | hset
      · exact absurd rfl he
      · show (_ → ∀ l, (p.toSession.setLocal desc b).1.conn.localDesc = some l → _) ∧
          (_ → ∀ r, (p.toSession.setLocal desc b).1.conn.remoteDesc = some r → _)
        rw [Session.setLocal_conn]
        rcases p.conn.setLocalDescription_cases desc with ⟨-, hstate⟩ | ⟨-, hl, hr, -⟩
        · rw [hstate]
          exact ⟨fun hnone l hl => (by cases hnone.symm.trans hl),
            fun hnone r hr => (by cases hnone.symm.trans hr)⟩
        · refine ⟨fun _ l hl' => ⟨b, ?_⟩, fun hnone r hr' => ?_⟩
          · obtain rfl := Option.some.inj (hl.symm.trans hl')
            rfl
          · cases hnone.symm.trans (hr.symm.trans hr')
      · show (_ → ∀ l, (p.toSession.setRemote desc b).1.conn.localDesc = some l → _) ∧
          (_ → ∀ r, (p.toSession.setRemote desc b).1.conn.remoteDesc = some r → _)
        rw [Session.setRemote_conn]
        rcases p.conn.setRemoteDescription_cases desc with ⟨-, hsame⟩ | ⟨-, hr, hl, -⟩
        · exact ⟨fun hnone l hl => (by cases hnone.symm.trans (hsame.localDesc.symm.trans hl)),
            fun hnone r hr => (by cases hnone.symm.trans (hsame.remoteDesc.symm.trans hr))⟩
        · refine ⟨fun hnone l hl' => ?_, fun _ r hr' => ⟨b, ?_⟩⟩
          · cases hnone.symm.trans (hl.symm.trans hl')
          · obtain rfl := Option.some.inj (hr.symm.trans hr')
            rfl
      · exact hsame (p.toSession.call_same hset).2.1
    · exact hsame (p.toSession.call_same hset).2.1

end Peer

/-! ### Runs of a peer -/

/-- A call that is not `close`. -/
def PeerCall.KeepsOpen (e : PeerCall) : Prop := e ≠ .app (.session .close)

/-- What is true of a peer that has come from a connection without descriptions: those that it has
had it still has, and all that it has asked for it has asked for in one role. -/
structure Peer.Reached [NoCaseEq] (c : Connection) (h : List (Peer × PeerCall)) (p : Peer) :
    Prop where
  sound : p.Sound
  agent : c.SameAgent p.conn
  locals : ∀ u ∈ h, ∀ l, u.1.conn.localDesc = some l →
    ∃ l', p.conn.localDesc = some l' ∧ l.SameButCandidates l'
  remotes : ∀ u ∈ h, ∀ r, u.1.conn.remoteDesc = some r → p.conn.remoteDesc = some r
  agents : ∀ u ∈ h, c.SameAgent u.1.conn
  roles : ∀ x ∈ (peerMachine c).sent h, ∀ a, x.role? = some a → p.conn.BothStored ∧ p.role = some a
  applied : ∀ q, .session (.applied q) ∈ (peerMachine c).sent h →
    ∃ r, p.conn.remoteDesc = some r ∧ q = .of r

/-- **A run of a peer.** -/
theorem Peer.reached_of_run [NoCaseEq] {c : Connection} (hc : c.Unnegotiated)
    {h : List (Peer × PeerCall)} {p : Peer}
    (hr : Run (peerMachine c) (fun _ _ e => e.KeepsOpen) h p) : Peer.Reached c h p := by
  refine hr.invariant (P := fun h p => Peer.Reached c h p) ?_ fun h p e _ hp he => ?_
  · refine ⟨⟨⟨[], ?_, ?_, fun h => (by cases h), Nat.zero_le _, Nat.zero_le _, fun _ => rfl⟩,
      fun h => absurd rfl h, fun w hw => (by cases hw)⟩, ⟨rfl, rfl, rfl⟩, fun _ hu => absurd hu
      List.not_mem_nil, fun _ hu => absurd hu List.not_mem_nil, fun _ hu => absurd hu
      List.not_mem_nil, fun _ hx => absurd hx List.not_mem_nil, fun _ hq => absurd hq
      List.not_mem_nil⟩
    · unfold Connection.DescriptionsMatch
      simp only [peerMachine, hc.signalingState]
      exact ⟨hc.localDesc, hc.remoteDesc⟩
    · simp [peerMachine, hc.localDesc, HasType]
  · have hgoes := step_goes hp.sound he
    have hrole {a : Bool} (hboth : p.conn.BothStored) (ha : p.role = some a) :
        (p.step e).1.conn.BothStored ∧ (p.step e).1.role = some a := by
      obtain ⟨l, hl⟩ := Option.isSome_iff_exists.1 hboth.1
      obtain ⟨l', hl', -⟩ := hgoes.localDesc l hl
      obtain ⟨r, hr, hactive⟩ := Option.map_eq_some_iff.1 ha
      have hr' := hgoes.remoteDesc r hr
      exact ⟨⟨by rw [hl']; rfl, by rw [hr']; rfl⟩, by rw [role, hr', Option.map_some, hactive]⟩
    refine ⟨hgoes.sound, hp.agent.trans hgoes.agent, fun u hu l hl => ?_, fun u hu r hr => ?_,
      fun u hu => ?_, fun x hx a ha => ?_, fun q hq => ?_⟩
    · rcases List.mem_cons.1 hu with rfl | hu
      · exact hgoes.localDesc l hl
      · obtain ⟨l', hl', hsame⟩ := hp.locals u hu l hl
        obtain ⟨l'', hl'', hsame'⟩ := hgoes.localDesc l' hl'
        exact ⟨l'', hl'', hsame.trans hsame'⟩
    · rcases List.mem_cons.1 hu with rfl | hu
      · exact hgoes.remoteDesc r hr
      · exact hgoes.remoteDesc r (hp.remotes u hu r hr)
    · rcases List.mem_cons.1 hu with rfl | hu
      · exact hp.agent
      · exact hp.agents u hu
    · rw [Machine.sent_cons] at hx
      rcases List.mem_append.1 hx with hx | hx
      · obtain ⟨hboth, ha⟩ := hp.roles x hx a ha
        exact hrole hboth ha
      · exact hgoes.roles x hx a ha
    · rw [Machine.sent_cons] at hq
      rcases List.mem_append.1 hq with hq | hq
      · obtain ⟨r, hr, hq⟩ := hp.applied q hq
        exact ⟨r, hgoes.remoteDesc r hr, hq⟩
      · exact hgoes.applied q hq

end AsioRtc
