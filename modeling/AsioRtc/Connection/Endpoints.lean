/-
# Two such peers do not hear each other's feedback

Two peers with this code, and between them a network that loses, repeats and reorders datagrams
(`Between`).  Each of them sends media, reports, NACKs, PLIs and transport-cc feedback, while its
application does what it likes.  What comes to the other one is taken for RTP, or is feedback that
nothing is done about (`RtcpMessage.inert`).  So neither ever hears of a report
(`feedback_unheard`): there are no statistics of the other end, the NACK generators keep their first
round-trip time, a receiver report never tells of a sender report, and no packet is sent again.

The state of a send loop is not followed here: a turn is one of any sender.
-/

import AsioRtc.Connection.TrackRecv
import AsioRtc.Connection.Unheard
import AsioRtc.Lib.Pair

namespace AsioRtc

open Lib Text

/-- What happens at an end: a call of the application, a candidate or the connect task; a datagram
comes; a loop takes a turn; the application sends a packet, or asks a track for a frame. -/
inductive EndpointCall
  | peer (e : PeerCall)
  | datagram (data : Bytes) (clock : Clock)
  | sendLoop (x : RtpSending) (frames : List (Bytes × U32)) (o : ℕ → ℕ → Handover)
  | sendRtp (data : Bytes)
  | senderRtcpLoop (x : RtpSending)
  | receiverRtcpLoop (i : ℕ) (now : U32 → ℤ) (ssrcs : List U32)
  | nackLoop (nowMs : ℤ) (ssrcs : List U32)
  | recv (i : ℕ) (clock : ℕ → ℤ) (now : ℤ)

/-- What a call in the handling of a datagram sends. -/
def ReceiveEvent.sent? : ReceiveEvent → Option Bytes
  | sendRtp data => some data
  | sendRtcp data => some data
  | _ => none

section Endpoint

variable [NoCaseEq]

/-- A datagram: the connection behind it, and what it brings out. -/
def Connection.handle (c : Connection) (clock : Clock) (data : Bytes) : Connection × List Bytes :=
  match c.doOnRtpRtcpPacket clock data with
  | .ok r => (r.conn, r.events.filterMap ReceiveEvent.sent?)
  -- The handling makes no fault.
  | .error _ => (c, [])

/-- A step of an end, and the datagrams it sends, before they are protected. -/
def Peer.stepEndpoint (p : Peer) : EndpointCall → Peer × List Bytes
  | .peer e => ((p.step e).1, [])
  | .datagram data clock =>
      let (c, sent) := p.conn.handle clock data
      ({ p with conn := c }, sent)
  | .sendLoop x frames o => (p, (x.turn frames o).2.filterMap SentRtp.data)
  | .sendRtp data => (p, [data])
  | .senderRtcpLoop x => (p, [x.reportTurn.bytes])
  | .receiverRtcpLoop i now ssrcs =>
      let (c, m) := p.conn.receiverTurn i now ssrcs
      ({ p with conn := c }, m.toList.map RtcpMessage.bytes)
  | .nackLoop nowMs ssrcs =>
      let (c, sent) := p.conn.nackTurn nowMs ssrcs
      ({ p with conn := c }, sent)
  | .recv i clock now => ({ p with conn := (p.conn.recv i clock now).1 }, [])

/-- An end over time, from the connection `c` on. -/
def endpointMachine (c : Connection) : Machine Peer EndpointCall (List Bytes) where
  init := { conn := c }
  step := Peer.stepEndpoint

/-- What has been sent in a history. -/
def sentBy (h : List (Peer × EndpointCall)) : List Bytes :=
  h.flatMap fun u => (u.1.stepEndpoint u.2).2

/-- A step of one end: a datagram has been sent by the other one, no rid is absurdly long, and what
the application sends as RTP is RTP. -/
structure Between (_h : List (Peer × EndpointCall)) (_p : Peer) (h' : List (Peer × EndpointCall))
    (_q : Peer) (e : EndpointCall) : Prop where
  datagram : ∀ data clock, e = .datagram data clock → data ∈ sentBy h'
  rids : ∀ x frames o, e = .sendLoop x frames o → ∀ s ∈ x.streams, s.rid.length < 2 ^ 16
  media : ∀ data, e = .sendRtp data → RtpPacket.ReadsAsRtp data

/-- An end hears nothing in the datagrams `sent`: it has heard nothing so far, none of them makes it
send a packet again, and its receiver reports tell of no sender report. -/
structure Peer.HearsNothing (p : Peer) (sent : List Bytes) : Prop where
  unheard : p.conn.Unheard
  repeats : ∀ data ∈ sent, ∀ clock r, p.conn.doOnRtpRtcpPacket clock data = .ok r →
    ∀ rtx, .sendRtp rtx ∉ r.events
  reports : ∀ ssrc e now, p.conn.ssrcSet ssrc = some e →
    (e.report now).lsr = 0 ∧ (e.report now).dlsr = 0

/-! ### One step -/

omit [NoCaseEq] in
/-- The report on a context that no report has come to. -/
theorem SsrcContext.Unheard.report {e : SsrcEntry} (h : e.ctx.Unheard) (now : ℤ) :
    (e.report now).lsr = 0 ∧ (e.report now).dlsr = 0 := by
  constructor
  · show (e.ctx.lsr >>> 16).setWidth 32 = 0
    rw [h.lsr]
    rfl
  · exact if_neg fun hd => hd.1 h.lsr

variable {h h' : List (Peer × EndpointCall)} {p q : Peer} {e : EndpointCall} {data : Bytes}

theorem Between.of_senderRtcpLoop (x : RtpSending) : Between h p h' q (.senderRtcpLoop x) :=
  ⟨fun _ _ he => (by cases he), fun _ _ _ he => (by cases he), fun _ he => (by cases he)⟩

theorem Between.of_datagram (clock : Clock) (hdata : data ∈ sentBy h') :
    Between h p h' q (.datagram data clock) := by
  refine ⟨fun d _ he => ?_, fun _ _ _ he => (by cases he), fun _ he => (by cases he)⟩
  cases he
  exact hdata

/-- What a turn of `_sender_send_loop` sends reads as RTP. -/
theorem RtpSending.turn_readsAsRtp {x : RtpSending} {frames : List (Bytes × U32)}
    {o : ℕ → ℕ → Handover} (hrids : ∀ s ∈ x.streams, s.rid.length < 2 ^ 16)
    (hdata : data ∈ (x.turn frames o).2.filterMap SentRtp.data) : RtpPacket.ReadsAsRtp data := by
  obtain ⟨d, hd, hdata⟩ := List.mem_filterMap.1 hdata
  obtain ⟨k, p, s, -, hs, hsends⟩ := (x.turn_goes frames o).media d hd
  obtain ⟨pkt, hparse, -⟩ :=
    (hsends data hdata).readsAs (hrids s (List.mem_of_getElem? hs))
  obtain ⟨r, hr, hreads⟩ := RtpPacket.parse_yields data
  obtain rfl := Except.ok.inj (hparse.symm.trans hr)
  exact hreads.1 rfl

theorem Connection.Unheard.recv {c : Connection} (h : c.Unheard) (i : ℕ) (clock : ℕ → ℤ) (now : ℤ) :
    (c.recv i clock now).1.Unheard := by
  unfold Connection.recv
  split
  · exact h
  · split
    · exact h
    · exact h.of_eq rfl rfl rfl

/-- **A step** of an end that has heard nothing, where all that comes is not acted on. -/
theorem Peer.stepEndpoint_unheard (hp : p.conn.Unheard) (hin : ∀ data ∈ sentBy h', Inert data)
    (he : Between h p h' q e) : (p.stepEndpoint e).1.conn.Unheard ∧
      ∀ data ∈ (p.stepEndpoint e).2, Inert data := by
  cases e with
  | peer e => exact ⟨Peer.unheard_step hp e, fun _ hd => absurd hd List.not_mem_nil⟩
  | datagram data clock =>
    obtain ⟨r, hr, hquiet⟩ := hp.datagram (hin data (he.datagram data clock rfl)) clock
    have hhandle : p.conn.handle clock data = (r.conn, r.events.filterMap ReceiveEvent.sent?) := by
      unfold Connection.handle
      simp only [hr]
    simp only [stepEndpoint, hhandle]
    refine ⟨hquiet.unheard, fun d hd => ?_⟩
    obtain ⟨ev, hev, hsent⟩ := List.mem_filterMap.1 hd
    have hcall := hquiet.events ev hev
    cases ev with
    | sendRtp d' => exact hcall.elim
    | sendRtcp d' => exact Option.some.inj hsent ▸ hcall
    | handleIncoming ext => cases hsent
    | dispatchRtp pkt => cases hsent
    | parseCompound d' => cases hsent
  | sendLoop x frames o =>
    exact ⟨hp, fun d hd => .inl (RtpSending.turn_readsAsRtp (he.rids x frames o rfl) hd)⟩
  | sendRtp data => exact ⟨hp, List.forall_mem_singleton.2 (.inl (he.media data rfl))⟩
  | senderRtcpLoop x => exact ⟨hp, List.forall_mem_singleton.2 (RtcpMessage.inert trivial)⟩
  | receiverRtcpLoop i now ssrcs =>
    obtain ⟨hunheard, hinert⟩ := hp.receiverTurn i now ssrcs
    refine ⟨hunheard, fun d hd => ?_⟩
    obtain ⟨m, hm, rfl⟩ := List.mem_map.1 hd
    exact hinert m (Option.mem_toList.1 hm)
  | nackLoop nowMs ssrcs => exact hp.nackTurn nowMs ssrcs
  | recv i clock now => exact ⟨hp.recv i clock now, fun _ hd => absurd hd List.not_mem_nil⟩

/-! ### Both ends -/

/-- What is true of both ends at every time. -/
structure BothUnheard (h : List (Peer × EndpointCall)) (p : Peer)
    (h' : List (Peer × EndpointCall)) (q : Peer) : Prop where
  left : p.conn.Unheard
  right : q.conn.Unheard
  sent : ∀ data ∈ sentBy h, Inert data
  sent' : ∀ data ∈ sentBy h', Inert data

theorem BothUnheard.step (hb : BothUnheard h p h' q) (he : Between h p h' q e) :
    BothUnheard ((p, e) :: h) (p.stepEndpoint e).1 h' q := by
  obtain ⟨hunheard, hsent⟩ := Peer.stepEndpoint_unheard hb.left hb.sent' he
  refine ⟨hunheard, hb.right, ?_, hb.sent'⟩
  rw [sentBy, List.flatMap_cons]
  exact List.forall_mem_append.2 ⟨hsent, hb.sent⟩

theorem BothUnheard.swap (hb : BothUnheard h p h' q) : BothUnheard h' q h p :=
  ⟨hb.right, hb.left, hb.sent', hb.sent⟩

theorem BothUnheard.hearsNothing (hb : BothUnheard h p h' q) : p.HearsNothing (sentBy h') where
  unheard := hb.left
  repeats data hdata clock r hr rtx hrtx := by
    obtain ⟨r', hr', hquiet⟩ := hb.left.datagram (hb.sent' data hdata) clock
    obtain rfl := Except.ok.inj (hr.symm.trans hr')
    exact hquiet.events _ hrtx
  reports ssrc e now he := (hb.left.contexts ssrc e he).report now

theorem bothUnheard_of_run {a b : Connection} (ha : a.Unheard) (hb : b.Unheard)
    (hr : PairRun (endpointMachine a) Between (endpointMachine b) Between h p h' q) :
    BothUnheard h p h' q :=
  hr.invariant ⟨ha, hb, fun _ hd => absurd hd List.not_mem_nil,
      fun _ hd => absurd hd List.not_mem_nil⟩
    (fun _ _ _ _ _ _ hboth he => hboth.step he)
    fun _ _ _ _ _ _ hboth he => (hboth.swap.step he).swap

/-- **Feedback between two such peers is not heard.**  Whatever is lost, repeated and reordered on
the way, neither of the two ever hears anything of what the other one has sent so far: each
datagram sent is taken for RTP, or is one that nothing is done about. -/
theorem feedback_unheard {a b : Connection} (ha : a.Unheard) (hb : b.Unheard)
    (hr : PairRun (endpointMachine a) Between (endpointMachine b) Between h p h' q) :
    p.HearsNothing (sentBy h') ∧ q.HearsNothing (sentBy h) ∧
      (∀ data ∈ sentBy h, Inert data) ∧ ∀ data ∈ sentBy h', Inert data := by
  have hboth := bothUnheard_of_run ha hb hr
  exact ⟨hboth.hearsNothing, hboth.swap.hearsNothing, hboth.sent, hboth.sent'⟩

end Endpoint

/-- A new connection. -/
theorem Connection.unheard_new : Connection.Unheard {} :=
  ⟨fun _ => rfl, fun _ => rfl, fun _ _ h => by cases h⟩

/-- A sender report goes over: nothing is done about it, and the other end has no statistics of its
stream. -/
theorem feedback_unheard_report :
    let A := @endpointMachine asciiNoCase {}
    let report : EndpointCall := .senderRtcpLoop { streams := [{ ssrc := 7 }] }
    let q := A.next A.init (.datagram (RtcpMessage.senderReports [{ ssrc := 7 }]).bytes
      ⟨fun _ => 0, fun _ => 0⟩)
    @Peer.HearsNothing asciiNoCase q (@sentBy asciiNoCase [(A.init, report)]) ∧
      Inert (RtcpMessage.senderReports [{ ssrc := 7 }]).bytes ∧
      q.conn.rxPackets = 1 ∧ q.conn.remoteOutbound 7 = none := by
  intro A report q
  have hinit : PairRun A (@Between asciiNoCase) A (@Between asciiNoCase) [] A.init [] A.init :=
    .init
  have hsent := hinit.left
    (@Between.of_senderRtcpLoop asciiNoCase _ _ _ _ { streams := [{ ssrc := 7 }] })
  have hcame := hsent.right (@Between.of_datagram asciiNoCase _ _ _ _
    (RtcpMessage.senderReports [{ ssrc := 7 }]).bytes ⟨fun _ => 0, fun _ => 0⟩
      (List.mem_singleton.2 rfl))
  obtain ⟨-, hears, hinert, -⟩ :=
    @feedback_unheard asciiNoCase _ _ _ _ _ _ Connection.unheard_new Connection.unheard_new hcame
  exact ⟨hears, hinert _ (List.mem_singleton.2 rfl), by decide +kernel,
    (@Peer.HearsNothing.unheard asciiNoCase _ _ hears).outbound 7⟩

end AsioRtc
