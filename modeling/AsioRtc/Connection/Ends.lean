/-
# The two ends of a negotiation

Two peers, and between them the applications that hand on descriptions: `local_description()` of
one, as it is at some time, goes to `set_remote_description` of the other, at any time, in any
order and as often as they like, among any other calls of the applications, the candidates and
what the agents and transports report (`Exchanges`).  Only what `create_offer` and `create_answer`
have made is set, and nobody closes.

Whatever the order, the ends agree (`ends_agree`): each has the description of the other one, up
to candidates, with its user name, password and fingerprint; they are in opposite roles in ICE,
DTLS, SRTP and SCTP; and they come to the same on whether there is SRTP.  On whether there is SCTP
they come to the same where a section is offered for it, or where both applications want data
channels or neither does.
-/

import AsioRtc.Connection.AnswerFormats
import AsioRtc.Connection.Connect
import AsioRtc.Lib.Pair

namespace AsioRtc

open Lib Text

/-- The description carries the names, passwords and fingerprint of the connection. -/
structure Connection.Describes (c : Connection) (d : SessionDescription) : Prop where
  username : d.iceUfrag = c.localUsername
  password : d.icePwd = c.localPassword
  fingerprint : d.fingerprints = [c.fingerprint]

/-- The role and the kinds of the sections of an answer to `r`. -/
structure SessionDescription.AnswersTo (d r : SessionDescription) : Prop where
  setup : d.setup = some (if Connection.weAreActive r then .active else .passive)
  kinds : d.medias.map SdpMedia.mediaType = r.medias.map SdpMedia.mediaType

/-- `create_offer` or `create_answer` has made the description `d`, now or before. -/
def Made [NoCaseEq] (h : List (Peer × PeerCall)) (p : Peer) (d : SessionDescription) : Prop :=
  ∃ u ∈ p :: h.map Prod.fst,
    (∃ c, u.conn.createOffer = .ok (c, d)) ∨ u.conn.createAnswer = some d

/-- `local_description()` is or has been `d`. -/
def Shown (h : List (Peer × PeerCall)) (p : Peer) (d : SessionDescription) : Prop :=
  ∃ u ∈ p :: h.map Prod.fst, u.conn.localDesc = some d

/-- A step of one end: what it sets is made by itself, or shown by the other one; and it does not
close. -/
structure Exchanges [NoCaseEq] (h : List (Peer × PeerCall)) (p : Peer) (h' : List (Peer × PeerCall))
    (q : Peer) (e : PeerCall) : Prop where
  keepsOpen : e.KeepsOpen
  local_ : ∀ d b, e = .app (.session (.signal (.setLocal d b))) → Made h p d
  remote : ∀ d b, e = .app (.session (.signal (.setRemote d b))) → Shown h' q d

/-- What one end has of the other one's description. -/
def Peer.Knows (p q : Peer) : Prop :=
  ∀ r, p.conn.remoteDesc = some r → ∃ l, q.conn.localDesc = some l ∧ r.SameButCandidates l

/-- The local description of a peer is its own, and answers the remote one where it is an answer. -/
def Peer.Describes (c : Connection) (p : Peer) : Prop :=
  ∀ l, p.conn.localDesc = some l → c.Describes l ∧
    (l.sdpType = "answer".toList → ∃ r, p.conn.remoteDesc = some r ∧ l.AnswersTo r)

namespace SessionDescription.SameButCandidates

variable {d d' : SessionDescription}

/-- Candidates leave the type alone. -/
theorem sdpType (h : d.SameButCandidates d') : d'.sdpType = d.sdpType := by
  unfold SameButCandidates at h
  rw [h]

/-- Candidates leave the role alone. -/
theorem setup (h : d.SameButCandidates d') : d'.setup = d.setup := by
  unfold SameButCandidates at h
  rw [h]

/-- Candidates leave the sections alone. -/
theorem medias (h : d.SameButCandidates d') : d'.medias = d.medias := by
  unfold SameButCandidates at h
  rw [h]

/-- Candidates do not change what a description says of its connection. -/
theorem describes {c : Connection} (h : d.SameButCandidates d') :
    c.Describes d' ↔ c.Describes d := by
  unfold SameButCandidates at h
  rw [h]
  exact ⟨fun hd => ⟨hd.username, hd.password, hd.fingerprint⟩,
    fun hd => ⟨hd.username, hd.password, hd.fingerprint⟩⟩

/-- Candidates do not change what it answers. -/
theorem answersTo {r : SessionDescription} (h : d.SameButCandidates d') (hd : d.AnswersTo r) :
    d'.AnswersTo r :=
  ⟨h.setup.trans hd.setup, (congrArg _ h.medias).trans hd.kinds⟩

end SessionDescription.SameButCandidates

/-! ### The guard -/

section Guard

variable [NoCaseEq] {h h' : List (Peer × PeerCall)} {p q : Peer} {d : SessionDescription} {b : Bool}

/-- Setting what has been made. -/
theorem Exchanges.of_local (hd : Made h p d) :
    Exchanges h p h' q (.app (.session (.signal (.setLocal d b)))) := by
  refine ⟨fun h => (by cases h), fun e b h => ?_, fun e b h => (by cases h)⟩
  cases h
  exact hd

/-- Setting what the other side has shown. -/
theorem Exchanges.of_remote (hd : Shown h' q d) :
    Exchanges h p h' q (.app (.session (.signal (.setRemote d b)))) := by
  refine ⟨fun h => (by cases h), fun e b h => (by cases h), fun e b h => ?_⟩
  cases h
  exact hd

/-- The connect task goes on. -/
theorem Exchanges.of_resume (e : ConnectEvent) : Exchanges h p h' q (.resume e) :=
  ⟨fun h => (by cases h), fun d b h => (by cases h), fun d b h => (by cases h)⟩

/-- What is set where there was nothing is there. -/
theorem Peer.step_setLocal (hnone : p.conn.localDesc = none)
    (hset : (p.step (.app (.session (.signal (.setLocal d b))))).1.conn.localDesc.isSome = true) :
    (p.step (.app (.session (.signal (.setLocal d b))))).1.conn.localDesc = some d := by
  obtain ⟨l, hl⟩ := Option.isSome_iff_exists.1 hset
  obtain ⟨bad, h⟩ := (p.step_sets fun h => by cases h).1 hnone l hl
  cases h
  exact hl

end Guard

/-! ### What an end makes -/

section Made

variable [NoCaseEq]

/-- An offer is of the connection that made it. -/
theorem Connection.createOffer_describes {c c' : Connection} {offer : SessionDescription}
    (h : c.createOffer = .ok (c', offer)) : c.Describes offer ∧ offer.sdpType = "offer".toList := by
  unfold createOffer at h
  obtain ⟨⟨es, counter⟩, -, h⟩ := Checked.bind_eq_ok.1 h
  obtain ⟨sections, -, h⟩ := Checked.bind_eq_ok.1 h
  cases h
  exact ⟨⟨rfl, rfl, rfl⟩, rfl⟩

/-- An answer is of the connection that made it, and answers its remote description. -/
theorem Connection.createAnswer_describes {c : Connection} {answer : SessionDescription}
    (h : c.createAnswer = some answer) :
    c.Describes answer ∧ ∃ r, c.remoteDesc = some r ∧ answer.AnswersTo r := by
  unfold createAnswer at h
  cases hr : c.remoteDesc with
  | none =>
    rw [hr] at h
    cases h
  | some r =>
    rw [hr] at h
    simp only [] at h
    split at h
    · cases h
    · have hrole : (if setupFrom r ≠ .active then SdpSetupRole.active else .passive) =
          if weAreActive r then .active else .passive := by
        rw [weAreActive]
        by_cases hsetup : setupFrom r = .active <;> simp [hsetup]
      obtain rfl := Option.some.inj h
      refine ⟨⟨rfl, rfl, rfl⟩, r, rfl, congrArg some hrole, ?_⟩
      · show (r.medias.map c.answerSection).map SdpMedia.mediaType = _
        rw [List.map_map]
        exact List.map_congr_left fun rm _ => (answerSection_kept c rm).1

end Made

/-! ### Both ends -/

section Ends

variable [NoCaseEq] {a b : Connection} {h h' : List (Peer × PeerCall)} {p q : Peer} {e : PeerCall}

/-- A step of an end keeps what is true of its own description. -/
theorem Peer.Describes.step (hp : Peer.Reached a h p) (hd : Peer.Describes a p)
    (he : Exchanges h p h' q e) : Peer.Describes a (p.step e).1 := by
  have hgoes := Peer.step_goes hp.sound he.keepsOpen
  intro l hl
  cases hlocal : p.conn.localDesc with
  | some l₀ =>
    obtain ⟨l', hl', hsame⟩ := hgoes.localDesc l₀ hlocal
    obtain rfl := Option.some.inj (hl'.symm.trans hl)
    obtain ⟨hdescribes, hanswers⟩ := hd l₀ hlocal
    refine ⟨hsame.describes.2 hdescribes, fun htype => ?_⟩
    obtain ⟨r, hr, hto⟩ := hanswers (hsame.sdpType ▸ htype)
    exact ⟨r, hgoes.remoteDesc r hr, hsame.answersTo hto⟩
  | none =>
    obtain ⟨bad, rfl⟩ := (p.step_sets he.keepsOpen).1 hlocal l hl
    obtain ⟨u, hu, hmade⟩ := he.local_ l bad rfl
    have hagent : a.SameAgent u.conn := by
      rcases List.mem_cons.1 hu with rfl | hu
      · exact hp.agent
      · obtain ⟨v, hv, rfl⟩ := List.mem_map.1 hu
        exact hp.agents v hv
    have hown (hdescribes : u.conn.Describes l) : a.Describes l :=
      ⟨hdescribes.username.trans hagent.username, hdescribes.password.trans hagent.password,
        hdescribes.fingerprint.trans (congrArg (fun f => [f]) hagent.fingerprint)⟩
    rcases hmade with ⟨c, hoffer⟩ | hanswer
    · obtain ⟨hdescribes, htype⟩ := Connection.createOffer_describes hoffer
      exact ⟨hown hdescribes, fun h => absurd (htype.symm.trans h) (by decide)⟩
    · obtain ⟨hdescribes, r, hr, hto⟩ := Connection.createAnswer_describes hanswer
      refine ⟨hown hdescribes, fun _ => ⟨r, hgoes.remoteDesc r ?_, hto⟩⟩
      rcases List.mem_cons.1 hu with rfl | hu
      · exact hr
      · obtain ⟨v, hv, rfl⟩ := List.mem_map.1 hu
        exact hp.remotes v hv r hr

/-- A step of an end keeps what it knows of the other one. -/
theorem Peer.Knows.step (hp : Peer.Reached a h p) (hq : Peer.Reached b h' q) (hk : p.Knows q)
    (he : Exchanges h p h' q e) : (p.step e).1.Knows q := by
  have hgoes := Peer.step_goes hp.sound he.keepsOpen
  intro r hr
  cases hremote : p.conn.remoteDesc with
  | some r₀ =>
    obtain rfl := Option.some.inj ((hgoes.remoteDesc r₀ hremote).symm.trans hr)
    exact hk r₀ hremote
  | none =>
    obtain ⟨bad, rfl⟩ := (p.step_sets he.keepsOpen).2 hremote r hr
    obtain ⟨u, hu, hshown⟩ := he.remote r bad rfl
    rcases List.mem_cons.1 hu with rfl | hu
    · exact ⟨r, hshown, rfl⟩
    · obtain ⟨v, hv, rfl⟩ := List.mem_map.1 hu
      exact hq.locals v hv r hshown

/-- A step of the other end does too. -/
theorem Peer.Knows.other (hq : Peer.Reached b h' q) (hk : p.Knows q) (he : e.KeepsOpen) :
    p.Knows (q.step e).1 := by
  intro r hr
  obtain ⟨l, hl, hsame⟩ := hk r hr
  obtain ⟨l', hl', hsame'⟩ := (Peer.step_goes hq.sound he).localDesc l hl
  exact ⟨l', hl', hsame.trans hsame'⟩

/-- What is true of both ends at every time. -/
structure EndsReached (a b : Connection) (h : List (Peer × PeerCall)) (p : Peer)
    (h' : List (Peer × PeerCall)) (q : Peer) : Prop where
  left : Peer.Reached a h p
  right : Peer.Reached b h' q
  knows : p.Knows q
  known : q.Knows p
  describes : Peer.Describes a p
  described : Peer.Describes b q

/-- The invariant holds in every state that the two reach. -/
theorem endsReached_of_run (ha : a.Unnegotiated) (hb : b.Unnegotiated)
    (hr : PairRun (peerMachine a) Exchanges (peerMachine b) Exchanges h p h' q) :
    EndsReached a b h p h' q := by
  have hreached {a b : Connection} {h h' : List (Peer × PeerCall)} {p q : Peer}
      (ha : a.Unnegotiated)
      (hr : PairRun (peerMachine a) Exchanges (peerMachine b) Exchanges h p h' q) :
      Peer.Reached a h p :=
    Peer.reached_of_run ha (hr.left_run fun _ _ _ _ _ he => he.keepsOpen)
  have hpair : p.Knows q ∧ q.Knows p ∧ Peer.Describes a p ∧ Peer.Describes b q := by
    refine hr.invariant (P := fun _ p _ q =>
      p.Knows q ∧ q.Knows p ∧ Peer.Describes a p ∧ Peer.Describes b q) ?_ ?_ ?_
    · refine ⟨fun r hr => ?_, fun r hr => ?_, fun l hl => ?_, fun l hl => ?_⟩
      · cases ha.remoteDesc.symm.trans hr
      · cases hb.remoteDesc.symm.trans hr
      · cases ha.localDesc.symm.trans hl
      · cases hb.localDesc.symm.trans hl
    · intro h p h' q e hr ih he
      obtain ⟨hk, hk', hd, hd'⟩ := ih
      have hp := hreached ha hr
      have hq := hreached hb hr.swap
      exact ⟨hk.step hp hq he, hk'.other hp he.keepsOpen, hd.step hp he, hd'⟩
    · intro h p h' q e hr ih he
      obtain ⟨hk, hk', hd, hd'⟩ := ih
      have hp := hreached ha hr
      have hq := hreached hb hr.swap
      exact ⟨hk.other hq he.keepsOpen, hk'.step hq hp he, hd, hd'.step hq he⟩
  obtain ⟨hk, hk', hd, hd'⟩ := hpair
  exact ⟨hreached ha hr, hreached hb hr.swap, hk, hk', hd, hd'⟩

/-- **Opposite roles**: where one end has set an answer to the other one's description. -/
theorem EndsReached.answerer (hends : EndsReached a b h p h' q) (hq : q.conn.BothStored)
    (ht : HasType "answer".toList p.conn.localDesc) :
    (∃ x, p.role = some x ∧ q.role = some !x) ∧ HasType "offer".toList q.conn.localDesc ∧
      ∃ r l, p.conn.remoteDesc = some r ∧ q.conn.remoteDesc = some l ∧
        l.medias.map SdpMedia.mediaType = r.medias.map SdpMedia.mediaType := by
  obtain ⟨l, hl, htype⟩ := ht
  obtain ⟨-, hanswers⟩ := hends.describes l hl
  obtain ⟨r, hr, hto⟩ := hanswers htype
  obtain ⟨l', hl'⟩ := Option.isSome_iff_exists.1 hq.2
  obtain ⟨l'', hlocal, hsame⟩ := hends.known l' hl'
  obtain rfl := Option.some.inj (hl.symm.trans hlocal)
  refine ⟨⟨Connection.weAreActive r, by rw [Peer.role, hr, Option.map_some], ?_⟩, ?_, r, l', hr,
    hl',
    (congrArg _ hsame.medias).symm.trans hto.kinds⟩
  · -- The setup role of the answer is the other one's way to know this one's role.
    have hsetup := hsame.setup.symm.trans hto.setup
    rw [Peer.role, hl', Option.map_some, Connection.weAreActive, Connection.setupFrom, hsetup]
    cases Connection.weAreActive r <;> rfl
  · -- The remote description of this end is an offer.
    obtain ⟨effects, hconsistent⟩ := hends.left.sound.consistent
    have hd := hconsistent.descriptions
    obtain ⟨m, hm, hsame'⟩ := hends.knows r hr
    refine ⟨m, hm, hsame'.sdpType.trans ?_⟩
    unfold Connection.DescriptionsMatch at hd
    cases hs : p.conn.signalingState <;> simp only [hs] at hd
    · cases hr.symm.trans hd.2
    · cases hr.symm.trans hd.2
    · cases hl.symm.trans hd.1
    · obtain ⟨r', hr', ht⟩ := hd.2
      exact Option.some.inj (hr.symm.trans hr') ▸ ht
    · obtain ⟨o, ho, ht⟩ := hd.1
      obtain rfl := Option.some.inj (hl.symm.trans ho)
      exact absurd (htype.symm.trans ht) (by decide)

omit [NoCaseEq] in
/-- Where both descriptions are there, the local one is an offer or an answer. -/
theorem Peer.Sound.offer_or_answer (hp : p.Sound) (hboth : p.conn.BothStored) :
    HasType "offer".toList p.conn.localDesc ∨ HasType "answer".toList p.conn.localDesc := by
  obtain ⟨effects, hconsistent⟩ := hp.consistent
  have hd := hconsistent.descriptions
  obtain ⟨hl, hr⟩ := hboth
  unfold Connection.DescriptionsMatch at hd
  cases hs : p.conn.signalingState <;> simp only [hs] at hd
  · rw [hd.1] at hl
    cases hl
  · exact .inl hd.1
  · rw [hd.1] at hl
    cases hl
  · exact .inr hd.1
  · exact .inl hd.1

/-- The two ends are opposite and have sections of the same kinds, where both have both
descriptions. -/
theorem EndsReached.opposite (hends : EndsReached a b h p h' q) (hp : p.conn.BothStored)
    (hq : q.conn.BothStored) :
    (∃ x, p.role = some x ∧ q.role = some !x) ∧ p.iceControlling ≠ q.iceControlling ∧
      ∃ r l, p.conn.remoteDesc = some r ∧ q.conn.remoteDesc = some l ∧
        l.medias.map SdpMedia.mediaType = r.medias.map SdpMedia.mediaType := by
  have hcontrolling {p : Peer} (hs : p.Sound) :
      p.iceControlling = true ↔ HasType "offer".toList p.conn.localDesc := by
    obtain ⟨effects, hconsistent⟩ := hs.consistent
    exact hconsistent.controlling
  have hnot {p : Peer} (ho : HasType "offer".toList p.conn.localDesc)
      (ha : HasType "answer".toList p.conn.localDesc) : False := by
    obtain ⟨o, ho, ht⟩ := ho
    obtain ⟨n, hn, ht'⟩ := ha
    obtain rfl := Option.some.inj (ho.symm.trans hn)
    exact absurd (ht.symm.trans ht') (by decide)
  rcases hends.left.sound.offer_or_answer hp with hoffer | hanswer
  · rcases hends.right.sound.offer_or_answer hq with hoffer' | hanswer'
    · -- Two offers: what this end has of the other one is an answer.
      obtain ⟨effects, hconsistent⟩ := hends.left.sound.consistent
      have hd := hconsistent.descriptions
      unfold Connection.DescriptionsMatch at hd
      obtain ⟨r, hr⟩ := Option.isSome_iff_exists.1 hp.2
      obtain ⟨m, hm, hsame⟩ := hends.knows r hr
      cases hs : p.conn.signalingState <;> simp only [hs] at hd
      · cases hr.symm.trans hd.2
      · cases hr.symm.trans hd.2
      · exact (hnot hoffer (by rw [hd.1] at hoffer; obtain ⟨o, ho, -⟩ := hoffer; cases ho)).elim
      · exact (hnot hoffer hd.1).elim
      · obtain ⟨r', hr', ht⟩ := hd.2
        obtain rfl := Option.some.inj (hr.symm.trans hr')
        exact (hnot hoffer' ⟨m, hm, hsame.sdpType.trans ht⟩).elim
    · obtain ⟨⟨x, hx, hx'⟩, -, l, r, hl, hr, hkinds⟩ :=
        EndsReached.answerer ⟨hends.right, hends.left, hends.known, hends.knows, hends.described,
          hends.describes⟩ hp hanswer'
      refine ⟨⟨!x, hx', by rw [Bool.not_not]; exact hx⟩, fun heq => ?_, r, l, hr, hl, hkinds.symm⟩
      exact hnot ((hcontrolling hends.right.sound).1
        (heq ▸ (hcontrolling hends.left.sound).2 hoffer)) hanswer'
  · obtain ⟨hroles, hoffer, hkinds⟩ := hends.answerer hq hanswer
    refine ⟨hroles, fun heq => ?_, hkinds⟩
    exact hnot ((hcontrolling hends.left.sound).1
      (heq ▸ (hcontrolling hends.right.sound).2 hoffer)) hanswer

/-- **The two ends agree**, however the applications take turns.  Each description that an end has
of the other one is that one's own, up to candidates; what its agent and its DTLS transport are
told are the other one's name, password and fingerprint; what its connect task asks for, it asks
for in the role that the other one does not take, in DTLS, SRTP and SCTP; and where both have both
descriptions, one is controlling in ICE and the other one is not, they come to the same on whether
SRTP is needed, and on whether SCTP is needed unless no section is offered for it and only one of
them wants data channels. -/
theorem ends_agree (ha : a.Unnegotiated) (hb : b.Unnegotiated)
    (hr : PairRun (peerMachine a) Exchanges (peerMachine b) Exchanges h p h' q) :
    p.Knows q ∧
    (∀ told, .session (.applied told) ∈ (peerMachine a).sent h →
      b.localUsername ≠ [] → b.localPassword ≠ [] →
        told.username = some b.localUsername ∧ told.password = some b.localPassword ∧
          told.fingerprint = b.fingerprint.algorithm ++ ' ' :: b.fingerprint.value) ∧
    (∀ e ∈ (peerMachine a).sent h, ∀ e' ∈ (peerMachine b).sent h', ∀ x y,
      e.role? = some x → e'.role? = some y → y = !x) ∧
    (p.conn.BothStored → q.conn.BothStored →
      p.iceControlling ≠ q.iceControlling ∧ p.conn.needsSrtp = q.conn.needsSrtp ∧
      (p.conn.needsSctp = q.conn.needsSctp ↔
        p.conn.remoteDesc.elim false Connection.hasApplication = true ∨
          p.conn.needSctp = q.conn.needSctp)) := by
  have hends := endsReached_of_run ha hb hr
  refine ⟨hends.knows, fun told htold hname hpassword => ?_, fun e he e' he' x y hx hy => ?_,
    fun hp hq => ?_⟩
  · obtain ⟨r, hremote, rfl⟩ := hends.left.applied told htold
    obtain ⟨l, hl, hsame⟩ := hends.knows r hremote
    have hdescribes := hsame.describes.1 (hends.described l hl).1
    refine ⟨?_, ?_, ?_⟩
    · show nonEmpty (iceUfragFrom r) = _
      rw [iceUfragFrom, sessionOrFirst, hdescribes.username, if_pos hname, nonEmpty, if_pos hname]
    · show nonEmpty (icePwdFrom r) = _
      rw [icePwdFrom, sessionOrFirst, hdescribes.password, if_pos hpassword, nonEmpty,
        if_pos hpassword]
    · show fingerprintFrom r = _
      rw [fingerprintFrom, hdescribes.fingerprint]
      rfl
  · obtain ⟨hp, hrole⟩ := hends.left.roles e he x hx
    obtain ⟨hq, hrole'⟩ := hends.right.roles e' he' y hy
    obtain ⟨⟨z, hz, hz'⟩, -⟩ := hends.opposite hp hq
    rw [← Option.some.inj (hz.symm.trans hrole), Option.some.inj (hz'.symm.trans hrole')]
  · obtain ⟨-, hcontrolling, r, l, hremote, hremote', hkinds⟩ := hends.opposite hp hq
    have hany (f : SdpMediaType → Bool) :
        (l.medias.any fun m => f m.mediaType) = r.medias.any fun m => f m.mediaType := by
      have := congrArg (fun ts => ts.any f) hkinds
      simpa only [List.any_map, Function.comp_def] using this
    have hmedia := hany fun k => k = .audio ∨ k = .video
    have happlication := hany fun k => k = .application
    refine ⟨hcontrolling, ?_, ?_⟩
    · rw [Connection.needsSrtp, Connection.needsSrtp, hremote, hremote']
      exact hmedia.symm
    · rw [Connection.needsSctp, Connection.needsSctp, hremote, hremote', Option.elim_some,
        Option.elim_some, Connection.hasApplication, Connection.hasApplication, happlication]
      cases r.medias.any (fun m => decide (m.mediaType = .application)) <;> simp

end Ends

/-! ### A chat -/

/-- A peer that wants a data channel. -/
def chatPeer (name : Text) : Connection :=
  { localUsername := name, localPassword := "secret".toList, needSctp := true }

/-- What it offers. -/
def chatOffer : SessionDescription :=
  ((@Connection.createOffer asciiNoCase (chatPeer "a".toList)).toOption.map Prod.snd).getD {}

/-- What the other one answers. -/
def chatAnswer : SessionDescription :=
  (@Connection.createAnswer asciiNoCase ((@peerMachine asciiNoCase (chatPeer "b".toList)).next
    { conn := chatPeer "b".toList }
    (.app (.session (.signal (.setRemote chatOffer false))))).conn).getD {}

/-- What happens to the one that offers, and to the one that answers. -/
def chatA : List PeerCall :=
  [.app (.session (.signal (.setLocal chatOffer false))),
   .app (.session (.signal (.setRemote chatAnswer false))), .resume (.ice true)]
/-- The calls of the side that answers. -/
def chatB : List PeerCall :=
  [.app (.session (.signal (.setRemote chatOffer false))),
   .app (.session (.signal (.setLocal chatAnswer false))), .resume (.ice true)]

/-- The offer of the example is made. -/
theorem chatOffer_made :
    ∃ c, @Connection.createOffer asciiNoCase (chatPeer "a".toList) = .ok (c, chatOffer) := by
  have hok :
      (@Connection.createOffer asciiNoCase (chatPeer "a".toList)).toOption.isSome = true := by
    decide +kernel
  cases hoffer : @Connection.createOffer asciiNoCase (chatPeer "a".toList) with
  | error f =>
    rw [hoffer] at hok
    cases hok
  | ok r =>
    refine ⟨r.1, ?_⟩
    rw [chatOffer, hoffer]
    rfl

/-- The answer of the example is made. -/
theorem chatAnswer_made : @Connection.createAnswer asciiNoCase
    ((@peerMachine asciiNoCase (chatPeer "b".toList)).next { conn := chatPeer "b".toList }
      (.app (.session (.signal (.setRemote chatOffer false))))).conn = some chatAnswer := by
  have hok : (@Connection.createAnswer asciiNoCase
      ((@peerMachine asciiNoCase (chatPeer "b".toList)).next { conn := chatPeer "b".toList }
        (.app (.session (.signal (.setRemote chatOffer false))))).conn).isSome = true := by
    decide +kernel
  obtain ⟨d, hd⟩ := Option.isSome_iff_exists.1 hok
  rw [chatAnswer, hd]
  rfl

/-- The offering end is the server in the handshake, and the other one the client. -/
theorem ends_agree_chat :
    let A := @peerMachine asciiNoCase (chatPeer "a".toList)
    let B := @peerMachine asciiNoCase (chatPeer "b".toList)
    let p := A.exec A.init chatA
    let q := B.exec B.init chatB
    (A.sent (A.trace [] A.init chatA)).filterMap PeerEffect.role? = [false] ∧
    (B.sent (B.trace [] B.init chatB)).filterMap PeerEffect.role? = [true] ∧
    p.Knows q ∧ p.iceControlling ≠ q.iceControlling ∧ p.conn.needsSctp = q.conn.needsSctp := by
  intro A B p q
  have hinit : PairRun A (@Exchanges asciiNoCase) B (@Exchanges asciiNoCase) [] A.init [] B.init :=
    .init
  have hoffered := hinit.left (@Exchanges.of_local asciiNoCase _ _ _ _ chatOffer false
    ⟨A.init, List.mem_cons_self, .inl chatOffer_made⟩)
  have hknown := hoffered.right (@Exchanges.of_remote asciiNoCase _ _ _ _ chatOffer false
    ⟨_, List.mem_cons_self, @Peer.step_setLocal asciiNoCase _ _ _ rfl (by decide +kernel)⟩)
  have hanswered := hknown.right (@Exchanges.of_local asciiNoCase _ _ _ _ chatAnswer false
    ⟨_, List.mem_cons_self, .inr chatAnswer_made⟩)
  have hboth := hanswered.left (@Exchanges.of_remote asciiNoCase _ _ _ _ chatAnswer false
    ⟨_, List.mem_cons_self,
      @Peer.step_setLocal asciiNoCase _ _ _ (by decide +kernel) (by decide +kernel)⟩)
  have hup := (hboth.left (@Exchanges.of_resume asciiNoCase _ _ _ _ (.ice true))).right
    (@Exchanges.of_resume asciiNoCase _ _ _ _ (.ice true))
  obtain ⟨hknows, -, -, hagree⟩ :=
    @ends_agree asciiNoCase _ _ _ _ _ _ ⟨rfl, rfl, rfl⟩ ⟨rfl, rfl, rfl⟩ hup
  obtain ⟨hcontrolling, -, hsctp⟩ := hagree ⟨by decide +kernel, by decide +kernel⟩
    ⟨by decide +kernel, by decide +kernel⟩
  exact ⟨by decide +kernel, by decide +kernel, hknows, hcontrolling,
    hsctp.2 (.inr (by decide +kernel))⟩

end AsioRtc
