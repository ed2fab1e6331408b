/-
# Texts over a whole run

A new connection, and any calls of the application on it: what the application puts in is in
words, it sets as local descriptions what the connection has made, now or before, and as remote
ones what `parse_sdp` has accepted (`InWords`).  Then in every state every answer survives on the
wire, and every offer does that is the first one or whose version is not whitespace
(`made_survive`).

Two connections whose applications keep to words and hand on their texts to each other
(`Converses`): in whatever order they call, each can read what the other one makes first, and what
it has of the other one is what that one has made (`connections_understand`).  The words are needed:
a stream or track id with a blank in it is written into one line with the other ids, and read back
as others.
-/

import AsioRtc.Connection.Connect
import AsioRtc.Connection.FirstAnswer
import AsioRtc.Connection.Wire
import AsioRtc.Lib.Pair

namespace AsioRtc

open Lib Text

/-! ### Transceivers -/

namespace RtpTransceiver.Spoken

variable {t : RtpTransceiver}

/-- What is written of a transceiver is its mid, its codec and its sender. -/
theorem congr {t' : RtpTransceiver} (h : t.Spoken) (hmid : t'.mid = t.mid)
    (hname : t'.codec.name = t.codec.name) (hparams : t'.codec.params = t.codec.params)
    (hsender : t'.sender.msids = t.sender.msids ∧ t'.sender.trackId = t.sender.trackId ∧
      t'.sender.rids = t.sender.rids) : t'.Spoken := by
  obtain ⟨hmsids, hid, hrids⟩ := hsender
  exact ⟨hmid ▸ h.mid, ⟨hname ▸ h.codec.slash, hname ▸ h.codec.newline, hname ▸ h.codec.starts,
    hparams ▸ h.codec.params⟩, hmsids ▸ h.msids, hid ▸ h.trackId, hrids ▸ h.rids⟩

/-- A mid of one word can be spoken. -/
theorem withMid (h : t.Spoken) {mid : Text} (hmid : mid = [] ∨ Token mid) :
    RtpTransceiver.Spoken { t with mid := mid } :=
  ⟨hmid, h.codec, h.msids, h.trackId, h.rids⟩

/-- A track whose id is a word. -/
theorem setTrack (h : t.Spoken) {id : Option Text} (hid : ∀ x ∈ id, Token x) :
    (t.setTrack id).Spoken :=
  ⟨h.mid, h.codec, h.msids, hid, h.rids⟩

/-- A transceiver that is stopped is as it was, to the printer. -/
theorem stop (h : t.Spoken) : t.stop.Spoken := by
  unfold RtpTransceiver.stop
  split
  · exact h
  · exact h.congr rfl rfl rfl ⟨rfl, rfl, rfl⟩

/-- The section gives a transceiver its mid. -/
theorem takeMid (h : t.Spoken) {medias : List SdpMedia} (hmedias : ∀ m ∈ medias, Token m.mid) :
    (Connection.takeMid medias t).Spoken := by
  unfold Connection.takeMid
  split
  · refine h.withMid ?_
    cases hm : t.mLineIndex.bind (medias[·]?) with
    | none => exact .inl rfl
    | some m =>
      obtain ⟨i, -, hi⟩ := Option.bind_eq_some_iff.1 hm
      exact .inr (hmedias m (List.mem_of_getElem? hi))
  · exact h

variable [NoCaseEq]

/-- A remote offer sets nothing that is printed, other than a direction. -/
theorem fromRemoteOffer (h : t.Spoken) (rm : SdpMedia) : (t.fromRemoteOffer rm).Spoken := by
  unfold RtpTransceiver.fromRemoteOffer
  simp only []
  split
  · exact h.congr rfl rfl rfl ⟨rfl, rfl, rfl⟩
  · split
    · exact h.congr rfl rfl rfl ⟨rfl, rfl, rfl⟩
    · split <;> exact h.congr rfl rfl rfl ⟨rfl, rfl, rfl⟩

/-- A remote answer sets nothing that is printed, other than a direction. -/
theorem fromRemoteAnswer (h : t.Spoken) (rm : SdpMedia) : (t.fromRemoteAnswer rm).Spoken := by
  unfold RtpTransceiver.fromRemoteAnswer
  simp only []
  split
  · exact h.congr rfl rfl rfl ⟨rfl, rfl, rfl⟩
  · split
    · exact h.congr rfl rfl rfl ⟨rfl, rfl, rfl⟩
    · split <;> exact h.congr rfl rfl rfl ⟨rfl, rfl, rfl⟩

/-- Neither do the answers one after the other. -/
theorem afterAnswer (h : t.Spoken) (medias : List SdpMedia) :
    (Connection.afterAnswer medias t).Spoken := by
  unfold Connection.afterAnswer
  split
  · have hinactive : RtpTransceiver.Spoken { t with direction := .inactive } :=
      h.congr rfl rfl rfl ⟨rfl, rfl, rfl⟩
    exact hinactive.stop
  · split
    · exact (h.fromRemoteAnswer _).stop
    · exact h.fromRemoteAnswer _

end RtpTransceiver.Spoken

/-- The codec of a description in words. -/
theorem fromMediaDescription_wellFormed {desc : MediaDescription} {codec : SdpRtpmap}
    (hparams : Trimmed desc.encodingParams)
    (h : SdpRtpmap.fromMediaDescription desc = some codec) : codec.WellFormed := by
  have hnames : ∀ name ∈ ["opus".toList, "vp8".toList, "h264".toList, "vp9".toList],
      '/' ∉ name ∧ '\n' ∉ name ∧ StartsClean name := by decide
  unfold SdpRtpmap.fromMediaDescription at h
  simp only [] at h
  split at h
  · obtain rfl := Option.some.inj h
    obtain ⟨hslash, hnl, hstarts⟩ := hnames "opus".toList (by simp)
    exact ⟨hslash, hnl, hstarts, hparams⟩
  · obtain rfl := Option.some.inj h
    obtain ⟨hslash, hnl, hstarts⟩ := hnames "vp8".toList (by simp)
    exact ⟨hslash, hnl, hstarts, hparams⟩
  · obtain rfl := Option.some.inj h
    obtain ⟨hslash, hnl, hstarts⟩ := hnames "h264".toList (by simp)
    refine ⟨?_, ?_, ?_, trimmed_addParam hparams (by decide) (by decide)⟩
    · rwa [SdpRtpmap.addParam_name]
    · rwa [SdpRtpmap.addParam_name]
    · rwa [SdpRtpmap.addParam_name]
  · obtain rfl := Option.some.inj h
    obtain ⟨hslash, hnl, hstarts⟩ := hnames "vp9".toList (by simp)
    exact ⟨hslash, hnl, hstarts, hparams⟩
  · cases h

/-! ### The calls -/

/-- A description that `parse_sdp` has accepted, with words for mids and one track in each
section. -/
structure SessionDescription.Heard [NoCaseEq] (d : SessionDescription) : Prop where
  accepted : ∃ sdp type, parseSdp sdp type = .ok (some d)
  mids : ∀ m ∈ d.medias, Token m.mid
  msids : ∀ m ∈ d.medias, checkMsid m = true

/-- The sections of a description that is heard are heard. -/
theorem SessionDescription.Heard.medias [NoCaseEq] {d : SessionDescription} (h : d.Heard) :
    ∀ m ∈ d.medias, m.Heard := by
  obtain ⟨sdp, type, hparse⟩ := h.accepted
  exact fun m hm => ⟨(parseSdp_wellFormed hparse).1.medias m hm, h.mids m hm, h.msids m hm⟩

namespace Connection

/-- Transceivers in words, by index. -/
theorem spoken_set {ts : List RtpTransceiver} (hts : ∀ t ∈ ts, t.Spoken) (i : ℕ)
    {t : RtpTransceiver} (ht : t.Spoken) : ∀ u ∈ ts.set i t, u.Spoken := fun u hu => by
  rcases List.mem_or_eq_of_mem_set hu with hu | rfl
  · exact hts u hu
  · exact ht

/-- A change of one transceiver that keeps it spoken keeps all of them. -/
theorem spoken_modify {ts : List RtpTransceiver} (hts : ∀ t ∈ ts, t.Spoken) (i : ℕ)
    {f : RtpTransceiver → RtpTransceiver} (hf : ∀ t, t.Spoken → (f t).Spoken) :
    ∀ u ∈ ts.modify i f, u.Spoken := by
  intro u hu
  obtain ⟨k, hk⟩ := List.mem_iff_getElem?.1 hu
  rw [List.getElem?_modify] at hk
  obtain ⟨t, ht, rfl⟩ := Option.map_eq_some_iff.1 hk
  have hspoken := hts t (List.mem_of_getElem? ht)
  split
  · exact hf t hspoken
  · exact hspoken

/-- The indices of the sections are not printed. -/
theorem spoken_setMlineIndices {ts : List RtpTransceiver} (hts : ∀ t ∈ ts, t.Spoken)
    (es : List MediaEntry) : ∀ u ∈ setMlineIndices es ts, u.Spoken := by
  unfold setMlineIndices
  refine List.foldlRecOn (motive := fun ts : List RtpTransceiver => ∀ t ∈ ts, t.Spoken) _ _ hts ?_
  intro ts' hts' p _
  split
  · exact spoken_modify hts' _ fun t ht => ht.congr rfl rfl rfl ⟨rfl, rfl, rfl⟩
  · exact hts'

variable [NoCaseEq] {c c' : Connection}

/-- The transceivers that an offer makes take their mids from it, which are one word each. -/
theorem applyOffer_spoken (rms : List SdpMedia) (hrms : ∀ m ∈ rms, Token m.mid)
    (hts : ∀ t ∈ c.transceivers, t.Spoken) (tracks : List OnTrack) :
    ∀ t ∈ (applyOffer rms c tracks).state.transceivers, t.Spoken := by
  induction rms generalizing c tracks with
  | nil => exact hts
  | cons rm rms ih =>
    obtain ⟨hrm, hrms⟩ := List.forall_mem_cons.1 hrms
    rw [applyOffer]
    split
    · exact ih hrms hts tracks
    · split
      · exact hts
      · cases hfree : c.freeTransceiver _ with
        | none => exact ih hrms hts tracks
        | some p =>
          obtain ⟨i, t⟩ := p
          have ht : t.Spoken := hts t (List.mem_of_getElem? (freeTransceiver_eq_some hfree).1)
          have hnext : ∀ u ∈ (c.associate i t rm).1.transceivers, u.Spoken := by
            rw [associate_transceivers]
            exact spoken_set hts i ((ht.withMid (.inr hrm)).fromRemoteOffer rm)
          exact ih hrms hnext _

/-- What of a connection is in words, by the state it is in. -/
theorem Spoken.of_state (hc : c.Spoken) (hagent : c.SameAgent c')
    (hts : ∀ t ∈ c'.transceivers, t.Spoken)
    (hlocal : c'.localDesc = c.localDesc ∨ ∃ d, c'.localDesc = some d ∧ Value d.sessionName ∧
      ∀ m ∈ d.medias, m.Spoken) : c'.Spoken := by
  obtain ⟨husername, hpassword, hfingerprint⟩ := hagent
  refine ⟨⟨husername ▸ hc.agent.username, hpassword ▸ hc.agent.password,
    hfingerprint ▸ hc.agent.fingerprint⟩, hts, ?_, ?_⟩
  · rcases hlocal with h | ⟨d, h, hname, -⟩
    · exact h ▸ hc.sessionName
    · rw [h]
      exact hname
  · rw [currentMedias]
    rcases hlocal with h | ⟨d, h, -, hmedias⟩
    · exact h ▸ hc.sections
    · rw [h]
      exact hmedias

/-- Setting a local description of one's own keeps the connection spoken. -/
theorem Spoken.setLocalDescription (hc : c.Spoken) {d : SessionDescription}
    (hd : Value d.sessionName ∧ ∀ m ∈ d.medias, m.Spoken) :
    (c.setLocalDescription d).state.Spoken := by
  refine hc.of_state (c.setLocalDescription_sameAgent d) ?_ ?_
  · unfold Connection.setLocalDescription
    split
    case h_4 | h_5 =>
      split
      · exact hc.transceivers
      · split
        · exact hc.transceivers
        · intro t ht
          obtain ⟨u, hu, rfl⟩ := List.mem_map.1 ht
          exact (hc.transceivers u hu).takeMid fun m hm => (hd.2 m hm).mid
    case h_6 => split <;> exact hc.transceivers
    all_goals exact hc.transceivers
  · unfold Connection.setLocalDescription
    split
    case h_4 | h_5 =>
      split
      · exact .inl rfl
      · split
        · exact .inl rfl
        · exact .inr ⟨d, rfl, hd⟩
    case h_6 =>
      split
      · exact .inl rfl
      · exact .inr ⟨d, rfl, hd⟩
    all_goals exact .inl rfl

/-- Setting a remote description that is heard keeps it spoken, and is all it keeps of it. -/
theorem Spoken.setRemoteDescription (hc : c.Spoken) {d : SessionDescription} (hd : d.Heard) :
    (c.setRemoteDescription d).state.Spoken ∧
      ((c.setRemoteDescription d).state.remoteDesc = c.remoteDesc ∨
        (c.setRemoteDescription d).state.remoteDesc = some d) := by
  have hoffer := applyOffer_spoken d.medias hd.mids hc.transceivers []
  have hrerouted := applyOffer_rerouted d.medias c []
  have hanswer := applyAnswer_rerouted d.medias c.transceivers.zipIdx c []
  have hmap := (applyAnswer_transceivers d.medias [] (c := c) rfl []).2
  have hremote (c' : Connection) (h : c.Rerouted c') : c'.remoteDesc = c.remoteDesc := by
    unfold Rerouted at h
    rw [h]
  have hlocal (c' : Connection) (h : c.Rerouted c') : c'.localDesc = c.localDesc := by
    unfold Rerouted at h
    rw [h]
  have hspoken : ∀ t ∈ (c.setRemoteDescription d).state.transceivers, t.Spoken := by
    unfold Connection.setRemoteDescription
    split
    case h_4 | h_5 =>
      split
      · exact hc.transceivers
      · split
        · exact hc.transceivers
        · simp only []
          split <;> exact hoffer
    case h_6 =>
      split
      · exact hc.transceivers
      · simp only []
        intro t ht
        rw [List.length_nil, List.nil_append] at hmap
        rw [hmap] at ht
        obtain ⟨u, hu, rfl⟩ := List.mem_map.1 ht
        exact (hc.transceivers u hu).afterAnswer d.medias
    all_goals exact hc.transceivers
  have hdescs : (c.setRemoteDescription d).state.localDesc = c.localDesc ∧
      ((c.setRemoteDescription d).state.remoteDesc = c.remoteDesc ∨
        (c.setRemoteDescription d).state.remoteDesc = some d) := by
    unfold Connection.setRemoteDescription
    split
    case h_4 | h_5 =>
      split
      · exact ⟨rfl, .inl rfl⟩
      · split
        · exact ⟨rfl, .inl rfl⟩
        · simp only []
          split
          · exact ⟨hlocal (applyOffer d.medias c []).state hrerouted,
              .inl (hremote (applyOffer d.medias c []).state hrerouted)⟩
          · exact ⟨hlocal (applyOffer d.medias c []).state hrerouted, .inr rfl⟩
    case h_6 =>
      split
      · exact ⟨rfl, .inl rfl⟩
      · exact ⟨hlocal (applyAnswer d.medias c.transceivers.zipIdx c []).state hanswer, .inr rfl⟩
    all_goals exact ⟨rfl, .inl rfl⟩
  exact ⟨hc.of_state (c.setRemoteDescription_sameAgent d) hspoken (.inl hdescs.1), hdescs.2⟩

end Connection

/-! ### Runs -/

section Runs

variable [NoCaseEq] {c : Connection} {s : Session}

/-- `create_offer` or `create_answer` has made the description `d`, now or before. -/
def Session.Makes (h : List (Session × ApplicationCall)) (s : Session) (d : SessionDescription) :
    Prop :=
  ∃ u ∈ s :: h.map Prod.fst,
    (∃ c, u.conn.createOffer = .ok (c, d)) ∨ u.conn.createAnswer = some d

/-- What the application puts in is in words; what it sets is made by the connection, now or before,
or has been accepted. -/
def InWords (h : List (Session × ApplicationCall)) (s : Session) : ApplicationCall → Prop
  | .session (.signal (.setLocal d _)) => s.Makes h d
  | .session (.signal (.setRemote d _)) => d.Heard
  | .addTransceiver desc init _ => Trimmed desc.encodingParams ∧ ∀ ms ∈ init.streams, Token ms
  | .addTrack id desc streams _ =>
      Token id ∧ Trimmed desc.encodingParams ∧ ∀ ms ∈ streams, Token ms
  | .setTrack _ id => ∀ x ∈ id, Token x
  | .replaceTrack _ id _ => ∀ x ∈ id, Token x
  | _ => True

/-- The connection is in words, and has heard the remote description. -/
structure Session.Spoken (s : Session) : Prop where
  conn : s.conn.Spoken
  remote : ∀ r, s.conn.remoteDesc = some r → r.Heard

/-- A transceiver that is added is in words. -/
theorem newTransceiver_spoken {desc : MediaDescription} {codec : SdpRtpmap} {init : TransceiverInit}
    (hcodec : SdpRtpmap.fromMediaDescription desc = some codec)
    (hparams : Trimmed desc.encodingParams) (hstreams : ∀ ms ∈ init.streams, Token ms)
    (draws : ℕ → U32) :
    (Connection.newTransceiver codec init draws).Spoken :=
  ⟨.inl rfl, fromMediaDescription_wellFormed hparams hcodec, hstreams,
    fun _ h => absurd h (by simp [Connection.newTransceiver]),
    fun _ h => absurd h (by simp [Connection.newTransceiver])⟩

namespace Connection.Spoken

variable {c' : Connection}

/-- A new transceiver is spoken, if its streams are words. -/
theorem addTransceiver (hc : c.Spoken) {desc : MediaDescription} {init : TransceiverInit}
    {draws : ℕ → U32} (hparams : Trimmed desc.encodingParams)
    (hstreams : ∀ ms ∈ init.streams, Token ms) (h : c.addTransceiver desc init draws = .ok c') :
    c'.Spoken := by
  obtain ⟨codec, hcodec, -, rfl⟩ := addTransceiver_ok h
  refine hc.of_state ⟨rfl, rfl, rfl⟩ ?_ (.inl rfl)
  refine List.forall_mem_append.2 ⟨hc.transceivers, fun t ht => ?_⟩
  exact List.mem_singleton.1 ht ▸ newTransceiver_spoken hcodec hparams hstreams draws

/-- A new track is spoken, if its name and its streams are words. -/
theorem addTrack (hc : c.Spoken) {id : Text} {desc : MediaDescription} {streams : List Text}
    {draws : ℕ → U32} (hid : Token id) (hparams : Trimmed desc.encodingParams)
    (hstreams : ∀ ms ∈ streams, Token ms) (h : c.addTrack id desc streams draws = .ok c') :
    c'.Spoken := by
  have hids : ∀ x ∈ some id, Token x := fun x hx => Option.some.inj hx ▸ hid
  rw [Connection.addTrack] at h
  split at h
  · rw [addTransceiverWithTrack, Except.map.eq_def] at h
    split at h
    · cases h
    · rename_i c₁ hc₁
      obtain rfl := Except.ok.inj h
      have hadded : c₁.Spoken := hc.addTransceiver hparams hstreams hc₁
      refine hadded.of_state ⟨rfl, rfl, rfl⟩ ?_ (.inl rfl)
      exact spoken_modify hadded.transceivers _ fun t ht =>
        ⟨ht.mid, ht.codec, ht.msids, hids, ht.rids⟩
  · obtain rfl := Except.ok.inj h
    refine hc.of_state ⟨rfl, rfl, rfl⟩ ?_ (.inl rfl)
    exact spoken_modify hc.transceivers _ fun t ht => ⟨ht.mid, ht.codec, hstreams, hids, ht.rids⟩

/-- What a connection in words makes. -/
theorem made [LawfulNoCaseEq] (hc : c.Spoken)
    (hremote : ∀ r, c.remoteDesc = some r → ∀ m ∈ r.medias, m.Heard) {d : SessionDescription}
    (h : (∃ c', c.createOffer = .ok (c', d)) ∨ c.createAnswer = some d) :
    Value d.sessionName ∧ ∀ m ∈ d.medias, m.Spoken := by
  rcases h with ⟨c', h⟩ | h
  · obtain ⟨es, counter, hmids, hsections, -, hoffer⟩ := createOffer_parts h
    refine ⟨?_, (hc.createOffer hmids hsections).2⟩
    have hname := hc.sessionName
    rw [hoffer]
    cases hlocal : c.localDesc with
    | none => exact (show Token "-".toList by decide).trimmed.toValue
    | some l =>
      rw [hlocal] at hname
      exact hname
  · obtain ⟨-, hname, hmedias⟩ := createAnswer_survives hc hremote h
    exact ⟨hname ▸ (show Token "-".toList by decide).trimmed.toValue, hmedias⟩

end Connection.Spoken

namespace Session.Spoken

/-- A call that leaves the remote description alone. -/
theorem of_conn (hs : s.Spoken) {s' : Session} (hconn : s'.conn.Spoken)
    (hremote : s'.conn.remoteDesc = s.conn.remoteDesc) : s'.Spoken :=
  ⟨hconn, fun r hr => hs.remote r (hremote ▸ hr)⟩

/-- What may throw. -/
theorem withConn (hs : s.Spoken) {r : Except AddError Connection}
    (hr : ∀ c, r = .ok c → c.Spoken ∧ c.remoteDesc = s.conn.remoteDesc) :
    (s.withConn r).Spoken := by
  cases r with
  | ok c => exact hs.of_conn (hr c rfl).1 (hr c rfl).2
  | error _ => exact hs

/-- A change of one transceiver, as part of the session. -/
theorem modifyTransceiver (hs : s.Spoken) (i : ℕ) {f : RtpTransceiver → RtpTransceiver}
    (hf : ∀ t, t.Spoken → (f t).Spoken) : (s.modifyTransceiver i f).Spoken :=
  hs.of_conn (hs.conn.of_state ⟨rfl, rfl, rfl⟩
    (Connection.spoken_modify hs.conn.transceivers i hf) (.inl rfl)) rfl

/-- A local description that can be written down. -/
theorem setLocal (hs : s.Spoken) {d : SessionDescription}
    (hd : Value d.sessionName ∧ ∀ m ∈ d.medias, m.Spoken) (agentThrows : Bool) :
    ((s.setLocal d agentThrows).1).Spoken := by
  have hsame : (s.conn.setLocalDescription d).state.remoteDesc = s.conn.remoteDesc := by
    rcases s.conn.setLocalDescription_cases d with ⟨-, hstate⟩ | ⟨-, -, hr, -⟩
    · rw [hstate]
    · exact hr
  refine hs.of_conn ?_ ?_
  · rw [setLocal_conn]
    exact hs.conn.setLocalDescription hd
  · rw [setLocal_conn]
    exact hsame

/-- A remote description that was heard. -/
theorem setRemote (hs : s.Spoken) {d : SessionDescription} (hd : d.Heard)
    (agentThrows : Bool) : ((s.setRemote d agentThrows).1).Spoken := by
  obtain ⟨hconn, hremote⟩ := hs.conn.setRemoteDescription hd
  rw [← setRemote_conn s d agentThrows] at hconn hremote
  refine ⟨hconn, fun r hr => ?_⟩
  rcases hremote with hsame | hset
  · exact hs.remote r (hsame ▸ hr)
  · exact Option.some.inj (hset.symm.trans hr) ▸ hd

/-- An offer numbers the sections of the transceivers. -/
theorem createOffer (hs : s.Spoken) : ((s.signal .createOffer).1).Spoken := by
  rw [Session.signal]
  split
  · rename_i c offer hoffer
    obtain ⟨_, _, -, -, hts, -⟩ := Connection.createOffer_parts hoffer
    have hsame := (Connection.createOffer_same hoffer).1
    refine hs.of_conn (hs.conn.of_state (Connection.createOffer_sameAgent hoffer) ?_
      (.inl hsame.localDesc)) hsame.remoteDesc
    rw [hts]
    exact Connection.spoken_setMlineIndices hs.conn.transceivers _
  · exact hs

/-- **One call** of the application. -/
theorem call [LawfulNoCaseEq] {h : List (Session × ApplicationCall)} {e : ApplicationCall}
    (hs : ∀ u ∈ s :: h.map Prod.fst, u.Spoken) (he : InWords h s e) : (s.call e).Spoken := by
  have hnow : s.Spoken := hs s (List.mem_cons_self ..)
  cases e with
  | session e =>
    cases e with
    | close =>
      exact ⟨⟨⟨hnow.conn.agent.username, hnow.conn.agent.password, hnow.conn.agent.fingerprint⟩,
        fun _ h => absurd h List.not_mem_nil, .nil, fun _ h => absurd h List.not_mem_nil⟩,
        fun _ h => by cases h⟩
    | signal e =>
      cases e with
      | setLocal d b =>
        obtain ⟨u, hu, hmade⟩ := he
        have hd := (hs u hu).conn.made (fun r hr => ((hs u hu).remote r hr).medias) hmade
        exact hnow.setLocal hd b
      | setRemote d b => exact hnow.setRemote he b
      | createAnswer => exact hnow
      | createOffer => exact hnow.createOffer
  | addTransceiver desc init draws =>
    refine hnow.withConn fun c hc => ⟨hnow.conn.addTransceiver he.1 he.2 hc, ?_⟩
    obtain ⟨-, -, -, rfl⟩ := Connection.addTransceiver_ok hc
    rfl
  | addTrack id desc streams draws =>
    have hsame := (s.call_same (e := .addTrack id desc streams draws) rfl).2.1.remoteDesc
    exact hnow.withConn fun c hc => ⟨hnow.conn.addTrack he.1 he.2.1 he.2.2 hc, by
      rwa [Session.call, hc] at hsame⟩
  | createDataChannel hasSctp =>
    rw [Session.call]
    split
    · exact hnow
    · exact hnow.of_conn (hnow.conn.of_state ⟨rfl, rfl, rfl⟩ hnow.conn.transceivers (.inl rfl)) rfl
  | setDirection i direction =>
    exact hnow.modifyTransceiver i fun t ht => ht.congr rfl rfl rfl ⟨rfl, rfl, rfl⟩
  | stop i => exact hnow.modifyTransceiver i fun t ht => ht.stop
  | setTrack i id => exact hnow.modifyTransceiver i fun t ht => ht.setTrack he
  | replaceTrack i id sameKind =>
    refine hnow.modifyTransceiver i fun t ht => ?_
    unfold RtpTransceiver.replaceTrack
    split
    · exact ht
    · exact ht.setTrack he
  | stopSender i => exact hnow.modifyTransceiver i fun t ht => ht.congr rfl rfl rfl ⟨rfl, rfl, rfl⟩
  | stopReceiver i =>
    exact hnow.modifyTransceiver i fun t ht => ht.congr rfl rfl rfl ⟨rfl, rfl, rfl⟩
  | onRtp i cb => exact hnow.modifyTransceiver i fun t ht => ht.congr rfl rfl rfl ⟨rfl, rfl, rfl⟩

end Session.Spoken

/-- A new connection. -/
structure Connection.Blank (c : Connection) : Prop where
  agent : c.AgentSpoken
  transceivers : c.transceivers = []
  localDesc : c.localDesc = none
  remoteDesc : c.remoteDesc = none

/-- A new connection is spoken. -/
theorem Connection.Blank.spoken (hc : c.Blank) : Session.Spoken { conn := c } := by
  refine ⟨⟨hc.agent, ?_, ?_, ?_⟩, ?_⟩
  · exact fun t ht => absurd (hc.transceivers ▸ ht) List.not_mem_nil
  · show Value (c.localDesc.elim [] SessionDescription.sessionName)
    rw [hc.localDesc]
    exact .nil
  · show ∀ m ∈ c.currentMedias, m.Spoken
    rw [currentMedias, hc.localDesc]
    exact fun _ h => absurd h List.not_mem_nil
  · exact fun r hr => by cases hc.remoteDesc.symm.trans hr

/-- All that the connection makes in this state survives, but for an offer whose version is
whitespace as a character, and which is not the first one. -/
structure Session.MakesReadable (s : Session) : Prop where
  offers : ∀ c offer, s.conn.createOffer = .ok (c, offer) →
    (offer.Survives ↔
      s.conn.localDesc = none ∨ isSpace (Char.ofNat (s.conn.sessionVersion % 256)) = false)
  answers : ∀ answer, s.conn.createAnswer = some answer → answer.Survives

/-- What a spoken session makes is read back by the other side. -/
theorem Session.Spoken.makesReadable [LawfulNoCaseEq] (hs : s.Spoken) : s.MakesReadable where
  offers _ _ h := Connection.createOffer_survives_iff hs.conn h
  answers _ h :=
    (Connection.createAnswer_survives hs.conn (fun r hr => (hs.remote r hr).medias) h).1

/-- **What a connection makes survives on the wire**, in every state of every run: each answer, and
each offer that is the first one or whose version is not whitespace as a character. -/
theorem made_survive [LawfulNoCaseEq] {h : List (Session × ApplicationCall)} (hc : c.Blank)
    (hr : Run (applicationMachine c) InWords h s) : s.MakesReadable := by
  have hspoken : ∀ u ∈ s :: h.map Prod.fst, u.Spoken := by
    refine hr.invariant (P := fun h s => ∀ u ∈ s :: h.map Prod.fst, u.Spoken) ?_ ?_
    · exact List.forall_mem_singleton.2 hc.spoken
    · exact fun h s e _ hs he => List.forall_mem_cons.2 ⟨.call hs he, hs⟩
  exact (hspoken s (List.mem_cons_self ..)).makesReadable

end Runs

/-! ### A microphone -/

/-- A connection with a name, a password and a fingerprint. -/
def micPeer (name : Text) : Connection :=
  { localUsername := name, localPassword := "secret".toList
    fingerprint := ⟨"sha-256".toList, "AB".toList⟩ }

/-- A microphone is sent. -/
def micCall : ApplicationCall :=
  .addTrack "mic".toList { format := .opus, clockRate := 48000, channels := some 2 }
    ["call".toList] fun i => BitVec.ofNat 32 (i + 7)

/-- What is offered with it. -/
def micOffer : SessionDescription :=
  let s := (@applicationMachine asciiNoCase (micPeer "a".toList)).exec
    { conn := micPeer "a".toList } [micCall]
  ((@Connection.createOffer asciiNoCase s.conn).toOption.map Prod.snd).getD {}

/-- It is offered and set, and `n` more offers are made. -/
def micCalls (n : ℕ) : List ApplicationCall :=
  [micCall, .session (.signal .createOffer), .session (.signal (.setLocal micOffer false))] ++
    List.replicate n (.session (.signal .createOffer))

/-- The connection of the example is new. -/
theorem micPeer_blank (name : Text) (h : Token name) : (micPeer name).Blank := by
  have hpassword : Token "secret".toList := by decide
  have hfingerprint : SdpFingerprint.WellFormed ⟨"sha-256".toList, "AB".toList⟩ :=
    ⟨by decide, by decide, (show Token "AB".toList by decide).trimmed, by decide⟩
  exact ⟨⟨h.trimmed, hpassword.trimmed, hfingerprint⟩, rfl, rfl, rfl⟩

/-- The track of the example has one word for its stream and one for itself. -/
theorem micCall_inWords (h : List (Session × ApplicationCall)) (s : Session) :
    @InWords asciiNoCase h s micCall :=
  ⟨by decide, .nil, by decide⟩

/-- An offer that can be made, as it is. -/
theorem createOffer_getD [NoCaseEq] {c : Connection}
    (h : c.createOffer.toOption.isSome = true) :
    ∃ c', c.createOffer = .ok (c', (c.createOffer.toOption.map Prod.snd).getD {}) := by
  cases hoffer : c.createOffer with
  | error f =>
    rw [hoffer] at h
    cases h
  | ok r => exact ⟨r.1, rfl⟩

/-- The offer with version 8 can be read, and the one with version 9 cannot: it is a tab. -/
theorem made_survive_mic :
    let M := @applicationMachine asciiNoCase (micPeer "a".toList)
    let offer (n : ℕ) := (@Connection.createOffer asciiNoCase (M.exec M.init (micCalls n)).conn)
    (∃ c d, offer 7 = .ok (c, d) ∧ @SessionDescription.Survives asciiNoCase d) ∧
      ∃ c d, offer 8 = .ok (c, d) ∧ ¬ @SessionDescription.Survives asciiNoCase d := by
  intro M offer
  have hmore {h : List (Session × ApplicationCall)} {s : Session}
      (hr : Run M (@InWords asciiNoCase) h s) (n : ℕ) :
      ∃ h', Run M (@InWords asciiNoCase) h'
        (M.exec s (List.replicate n (.session (.signal .createOffer)))) := by
    induction n generalizing h s with
    | zero => exact ⟨h, hr⟩
    | succ n ih => exact ih (.step hr trivial)
  have hadded : Run M (@InWords asciiNoCase) _ (M.exec M.init [micCall]) :=
    .step .init (micCall_inWords _ _)
  have hoffered : Run M (@InWords asciiNoCase) _
      (M.exec M.init [micCall, .session (.signal .createOffer)]) := .step hadded trivial
  have hset : Run M (@InWords asciiNoCase) _ (M.exec M.init (micCalls 0)) := .step hoffered
    ⟨_, List.mem_cons_of_mem _ (List.mem_cons_self ..),
      .inl (@createOffer_getD asciiNoCase _ (by decide +kernel))⟩
  have hblank := micPeer_blank "a".toList (by decide)
  have hreadable (n : ℕ) :
      @Session.MakesReadable asciiNoCase (M.exec M.init (micCalls n)) := by
    obtain ⟨h', hr⟩ := hmore hset n
    exact @made_survive asciiNoCase _ _ asciiNoCase_lawful _ hblank hr
  obtain ⟨c, hoffer⟩ := @createOffer_getD asciiNoCase (M.exec M.init (micCalls 7)).conn
    (by decide +kernel)
  obtain ⟨c', hoffer'⟩ := @createOffer_getD asciiNoCase (M.exec M.init (micCalls 8)).conn
    (by decide +kernel)
  refine ⟨⟨c, _, hoffer, ?_⟩, c', _, hoffer', ?_⟩
  · exact (@Session.MakesReadable.offers asciiNoCase _ (hreadable 7) _ _ hoffer).2
      (.inr (by decide +kernel))
  · intro hsurvives
    rcases (@Session.MakesReadable.offers asciiNoCase _ (hreadable 8) _ _ hoffer').1 hsurvives
      with h | h
    · have hsome : (M.exec M.init (micCalls 8)).conn.localDesc.isSome = true := by decide +kernel
      rw [h] at hsome
      cases hsome
    · exact absurd h (by decide +kernel)

/-! ### Two connections -/

section Pairs

variable [NoCaseEq] {s : Session}

/-- What the application may hand on: a first offer, or an answer, as it has been made now or
before. -/
def Session.Tells (h : List (Session × ApplicationCall)) (s : Session) (d : SessionDescription) :
    Prop :=
  ∃ u ∈ s :: h.map Prod.fst,
    (u.conn.localDesc = none ∧ ∃ c, u.conn.createOffer = .ok (c, d)) ∨
      u.conn.createAnswer = some d

/-- A call of one application, while the other one goes on: a remote description is read from the
text of what the other one tells, and the rest is in words. -/
def Converses (h : List (Session × ApplicationCall)) (s : Session)
    (h' : List (Session × ApplicationCall)) (t : Session) : ApplicationCall → Prop
  | .session (.signal (.setRemote d _)) =>
      ∃ told, t.Tells h' told ∧ parseSdp told.toString told.sdpType = .ok (some d)
  | e => InWords h s e

/-- What is read of a description in words. -/
theorem SessionDescription.Survives.heard {d d' : SessionDescription} (hd : d.Survives)
    (hmedias : ∀ m ∈ d.medias, m.Spoken)
    (hparse : parseSdp d.toString d.sdpType = .ok (some d')) : d'.Heard ∧ d.onWire.Same d' := by
  obtain ⟨d'', hparse', hsame⟩ := hd
  obtain rfl := Option.some.inj (Except.ok.inj (hparse'.symm.trans hparse))
  have hsection : ∀ m' ∈ d''.medias,
      ∃ m : SdpMedia, m.Spoken ∧ m'.mid = m.mid ∧ m'.msids = m.msids := by
    intro m' hm'
    obtain ⟨w, hw, hsame⟩ := exists_left_of_mem hsame.medias hm'
    obtain ⟨m, hm, rfl⟩ := List.mem_map.1 hw
    refine ⟨m, hmedias m hm, ?_, ?_⟩
    · rw [hsame.fields]
      rfl
    · rw [hsame.fields]
      rfl
  refine ⟨⟨⟨_, _, hparse⟩, fun m' hm' => ?_, fun m' hm' => ?_⟩, hsame⟩
  · obtain ⟨m, hm, hmid, -⟩ := hsection m' hm'
    exact hmid ▸ hm.mid
  · obtain ⟨m, hm, -, hmsids⟩ := hsection m' hm'
    have hcheck := hm.msids
    rw [checkMsid] at hcheck ⊢
    rwa [hmsids]

/-- What is told by connections in words is heard. -/
theorem Session.Tells.heard [LawfulNoCaseEq] {h : List (Session × ApplicationCall)}
    {d d' : SessionDescription} (hd : s.Tells h d) (hs : ∀ u ∈ s :: h.map Prod.fst, u.Spoken)
    (hparse : parseSdp d.toString d.sdpType = .ok (some d')) : d'.Heard ∧ d.onWire.Same d' := by
  obtain ⟨u, hu, hmade⟩ := hd
  have hspoken := hs u hu
  have hreadable := hspoken.makesReadable
  have hmedias (h : (∃ c, u.conn.createOffer = .ok (c, d)) ∨ u.conn.createAnswer = some d) :=
    (hspoken.conn.made (fun r hr => (hspoken.remote r hr).medias) h).2
  rcases hmade with ⟨hnone, c, hoffer⟩ | hanswer
  · exact ((hreadable.offers c d hoffer).2 (.inl hnone)).heard (hmedias (.inl ⟨c, hoffer⟩)) hparse
  · exact (hreadable.answers d hanswer).heard (hmedias (.inr hanswer)) hparse

/-- What one side has of the other one is what that one tells, up to the order of the feedback and
the addresses of the sections. -/
def Session.Understands (s : Session) (h' : List (Session × ApplicationCall)) (t : Session) :
    Prop :=
  ∀ r, s.conn.remoteDesc = some r → ∃ d, t.Tells h' d ∧ d.onWire.Same r

/-- What holds of one side, by what the other one has told. -/
structure Session.Follows (h : List (Session × ApplicationCall)) (s : Session)
    (h' : List (Session × ApplicationCall)) (t : Session) : Prop where
  spoken : ∀ u ∈ s :: h.map Prod.fst, u.Spoken
  understands : s.Understands h' t

namespace Session.Follows

variable {h h' : List (Session × ApplicationCall)} {t : Session}

/-- The other side goes on. -/
theorem other (hs : s.Follows h h' t) (t' : Session) (e : ApplicationCall) :
    s.Follows h ((t, e) :: h') t' := by
  refine ⟨hs.spoken, fun r hr => ?_⟩
  obtain ⟨d, ⟨u, hu, hmade⟩, hsame⟩ := hs.understands r hr
  exact ⟨d, ⟨u, List.mem_cons_of_mem _ hu, hmade⟩, hsame⟩

/-- **A call on one side.** -/
theorem call [LawfulNoCaseEq] (hs : s.Follows h h' t) (ht : t.Follows h' h s) {e : ApplicationCall}
    (he : Converses h s h' t e) : (s.call e).Follows ((s, e) :: h) h' t := by
  have hremote (d : SessionDescription) (b : Bool) (h : e = .session (.signal (.setRemote d b))) :
      d.Heard ∧ ∃ told, t.Tells h' told ∧ told.onWire.Same d := by
    subst h
    obtain ⟨told, htold, hparse⟩ := he
    obtain ⟨hheard, hsame⟩ := htold.heard ht.spoken hparse
    exact ⟨hheard, told, htold, hsame⟩
  have hwords : InWords h s e := by
    rcases e.cases_isSet with rfl | ⟨d, b, rfl⟩ | ⟨d, b, rfl⟩ | hset
    · trivial
    · exact he
    · exact (hremote d b rfl).1
    · unfold Converses at he
      split at he
      · cases hset
      · exact he
  refine ⟨List.forall_mem_cons.2 ⟨.call hs.spoken hwords, hs.spoken⟩, fun r hr => ?_⟩
  rcases e.cases_isSet with rfl | ⟨d, b, rfl⟩ | ⟨d, b, rfl⟩ | hset
  · cases hr
  · refine hs.understands r ?_
    rw [← hr]
    show _ = (s.setLocal d b).1.conn.remoteDesc
    rw [Session.setLocal_conn]
    rcases s.conn.setLocalDescription_cases d with ⟨-, hstate⟩ | ⟨-, -, hsame, -⟩
    · rw [hstate]
    · exact hsame.symm
  · have hset : (s.setRemote d b).1.conn.remoteDesc = some r := hr
    rw [Session.setRemote_conn] at hset
    rcases ((hs.spoken s (List.mem_cons_self ..)).conn.setRemoteDescription
      (hremote d b rfl).1).2 with hsame | hsame
    · exact hs.understands r (hsame.symm.trans hset)
    · exact Option.some.inj (hsame.symm.trans hset) ▸ (hremote d b rfl).2
  · exact hs.understands r ((s.call_same hset).2.1.remoteDesc.symm.trans hr)

end Session.Follows

/-- **Two connections understand each other**, whatever their applications call and hand on, and in
whatever order, as long as what they put in is in words (`Converses`): each can read all that the
other one makes as a first offer or an answer, and what it has of the other one is what that one has
made. -/
theorem connections_understand [LawfulNoCaseEq] {a b : Connection} {t : Session}
    {h h' : List (Session × ApplicationCall)} (ha : a.Blank) (hb : b.Blank)
    (hr : PairRun (applicationMachine a) Converses (applicationMachine b) Converses h s h' t) :
    (s.MakesReadable ∧ s.Understands h' t) ∧ t.MakesReadable ∧ t.Understands h s := by
  have hfollows : s.Follows h h' t ∧ t.Follows h' h s := by
    refine hr.invariant (P := fun h s h' t => s.Follows h h' t ∧ t.Follows h' h s) ?_ ?_ ?_
    · have hone {c : Connection} (hc : c.Blank) (t : Session) :
          Session.Follows [] { conn := c } [] t :=
        ⟨List.forall_mem_singleton.2 hc.spoken, fun r hr => by cases hc.remoteDesc.symm.trans hr⟩
      exact ⟨hone ha _, hone hb _⟩
    · exact fun h s h' t e _ hst he => ⟨hst.1.call hst.2 he, hst.2.other _ e⟩
    · exact fun h s h' t e _ hst he => ⟨hst.1.other _ e, hst.2.call hst.1 he⟩
  obtain ⟨hs, ht⟩ := hfollows
  exact ⟨⟨(hs.spoken s (List.mem_cons_self ..)).makesReadable, hs.understands⟩,
    (ht.spoken t (List.mem_cons_self ..)).makesReadable, ht.understands⟩

end Pairs

/-- The description in a text, as it is read. -/
theorem parseSdp_getD [NoCaseEq] {text type : Text}
    (h : (parseSdp text type).toOption.join.isSome = true) :
    parseSdp text type = .ok (some ((parseSdp text type).toOption.join.getD {})) := by
  cases hparse : parseSdp text type with
  | error f =>
    rw [hparse] at h
    cases h
  | ok d =>
    rw [hparse] at h
    obtain ⟨d', rfl⟩ := Option.isSome_iff_exists.1 h
    rfl

/-- An answer that can be made, as it is. -/
theorem createAnswer_getD [NoCaseEq] {c : Connection} (h : c.createAnswer.isSome = true) :
    c.createAnswer = some (c.createAnswer.getD {}) := by
  obtain ⟨d, hd⟩ := Option.isSome_iff_exists.1 h
  rw [hd]
  rfl

/-- What another peer with a microphone reads, answers, and what is read of it. -/
def micHeard : SessionDescription :=
  (@parseSdp asciiNoCase micOffer.toString micOffer.sdpType).toOption.join.getD {}
/-- The calls of the side that answers. -/
def micAnswerer : List ApplicationCall :=
  [micCall, .session (.signal (.setRemote micHeard false))]
/-- The answer that it makes. -/
def micAnswer : SessionDescription :=
  (@Connection.createAnswer asciiNoCase ((@applicationMachine asciiNoCase (micPeer "b".toList)).exec
    { conn := micPeer "b".toList } micAnswerer).conn).getD {}
/-- The answer, as the first side reads it. -/
def micAnswerHeard : SessionDescription :=
  (@parseSdp asciiNoCase micAnswer.toString micAnswer.sdpType).toOption.join.getD {}

/-- Both have heard the other one, and understand. -/
theorem connections_understand_mic :
    let A := @applicationMachine asciiNoCase (micPeer "a".toList)
    let B := @applicationMachine asciiNoCase (micPeer "b".toList)
    let as := micCalls 0 ++ [.session (.signal (.setRemote micAnswerHeard false))]
    let s := A.exec A.init as
    let t := B.exec B.init micAnswerer
    s.conn.remoteDesc.isSome = true ∧ t.conn.remoteDesc.isSome = true ∧
      @Session.Understands asciiNoCase s (B.trace [] B.init micAnswerer) t ∧
      @Session.Understands asciiNoCase t (A.trace [] A.init as) s := by
  intro A B as s t
  have hinit : PairRun A (@Converses asciiNoCase) B (@Converses asciiNoCase) [] A.init [] B.init :=
    .init
  have hadded := (hinit.left (e := micCall) (micCall_inWords [] A.init)).right (e := micCall)
    (micCall_inWords [] B.init)
  have hoffered := hadded.left (e := ApplicationCall.session (.signal .createOffer)) trivial
  have hset := hoffered.left (e := ApplicationCall.session (.signal (.setLocal micOffer false)))
    ⟨_, List.mem_cons_of_mem _ (List.mem_cons_self ..),
      .inl (@createOffer_getD asciiNoCase _ (by decide +kernel))⟩
  have htold := hset.right (e := ApplicationCall.session (.signal (.setRemote micHeard false)))
    ⟨micOffer, ⟨A.exec A.init [micCall],
      List.mem_cons_of_mem _ (List.mem_cons_of_mem _ (List.mem_cons_self ..)),
      .inl ⟨rfl, @createOffer_getD asciiNoCase _ (by decide +kernel)⟩⟩,
    @parseSdp_getD asciiNoCase micOffer.toString micOffer.sdpType (by decide +kernel)⟩
  have hanswered := htold.left
    (e := ApplicationCall.session (.signal (.setRemote micAnswerHeard false)))
    ⟨micAnswer, ⟨t, List.mem_cons_self ..,
      .inr (@createAnswer_getD asciiNoCase _ (by decide +kernel))⟩,
    @parseSdp_getD asciiNoCase micAnswer.toString micAnswer.sdpType (by decide +kernel)⟩
  obtain ⟨⟨-, hs⟩, -, ht⟩ := @connections_understand asciiNoCase _ asciiNoCase_lawful _ _ _ _ _
    (micPeer_blank "a".toList (by decide)) (micPeer_blank "b".toList (by decide)) hanswered
  exact ⟨by decide +kernel, by decide +kernel, hs, ht⟩

end AsioRtc
