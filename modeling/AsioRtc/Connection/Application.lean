/-
# What the application may do at any moment

The setters wait for the ICE agent and the other side, and meanwhile the application can
call the connection and its transceivers: `add_transceiver`, `add_track`, `replace_track`,
`create_data_channel`, `set_direction` and `stop` of a transceiver, `set_track` and `stop` of a
sender, and `stop` and `on_rtp` of a receiver (`ApplicationCall`).  A transceiver that is
added so is new (`addTransceiver_new`), and those that were there keep their places
(`addTransceiver_old`).

The loop of `set_remote_description` over an answer goes through all transceivers, and
looks for the section of each by its mid, also of those that have none yet.  Where no
section has an empty mid, such a transceiver is made inactive and stopped.  So a remote
answer leaves the transceivers without a section alone in exactly those runs in which each of
them, whenever an answer comes, is inactive and stopped already or finds a section with an
empty mid that it agrees with (`run_spares_iff`).
-/

import AsioRtc.Connection.Session

namespace AsioRtc

open Lib Text

/-- `rtp_transceiver_init`: of the encodings there is the rid of each. -/
structure TransceiverInit where
  direction : SdpDirection := .sendrecv
  sendEncodings : List Text := []
  streams : List Text := []

/-- What `add_transceiver` throws. -/
inductive AddError
  | unknownFormat
  | inactive
  | invalidDescription
  deriving DecidableEq, Repr

/-- The message of an exception. -/
def AddError.what : AddError → Text
  | unknownFormat => "add_transceiver: description format cannot be unknown".toList
  | inactive => "add_transceiver: init.direction == sdp_direction::inactive".toList
  | invalidDescription => "sdp_rtpmap::from_media_description: invalid description".toList

/-- `media_format_name`. -/
def MediaFormat.name : MediaFormat → Text
  | opus => "opus".toList
  | vp8 => "vp8".toList
  | h264 => "h264".toList
  | vp9 => "vp9".toList
  | unknown => "unknown".toList

/-- A call of the application.  `draws` are the random numbers of the call, `hasSctp` is whether
there is an SCTP transport, `sameKind` is whether the new track is of the kind of the one there.  A
track is given by its id, and a null pointer is `none`. -/
inductive ApplicationCall
  | session (e : SessionCall)
  | addTransceiver (desc : MediaDescription) (init : TransceiverInit) (draws : ℕ → U32)
  | addTrack (id : Text) (desc : MediaDescription) (streams : List Text) (draws : ℕ → U32)
  | createDataChannel (hasSctp : Bool)
  | setDirection (i : ℕ) (direction : SdpDirection)
  | stop (i : ℕ)
  | setTrack (i : ℕ) (id : Option Text)
  | replaceTrack (i : ℕ) (id : Option Text) (sameKind : Bool)
  | stopSender (i : ℕ)
  | stopReceiver (i : ℕ)
  | onRtp (i : ℕ) (cb : Option (RtpPacket → RtpPacket × Bool))

/-- `rtp_sender::set_track`. -/
def RtpTransceiver.setTrack (id : Option Text) (t : RtpTransceiver) : RtpTransceiver :=
  { t with sender.trackId := id }

/-- `peer_connection::replace_track`, which throws for a null track and for one of another kind
than the one that is there. -/
def RtpTransceiver.replaceTrack (id : Option Text) (sameKind : Bool) (t : RtpTransceiver) :
    RtpTransceiver :=
  if id = none ∨ (t.sender.trackId.isSome = true ∧ sameKind = false) then t else t.setTrack id

namespace Connection

variable [NoCaseEq] {c c' : Connection}

/-! ### Adding transceivers -/

/-- The stream for encoding `i` of a sender.  Video draws a second number, for the
retransmissions. -/
def newStream (kind : MediaKind) (codec : SdpRtpmap) (draws : ℕ → U32) (i : ℕ) : RtpStream :=
  match kind with
  | .audio => { ssrc := draws i }
  | .video =>
      { ssrc := draws (2 * i)
        rtxSsrc := draws (2 * i + 1)
        rtxPt := codec.payloadType + 1 + BitVec.ofNat 8 (2 * i) }

/-- The transceiver that `add_transceiver` makes. -/
def newTransceiver (codec : SdpRtpmap) (init : TransceiverInit) (draws : ℕ → U32) :
    RtpTransceiver :=
  let t : RtpTransceiver :=
    { direction := init.direction, codec := codec, sender := { msids := init.streams } }
  -- Without encodings there is one stream.
  { t with sender.streams :=
      (List.range (max 1 init.sendEncodings.length)).map (newStream t.kind codec draws) }

/-- `connection_impl::add_transceiver`. -/
def addTransceiver (c : Connection) (desc : MediaDescription) (init : TransceiverInit)
    (draws : ℕ → U32) : Except AddError Connection :=
  if desc.format = .unknown then .error .unknownFormat
  else if init.direction = .inactive then .error .inactive
  else
    match SdpRtpmap.fromMediaDescription desc with
    | none => .error .invalidDescription
    | some codec =>
        .ok { c with transceivers := c.transceivers ++ [newTransceiver codec init draws] }

/-- `add_transceiver` with a track, which its sender gets. -/
def addTransceiverWithTrack (c : Connection) (id : Text) (desc : MediaDescription)
    (init : TransceiverInit) (draws : ℕ → U32) : Except AddError Connection :=
  (c.addTransceiver desc init draws).map fun c =>
    { c with transceivers := c.transceivers.modify (c.transceivers.length - 1) fun t =>
        { t with sender.trackId := some id } }

/-- The direction of a transceiver that gets a track to send. -/
def directionWithTrack : SdpDirection → SdpDirection
  | .sendrecv => .sendrecv
  | .sendonly => .sendonly
  | .recvonly => .sendrecv
  | .inactive => .sendonly

/-- A transceiver that has no track and could send one of that description. -/
def TakesTrack (desc : MediaDescription) (t : RtpTransceiver) : Prop :=
  t.stopped = false ∧ t.sender.trackId = none ∧ nceq t.codec.name desc.format.name = true ∧
    t.codec.clockRate = desc.clockRate ∧ t.codec.channels = desc.channels ∧
      t.codec.params = desc.encodingParams

instance (desc : MediaDescription) (t : RtpTransceiver) : Decidable (TakesTrack desc t) :=
  inferInstanceAs (Decidable (_ ∧ _ ∧ _ ∧ _ ∧ _ ∧ _))

/-- `connection_impl::add_track`. -/
def addTrack (c : Connection) (id : Text) (desc : MediaDescription) (streams : List Text)
    (draws : ℕ → U32) : Except AddError Connection :=
  match c.transceivers.findIdx? fun t => TakesTrack desc t with
  | none => c.addTransceiverWithTrack id desc { streams := streams } draws
  | some i =>
      .ok { c with transceivers := c.transceivers.modify i fun t =>
        { t with
          sender.trackId := some id
          sender.msids := streams
          direction := directionWithTrack t.direction } }

/-- What `add_transceiver` does where it does not throw. -/
theorem addTransceiver_ok {desc : MediaDescription} {init : TransceiverInit} {draws : ℕ → U32}
    (h : c.addTransceiver desc init draws = .ok c') :
    ∃ codec, SdpRtpmap.fromMediaDescription desc = some codec ∧ init.direction ≠ .inactive ∧
      c' = { c with transceivers := c.transceivers ++ [newTransceiver codec init draws] } := by
  unfold addTransceiver at h
  split at h
  · cases h
  · split at h
    · cases h
    · rename_i hdir
      split at h
      · cases h
      · rename_i codec hcodec
        exact ⟨codec, hcodec, hdir, (Except.ok.inj h).symm⟩

/-- **A transceiver that is added is new**, and has a stream. -/
theorem addTransceiver_new {desc : MediaDescription} {init : TransceiverInit} {draws : ℕ → U32}
    (h : c.addTransceiver desc init draws = .ok c') :
    ∃ t, c'.transceivers = c.transceivers ++ [t] ∧ t.IsNew ∧ t.direction ≠ .inactive ∧
      t.sender.streams ≠ [] := by
  obtain ⟨codec, hcodec, hdir, rfl⟩ := addTransceiver_ok h
  refine ⟨_, rfl, ⟨rfl, rfl, rfl, desc, hcodec⟩, hdir, ?_⟩
  intro hnil
  have hlen := congrArg List.length hnil
  rw [newTransceiver] at hlen
  simp only [List.length_map, List.length_range, List.length_nil] at hlen
  omega

/-- The transceivers that were there keep their places. -/
theorem addTransceiver_old {desc : MediaDescription} {init : TransceiverInit} {draws : ℕ → U32}
    (h : c.addTransceiver desc init draws = .ok c') {i : ℕ} {t : RtpTransceiver}
    (ht : c.transceivers[i]? = some t) : c'.transceivers[i]? = some t := by
  obtain ⟨u, hts, -⟩ := addTransceiver_new h
  obtain ⟨hlt, -⟩ := List.getElem?_eq_some_iff.1 ht
  rw [hts, List.getElem?_append_left hlt, ht]

/-- A connection that has not negotiated is still one behind a call that adds a transceiver. -/
theorem IsNew.addTransceiver (hc : c.IsNew) {desc : MediaDescription} {init : TransceiverInit}
    {draws : ℕ → U32} (h : c.addTransceiver desc init draws = .ok c') : c'.IsNew := by
  obtain ⟨t, hts, ht, -⟩ := addTransceiver_new h
  obtain ⟨codec, -, -, rfl⟩ := addTransceiver_ok h
  refine ⟨hc.localDesc, hc.signalingState, hc.midCounter, fun u hu => ?_⟩
  rw [hts, List.mem_append, List.mem_singleton] at hu
  rcases hu with hu | rfl
  · exact hc.transceivers u hu
  · exact ht

end Connection

/-! ### The calls -/

section Machine

variable [NoCaseEq]

/-- The connection behind a call that may throw. -/
def Session.withConn (s : Session) (r : Except AddError Connection) : Session :=
  match r with
  | .ok c => { s with conn := c }
  | .error _ => s

/-- A change of transceiver `i`. -/
def Session.modifyTransceiver (s : Session) (i : ℕ) (f : RtpTransceiver → RtpTransceiver) :
    Session :=
  { s with conn := { s.conn with transceivers := s.conn.transceivers.modify i f } }

/-- The state of a session after a call. -/
def Session.call (s : Session) : ApplicationCall → Session
  | .session e => (sessionMachine s.conn).next s e
  | .addTransceiver desc init draws => s.withConn (s.conn.addTransceiver desc init draws)
  | .addTrack id desc streams draws => s.withConn (s.conn.addTrack id desc streams draws)
  | .createDataChannel hasSctp =>
      if s.rolesSet ∧ hasSctp = false then s else { s with conn := { s.conn with needSctp := true } }
  | .setDirection i direction => s.modifyTransceiver i fun t => { t with direction := direction }
  | .stop i => s.modifyTransceiver i RtpTransceiver.stop
  | .setTrack i id => s.modifyTransceiver i (RtpTransceiver.setTrack id)
  | .replaceTrack i id sameKind =>
      s.modifyTransceiver i (RtpTransceiver.replaceTrack id sameKind)
  | .stopSender i => s.modifyTransceiver i fun t => { t with sender.stopped := true }
  | .stopReceiver i => s.modifyTransceiver i fun t => { t with receiver.stopped := true }
  | .onRtp i cb => s.modifyTransceiver i fun t => { t with receiver.onRtp := cb }

/-- A connection, and the calls of an application made on it. -/
def applicationMachine (c : Connection) : Machine Session ApplicationCall Unit where
  init := { conn := c }
  step s e := (s.call e, ())

end Machine

/-! ### An answer and the transceivers without a section -/

namespace RtpTransceiver

theorem negotiateDirection_inactive (d : SdpDirection) :
    negotiateDirection .inactive d = .inactive := by
  cases d <;> rfl

variable [NoCaseEq]

theorem fromRemoteAnswer_stopped (t : RtpTransceiver) (remote : SdpMedia) :
    (t.fromRemoteAnswer remote).stopped = t.stopped := by
  unfold fromRemoteAnswer
  simp only []
  split
  · rfl
  · split
    · rfl
    · split <;> rfl

/-- An answer does nothing to the transceiver, which has no mid: it is inactive and stopped
already, or the first section with an empty mid leaves it its direction. -/
def Spared (medias : List SdpMedia) (t : RtpTransceiver) : Prop :=
  (t.direction = .inactive ∧ t.stopped = true) ∨
    ∃ rm, medias.find? (fun rm => rm.mid = []) = some rm ∧ (t.remoteCodec rm).isSome = true ∧
      negotiateDirection t.direction rm.direction = t.direction ∧ t.direction ≠ .inactive

/-- **What an answer keeps** of a transceiver without a mid. -/
theorem afterAnswer_kept_iff {medias : List SdpMedia} {t : RtpTransceiver} (hmid : t.mid = []) :
    (Connection.afterAnswer medias t).direction = t.direction ∧
        (Connection.afterAnswer medias t).stopped = t.stopped ↔ t.Spared medias := by
  unfold Connection.afterAnswer Spared
  rw [hmid]
  cases hfind : medias.find? fun rm => rm.mid = [] with
  | none =>
    simp only [stop_direction, stop_stopped, reduceCtorEq, false_and, exists_false, or_false]
    exact and_congr eq_comm eq_comm
  | some rm =>
    obtain ⟨-, -, hdir⟩ := t.fromRemoteAnswer_cases rm
    simp only [Option.some.injEq, exists_eq_left']
    split
    · rename_i hinactive
      -- The section makes it inactive, so it is kept where it has been so before.
      rw [stop_direction, stop_stopped, hinactive]
      constructor
      · rintro ⟨hd, hs⟩
        exact Or.inl ⟨hd.symm, hs.symm⟩
      · rintro (⟨hd, hs⟩ | ⟨hcodec, hneg, hne⟩)
        · exact ⟨hd.symm, hs.symm⟩
        · rw [hdir, if_pos hcodec, hneg] at hinactive
          exact absurd hinactive hne
    · rename_i hactive
      rw [fromRemoteAnswer_stopped, hdir]
      rw [hdir] at hactive
      constructor
      · rintro ⟨hd, -⟩
        rw [hd] at hactive
        split at hd
        · rename_i hcodec
          exact Or.inr ⟨hcodec, hd, hactive⟩
        · exact absurd hd.symm hactive
      · rintro (⟨hd, -⟩ | ⟨hcodec, hneg, -⟩)
        · rw [hd, negotiateDirection_inactive] at hactive
          exact absurd (ite_self _) hactive
        · exact ⟨by rw [if_pos hcodec, hneg], rfl⟩

end RtpTransceiver

namespace Connection

variable [NoCaseEq] {c : Connection}

/-- The transceivers of `c` that have no mid have the same direction in `c'`, and are stopped only
where they were. -/
def SameUnassociated (c c' : Connection) : Prop :=
  ∀ (i : ℕ) (t : RtpTransceiver), c.transceivers[i]? = some t → t.mid = [] →
    ∃ t', c'.transceivers[i]? = some t' ∧ t'.direction = t.direction ∧ t'.stopped = t.stopped

/-- The transceivers behind an answer. -/
theorem setRemoteDescription_transceivers {desc : SessionDescription}
    (ht : desc.sdpType = "answer".toList) :
    (c.setRemoteDescription desc).state.transceivers =
      if c.signalingState = .haveLocalOffer then c.transceivers.map (afterAnswer desc.medias)
      else c.transceivers := by
  unfold setRemoteDescription
  cases hs : c.signalingState with
  | haveLocalOffer =>
    simp only [ht, ne_eq, not_true, if_false, if_true]
    exact (applyAnswer_transceivers desc.medias [] (c := c) rfl []).2
  | stable | closed =>
    have hoffer : desc.sdpType ≠ "offer".toList := by
      rw [ht]
      decide
    simp only [hoffer, ne_eq, not_false_iff, if_true, reduceCtorEq, if_false]
  | haveRemoteOffer | haveLocalPranswer | haveRemotePranswer => rfl

/-- **One answer.** -/
theorem sameUnassociated_answer_iff {desc : SessionDescription}
    (ht : desc.sdpType = "answer".toList) :
    SameUnassociated c (c.setRemoteDescription desc).state ↔
      (c.signalingState = .haveLocalOffer →
        ∀ t ∈ c.transceivers, t.mid = [] → t.Spared desc.medias) := by
  unfold SameUnassociated
  rw [setRemoteDescription_transceivers ht]
  split
  · rename_i hs
    constructor
    · intro h _ t hmem hmid
      obtain ⟨i, hi⟩ := List.mem_iff_getElem?.1 hmem
      obtain ⟨t', ht', hkept⟩ := h i t hi hmid
      rw [List.getElem?_map, hi, Option.map_some] at ht'
      rw [← Option.some.inj ht'] at hkept
      exact (RtpTransceiver.afterAnswer_kept_iff hmid).1 hkept
    · intro h i t hi hmid
      refine ⟨afterAnswer desc.medias t, by rw [List.getElem?_map, hi, Option.map_some], ?_⟩
      exact (RtpTransceiver.afterAnswer_kept_iff hmid).2 (h hs t (List.mem_of_getElem? hi) hmid)
  · rename_i hs
    exact iff_of_true (fun i t hi _ => ⟨t, hi, rfl, rfl⟩) fun h => absurd h hs

end Connection

namespace Session

variable [NoCaseEq]

/-- If the call is `set_remote_description` with an answer, it leaves the transceivers without a
mid alone. -/
def Keeps (s : Session) (e : ApplicationCall) : Prop :=
  ∀ desc b, e = .session (.signal (.setRemote desc b)) → desc.sdpType = "answer".toList →
    s.conn.SameUnassociated (s.call e).conn

/-- If the call is `set_remote_description` with an answer that is waited for, nothing comes of it
for the transceivers without a mid. -/
def Spares (s : Session) (e : ApplicationCall) : Prop :=
  ∀ desc b, e = .session (.signal (.setRemote desc b)) → desc.sdpType = "answer".toList →
    s.conn.signalingState = .haveLocalOffer →
      ∀ t ∈ s.conn.transceivers, t.mid = [] → t.Spared desc.medias

/-- **One call.** -/
theorem keeps_iff_spares (s : Session) (e : ApplicationCall) : s.Keeps e ↔ s.Spares e := by
  unfold Keeps Spares
  refine forall_congr' fun desc => forall_congr' fun b => forall_congr' fun he =>
    forall_congr' fun ht => ?_
  subst he
  change s.conn.SameUnassociated (s.setRemote desc b).1.conn ↔ _
  rw [setRemote_conn]
  exact Connection.sameUnassociated_answer_iff ht

end Session

/-- **When an answer leaves the transceivers without a section alone.**  The runs in which it
does at every call are those in which, whenever an answer comes, each transceiver without a mid is
inactive and stopped already or has its direction left to it by a section with an empty mid. -/
theorem run_spares_iff [NoCaseEq] (c : Connection) {h : List (Session × ApplicationCall)}
    {s : Session} :
    Run (applicationMachine c) (fun _ s e => s.Spares e) h s ↔
      Run (applicationMachine c) (fun _ _ _ => True) h s ∧ ∀ p ∈ h, p.1.Keeps p.2 := by
  rw [Run.guarded_iff]
  exact and_congr_right fun _ =>
    forall_congr' fun p => forall_congr' fun _ => (p.1.keeps_iff_spares p.2).symm

/-- An offer for the data channels, as far as the setters look at it. -/
def dataOffer : SessionDescription :=
  { sdpType := "offer".toList, medias := [{ mid := "0".toList, mediaType := .application }] }

/-- The answer to it. -/
def dataAnswer : SessionDescription := { dataOffer with sdpType := "answer".toList }

/-- The offer is stored, and then a transceiver for vp8 is added. -/
def addedInBetween : List ApplicationCall :=
  [.createDataChannel false, .session (.signal (.setLocal dataOffer false)),
    .addTransceiver { format := .vp8 } {} fun _ => 1]

/-- The answer comes when the transceiver has been added, and makes it inactive. -/
theorem answer_stops_added :
    ∃ h s, Run (@applicationMachine asciiNoCase {}) (fun _ _ _ => True) h s ∧
      ¬ ∀ p ∈ h, @Session.Keeps asciiNoCase p.1 p.2 := by
  let _ : NoCaseEq := asciiNoCase
  refine ⟨_, _, (applicationMachine {}).run_play
    (addedInBetween ++ [.session (.signal (.setRemote dataAnswer false))]) .init, fun hall => ?_⟩
  have hkeeps := hall _ (List.mem_cons_self ..) dataAnswer false rfl rfl
  have hadded : ((applicationMachine {}).exec (applicationMachine {}).init
      addedInBetween).conn.transceivers[0]? = some (Connection.newTransceiver
        { payloadType := 96, name := "vp8".toList, clockRate := 90000 } {} fun _ => 1) := rfl
  obtain ⟨t', ht', hdir, -⟩ := hkeeps 0 _ hadded rfl
  have hinactive : (((applicationMachine {}).exec (applicationMachine {}).init
      addedInBetween).call (.session (.signal (.setRemote dataAnswer false)))).conn.transceivers[0]?.map
        RtpTransceiver.direction = some .inactive := rfl
  have hkept := (congrArg (Option.map RtpTransceiver.direction) ht').symm.trans hinactive
  rw [Option.map_some, hdir] at hkept
  exact absurd hkept (by decide)

end AsioRtc
