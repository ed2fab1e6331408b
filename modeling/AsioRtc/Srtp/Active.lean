/-
# The SSRCs in use

What `datagram_received` and `remove_incoming_ssrc` do to `_active_ssrcs`, over any
sequence of calls.  A datagram adds at most the SSRC it carries, and only where it is
unprotected as SRTP while fewer than `maxActiveSsrcs` are in use
(`datagramReceived_cases`).  The source inserts the SSRC before it unprotects the packet and
takes it back by a scope guard; the guard also runs where the packet callback raises, which
is the flag of a `SrtpCall.datagramReceived`.

`active_ssrcs_run` puts this together over runs: the set never holds more than
`maxActiveSsrcs`, each SSRC in it came with a packet that was unprotected, and a datagram
that fails authentication leaves the set as it was.  `unprotect_rtp` returning an empty span
is `none` here.
-/

import AsioRtc.Lib.Machine
import AsioRtc.Srtp.Transport

namespace AsioRtc

open Lib

namespace SrtpTransport

variable {σ : Type}

/-- `srtp_transport_base::remove_incoming_ssrc`; `streamRemove` is `srtp_stream_remove`. -/
def removeIncomingSsrc (streamRemove : σ → U32 → σ) (t : SrtpTransport σ) (ssrc : U32) :
    SrtpTransport σ :=
  { t with
    activeSsrcs := t.activeSsrcs.erase ssrc
    recvSession := t.recvSession.map fun session => streamRemove session ssrc }

/-- `on_exit` of a call that was left by an exception of the packet callback: an SSRC that was
not in use before the call is erased. -/
def onExit (before : SrtpTransport σ) (ssrc : U32) (after : SrtpTransport σ) : SrtpTransport σ :=
  if ssrc ∈ before.activeSsrcs then after
  else { after with activeSsrcs := after.activeSsrcs.erase ssrc }

/-- The transport after `datagram_received`; `raises` says that the packet callback, where it is
called, ends in an exception. -/
def afterDatagram (lib : LibSrtp σ) (t : SrtpTransport σ) (buffer : Bytes) (raises : Bool) :
    Checked (SrtpTransport σ) := do
  let r ← t.datagramReceived lib buffer
  if raises && r.events.any (fun e => e matches .packet _) && 12 ≤ buffer.length then do
    let ssrc ← RtpPacket.getSsrc buffer
    pure (t.onExit ssrc r.transport)
  else pure r.transport

/-- libsrtp takes the datagram for authentic, as SRTCP or as SRTP. -/
def Authenticates (lib : LibSrtp σ) (t : SrtpTransport σ) (buffer : Bytes) : Prop :=
  ∃ session, t.recvSession = some session ∧
    if isRtcpPacket buffer = .ok true then
      (lib.unprotectRtcp session buffer buffer.length).2.isSome
    else (lib.unprotectRtp session buffer buffer.length).2.isSome

/-- The datagram is a packet of stream `ssrc` that `unprotect_rtp` accepts. -/
def AcceptsRtp (lib : LibSrtp σ) (t : SrtpTransport σ) (ssrc : U32) (buffer : Bytes) : Prop :=
  RtpPacket.getSsrc buffer = .ok ssrc ∧ ∃ session, t.recvSession = some session ∧
    (lib.unprotectRtp session buffer buffer.length).2.isSome

variable {lib : LibSrtp σ} {t t' : SrtpTransport σ} {buffer : Bytes} {ssrc : U32}

theorem isRtcpPacket_safe (buffer : Bytes) : (isRtcpPacket buffer).Safe := by
  unfold isRtcpPacket
  refine Checked.Safe.ite (fun _ => Checked.safe_pure) fun hlen => ?_
  exact (safe_byteAt.2 (by omega)).bind fun _ _ => Checked.safe_pure

/-- No access of `datagram_received` is outside the datagram. -/
theorem datagramReceived_safe (lib : LibSrtp σ) (t : SrtpTransport σ) (buffer : Bytes) :
    (t.datagramReceived lib buffer).Safe := by
  unfold datagramReceived
  refine Checked.Safe.ite (fun _ => Checked.safe_pure) fun hlen => ?_
  refine (safe_byteAt.2 (by omega)).bind fun firstByte _ => ?_
  refine Checked.Safe.ite (fun _ => Checked.safe_pure) fun _ => ?_
  cases t.recvSession with
  | none => exact Checked.safe_pure
  | some session =>
    refine (isRtcpPacket_safe buffer).bind fun rtcp _ => ?_
    refine Checked.Safe.ite (fun _ => Checked.safe_pure) fun _ => ?_
    refine Checked.Safe.ite (fun _ => Checked.safe_pure) fun hshort => ?_
    refine Checked.Safe.ite (fun _ => Checked.safe_pure) fun _ => ?_
    exact (readBig32_safe (by omega)).bind fun _ _ => Checked.safe_pure

/-- **What the SRTP path does to the set.**  It is as before, or holds the SSRC of an accepted
packet more, for which there was room. -/
theorem rtpReceived_active (lib : LibSrtp σ) (t : SrtpTransport σ) (session : σ) (ssrc : U32)
    (buffer : Bytes) :
    (t.rtpReceived lib session ssrc buffer).transport.activeSsrcs = t.activeSsrcs ∨
      (ssrc ∉ t.activeSsrcs ∧ t.activeSsrcs.card < maxActiveSsrcs ∧
        (lib.unprotectRtp session buffer buffer.length).2.isSome ∧
        (t.rtpReceived lib session ssrc buffer).transport.activeSsrcs =
          insert ssrc t.activeSsrcs) := by
  simp only [rtpReceived]
  by_cases hin : ssrc ∈ t.activeSsrcs
  · left
    simp only [hin, decide_true, Bool.not_true, Bool.false_and, Bool.false_eq_true, if_false]
    split
    · rfl
    · exact Finset.insert_eq_self.2 hin
  · simp only [hin, decide_false, Bool.not_false, Bool.true_and]
    split
    · exact Or.inl rfl
    · rename_i hroom
      split
      · exact Or.inl rfl
      · split
        · exact Or.inl rfl
        · rename_i s result hout
          refine Or.inr ⟨not_false, ?_, ?_, rfl⟩
          · simpa using hroom
          · rw [hout]
            rfl

/-- **What a datagram does to the set.** -/
theorem datagramReceived_active {r : Received σ} (h : t.datagramReceived lib buffer = .ok r) :
    r.transport.activeSsrcs = t.activeSsrcs ∨
      ∃ ssrc, ssrc ∉ t.activeSsrcs ∧ t.activeSsrcs.card < maxActiveSsrcs ∧
        t.AcceptsRtp lib ssrc buffer ∧ t.Authenticates lib buffer ∧
        r.transport.activeSsrcs = insert ssrc t.activeSsrcs := by
  unfold datagramReceived at h
  split at h
  · cases h
    exact Or.inl rfl
  · obtain ⟨firstByte, -, h⟩ := Checked.bind_eq_ok.1 h
    split at h
    · cases h
      exact Or.inl rfl
    · split at h
      · cases h
        exact Or.inl rfl
      · rename_i session hsession
        obtain ⟨rtcp, hrtcp, h⟩ := Checked.bind_eq_ok.1 h
        split at h
        · cases h
          left
          unfold rtcpReceived
          split <;> rfl
        · rename_i hnot
          split at h
          · cases h
            exact Or.inl rfl
          · split at h
            · cases h
              exact Or.inl rfl
            · obtain ⟨ssrc, hssrc, h⟩ := Checked.bind_eq_ok.1 h
              cases h
              rcases rtpReceived_active lib t session ssrc buffer with
                hsame | ⟨hnew, hroom, hsome, hset⟩
              · exact Or.inl hsame
              · refine Or.inr ⟨ssrc, hnew, hroom, ⟨hssrc, session, hsession, hsome⟩,
                  ⟨session, hsession, ?_⟩, hset⟩
                rw [if_neg]
                · exact hsome
                · rw [hrtcp]
                  exact fun heq => hnot (Except.ok.inj heq)

/-- A call that is left by an exception does not add to the set. -/
theorem afterDatagram_active {raises : Bool} (h : t.afterDatagram lib buffer raises = .ok t') :
    t'.activeSsrcs = t.activeSsrcs ∨
      ∃ ssrc, ssrc ∉ t.activeSsrcs ∧ t.activeSsrcs.card < maxActiveSsrcs ∧
        t.AcceptsRtp lib ssrc buffer ∧ t.Authenticates lib buffer ∧
        t'.activeSsrcs = insert ssrc t.activeSsrcs := by
  unfold afterDatagram at h
  obtain ⟨r, hr, h⟩ := Checked.bind_eq_ok.1 h
  have hcases := datagramReceived_active hr
  split at h
  · obtain ⟨ssrc, hssrc, h⟩ := Checked.bind_eq_ok.1 h
    cases h
    left
    rcases hcases with hsame | ⟨ssrc', hnew, -, ⟨hssrc', -⟩, -, hset⟩
    · unfold onExit
      split
      · exact hsame
      · rename_i hout
        rw [hsame]
        exact Finset.erase_eq_of_notMem hout
    · obtain rfl := Except.ok.inj (hssrc.symm.trans hssrc')
      rw [onExit, if_neg hnew, hset]
      exact Finset.erase_insert hnew
  · cases h
    exact hcases

theorem afterDatagram_safe (lib : LibSrtp σ) (t : SrtpTransport σ) (buffer : Bytes)
    (raises : Bool) : (t.afterDatagram lib buffer raises).Safe := by
  unfold afterDatagram
  refine (datagramReceived_safe lib t buffer).bind fun r _ => ?_
  refine Checked.Safe.ite (fun hraise => ?_) fun _ => Checked.safe_pure
  have hlen : 12 ≤ buffer.length := by
    simp only [Bool.and_eq_true, decide_eq_true_eq] at hraise
    exact hraise.2
  exact (readBig32_safe (by omega)).bind fun _ _ => Checked.safe_pure

end SrtpTransport

/-! ### Runs -/

/-- The calls made on a transport.  The callback for new SSRCs may be exchanged between any two
datagrams, so that its decisions may depend on anything. -/
inductive SrtpCall (σ : Type) where
  | setup (session : σ)
  | onNewSsrc (cb : Option (U32 → Bytes → Bool))
  | onRtpRtcpPacket (set : Bool)
  | datagramReceived (buffer : Bytes) (raises : Bool)
  | removeIncomingSsrc (ssrc : U32)

section Runs

variable {σ : Type} (lib : LibSrtp σ) (streamRemove : σ → U32 → σ)

/-- The transport after a call. -/
def SrtpTransport.call (t : SrtpTransport σ) : SrtpCall σ → SrtpTransport σ
  | .setup session => { t with recvSession := some session }
  | .onNewSsrc cb => { t with onNewSsrc := cb }
  | .onRtpRtcpPacket set => { t with onRtpRtcpPacket := set }
  | .datagramReceived buffer raises =>
      match t.afterDatagram lib buffer raises with
      | .ok t' => t'
      | .error _ => t
  | .removeIncomingSsrc ssrc => t.removeIncomingSsrc streamRemove ssrc

/-- The transport over time. -/
def srtpMachine : Machine (SrtpTransport σ) (SrtpCall σ) Unit where
  init := {}
  step t c := (t.call lib streamRemove c, ())

/-- The SSRC came into the set with a datagram of the history that carried it and was
unprotected, and has been in it since. -/
def AcceptedSince (h : List (SrtpTransport σ × SrtpCall σ)) (ssrc : U32) : Prop :=
  ∃ newer older t buffer raises, h = newer ++ (t, .datagramReceived buffer raises) :: older ∧
    ssrc ∉ t.activeSsrcs ∧ t.AcceptsRtp lib ssrc buffer ∧ ∀ p ∈ newer, ssrc ∈ p.1.activeSsrcs

variable {lib streamRemove} {h : List (SrtpTransport σ × SrtpCall σ)} {t : SrtpTransport σ}

/-- A call that receives a datagram ends. -/
theorem SrtpTransport.afterDatagram_call (lib : LibSrtp σ) (t : SrtpTransport σ) (buffer : Bytes)
    (raises : Bool) : t.afterDatagram lib buffer raises =
      .ok (t.call lib streamRemove (.datagramReceived buffer raises)) := by
  obtain ⟨t', ht'⟩ := afterDatagram_safe lib t buffer raises
  rw [call, ht']

/-- What a call does to the set: nothing, an SSRC less, or one of an accepted packet more. -/
theorem SrtpTransport.call_active (lib : LibSrtp σ) (streamRemove : σ → U32 → σ)
    (t : SrtpTransport σ) (c : SrtpCall σ) :
    (t.call lib streamRemove c).activeSsrcs ⊆ t.activeSsrcs ∨
      ∃ buffer raises ssrc, c = .datagramReceived buffer raises ∧ ssrc ∉ t.activeSsrcs ∧
        t.activeSsrcs.card < maxActiveSsrcs ∧ t.AcceptsRtp lib ssrc buffer ∧
        (t.call lib streamRemove c).activeSsrcs = insert ssrc t.activeSsrcs := by
  cases c with
  | setup session => exact Or.inl subset_rfl
  | onNewSsrc cb => exact Or.inl subset_rfl
  | onRtpRtcpPacket set => exact Or.inl subset_rfl
  | removeIncomingSsrc ssrc => exact Or.inl (Finset.erase_subset ..)
  | datagramReceived buffer raises =>
    rcases afterDatagram_active (afterDatagram_call lib t buffer raises) with hsame | ⟨ssrc, hnew, hroom, haccept, -, hset⟩
    · exact Or.inl hsame.subset
    · exact Or.inr ⟨buffer, raises, ssrc, rfl, hnew, hroom, haccept, hset⟩

/-- A datagram that fails authentication does nothing to the set. -/
theorem SrtpTransport.call_datagram_active {buffer : Bytes} {raises : Bool}
    (hfail : ¬ t.Authenticates lib buffer) :
    (t.call lib streamRemove (.datagramReceived buffer raises)).activeSsrcs = t.activeSsrcs := by
  rcases afterDatagram_active (afterDatagram_call lib t buffer raises) with hsame | ⟨_, _, _, _, hauth, _⟩
  · exact hsame
  · exact absurd hauth hfail

/-- The invariant of a run: the bound, and where each SSRC comes from. -/
theorem srtpMachine_invariant (hr : Run (srtpMachine lib streamRemove) (fun _ _ _ => True) h t) :
    t.activeSsrcs.card ≤ maxActiveSsrcs ∧ ∀ ssrc ∈ t.activeSsrcs, AcceptedSince lib h ssrc := by
  refine hr.invariant (P := fun h t => t.activeSsrcs.card ≤ maxActiveSsrcs ∧
    ∀ ssrc ∈ t.activeSsrcs, AcceptedSince lib h ssrc)
    ⟨Nat.zero_le _, fun _ hin => absurd hin (Finset.notMem_empty _)⟩ ?_
  rintro h t c - ⟨hcard, hsince⟩ -
  -- An SSRC that stays was in the set before this call too.
  have hold : ∀ ssrc ∈ t.activeSsrcs, AcceptedSince lib ((t, c) :: h) ssrc := by
    intro ssrc hin
    obtain ⟨newer, older, t₀, buffer, raises, rfl, hnew, haccept, hstay⟩ := hsince ssrc hin
    refine ⟨(t, c) :: newer, older, t₀, buffer, raises, rfl, hnew, haccept, fun p hp => ?_⟩
    rcases List.mem_cons.1 hp with rfl | hp
    · exact hin
    · exact hstay p hp
  show (t.call lib streamRemove c).activeSsrcs.card ≤ _ ∧
    ∀ ssrc ∈ (t.call lib streamRemove c).activeSsrcs, _
  rcases SrtpTransport.call_active lib streamRemove t c with
    hsub | ⟨buffer, raises, ssrc, rfl, hnew, hroom, haccept, hset⟩
  · exact ⟨(Finset.card_le_card hsub).trans hcard, fun ssrc hin => hold ssrc (hsub hin)⟩
  · rw [hset]
    refine ⟨by rw [Finset.card_insert_of_notMem hnew]; omega, fun ssrc' hin => ?_⟩
    rcases Finset.mem_insert.1 hin with rfl | hin
    · exact ⟨[], h, t, buffer, raises, rfl, hnew, haccept, fun p hp => absurd hp List.not_mem_nil⟩
    · exact hold ssrc' hin

/-- **The SSRCs in use, after every call.**  There are never more than 32; each came with a
packet that `unprotect_rtp` accepted, and has been there since; a datagram that fails
authentication leaves them as they are. -/
theorem active_ssrcs_run (hr : Run (srtpMachine lib streamRemove) (fun _ _ _ => True) h t) :
    t.activeSsrcs.card ≤ maxActiveSsrcs ∧ (∀ ssrc ∈ t.activeSsrcs, AcceptedSince lib h ssrc) ∧
      ∀ buffer raises, ¬ t.Authenticates lib buffer →
        (t.call lib streamRemove (.datagramReceived buffer raises)).activeSsrcs =
          t.activeSsrcs := by
  obtain ⟨hcard, hsince⟩ := srtpMachine_invariant hr
  exact ⟨hcard, hsince, fun _ _ hfail => SrtpTransport.call_datagram_active hfail⟩

end Runs

/-- A session whose authentic packets end in `0xAA`, which is their tag. -/
def tagSrtp : LibSrtp Unit where
  protectRtp _ d _ := ((), some (d ++ [0xAA]))
  unprotectRtp _ d _ := ((), if d.getLast? = some 0xAA then some d.dropLast else none)
  protectRtcp _ d _ := ((), some (d ++ [0xAA]))
  unprotectRtcp _ d _ := ((), if d.getLast? = some 0xAA then some d.dropLast else none)

/-- Two packets of streams 7 and 9; the second is forged. -/
def twoStreams : List (SrtpCall Unit) :=
  [.setup (), .onNewSsrc (some fun _ _ => true),
    .datagramReceived [0x80, 96, 0, 1, 0, 0, 0, 0, 0, 0, 0, 7, 0xAA] false,
    .datagramReceived [0x80, 96, 0, 1, 0, 0, 0, 0, 0, 0, 0, 9, 0x55] false]

/-- Stream 7 is in use after its packet, and stream 9 is not. -/
theorem active_ssrcs_run_twoStreams :
    let M := srtpMachine tagSrtp fun s _ => s
    (M.exec M.init twoStreams).activeSsrcs = {7} ∧
      AcceptedSince tagSrtp (M.trace [] M.init twoStreams) 7 := by
  intro M
  have hset : (M.exec M.init twoStreams).activeSsrcs = {7} := by decide
  have hrun := active_ssrcs_run (M.run_play twoStreams .init)
  exact ⟨hset, hrun.2.1 7 (by rw [hset]; decide)⟩

end AsioRtc
