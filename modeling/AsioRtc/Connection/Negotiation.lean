/-
# A first negotiation

`create_offer`, `set_local_description`, `set_remote_description`, `create_answer`,
`set_local_description` and `set_remote_description`, from one new peer to another
one and back.  Each side works out the direction and the codec of a section by
itself, with functions of its own; `negotiation_agrees` says that they come to the
same result.

The proof goes along the six calls.  What the first two make is a section for each
transceiver of the offering side (`Offered`).  The loop over the sections gives each
of them to at most one transceiver of the other side (`Taken`), which keeps what it
took and answers it.  The answer finds its way back by the mids, which are all
different.  What is left is one transceiver on each side (`pair_agrees`).
-/

import AsioRtc.Connection.FirstAnswer

namespace AsioRtc

open Lib Text

variable [NoCaseEq]

/-- One full negotiation of `a` with `b`, started by `a`: the offer, and both sides after it. -/
def negotiate (a b : Connection) : Option (SessionDescription × Connection × Connection) := do
  let (a, offer) ← a.createOffer.toOption
  let a ← (a.setLocalDescription offer).completed
  let b ← (b.setRemoteDescription offer).completed
  let answer ← b.createAnswer
  let b ← (b.setLocalDescription answer).completed
  let a ← (a.setRemoteDescription answer).completed
  pure (offer, a, b)

/-! ### Codecs -/

section Codecs

variable [LawfulNoCaseEq]

/-- **When two codecs match.** -/
theorem SdpRtpmap.isMatch_iff (a b : SdpRtpmap) :
    a.isMatch b = true ↔ a.name.map Char.toLower = b.name.map Char.toLower ∧
      a.clockRate = b.clockRate ∧ a.channels = b.channels ∧
      (a.name.map Char.toLower = "h264".toList →
        a.findParam "profile-level-id".toList = b.findParam "profile-level-id".toList) := by
  have h264 : nceq a.name "H264".toList = true ↔ a.name.map Char.toLower = "h264".toList :=
    LawfulNoCaseEq.nceq_iff _ _
  rw [← LawfulNoCaseEq.nceq_iff, ← h264, isMatch]
  generalize nceq a.name b.name = n, nceq a.name "H264".toList = h,
    a.findParam "profile-level-id".toList = p, b.findParam "profile-level-id".toList = q
  by_cases hr : a.clockRate = b.clockRate
  · by_cases hc : a.channels = b.channels
    · cases n <;> cases h <;> simp [hr, hc]
    · simp [hc]
  · simp [hr]

theorem SdpRtpmap.isMatch_refl (a : SdpRtpmap) : a.isMatch a = true :=
  (isMatch_iff a a).2 ⟨rfl, rfl, rfl, fun _ => rfl⟩

theorem SdpRtpmap.isMatch_symm {a b : SdpRtpmap} (h : a.isMatch b = true) :
    b.isMatch a = true := by
  obtain ⟨hn, hr, hc, hp⟩ := (isMatch_iff a b).1 h
  exact (isMatch_iff b a).2 ⟨hn.symm, hr.symm, hc.symm, fun h => (hp (hn.trans h)).symm⟩

omit [LawfulNoCaseEq] in
/-- The payload type does not count. -/
theorem SdpRtpmap.isMatch_payloadType (a b : SdpRtpmap) (pt : U8) :
    SdpRtpmap.isMatch { a with payloadType := pt } b = a.isMatch b := rfl

omit [NoCaseEq] [LawfulNoCaseEq] in
/-- The name of a codec that `add_transceiver` makes. -/
theorem SdpRtpmap.name_of_fromMediaDescription {desc : MediaDescription} {c : SdpRtpmap}
    (h : SdpRtpmap.fromMediaDescription desc = some c) :
    c.name ∈ ["opus".toList, "vp8".toList, "h264".toList, "vp9".toList] := by
  unfold fromMediaDescription at h
  cases hf : desc.format with
  | unknown => simp [hf] at h
  | opus => simp [← Option.some.inj (by simpa only [hf] using h)]
  | vp8 => simp [← Option.some.inj (by simpa only [hf] using h)]
  | h264 => simp [← Option.some.inj (by simpa only [hf] using h)]
  | vp9 => simp [← Option.some.inj (by simpa only [hf] using h)]

/-- No such codec carries retransmissions. -/
theorem SdpRtpmap.not_isMatch_rtx {desc : MediaDescription} {c : SdpRtpmap}
    (h : SdpRtpmap.fromMediaDescription desc = some c) (codec : SdpRtpmap) :
    (RtpTransceiver.rtxRtpmap codec).isMatch c = false := by
  rw [Bool.eq_false_iff]
  intro hm
  have hn := ((isMatch_iff _ _).1 hm).1
  rw [RtpTransceiver.rtxRtpmap_name] at hn
  have hc := name_of_fromMediaDescription h
  simp only [List.mem_cons, List.not_mem_nil, or_false] at hc
  rcases hc with hc | hc | hc | hc <;> rw [hc] at hn <;> exact absurd hn (by decide)

end Codecs

/-! ### One section -/

/-- **One transceiver on each side.**  `t` offers `m`, `u` takes it and answers with `ans`. -/
theorem pair_agrees [LawfulNoCaseEq] {t u : RtpTransceiver} (hu : u.IsNew)
    {m : SdpMedia} (hdir : m.direction = t.direction) {rest : List SdpRtpmap}
    (hmaps : m.rtpmaps = t.codec :: rest)
    (hrest : ∀ c ∈ rest, c = RtpTransceiver.rtxRtpmap t.codec)
    {t' u' : RtpTransceiver} (ht' : t'.direction = t.direction ∧ t'.codec = t.codec)
    (hu' : u' = ({ u with mid := m.mid } : RtpTransceiver).fromRemoteOffer m)
    {ans : SdpMedia} (hans : ans.direction = (u'.toAnswerSdpMedia m).direction)
    (hansm : ans.rtpmaps = (u'.toAnswerSdpMedia m).rtpmaps) :
    (t'.fromRemoteAnswer ans).direction = u'.direction.reverse ∧
      (u'.direction ≠ .inactive →
        (t'.fromRemoteAnswer ans).codec.payloadType = u'.codec.payloadType ∧
          (t'.fromRemoteAnswer ans).codec.isMatch u'.codec = true) := by
  obtain ⟨-, hstop, hoffer⟩ :=
    RtpTransceiver.fromRemoteOffer_cases ({ u with mid := m.mid } : RtpTransceiver) m
  obtain ⟨-, hadir, hamaps⟩ := u'.toAnswerSdpMedia_cases m
  obtain ⟨-, hcodec, hanswer⟩ := t'.fromRemoteAnswer_cases ans
  rw [← hu'] at hstop hoffer
  have hadir : ans.direction = negotiateDirection u'.direction t.direction := by
    rw [hans, hadir, hstop, hdir, if_neg (by simp [hu.stopped])]
  rcases hoffer with hin | ⟨c, hc, hd, hcu⟩
  · -- An inactive answer makes both sides inactive.
    have hain : ans.direction = .inactive := by
      rw [hadir, hin]
      cases t.direction <;> rfl
    refine ⟨?_, fun h => absurd hin h⟩
    rw [hanswer, hain, hin]
    cases (t'.remoteCodec ans).isSome <;> cases t'.direction <;> rfl
  · -- The codec that was found is the one `t` offered.
    have hct : c = t.codec ∧ c.isMatch u.codec = true := by
      rw [RtpTransceiver.remoteCodec, hmaps] at hc
      have hmatch := List.find?_some hc
      rcases List.mem_cons.1 (List.mem_of_find?_eq_some hc) with h | h
      · exact ⟨h, hmatch⟩
      · obtain ⟨desc, hdesc⟩ := hu.codec
        rw [hrest c h, SdpRtpmap.not_isMatch_rtx hdesc] at hmatch
        exact absurd hmatch Bool.false_ne_true
    obtain ⟨rfl, hmatch⟩ := hct
    have hback : u'.matchOfferRtpmaps m = [t.codec] := by
      have hsymm : SdpRtpmap.isMatch u'.codec t.codec = true := by
        rw [hcu, SdpRtpmap.isMatch_payloadType]
        exact SdpRtpmap.isMatch_symm hmatch
      rw [RtpTransceiver.matchOfferRtpmaps, hmaps, List.find?_cons_of_pos hsymm]
      rfl
    have hfound : t'.remoteCodec ans = some t.codec := by
      rw [RtpTransceiver.remoteCodec, hansm, hamaps t.codec (by simp [hback]), ht'.2]
      exact List.find?_cons_of_pos (SdpRtpmap.isMatch_refl _)
    refine ⟨?_, fun _ => ⟨?_, ?_⟩⟩
    · rw [hanswer, hfound, if_pos (by rfl), hadir, hd, ht'.1, hdir, SdpDirection.ext_iff]
      simp only [sends_negotiateDirection, receives_negotiateDirection,
        SdpDirection.sends_reverse, SdpDirection.receives_reverse]
      cases t.direction <;> cases u.direction <;> decide
    · rw [hcodec, ht'.2, hcu]
    · rw [hcodec, ht'.2, hcu]
      exact hmatch

/-! ### A whole negotiation -/

/-- What the two sides have come to on the section `m`. -/
def SectionAgrees (m : SdpMedia) (a b : Connection) : Prop :=
  ∀ tA ∈ a.transceivers, tA.mid = m.mid →
    (∀ tB ∈ b.transceivers, tB.mid = m.mid → tA.direction = tB.direction.reverse ∧
      (tA.direction ≠ .inactive → tA.codec.payloadType = tB.codec.payloadType ∧
        tA.codec.isMatch tB.codec = true)) ∧
    ((∀ tB ∈ b.transceivers, tB.mid ≠ m.mid) → tA.direction = .inactive ∧ tA.stopped = true)

namespace Connection

variable {a b a₂ b' : Connection} {offer answer : SessionDescription}

theorem afterAnswer_mid (medias : List SdpMedia) (t : RtpTransceiver) :
    (afterAnswer medias t).mid = t.mid := by
  unfold afterAnswer
  cases medias.find? fun rm => rm.mid = t.mid with
  | none => exact RtpTransceiver.stop_mid _
  | some rm =>
    simp only []
    split <;> simp [(t.fromRemoteAnswer_cases rm).1]

/-- Where the section of `t` is answered with `ans`. -/
theorem afterAnswer_cases {medias : List SdpMedia} {t : RtpTransceiver} {ans : SdpMedia}
    (h : medias.find? (fun rm => rm.mid = t.mid) = some ans) :
    (afterAnswer medias t).direction = (t.fromRemoteAnswer ans).direction ∧
      (afterAnswer medias t).codec = (t.fromRemoteAnswer ans).codec ∧
      ((t.fromRemoteAnswer ans).direction = .inactive → (afterAnswer medias t).stopped = true) := by
  rw [afterAnswer, h]
  simp only []
  split
  · exact ⟨RtpTransceiver.stop_direction _, RtpTransceiver.stop_codec _,
      fun _ => RtpTransceiver.stop_stopped _⟩
  · rename_i hne
    exact ⟨rfl, rfl, fun hin => absurd hin hne⟩

/-- The answer to a section that a transceiver has taken. -/
theorem answerSection_taken (h : Taken b offer.medias b') {m : SdpMedia}
    (hne : m.mid ≠ []) (happ : m.mediaType ≠ .application) {u : RtpTransceiver}
    (hu : u ∈ b'.transceivers) (hmid : u.mid = m.mid) :
    (b'.answerSection m).direction = (u.toAnswerSdpMedia m).direction ∧
      (b'.answerSection m).rtpmaps = (u.toAnswerSdpMedia m).rtpmaps := by
  have hfind : b'.transceivers.find? (fun t => t.mid = m.mid) = some u := by
    obtain ⟨v, hv⟩ := Option.isSome_iff_exists.1
      (List.find?_isSome (p := fun t => decide (RtpTransceiver.mid t = m.mid)).2 ⟨u, hu, by simpa using hmid⟩)
    have hvm : v.mid = m.mid := by simpa using List.find?_some hv
    obtain ⟨i, hi⟩ := List.mem_iff_getElem?.1 (List.mem_of_find?_eq_some hv)
    obtain ⟨j, hj⟩ := List.mem_iff_getElem?.1 hu
    obtain rfl := h.unique hi hj (hvm ▸ hne) (hvm.trans hmid.symm)
    rw [hv, ← hi, hj]
  rw [answerSection, if_neg happ, hfind]
  exact ⟨rfl, rfl⟩

/-- The answer to a section that no transceiver has taken. -/
theorem answerSection_free {m : SdpMedia} (happ : m.mediaType ≠ .application)
    (h : ∀ u ∈ b'.transceivers, u.mid ≠ m.mid) : (b'.answerSection m).direction = .inactive := by
  have hfind : b'.transceivers.find? (fun t => t.mid = m.mid) = none :=
    List.find?_eq_none.2 fun u hu => by simpa using h u hu
  rw [answerSection, if_neg happ, hfind]

/-- **Where the two sides are after the answer.** -/
theorem Offered.agrees [LawfulNoCaseEq] (hb : b.IsNew) (ho : Offered a a₂ offer)
    (h : Answered b b' offer answer) {a' : Connection}
    (ha' : a'.transceivers = a₂.transceivers.map (afterAnswer answer.medias)) {m : SdpMedia}
    (hm : m ∈ offer.medias) : SectionAgrees m a' b' := by
  intro tA htA hmid
  rw [ha'] at htA
  obtain ⟨t', ht', rfl⟩ := List.mem_map.1 htA
  rw [afterAnswer_mid] at hmid
  obtain ⟨t, -, m', hm', hfrom⟩ := ho.transceivers t' ht'
  obtain rfl : m = m' := List.inj_on_of_nodup_map ho.mids_nodup hm hm' (hmid.symm.trans hfrom.mid)
  have happ : m.mediaType ≠ .application := by
    rw [hfrom.mediaType]
    cases t.kind <;> exact SdpMediaType.noConfusion
  have hans := find?_answer ho.mids_nodup hm b'
  rw [← h.medias, ← hmid] at hans
  obtain ⟨hdir, hcodec, hstop⟩ := afterAnswer_cases hans
  refine ⟨fun tB htB hmidB => ?_, fun hfree => ?_⟩
  · obtain ⟨k, hk⟩ := List.mem_iff_getElem?.1 htB
    obtain ⟨u, hu, rfl | ⟨m', hm', -, -, rfl⟩⟩ := h.taken.get hk
    · have hnew := hb.transceivers tB (List.mem_of_getElem? hu)
      exact absurd (hmidB.symm.trans hnew.mid) (ho.mids_ne m hm)
    · have hmid' : m'.mid = m.mid := (RtpTransceiver.fromRemoteOffer_cases _ m').1.symm.trans hmidB
      obtain rfl := List.inj_on_of_nodup_map ho.mids_nodup hm' hm hmid'
      obtain ⟨hansd, hansm⟩ :=
        answerSection_taken h.taken (ho.mids_ne m' hm) happ htB hmidB
      obtain ⟨rest, hmaps, hrest⟩ := hfrom.rtpmaps
      obtain ⟨hd, hc⟩ := pair_agrees (hb.transceivers u (List.mem_of_getElem? hu)) hfrom.mDirection
        hmaps hrest ⟨hfrom.direction, hfrom.codec⟩ rfl hansd hansm
      rw [hdir, hcodec]
      refine ⟨hd, fun hne => hc fun hin => hne ?_⟩
      rw [hd, hin]
      rfl
  · have hin : (t'.fromRemoteAnswer (b'.answerSection m)).direction = .inactive := by
      rw [(t'.fromRemoteAnswer_cases _).2.2, answerSection_free happ hfree]
      cases (t'.remoteCodec (b'.answerSection m)).isSome <;> cases t'.direction <;> rfl
    exact ⟨hdir.trans hin, hstop hin⟩

/-- The calls after the first two, in one piece. -/
theorem Offered.completes [LawfulNoCaseEq] (hb : b.IsNew) (ho : Offered a a₂ offer)
    (hne : a.transceivers ≠ []) : ∃ b₁ answer b₂ a₃,
      (b.setRemoteDescription offer).completed = some b₁ ∧ b₁.createAnswer = some answer ∧
      (b₁.setLocalDescription answer).completed = some b₂ ∧
      (a₂.setRemoteDescription answer).completed = some a₃ ∧
      ∀ m ∈ offer.medias,
        (m.mediaType = .application ∨ ∃ tA ∈ a₃.transceivers, tA.mid = m.mid) ∧
          SectionAgrees m a₃ b₂ := by
  obtain ⟨b₁, answer, b₂, hremote, hanswer, hlocal, h⟩ := answered hb ho (ho.bundle hne)
  obtain ⟨a₃, hend, hts⟩ := setRemoteDescription_answer ho.signalingState h
  refine ⟨b₁, answer, b₂, a₃, hremote, hanswer, hlocal, hend, fun m hm => ⟨?_, ho.agrees hb h hts hm⟩⟩
  refine (ho.sections m hm).imp_right fun ⟨t, ht, hmid⟩ => ?_
  exact ⟨afterAnswer answer.medias t, hts ▸ List.mem_map_of_mem ht, (afterAnswer_mid _ t).trans hmid⟩

/-- **A first negotiation agrees.**  It comes to an end where there are mids for all sections.
Where it has, the two sides agree on each section of the offer, and each that is not the one of
the data channels is the section of a transceiver. -/
theorem negotiation_agrees [LawfulNoCaseEq] (a b : Connection) (ha : a.IsNew) (hb : b.IsNew)
    (hne : a.transceivers ≠ []) :
    (a.sctpCount + a.transceivers.length ≤ 2 ^ 16 → (negotiate a b).isSome = true) ∧
      ∀ offer a' b', negotiate a b = some (offer, a', b') → ∀ m ∈ offer.medias,
        (m.mediaType = .application ∨ ∃ tA ∈ a'.transceivers, tA.mid = m.mid) ∧
          SectionAgrees m a' b' := by
  constructor
  · intro hlen
    obtain ⟨a₁, offer, a₂, hoffer, hlocal⟩ := offer_completes ha hlen
    obtain ⟨b₁, answer, b₂, a₃, h₁, h₂, h₃, h₄, -⟩ :=
      (offered ha hoffer hlocal).completes hb hne
    simp only [negotiate, hoffer, Except.toOption, Option.bind_eq_bind, Option.bind_some, hlocal,
      h₁, h₂, h₃, h₄]
    rfl
  · intro offer a' b' h
    obtain ⟨⟨a₁, offer'⟩, hoffer, h⟩ := Option.bind_eq_some_iff.1 h
    obtain ⟨a₂, hlocal, h⟩ := Option.bind_eq_some_iff.1 h
    have hoffer : a.createOffer = .ok (a₁, offer') := by
      cases hc : a.createOffer with
      | error e => simp [hc, Except.toOption] at hoffer
      | ok r => simpa [hc, Except.toOption] using hoffer
    obtain ⟨b₁, answer, b₂, a₃, h₁, h₂, h₃, h₄, hagrees⟩ :=
      (offered ha hoffer hlocal).completes hb hne
    simp only [h₁, h₂, h₃, h₄, Option.bind_eq_bind, Option.bind_some] at h
    obtain ⟨rfl, rfl, rfl⟩ := by simpa using h
    exact hagrees

/-- A new peer with one transceiver for audio. -/
def opusPeer (d : SdpDirection) : Connection :=
  { transceivers := [{
      direction := d
      codec :=
        { name := "opus".toList, payloadType := 111, clockRate := 48000, channels := some 2 } }] }

omit [NoCaseEq] in
theorem opusPeer_isNew (d : SdpDirection) : (opusPeer d).IsNew := by
  refine ⟨rfl, rfl, rfl, fun t ht => ?_⟩
  rw [List.mem_singleton.1 ht]
  exact ⟨rfl, rfl, rfl, { format := .opus, clockRate := 48000, channels := some 2 }, rfl⟩

omit [NoCaseEq] in
theorem negotiation_agrees_opus : ∃ offer a' b',
    @negotiate asciiNoCase (opusPeer .sendrecv) (opusPeer .recvonly) = some (offer, a', b') ∧
      ∀ m ∈ offer.medias, @SectionAgrees asciiNoCase m a' b' := by
  obtain ⟨hsome, hagrees⟩ := @negotiation_agrees asciiNoCase asciiNoCase_lawful
    (opusPeer .sendrecv) (opusPeer .recvonly) (opusPeer_isNew _) (opusPeer_isNew _)
    (List.cons_ne_nil _ _)
  obtain ⟨⟨offer, a', b'⟩, h⟩ := Option.isSome_iff_exists.1 (hsome (by decide))
  exact ⟨offer, a', b', h, fun m hm => (hagrees offer a' b' h m hm).2⟩

end Connection
end AsioRtc
