/-
# The first answer of a connection

What `set_remote_description`, `create_answer` and `set_local_description` do on a
connection that gets its first offer, and what `set_remote_description` does with
the answer on the other side.

The loop over the sections of an offer gives a section to at most one transceiver
that has none yet (`Taken`, kept by `Taken.associate` for one section and
`applyOffer_taken` for all).  Each section is answered in its place with its mid
(`answerSection_mid`).  The loop over the transceivers of the offering side does to
each of them what its own section says (`applyAnswer_transceivers`).
-/

import AsioRtc.Connection.FirstOffer

namespace AsioRtc

open Lib Text

namespace Connection

variable [NoCaseEq] {b c : Connection} {done : List SdpMedia}

/-! ### The sections of an offer -/

omit [NoCaseEq] in
@[simp] theorem createSsrcContext_transceivers (i : ℕ) (c : Connection) (ssrc : U32) :
    (createSsrcContext i c ssrc).transceivers = c.transceivers := by
  unfold createSsrcContext
  split <;> rfl

@[simp] theorem buildSsrcMap_transceivers (c : Connection) (i : ℕ) (rm : SdpMedia) :
    (c.buildSsrcMap i rm).transceivers = c.transceivers := by
  have hfold : ∀ (l : List U32) (c : Connection),
      (l.foldl (createSsrcContext i) c).transceivers = c.transceivers := by
    intro l
    induction l with
    | nil => exact fun _ => rfl
    | cons s l ih => exact fun c => (ih _).trans (createSsrcContext_transceivers i c s)
  unfold buildSsrcMap
  split
  · rfl
  · exact hfold _ _

/-- The transceiver that takes a section, and nothing else, changes. -/
theorem associate_transceivers (c : Connection) (i : ℕ) (t : RtpTransceiver) (rm : SdpMedia) :
    (c.associate i t rm).1.transceivers =
      c.transceivers.set i (({ t with mid := rm.mid } : RtpTransceiver).fromRemoteOffer rm) := by
  unfold associate
  simp only []
  split
  · rfl
  · split <;> split <;> simp

theorem freeTransceiver_eq_some {k : MediaKind} {i : ℕ} {t : RtpTransceiver}
    (h : c.freeTransceiver k = some (i, t)) :
    c.transceivers[i]? = some t ∧ t.mid = [] ∧ t.stopped = false ∧ t.kind = k := by
  obtain ⟨j, hj, h⟩ := Option.bind_eq_some_iff.1 h
  obtain ⟨u, hu, h⟩ := Option.map_eq_some_iff.1 h
  obtain ⟨rfl, rfl⟩ := Prod.mk.inj h
  obtain ⟨hlt, hfree, -⟩ := List.findIdx?_eq_some_iff_getElem.1 hj
  obtain rfl : c.transceivers[j] = u := Option.some.inj ((List.getElem?_eq_getElem hlt).symm.trans hu)
  exact ⟨hu, of_decide_eq_true hfree⟩

/-- The sections of `done` have been gone through, and `b`, which was new, is `c` now. -/
structure Taken (b : Connection) (done : List SdpMedia) (c : Connection) : Prop where
  get : ∀ {k : ℕ} {u' : RtpTransceiver}, c.transceivers[k]? = some u' →
    ∃ u, b.transceivers[k]? = some u ∧ (u' = u ∨
      ∃ m ∈ done, m.mid ≠ [] ∧ m.mediaType ≠ .application ∧
        u' = ({ u with mid := m.mid } : RtpTransceiver).fromRemoteOffer m)
  unique : ∀ {i j : ℕ} {u v : RtpTransceiver}, c.transceivers[i]? = some u →
    c.transceivers[j]? = some v → u.mid ≠ [] → u.mid = v.mid → i = j

theorem Taken.refl (hb : b.IsNew) : Taken b [] b where
  get h := ⟨_, h, Or.inl rfl⟩
  unique hu _ hne _ := absurd (hb.transceivers _ (List.mem_of_getElem? hu)).mid hne

/-- A mid that is not empty is the one of a section. -/
theorem Taken.mid_mem (hb : b.IsNew) (h : Taken b done c) {k : ℕ} {u' : RtpTransceiver}
    (hk : c.transceivers[k]? = some u') (hne : u'.mid ≠ []) : u'.mid ∈ done.map SdpMedia.mid := by
  obtain ⟨u, hu, rfl | ⟨m, hm, -, -, rfl⟩⟩ := h.get hk
  · exact absurd (hb.transceivers _ (List.mem_of_getElem? hu)).mid hne
  · rw [(RtpTransceiver.fromRemoteOffer_cases _ m).1]
    exact List.mem_map_of_mem hm

theorem Taken.skip (h : Taken b done c) (rm : SdpMedia) : Taken b (done ++ [rm]) c where
  get hk := by
    obtain ⟨u, hu, hu' | ⟨m, hm, hu'⟩⟩ := h.get hk
    · exact ⟨u, hu, Or.inl hu'⟩
    · exact ⟨u, hu, Or.inr ⟨m, List.mem_append_left _ hm, hu'⟩⟩
  unique := h.unique

/-- **One section of an offer.** -/
theorem Taken.associate (hb : b.IsNew) (h : Taken b done c) {rm : SdpMedia} {k : MediaKind}
    (hk : sectionKind rm.mediaType = some k) (hrm : rm.mid ≠ [])
    (hnew : rm.mid ∉ done.map SdpMedia.mid) {i : ℕ} {t : RtpTransceiver}
    (hfree : c.freeTransceiver k = some (i, t)) :
    Taken b (done ++ [rm]) (c.associate i t rm).1 := by
  obtain ⟨ht, hmid, -, -⟩ := freeTransceiver_eq_some hfree
  obtain ⟨hlt, -⟩ := List.getElem?_eq_some_iff.1 ht
  have htaken : (({ t with mid := rm.mid } : RtpTransceiver).fromRemoteOffer rm).mid = rm.mid :=
    (RtpTransceiver.fromRemoteOffer_cases _ rm).1
  have hset : ∀ j u, (c.associate i t rm).1.transceivers[j]? = some u →
      (j = i ∧ u = ({ t with mid := rm.mid } : RtpTransceiver).fromRemoteOffer rm) ∨
        (j ≠ i ∧ c.transceivers[j]? = some u) := by
    intro j u hj
    rw [associate_transceivers] at hj
    by_cases hji : j = i
    · subst hji
      rw [List.getElem?_set_self hlt] at hj
      exact Or.inl ⟨rfl, (Option.some.inj hj).symm⟩
    · rw [List.getElem?_set_ne (Ne.symm hji)] at hj
      exact Or.inr ⟨hji, hj⟩
  refine ⟨fun {j u'} hj => ?_, fun {j₁ j₂ u v} h₁ h₂ hne heq => ?_⟩
  · rcases hset j u' hj with ⟨rfl, rfl⟩ | ⟨-, hj⟩
    · obtain ⟨u, hu, rfl | ⟨m, -, hm, -, rfl⟩⟩ := h.get ht
      · refine ⟨t, hu, Or.inr ⟨rm, by simp, hrm, fun happ => ?_, rfl⟩⟩
        rw [happ] at hk
        cases hk
      · -- A transceiver that has taken a section is not free.
        exact absurd ((RtpTransceiver.fromRemoteOffer_cases _ m).1.symm.trans hmid) hm
    · exact (h.skip rm).get hj
  · rcases hset j₁ u h₁ with ⟨rfl, rfl⟩ | ⟨-, g₁⟩
    · rcases hset j₂ v h₂ with ⟨rfl, rfl⟩ | ⟨-, g₂⟩
      · rfl
      · rw [htaken] at heq hne
        exact absurd (heq ▸ h.mid_mem hb g₂ (heq ▸ hne)) hnew
    · rcases hset j₂ v h₂ with ⟨rfl, rfl⟩ | ⟨-, g₂⟩
      · rw [htaken] at heq
        exact absurd (heq ▸ h.mid_mem hb g₁ hne) hnew
      · exact h.unique g₁ g₂ hne heq

/-- **The loop over the sections of an offer.** -/
theorem applyOffer_taken (hb : b.IsNew) {rms : List SdpMedia} (h : Taken b done c)
    (hmids : ∀ m ∈ rms, m.mid ≠ []) (hnodup : ((done ++ rms).map SdpMedia.mid).Nodup)
    (tracks : List OnTrack) :
    (applyOffer rms c tracks).thrown = none ∧
      Taken b (done ++ rms) (applyOffer rms c tracks).state := by
  induction rms generalizing done c tracks with
  | nil => exact ⟨rfl, by rwa [List.append_nil]⟩
  | cons rm rms ih =>
    have hmids' : ∀ m ∈ rms, m.mid ≠ [] := fun m hm => hmids m (List.mem_cons_of_mem _ hm)
    rw [List.append_cons] at hnodup ⊢
    have hnew : rm.mid ∉ done.map SdpMedia.mid := by
      rw [List.map_append, List.map_append, List.append_assoc] at hnodup
      exact fun hin => (List.disjoint_of_nodup_append hnodup) hin (by simp)
    rw [applyOffer]
    cases hk : sectionKind rm.mediaType with
    | none => exact ih (h.skip rm) hmids' hnodup tracks
    | some k =>
      simp only [hmids rm (List.mem_cons_self ..), if_false]
      cases hfree : c.freeTransceiver k with
      | none => exact ih (h.skip rm) hmids' hnodup tracks
      | some p =>
        exact ih (h.associate hb hk (hmids rm (List.mem_cons_self ..)) hnew hfree) hmids' hnodup _

/-! ### The answer -/

/-- A section is answered with its mid. -/
@[simp] theorem answerSection_mid (c : Connection) (rm : SdpMedia) :
    (c.answerSection rm).mid = rm.mid := by
  unfold answerSection
  split
  · rfl
  · cases hf : c.transceivers.find? fun t => t.mid = rm.mid with
    | none => rfl
    | some t =>
      have ht : t.mid = rm.mid := by simpa using List.find?_some hf
      exact (t.toAnswerSdpMedia_cases rm).1.trans ht

/-- The answer to a section is found by its mid. -/
theorem find?_answer {medias : List SdpMedia} (hnodup : (medias.map SdpMedia.mid).Nodup)
    {m : SdpMedia} (hm : m ∈ medias) (c : Connection) :
    (medias.map c.answerSection).find? (fun rm => rm.mid = m.mid) = some (c.answerSection m) := by
  induction medias with
  | nil => exact absurd hm List.not_mem_nil
  | cons rm rms ih =>
    rw [List.map_cons, List.nodup_cons] at hnodup
    rw [List.map_cons]
    rcases List.mem_cons.1 hm with rfl | hm
    · exact List.find?_cons_of_pos (by simp)
    · have hne : rm.mid ≠ m.mid := fun h => hnodup.1 (h ▸ List.mem_map_of_mem hm)
      rw [List.find?_cons_of_neg (by simpa using hne)]
      exact ih hnodup.2 hm

/-- The side that answers an offer: what it has become, and what it answers with. -/
structure Answered (b b' : Connection) (offer answer : SessionDescription) : Prop where
  taken : Taken b offer.medias b'
  medias : answer.medias = offer.medias.map b'.answerSection
  sdpType : answer.sdpType = "answer".toList

/-- **The first answer.**  The three calls on the side that gets an offer come to an end. -/
theorem answered (hb : b.IsNew) {a a₂ : Connection} {offer : SessionDescription}
    (ho : Offered a a₂ offer) (hbundle : checkBundle offer = none) :
    ∃ b₁ answer b₂, (b.setRemoteDescription offer).completed = some b₁ ∧
      b₁.createAnswer = some answer ∧ (b₁.setLocalDescription answer).completed = some b₂ ∧
      Answered b b₂ offer answer := by
  obtain ⟨hthrown, htaken⟩ := applyOffer_taken hb (Taken.refl hb) ho.mids_ne
    (by rw [List.nil_append]; exact ho.mids_nodup) []
  rw [List.nil_append] at htaken
  have hremote : (b.setRemoteDescription offer).completed = some
      { (applyOffer offer.medias b []).state with
        remoteDesc := some offer, signalingState := .haveRemoteOffer } := by
    rw [setRemoteDescription, hb.signalingState]
    simp only [ho.sdpType, ne_eq, not_true, if_false, hbundle, hthrown, Option.isSome_none,
      Bool.false_eq_true, Outcome.completed]
  refine ⟨_, _, _, hremote, rfl, rfl, ⟨?_, ?_⟩, rfl, rfl⟩
  · exact htaken.get
  · exact htaken.unique

/-! ### The answer on the other side -/

/-- What the answer `medias` does to a transceiver. -/
def afterAnswer (medias : List SdpMedia) (t : RtpTransceiver) : RtpTransceiver :=
  match medias.find? fun rm => rm.mid = t.mid with
  | none => { t with direction := .inactive }.stop
  | some rm =>
      if (t.fromRemoteAnswer rm).direction = .inactive then (t.fromRemoteAnswer rm).stop
      else t.fromRemoteAnswer rm

theorem applyAnswerTo_transceivers (medias : List SdpMedia) (c : Connection) (i : ℕ)
    (t : RtpTransceiver) : (applyAnswerTo medias c i t).1.transceivers =
      c.transceivers.set i (afterAnswer medias t) := by
  unfold applyAnswerTo afterAnswer
  cases medias.find? fun rm => rm.mid = t.mid with
  | none => rfl
  | some rm =>
    simp only []
    split
    · rfl
    · split <;> simp

/-- **The loop over the transceivers of an answer.** -/
theorem applyAnswer_transceivers (medias : List SdpMedia) (pre : List RtpTransceiver)
    {ts : List RtpTransceiver} {c : Connection} (hc : c.transceivers = pre ++ ts) (tracks : List OnTrack) :
    (applyAnswer medias (ts.zipIdx pre.length) c tracks).thrown = none ∧
      (applyAnswer medias (ts.zipIdx pre.length) c tracks).state.transceivers =
        pre ++ ts.map (afterAnswer medias) := by
  induction ts generalizing pre c tracks with
  | nil => exact ⟨rfl, hc⟩
  | cons t ts ih =>
    rw [List.zipIdx_cons, applyAnswer, List.map_cons, List.append_cons]
    have hset : (applyAnswerTo medias c pre.length t).1.transceivers =
        (pre ++ [afterAnswer medias t]) ++ ts := by
      rw [applyAnswerTo_transceivers, hc, List.set_append_right _ _ (Nat.le_refl _), Nat.sub_self,
        List.set_cons_zero, List.append_cons]
    have hlen : pre.length + 1 = (pre ++ [afterAnswer medias t]).length := by simp
    rw [hlen]
    exact ih _ hset _

/-- **The end of a first negotiation** on the side that made the offer. -/
theorem setRemoteDescription_answer {a b b' : Connection} {offer answer : SessionDescription}
    (ha : a.signalingState = .haveLocalOffer) (h : Answered b b' offer answer) :
    ∃ a', (a.setRemoteDescription answer).completed = some a' ∧
      a'.transceivers = a.transceivers.map (afterAnswer answer.medias) := by
  obtain ⟨hthrown, hts⟩ := applyAnswer_transceivers answer.medias [] (c := a) rfl []
  rw [setRemoteDescription, ha]
  simp only [h.sdpType, ne_eq, not_true, if_false, Outcome.completed]
  rw [List.length_nil] at hthrown hts
  rw [hthrown]
  exact ⟨_, rfl, hts⟩

end Connection
end AsioRtc
