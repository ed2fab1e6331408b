/-
# What a rejected description leaves behind

`set_remote_description` checks the state, the type and the groups of a description
before it does anything; the mids of an offer it checks one by one, in the loop that
gives the sections to the transceivers.  A description that is thrown out by the
first checks leaves the connection as it was.  One that is thrown out for an empty
mid does so only where no section in front has been given away by then
(`setRemoteDescription_unchanged_iff`).
-/

import AsioRtc.Connection.FirstAnswer

namespace AsioRtc

open Lib Text

namespace Connection

/-- A section that the loop over an offer throws out. -/
def Refused (rm : SdpMedia) : Prop := (sectionKind rm.mediaType).isSome = true ∧ rm.mid = []

instance (rm : SdpMedia) : Decidable (Refused rm) :=
  inferInstanceAs (Decidable (_ ∧ _))

variable [NoCaseEq] {c : Connection} {rms : List SdpMedia} {tracks : List OnTrack}

/-- In front of the first section that is thrown out there is one that finds a transceiver. -/
def TakesBeforeRefusal (c : Connection) (medias : List SdpMedia) : Prop :=
  ∃ pre bad post, medias = pre ++ bad :: post ∧ (∀ rm ∈ pre, ¬ Refused rm) ∧ Refused bad ∧
    ∃ rm ∈ pre, ∃ k, sectionKind rm.mediaType = some k ∧ (c.freeTransceiver k).isSome = true

/-- The loop throws where it comes to a section that it refuses. -/
theorem applyOffer_thrown : (applyOffer rms c tracks).thrown ≠ none ↔ ∃ rm ∈ rms, Refused rm := by
  induction rms generalizing c tracks with
  | nil => simp [applyOffer]
  | cons rm rms ih =>
    rw [applyOffer, List.exists_mem_cons_iff]
    cases hk : sectionKind rm.mediaType with
    | none => simp [ih, Refused, hk]
    | some k =>
      by_cases hmid : rm.mid = []
      · simp [Refused, hk, hmid]
      · simp only [hmid, if_false]
        cases c.freeTransceiver k <;> simp [ih, Refused, hmid]

/-- Sections that find no transceiver leave the connection alone. -/
theorem applyOffer_idle {pre post : List SdpMedia} {bad : SdpMedia}
    (hpre : ∀ rm ∈ pre, ¬ Refused rm) (hbad : Refused bad)
    (hfree : ∀ rm ∈ pre, ∀ k, sectionKind rm.mediaType = some k → c.freeTransceiver k = none) :
    applyOffer (pre ++ bad :: post) c tracks =
      { state := c, tracks := tracks, thrown := some .emptyMid } := by
  induction pre with
  | nil =>
    obtain ⟨k, hk⟩ := Option.isSome_iff_exists.1 hbad.1
    simp [applyOffer, hk, hbad.2]
  | cons rm pre ih =>
    have hrest := ih (fun rm' h => hpre rm' (List.mem_cons_of_mem _ h))
      fun rm' h => hfree rm' (List.mem_cons_of_mem _ h)
    rw [List.cons_append, applyOffer]
    cases hk : sectionKind rm.mediaType with
    | none => exact hrest
    | some k =>
      have hmid : rm.mid ≠ [] := fun h => hpre rm (List.mem_cons_self ..) ⟨by simp [hk], h⟩
      simp only [hmid, if_false, hfree rm (List.mem_cons_self ..) k hk]
      exact hrest

/-- A mid that a transceiver has got stays. -/
theorem applyOffer_mid {i : ℕ} {t : RtpTransceiver} (ht : c.transceivers[i]? = some t)
    (hmid : t.mid ≠ []) :
    ∃ t', (applyOffer rms c tracks).state.transceivers[i]? = some t' ∧ t'.mid = t.mid := by
  induction rms generalizing c tracks with
  | nil => exact ⟨t, ht, rfl⟩
  | cons rm rms ih =>
    rw [applyOffer]
    cases hk : sectionKind rm.mediaType with
    | none => exact ih ht
    | some k =>
      simp only []
      split
      · exact ⟨t, ht, rfl⟩
      · cases hfree : c.freeTransceiver k with
        | none => exact ih ht
        | some p =>
          -- The transceiver that takes the section is a free one, so it is another.
          have hne : p.1 ≠ i := fun h => by
            obtain ⟨hp, hfmid, -⟩ := freeTransceiver_eq_some hfree
            rw [h, ht] at hp
            exact hmid (Option.some.inj hp ▸ hfmid)
          refine ih ?_
          rw [associate_transceivers, List.getElem?_set_ne hne]
          exact ht

/-- A section that finds a transceiver changes the connection for good. -/
theorem applyOffer_takes {pre post : List SdpMedia} (hpre : ∀ rm ∈ pre, ¬ Refused rm)
    (htakes : ∃ rm ∈ pre, ∃ k, sectionKind rm.mediaType = some k ∧
      (c.freeTransceiver k).isSome = true) :
    (applyOffer (pre ++ post) c tracks).state ≠ c := by
  induction pre with
  | nil =>
    obtain ⟨rm, hrm, -⟩ := htakes
    exact absurd hrm List.not_mem_nil
  | cons rm pre ih =>
    have hpre' : ∀ rm' ∈ pre, ¬ Refused rm' := fun rm' h => hpre rm' (List.mem_cons_of_mem _ h)
    rw [List.exists_mem_cons_iff] at htakes
    rw [List.cons_append, applyOffer]
    cases hk : sectionKind rm.mediaType with
    | none =>
      refine ih hpre' (htakes.resolve_left ?_)
      rintro ⟨k, h, -⟩
      rw [hk] at h
      cases h
    | some k =>
      have hmid : rm.mid ≠ [] := fun h => hpre rm (List.mem_cons_self ..) ⟨by simp [hk], h⟩
      simp only [hmid, if_false]
      cases hfree : c.freeTransceiver k with
      | none =>
        refine ih hpre' (htakes.resolve_left ?_)
        rintro ⟨k', h, hsome⟩
        obtain rfl := Option.some.inj (hk.symm.trans h)
        rw [hfree] at hsome
        cases hsome
      | some p =>
        obtain ⟨hp, hfmid, -⟩ := freeTransceiver_eq_some hfree
        obtain ⟨hlt, -⟩ := List.getElem?_eq_some_iff.1 hp
        have htaken : (c.associate p.1 p.2 rm).1.transceivers[p.1]? =
            some (({ p.2 with mid := rm.mid } : RtpTransceiver).fromRemoteOffer rm) := by
          rw [associate_transceivers, List.getElem?_set_self hlt]
        have htmid : (({ p.2 with mid := rm.mid } : RtpTransceiver).fromRemoteOffer rm).mid =
            rm.mid := (RtpTransceiver.fromRemoteOffer_cases _ rm).1
        have htmid' : (({ p.2 with mid := rm.mid } : RtpTransceiver).fromRemoteOffer rm).mid ≠ [] := by
          rwa [htmid]
        obtain ⟨t', ht', hmid'⟩ : ∃ t', (applyOffer (pre ++ post) (c.associate p.1 p.2 rm).1
            (tracks ++ (c.associate p.1 p.2 rm).2)).state.transceivers[p.1]? = some t' ∧ _ :=
          applyOffer_mid htaken htmid'
        intro heq
        rw [heq, hp] at ht'
        rw [← Option.some.inj ht', hfmid, htmid] at hmid'
        exact hmid hmid'.symm

/-- **The loop over an offer in which a section is refused** leaves the connection as it was
exactly where no section in front of it finds a transceiver. -/
theorem applyOffer_unchanged_iff (h : (applyOffer rms c []).thrown ≠ none) :
    (applyOffer rms c []).state = c ∧ (applyOffer rms c []).tracks = [] ↔
      ¬ c.TakesBeforeRefusal rms := by
  constructor
  · rintro ⟨hstate, -⟩ ⟨pre, bad, post, rfl, hpre, -, htakes⟩
    exact applyOffer_takes hpre htakes hstate
  · intro hnot
    obtain ⟨bad, hfind⟩ := Option.isSome_iff_exists.1
      (List.find?_isSome.2 (by simpa using applyOffer_thrown.1 h) :
        (rms.find? fun rm => decide (Refused rm)).isSome = true)
    obtain ⟨hbad, pre, post, rfl, hpre⟩ := List.find?_eq_some_iff_append.1 hfind
    have hpre : ∀ rm ∈ pre, ¬ Refused rm := fun rm hrm => by simpa using hpre rm hrm
    have hbad : Refused bad := of_decide_eq_true hbad
    rw [applyOffer_idle hpre hbad fun rm hrm k hk => ?_]
    · exact ⟨rfl, rfl⟩
    · cases hfree : c.freeTransceiver k with
      | none => rfl
      | some p => exact absurd ⟨pre, bad, post, rfl, hpre, hbad, rm, hrm, k, hk, by simp [hfree]⟩ hnot

/-- An offer that passes the first checks is thrown out by the loop, or by nothing. -/
theorem setRemoteDescription_offer {desc : SessionDescription}
    (hs : c.signalingState = .stable ∨ c.signalingState = .closed)
    (ht : desc.sdpType = "offer".toList) (hb : checkBundle desc = none) :
    (c.setRemoteDescription desc).thrown = (applyOffer desc.medias c []).thrown ∧
      ((applyOffer desc.medias c []).thrown ≠ none →
        c.setRemoteDescription desc = applyOffer desc.medias c []) := by
  unfold setRemoteDescription
  rcases hs with hs | hs <;>
  · simp only [hs, ht, ne_eq, not_true, if_false, hb]
    split
    · exact ⟨rfl, fun _ => rfl⟩
    · rename_i hsome
      exact ⟨rfl, fun hne => absurd (Option.not_isSome_iff_eq_none.1 hsome) hne⟩

/-- What the other exceptions leave behind. -/
theorem setRemoteDescription_refused {desc : SessionDescription}
    (h : ¬ ((c.signalingState = .stable ∨ c.signalingState = .closed) ∧
      desc.sdpType = "offer".toList ∧ checkBundle desc = none))
    (hthrown : (c.setRemoteDescription desc).thrown ≠ none) :
    (c.setRemoteDescription desc).state = c ∧ (c.setRemoteDescription desc).tracks = [] := by
  unfold setRemoteDescription at hthrown ⊢
  cases hs : c.signalingState with
  | haveRemoteOffer => exact ⟨rfl, rfl⟩
  | haveLocalPranswer => exact ⟨rfl, rfl⟩
  | haveRemotePranswer => exact ⟨rfl, rfl⟩
  | haveLocalOffer =>
    simp only [hs] at hthrown ⊢
    split at hthrown
    · rename_i ht
      rw [if_pos ht]
      exact ⟨rfl, rfl⟩
    · exact absurd (applyAnswer_transceivers desc.medias [] (c := c) rfl []).1 hthrown
  | stable | closed =>
    simp only [hs] at hthrown ⊢
    by_cases ht : desc.sdpType = "offer".toList
    · cases hb : checkBundle desc with
      | none => exact absurd ⟨by simp [hs], ht, hb⟩ h
      | some e =>
        simp [ht]
    · rw [if_pos ht]
      exact ⟨rfl, rfl⟩

/-- A description that is thrown out leaves the connection as it was, and no track has been
announced. -/
def Unchanged (c : Connection) (desc : SessionDescription) : Prop :=
  (c.setRemoteDescription desc).thrown ≠ none →
    (c.setRemoteDescription desc).state = c ∧ (c.setRemoteDescription desc).tracks = []

/-- Where no section is taken in front of one that is refused, nothing is changed. -/
theorem unchanged_of_not_takes {desc : SessionDescription}
    (h : ¬ ((c.signalingState = .stable ∨ c.signalingState = .closed) ∧
      desc.sdpType = "offer".toList ∧ checkBundle desc = none ∧
      c.TakesBeforeRefusal desc.medias)) : c.Unchanged desc := by
  intro hne
  by_cases hpass : (c.signalingState = .stable ∨ c.signalingState = .closed) ∧
      desc.sdpType = "offer".toList ∧ checkBundle desc = none
  · obtain ⟨hs, ht, hb⟩ := hpass
    obtain ⟨hthrown, heq⟩ := setRemoteDescription_offer hs ht hb
    rw [hthrown] at hne
    rw [heq hne]
    exact (applyOffer_unchanged_iff hne).2 fun htakes => h ⟨hs, ht, hb, htakes⟩
  · exact setRemoteDescription_refused hpass hne

/-- **When a rejected remote description changes nothing**: always, but for an offer that
passes the first checks and in which a section finds a transceiver in front of one with an
empty mid. -/
theorem setRemoteDescription_unchanged_iff (c : Connection) (desc : SessionDescription) :
    c.Unchanged desc ↔
      ¬ ((c.signalingState = .stable ∨ c.signalingState = .closed) ∧
        desc.sdpType = "offer".toList ∧ checkBundle desc = none ∧
        c.TakesBeforeRefusal desc.medias) := by
  refine ⟨?_, unchanged_of_not_takes⟩
  rintro hkept ⟨hs, ht, hb, htakes⟩
  obtain ⟨hthrown, heq⟩ := setRemoteDescription_offer hs ht hb
  have ⟨pre, bad, post, hmedias, _, hbad, _⟩ := htakes
  have hne : (applyOffer desc.medias c []).thrown ≠ none :=
    applyOffer_thrown.2 ⟨bad, by rw [hmedias]; simp, hbad⟩
  have hkept := hkept (by rwa [hthrown])
  rw [heq hne] at hkept
  exact (applyOffer_unchanged_iff hne).1 hkept htakes

end Connection

/-- Two audio sections, the second without a mid, and one transceiver for audio: the first
section has been taken when the second is thrown out. -/
theorem Connection.setRemoteDescription_changed :
    ¬ @Connection.Unchanged asciiNoCase { transceivers := [{ codec := { name := "opus".toList } }] }
      { sdpType := "offer".toList
        groups := [⟨"BUNDLE".toList, ["0".toList]⟩]
        medias := [{ mid := "0".toList, mediaType := .audio }, { mediaType := .audio }] } := by
  intro h
  have hstate := (h (by decide)).1
  have hmid := congrArg (fun c => c.transceivers.map RtpTransceiver.mid) hstate
  exact absurd hmid (by decide)

end AsioRtc
