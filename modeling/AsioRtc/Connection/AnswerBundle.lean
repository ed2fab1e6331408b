/-
# The BUNDLE group of an answer

`create_offer` bundles the sections of its offer that are not rejected.  `create_answer`
bundles every section: which of them it rejects is decided as it builds them, by the
transceivers and by the direction, and the group is made of all mids afterwards.

So the group is sound, that is, has accepted sections only, each once, and only mids that are
bundled in the offer (`BundlesAccepted`), exactly where there is nothing to leave out
(`createAnswer_bundle_iff`).
-/

import AsioRtc.Connection.AnswerFormats

namespace AsioRtc

open Lib Text

/-- The mids of the BUNDLE group of a description, as `set_remote_description` looks it up. -/
def SessionDescription.bundle (d : SessionDescription) : List Text :=
  (d.groups.find? fun g => g.semantic = "BUNDLE".toList).elim [] SdpGroup.items

/-- The BUNDLE group of `answer` has the mids of accepted sections, in the order of the sections
and each once, and none that is not bundled in `offer`. -/
structure BundlesAccepted (offer answer : SessionDescription) : Prop where
  accepted : answer.bundle.Sublist ((answer.medias.filter fun m => m.port ≠ 0).map SdpMedia.mid)
  nodup : answer.bundle.Nodup
  offered : ∀ mid ∈ answer.bundle, mid ∈ offer.bundle

namespace Connection

variable [NoCaseEq] {c : Connection}

/-- The section is for the data channels, or has a transceiver that is not stopped and has a
direction to use it in. -/
def Serves (c : Connection) (rm : SdpMedia) : Prop :=
  rm.mediaType = .application ∨
    ∃ t, c.transceivers.find? (fun t => t.mid = rm.mid) = some t ∧ t.stopped = false ∧
      negotiateDirection t.direction rm.direction ≠ .inactive

theorem toAnswerSdpMedia_port (t : RtpTransceiver) (rm : SdpMedia) :
    (t.toAnswerSdpMedia rm).port ≠ 0 ↔
      t.stopped = false ∧ negotiateDirection t.direction rm.direction ≠ .inactive := by
  obtain ⟨-, hdir, -⟩ := t.answerBase_cases rm
  unfold RtpTransceiver.toAnswerSdpMedia
  simp only [hdir]
  split
  · rename_i h
    refine iff_of_false (fun hne => hne rfl) ?_
    rintro ⟨hs, hn⟩
    rcases h with h | h
    · rw [hs] at h
      cases h
    · exact hn h
  · rename_i h
    obtain ⟨hs, hn⟩ := not_or.1 h
    exact iff_of_true (by simp) ⟨by simpa using hs, hn⟩

/-- A section is accepted exactly where it is served. -/
theorem answerSection_port (rm : SdpMedia) : (c.answerSection rm).port ≠ 0 ↔ c.Serves rm := by
  unfold answerSection Serves
  split
  · rename_i h
    exact iff_of_true (by simp) (Or.inl h)
  · rename_i h
    cases hfind : c.transceivers.find? fun t => t.mid = rm.mid with
    | none => simp [h]
    | some t =>
      simp only [h, false_or, Option.some.injEq, exists_eq_left']
      exact toAnswerSdpMedia_port t rm

omit [NoCaseEq] in
/-- A list that is a part of its filtered self passes the filter. -/
theorem sublist_filter_map_iff {α β : Type*} {p : α → Bool} {f : α → β} {l : List α} :
    (l.map f).Sublist ((l.filter p).map f) ↔ ∀ a ∈ l, p a = true := by
  constructor
  · intro h
    have hlen := h.length_le
    rw [List.length_map, List.length_map] at hlen
    exact List.filter_eq_self.1 (List.filter_sublist.eq_of_length_le hlen)
  · intro h
    rw [List.filter_eq_self.2 h]

/-- The sections of an answer, and its BUNDLE group: all of them. -/
theorem createAnswer_bundle {desc answer : SessionDescription} (hr : c.remoteDesc = some desc)
    (h : c.createAnswer = some answer) :
    answer.medias = desc.medias.map c.answerSection ∧
      answer.bundle = answer.medias.map SdpMedia.mid := by
  unfold createAnswer at h
  rw [hr] at h
  simp only at h
  split at h
  · cases h
  · obtain rfl := Option.some.inj h
    refine ⟨rfl, ?_⟩
    simp only [SessionDescription.bundle]
    split
    · rename_i hnil
      rw [hnil]
      rfl
    · rfl

/-- **When the BUNDLE group of an answer is sound.**  An answer to the offer `desc` bundles
accepted sections only, each once, and only what the offer bundles, if and only if the mids of
the offer are distinct and all bundled there, and each of its sections is served. -/
theorem createAnswer_bundle_iff {desc answer : SessionDescription} (hr : c.remoteDesc = some desc)
    (h : c.createAnswer = some answer) :
    BundlesAccepted desc answer ↔
      (desc.medias.map SdpMedia.mid).Nodup ∧ (∀ rm ∈ desc.medias, rm.mid ∈ desc.bundle) ∧
        ∀ rm ∈ desc.medias, c.Serves rm := by
  obtain ⟨hmedias, hbundle⟩ := createAnswer_bundle hr h
  have hmids : answer.medias.map SdpMedia.mid = desc.medias.map SdpMedia.mid := by
    rw [hmedias, List.map_map]
    exact List.map_congr_left fun rm _ => answerSection_mid c rm
  have hports : (∀ m ∈ answer.medias, decide (m.port ≠ 0) = true) ↔
      ∀ rm ∈ desc.medias, c.Serves rm := by
    rw [hmedias, List.forall_mem_map]
    exact forall₂_congr fun rm _ => decide_eq_true_iff.trans (answerSection_port rm)
  constructor
  · rintro ⟨haccepted, hnodup, hoffered⟩
    rw [hbundle] at haccepted hnodup hoffered
    rw [hmids] at hnodup hoffered
    exact ⟨hnodup, fun rm hrm => hoffered _ (List.mem_map_of_mem hrm),
      hports.1 (sublist_filter_map_iff.1 haccepted)⟩
  · rintro ⟨hnodup, hoffered, hserved⟩
    refine ⟨?_, by rwa [hbundle, hmids], by rwa [hbundle, hmids, List.forall_mem_map]⟩
    rw [hbundle]
    exact sublist_filter_map_iff.2 (hports.2 hserved)

end Connection

/-- A connection with a transceiver for audio bundles the section it takes. -/
theorem createAnswer_bundle_opus :
    ∃ answer, @Connection.createAnswer asciiNoCase (@Connection.setRemoteDescription asciiNoCase
        { transceivers := [{ codec := { name := "opus".toList } }] } audioOffer).state =
          some answer ∧ BundlesAccepted audioOffer answer := by
  obtain ⟨answer, hanswer⟩ : ∃ answer, @Connection.createAnswer asciiNoCase
      (@Connection.setRemoteDescription asciiNoCase
        { transceivers := [{ codec := { name := "opus".toList } }] } audioOffer).state =
          some answer := ⟨_, rfl⟩
  refine ⟨answer, hanswer, (@Connection.createAnswer_bundle_iff asciiNoCase _ audioOffer answer rfl
    hanswer).2 ⟨by decide, by decide, fun rm hrm => ?_⟩⟩
  obtain rfl := List.mem_singleton.1 hrm
  exact Or.inr ⟨_, rfl, by decide, by decide⟩

/-- **A rejected section is bundled.**  Without a transceiver, the section of the offer is
answered with port 0, and its mid is in the group. -/
theorem createAnswer_bundles_rejected :
    (@Connection.setRemoteDescription asciiNoCase {} audioOffer).thrown = none ∧
      ∃ answer, @Connection.createAnswer asciiNoCase
          (@Connection.setRemoteDescription asciiNoCase {} audioOffer).state = some answer ∧
        ¬ BundlesAccepted audioOffer answer := by
  refine ⟨by decide, _, rfl, fun h => ?_⟩
  exact absurd h.accepted.length_le (by decide)

end AsioRtc
