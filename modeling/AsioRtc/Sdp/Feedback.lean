/-
# The feedback of a section

`sdp_media::add_feedback` of `src/sdp.cpp`, called any number of times.  The feedback of
a section stands for the payload types that it covers (`covers`), and a call adds to
them those it names (`covers_addFeedback`), whatever of the feedback it leaves out or
takes away.  So the calls may come in any order (`addFeedback_run`).
-/

import AsioRtc.Sdp.Sections
import Mathlib.Data.Set.Basic

namespace AsioRtc

open Lib Text

/-- Feedback is for a payload type, or for all of them. -/
def SdpRtcpFb.Names (f : SdpRtcpFb) (type subtype : Text) (pt : U8) : Prop :=
  f.type = type ∧ f.subtype = subtype ∧ (f.payloadType = some pt ∨ f.payloadType = none)

/-- **What is covered**: types and subtypes of feedback, each with a payload type. -/
def covers (fbs : List SdpRtcpFb) : Set (Text × Text × U8) :=
  {x | ∃ f ∈ fbs, f.Names x.1 x.2.1 x.2.2}

section Calls

variable {m : SdpMedia} {fb f : SdpRtcpFb} {fbs fbs' : List SdpRtcpFb} {x : Text × Text × U8}

theorem covers_append (fbs fbs' : List SdpRtcpFb) :
    covers (fbs ++ fbs') = covers fbs ∪ covers fbs' := by
  ext x
  simp only [covers, Set.mem_ofPred_eq, Set.mem_union, List.mem_append, or_and_right, exists_or]

theorem covers_of_perm (h : fbs.Perm fbs') : covers fbs = covers fbs' := by
  ext x
  simp only [covers, Set.mem_ofPred_eq, h.mem_iff]

/-- Feedback for all payload types covers what feedback of its kind does. -/
theorem SdpRtcpFb.Names.of_wildcard {w : SdpRtcpFb} (h : f.Names x.1 x.2.1 x.2.2)
    (hsame : SdpMedia.sameFeedback w f = true) (hw : w.payloadType = none) :
    w.Names x.1 x.2.1 x.2.2 := by
  obtain ⟨htype, hsubtype⟩ := sameFeedback_iff.1 hsame
  exact ⟨htype.trans h.1, hsubtype.trans h.2.1, Or.inr hw⟩

/-- **A call adds what it names.** -/
theorem covers_addFeedback (hne : fb.type ≠ []) :
    covers (m.addFeedback fb).rtcpFbs = covers m.rtcpFbs ∪ covers [fb] := by
  ext x
  simp only [covers, Set.mem_ofPred_eq, Set.mem_union, mem_addFeedback_iff hne, List.mem_singleton,
    exists_eq_left]
  by_cases hpt : fb.payloadType = none
  · simp only [if_pos hpt]
    constructor
    · rintro ⟨f, rfl | ⟨hf, -⟩, hx⟩
      · exact Or.inr hx
      · exact Or.inl ⟨f, hf, hx⟩
    · rintro (⟨f, hf, hx⟩ | hx)
      · -- What is taken away is of the kind of the new feedback.
        cases hsame : SdpMedia.sameFeedback f fb with
        | false => exact ⟨f, Or.inr ⟨hf, hsame⟩, hx⟩
        | true =>
          obtain ⟨htype, hsubtype⟩ := sameFeedback_iff.1 hsame
          exact ⟨fb, Or.inl rfl,
            hx.of_wildcard (sameFeedback_iff.2 ⟨htype.symm, hsubtype.symm⟩) hpt⟩
      · exact ⟨fb, Or.inl rfl, hx⟩
  · simp only [if_neg hpt]
    constructor
    · rintro ⟨f, hf | ⟨rfl, -⟩, hx⟩
      · exact Or.inl ⟨f, hf, hx⟩
      · exact Or.inr hx
    · rintro (⟨f, hf, hx⟩ | hx)
      · exact ⟨f, Or.inl hf, hx⟩
      · by_cases hall : ∀ f ∈ m.rtcpFbs, SdpMedia.sameFeedback f fb = true → f.payloadType ≠ none
        · exact ⟨fb, Or.inr ⟨rfl, hall⟩, hx⟩
        · -- It is left out for feedback of its kind that is for all payload types.
          simp only [not_forall, not_not, exists_prop] at hall
          obtain ⟨w, hw, hsame, hnone⟩ := hall
          exact ⟨w, Or.inl hw, hx.of_wildcard hsame hnone⟩

/-- What the calls add. -/
theorem covers_foldl {calls : List SdpRtcpFb} (hne : ∀ fb ∈ calls, fb.type ≠ []) (m : SdpMedia) :
    covers (calls.foldl SdpMedia.addFeedback m).rtcpFbs = covers m.rtcpFbs ∪ covers calls := by
  induction calls generalizing m with
  | nil =>
    have hnil : covers [] = ∅ := by simp [covers]
    rw [List.foldl_nil, hnil, Set.union_empty]
  | cons fb calls ih =>
    obtain ⟨hfb, hcalls⟩ := List.forall_mem_cons.1 hne
    have hcons : covers (fb :: calls) = covers [fb] ∪ covers calls := covers_append [fb] calls
    rw [List.foldl_cons, ih hcalls, covers_addFeedback hfb, hcons, Set.union_assoc]

theorem foldl_apart (calls : List SdpRtcpFb) (h : m.rtcpFbs.Pairwise Apart) :
    (calls.foldl SdpMedia.addFeedback m).rtcpFbs.Pairwise Apart := by
  induction calls generalizing m with
  | nil => exact h
  | cons fb calls ih => exact ih (addFeedback_apart fb h)

theorem sameFeedback_self (f : SdpRtcpFb) : SdpMedia.sameFeedback f f = true :=
  sameFeedback_iff.2 ⟨rfl, rfl⟩

/-- **The feedback of a section** that is what the calls name. -/
structure HoldsFeedback (fbs calls : List SdpRtcpFb) : Prop where
  covers : covers fbs = covers calls
  nodup : fbs.Nodup
  wildcard : ∀ w ∈ fbs, w.payloadType = none → ∀ f ∈ fbs, SdpMedia.sameFeedback w f = true →
    f.payloadType = none

/-- **Any calls of `add_feedback`** leave a section with feedback for what they name, and each of it
once: none for one payload type beside one of its kind for all.  In another order they leave what
covers the same. -/
theorem addFeedback_run {calls : List SdpRtcpFb} (hm : m.rtcpFbs = [])
    (hne : ∀ fb ∈ calls, fb.type ≠ []) :
    HoldsFeedback (calls.foldl SdpMedia.addFeedback m).rtcpFbs calls ∧
      ∀ calls', calls.Perm calls' →
        covers (calls'.foldl SdpMedia.addFeedback m).rtcpFbs =
          covers (calls.foldl SdpMedia.addFeedback m).rtcpFbs := by
  have hcovers : ∀ calls : List SdpRtcpFb, (∀ fb ∈ calls, fb.type ≠ []) →
      covers (calls.foldl SdpMedia.addFeedback m).rtcpFbs = covers calls := by
    intro calls hne
    have hnil : covers m.rtcpFbs = ∅ := by simp [covers, hm]
    rw [covers_foldl hne, hnil, Set.empty_union]
  have hapart := foldl_apart calls (m := m) (hm ▸ .nil)
  refine ⟨⟨hcovers calls hne, hapart.imp fun h heq => ?_, fun w hw hnone f hf hsame => ?_⟩,
    fun calls' hperm => ?_⟩
  · subst heq
    exact (h (sameFeedback_self _)).2.2 rfl
  · by_cases heq : w = f
    · exact heq ▸ hnone
    · exact absurd hnone (hapart.forall hw hf heq hsame).1
  · rw [hcovers calls' fun fb hfb => hne fb (hperm.mem_iff.2 hfb), hcovers calls hne,
      covers_of_perm hperm]

/-- Feedback for one payload type, and then for all of them, which takes its place. -/
def nackCalls : List SdpRtcpFb :=
  [{ payloadType := some 96, type := "nack".toList },
    { payloadType := some 97, type := "nack".toList, subtype := "pli".toList },
    { payloadType := none, type := "nack".toList }]

theorem addFeedback_run_nack :
    HoldsFeedback [{ payloadType := some 97, type := "nack".toList, subtype := "pli".toList },
      { payloadType := none, type := "nack".toList }] nackCalls :=
  (addFeedback_run (m := { mediaType := .video }) rfl (by decide : ∀ fb ∈ nackCalls, fb.type ≠ [])).1

end Calls

end AsioRtc
