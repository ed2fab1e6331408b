/-
# The formats of an answer

The media line of a section names its formats (`SdpMedia.mlineFormats`, as the
printer writes them).  `create_answer` builds a section in one of three ways: an
application section gets the format strings of the offered one, a section whose mid
a transceiver has gets one codec, and any other section gets nothing.  So an answer
has the sections of the offer in their order, but a format of each only where
`KeepsFormat` holds (`createAnswer_answersOffer_iff`).
-/

import AsioRtc.Connection.FirstAnswer
import AsioRtc.Connection.Session

namespace AsioRtc

open Lib Text

/-- The formats that the printer writes on the media line of a section. -/
def SdpMedia.mlineFormats (m : SdpMedia) : List Text :=
  match m.formats with
  | .none => []
  | .payloadTypes pts => pts.map fun pt => toText pt.toNat
  | .strings fmts => fmts

/-- The sections of `answer` are those of `offer`, and each has a format of the offered one
where that has any. -/
structure AnswersOffer (offer answer : List SdpMedia) : Prop where
  sections : answer.map (fun m => (m.mid, m.mediaType, m.proto)) =
    offer.map fun m => (m.mid, m.mediaType, m.proto)
  formats : ∀ p ∈ offer.zip answer, p.1.mlineFormats ≠ [] →
    ∃ f ∈ p.2.mlineFormats, f ∈ p.1.mlineFormats

namespace Connection

variable [NoCaseEq] {c : Connection}

/-- The codec that a section is answered with: the first that matches the transceiver's, or the
first. -/
def answeredCodec (t : RtpTransceiver) (rm : SdpMedia) : Option SdpRtpmap :=
  (t.matchOfferRtpmaps rm).head?.orElse fun _ => rm.rtpmaps.head?

/-- A section keeps a format in the answer: an application section whose formats are strings,
or a section whose mid a transceiver has, and whose media line names the codec that it is
answered with. -/
def KeepsFormat (c : Connection) (rm : SdpMedia) : Prop :=
  if rm.mediaType = .application then rm.payloadTypes = []
  else
    ∃ t codec, c.transceivers.find? (fun t => t.mid = rm.mid) = some t ∧
      answeredCodec t rm = some codec ∧ toText codec.payloadType.toNat ∈ rm.mlineFormats

/-- The codec of an answered section is its only format. -/
theorem answerBase_formats (t : RtpTransceiver) (rm : SdpMedia) :
    (t.answerBase rm).formats =
      (answeredCodec t rm).elim .none fun c => .payloadTypes [c.payloadType] := by
  have hadd : ∀ (m : SdpMedia) (c : SdpRtpmap), m.rtpmaps = [] → m.formats = .none →
      (m.addRtpmap c).formats = .payloadTypes [c.payloadType] ∧ (m.addRtpmap c).rtpmaps = [c] := by
    intro m c hm hf
    simp [SdpMedia.addRtpmap, SdpMedia.findRtpmap, SdpMedia.payloadTypes, hm, hf]
  unfold RtpTransceiver.answerBase answeredCodec RtpTransceiver.matchOfferRtpmaps
  cases rm.rtpmaps.find? fun c => SdpRtpmap.isMatch t.codec c with
  | some c => simp [hadd]
  | none =>
    simp only [Option.toList_none, List.foldl_nil, if_true, List.head?_nil, Option.orElse_none]
    cases rm.rtpmaps.head? with
    | none => rfl
    | some c => exact (hadd _ c rfl rfl).1

/-- What the end of `to_answer_sdp_media` leaves alone. -/
theorem toAnswerSdpMedia_formats (t : RtpTransceiver) (rm : SdpMedia) :
    (t.toAnswerSdpMedia rm).formats = (t.answerBase rm).formats := by
  unfold RtpTransceiver.toAnswerSdpMedia
  simp only []
  split <;> rfl

/-- **A section is answered with one of its formats** exactly where it keeps one. -/
theorem answerSection_format_iff {rm : SdpMedia} (hrm : rm.mlineFormats ≠ []) :
    (∃ f ∈ (c.answerSection rm).mlineFormats, f ∈ rm.mlineFormats) ↔ c.KeepsFormat rm := by
  unfold answerSection KeepsFormat
  split
  · unfold SdpMedia.mlineFormats SdpMedia.payloadTypes at *
    cases hf : rm.formats with
    | none => simp [hf] at hrm
    | payloadTypes pts =>
      simp only [hf, ne_eq, List.map_eq_nil_iff] at hrm
      simp [hrm]
    | strings fmts =>
      simp only [hf] at hrm
      obtain ⟨f, hmem⟩ := List.exists_mem_of_ne_nil _ hrm
      exact iff_of_true ⟨f, hmem, hmem⟩ rfl
  · cases hfind : c.transceivers.find? fun t => t.mid = rm.mid with
    | none => simp [SdpMedia.mlineFormats]
    | some t =>
      have hmline : SdpMedia.mlineFormats { t.toAnswerSdpMedia rm with
          connNettype := "IN".toList, connAddrtype := "IP4".toList,
          connAddr := "0.0.0.0".toList } =
          (answeredCodec t rm).elim [] fun codec => [toText codec.payloadType.toNat] := by
        simp only [SdpMedia.mlineFormats, toAnswerSdpMedia_formats, answerBase_formats]
        cases answeredCodec t rm <;> rfl
      simp only [hmline]
      cases hcodec : answeredCodec t rm <;> simp [hcodec]

theorem answerBase_kept (t : RtpTransceiver) (rm : SdpMedia) :
    (t.answerBase rm).mediaType = rm.mediaType ∧ (t.answerBase rm).proto = rm.proto := by
  have hfold : ∀ (l : List SdpRtpmap) (m : SdpMedia),
      (l.foldl SdpMedia.addRtpmap m).mediaType = m.mediaType ∧
        (l.foldl SdpMedia.addRtpmap m).proto = m.proto := by
    intro l
    induction l with
    | nil => exact fun _ => ⟨rfl, rfl⟩
    | cons c l ih =>
      intro m
      rw [List.foldl_cons, (ih _).1, (ih _).2]
      exact ⟨SdpMedia.addRtpmap_mediaType m c, SdpMedia.addRtpmap_proto m c⟩
  unfold RtpTransceiver.answerBase
  simp only []
  split
  · cases rm.rtpmaps.head? <;> simp [hfold]
  · exact hfold _ _

/-- What else an answered section has of the offered one. -/
theorem answerSection_kept (c : Connection) (rm : SdpMedia) :
    (c.answerSection rm).mediaType = rm.mediaType ∧ (c.answerSection rm).proto = rm.proto := by
  unfold answerSection
  split
  · exact ⟨rfl, rfl⟩
  · cases c.transceivers.find? fun t => t.mid = rm.mid with
    | none => exact ⟨rfl, rfl⟩
    | some t =>
      simp only [RtpTransceiver.toAnswerSdpMedia]
      split <;> exact answerBase_kept t rm

/-- An answer follows its offer exactly where each section with a format keeps one. -/
theorem answersOffer_iff (medias : List SdpMedia) :
    AnswersOffer medias (medias.map c.answerSection) ↔
      ∀ rm ∈ medias, rm.mlineFormats ≠ [] → c.KeepsFormat rm := by
  have hsections : (medias.map c.answerSection).map (fun m => (m.mid, m.mediaType, m.proto)) =
      medias.map fun m => (m.mid, m.mediaType, m.proto) := by
    rw [List.map_map]
    refine List.map_congr_left fun rm _ => ?_
    obtain ⟨htype, hproto⟩ := answerSection_kept c rm
    simp [htype, hproto]
  have hformats : (∀ p ∈ medias.zip (medias.map c.answerSection), p.1.mlineFormats ≠ [] →
      ∃ f ∈ p.2.mlineFormats, f ∈ p.1.mlineFormats) ↔
        ∀ rm ∈ medias, rm.mlineFormats ≠ [] → c.KeepsFormat rm := by
    rw [← List.map_prod_left_eq_zip, List.forall_mem_map]
    exact forall₂_congr fun rm _ => forall_congr' fun hrm => answerSection_format_iff hrm
  exact ⟨fun h => hformats.1 h.formats, fun h => ⟨hsections, hformats.2 h⟩⟩

/-- **What an answer says of an offer.**  An offer that `set_remote_description` accepts gets an
answer, and the answer has its sections, each with a format of the offered one where there is
any, exactly where each of these keeps one. -/
theorem createAnswer_answersOffer_iff {desc : SessionDescription}
    (ht : desc.sdpType = "offer".toList) (h : (c.setRemoteDescription desc).thrown = none) :
    ∃ answer, (c.setRemoteDescription desc).state.createAnswer = some answer ∧
      (AnswersOffer desc.medias answer.medias ↔
        ∀ rm ∈ desc.medias, rm.mlineFormats ≠ [] →
          (c.setRemoteDescription desc).state.KeepsFormat rm) := by
  rcases c.setRemoteDescription_cases desc with ⟨hthrown, -⟩ | ⟨-, hr, -, hcase⟩
  · exact absurd h hthrown
  · have hs : (c.setRemoteDescription desc).state.signalingState = .haveRemoteOffer := by
      rcases hcase with ⟨-, -, hs⟩ | ⟨-, hanswer, -⟩
      · exact hs
      · exact absurd (ht.symm.trans hanswer) (by decide)
    unfold createAnswer
    rw [hr]
    simp only [hs, ne_eq, not_true, if_false]
    exact ⟨_, rfl, answersOffer_iff desc.medias⟩

end Connection

/-- An offer of one audio section. -/
def audioOffer : SessionDescription where
  sdpType := "offer".toList
  groups := [⟨"BUNDLE".toList, ["0".toList]⟩]
  medias := [{ mid := "0".toList, mediaType := .audio, formats := .payloadTypes [111],
               rtpmaps := [{ payloadType := 111, name := "opus".toList }] }]

/-- A connection with a transceiver for audio answers with the offered format. -/
theorem createAnswer_answersOffer_opus :
    ∃ answer, @Connection.createAnswer asciiNoCase (@Connection.setRemoteDescription asciiNoCase
        { transceivers := [{ codec := { name := "opus".toList } }] } audioOffer).state =
          some answer ∧ AnswersOffer audioOffer.medias answer.medias := by
  obtain ⟨answer, hanswer, hiff⟩ := @Connection.createAnswer_answersOffer_iff asciiNoCase
    { transceivers := [{ codec := { name := "opus".toList } }] } audioOffer rfl (by decide)
  refine ⟨answer, hanswer, hiff.2 fun rm hrm _ => ?_⟩
  obtain rfl := List.mem_singleton.1 hrm
  exact ⟨_, { payloadType := 111, name := "opus".toList }, rfl, by decide, by decide⟩

/-- A connection without transceivers takes the offer, and answers without a format. -/
theorem not_answersOffer :
    (@Connection.setRemoteDescription asciiNoCase {} audioOffer).thrown = none ∧
      ∃ answer, @Connection.createAnswer asciiNoCase
          (@Connection.setRemoteDescription asciiNoCase {} audioOffer).state = some answer ∧
        ¬ AnswersOffer audioOffer.medias answer.medias := by
  refine ⟨by decide, _, rfl, fun h => ?_⟩
  obtain ⟨f, hf, -⟩ := h.formats _ (List.mem_cons_self ..) (by decide)
  exact absurd hf List.not_mem_nil

end AsioRtc
