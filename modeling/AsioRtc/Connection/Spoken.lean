/-
# The sections a connection makes

Every section of an offer or an answer that a connection makes can be read from its text
(`SdpMedia.Spoken`), where what the application and the other side have put into the transceivers
can (`RtpTransceiver.Spoken`): msids, track ids and rids are single words, the parameters of codecs
are trimmed, and mids are single words.
-/

import AsioRtc.Connection.Application
import AsioRtc.Sdp.Wire

namespace AsioRtc

open Lib Text

/-! ### Texts -/

/-- A word, a sign and a word. -/
theorem trimmed_joined {s t : Text} {c : Char} (hs : Token s) (ht : Token t) (hc : c ≠ '\n') :
    Trimmed (s ++ c :: t) :=
  ⟨.append_cons hs.trimmed.newline hc ht.trimmed.toValue ht.1, hs.trimmed.starts.append hs.1⟩

/-- The parameters of a codec stay trimmed. -/
theorem trimmed_addParam {c : SdpRtpmap} {name value : Text} (hc : Trimmed c.params)
    (hn : Token name) (hv : Token value) : Trimmed (c.addParam name value).params := by
  have hpair : Trimmed (name ++ '=' :: value) := trimmed_joined hn hv (by decide)
  unfold SdpRtpmap.addParam
  split
  · exact hpair
  · rename_i hne
    split
    · -- Behind the others.
      have hlast : Value (';' :: name ++ '=' :: value) :=
        .append_cons (by simp [hn.trimmed.newline]) (by decide) hv.trimmed.toValue hv.1
      have hall : c.params ++ ';' :: name ++ '=' :: value =
          c.params ++ (';' :: name ++ '=' :: value) := List.append_assoc ..
      exact hall ▸ ⟨.append hc.newline hlast (by simp), hc.starts.append hne⟩
    · rename_i pos hpos
      split
      · -- In the place of the value that was there.
        have hpre : c.params.take (pos + name.length + 1) <+: c.params := List.take_prefix ..
        have hsuf : (c.params.drop (pos + name.length + 1)).dropWhile (· ≠ ';') <:+ c.params :=
          (List.dropWhile_suffix _).trans (List.drop_suffix ..)
        have hne' : c.params.take (pos + name.length + 1) ≠ [] := by
          simp [List.take_eq_nil_iff, hne]
        have hnl : '\n' ∉ c.params.take (pos + name.length + 1) := fun hm =>
          hc.newline (hpre.subset hm)
        show Trimmed (c.params.take (pos + name.length + 1) ++ value ++ _)
        generalize (c.params.drop (pos + name.length + 1)).dropWhile (· ≠ ';') = rest at hsuf
        have hrest : Value (value ++ rest) := by
          by_cases hr : rest = []
          · rw [hr, List.append_nil]
            exact hv.trimmed.toValue
          · exact .append hv.trimmed.newline (hc.toValue.of_suffix hsuf) hr
        rw [List.append_assoc]
        exact ⟨.append hnl hrest (by simp [hv.1]), (hc.starts.of_front hpre).append hne'⟩
      · exact hc

/-! ### Sections and transceivers -/

/-- A section that can be read from its text, with a mid. -/
structure SdpMedia.Spoken [NoCaseEq] (m : SdpMedia) : Prop where
  onWire : m.onWire.WellFormed
  clean : m.onWire.Clean
  mid : Token m.mid
  msids : checkMsid m = true
  conn : m.ConnLine

/-- What is written of a transceiver is in words. -/
structure RtpTransceiver.Spoken (t : RtpTransceiver) : Prop where
  mid : t.mid = [] ∨ Token t.mid
  codec : t.codec.WellFormed
  msids : ∀ ms ∈ t.sender.msids, Token ms
  trackId : ∀ id ∈ t.sender.trackId, Token id
  rids : ∀ rid ∈ t.sender.rids, rid ≠ [] → Token rid

variable [NoCaseEq]

/-- A section that is offered as rejected. -/
theorem SdpMedia.Spoken.rejected {m : SdpMedia} (h : m.Spoken) :
    SdpMedia.Spoken { m with port := 0, direction := .inactive } where
  onWire := { h.onWire with }
  clean := { h.clean with }
  mid := h.mid
  msids := h.msids
  conn := { h.conn with }

/-! ### Offered sections -/

/-- The extensions that are offered. -/
def ownExtmaps : List SdpExtmap :=
  [{ id := 1, uri := RtpTransceiver.midUri }, { id := 2, uri := RtpTransceiver.ridUri },
    { id := 3, uri := RtpTransceiver.absSendTimeUri },
    { id := 4, uri := RtpTransceiver.transportCcUri }]

omit [NoCaseEq] in
theorem ownExtmaps_wellFormed : ∀ e ∈ ownExtmaps, e.WellFormed := by
  have hown : ∀ e ∈ ownExtmaps, ' ' ∉ e.uri ∧ '\n' ∉ e.uri ∧ e.attributes = [] ∧ e.uri ≠ [] ∧
      EndsClean e.uri := by decide
  intro e he
  obtain ⟨hblank, hnl, hattrs, hne, hends⟩ := hown e he
  exact ⟨hblank, hnl, hattrs ▸ .nil, fun _ => ⟨hne, hends⟩⟩

/-- The feedback that is offered for video. -/
def ownFeedback (pt : U8) : List SdpRtcpFb :=
  [{ payloadType := some pt, type := "nack".toList },
    { payloadType := some pt, type := "nack".toList, subtype := "pli".toList },
    { payloadType := some pt, type := "goog-remb".toList }]

omit [NoCaseEq] in
theorem ownFeedback_wellFormed (pt : U8) : ∀ fb ∈ ownFeedback pt, fb.WellFormed := by
  have hown : ∀ fb ∈ ownFeedback pt, fb.type ∈ ["nack".toList, "goog-remb".toList] ∧
      fb.subtype ∈ [[], "pli".toList] := by simp [ownFeedback]
  have htypes : ∀ t ∈ ["nack".toList, "goog-remb".toList], Token t := by decide
  have hsubtypes : ∀ t ∈ [[], "pli".toList], StartsClean t ∧ EndsClean t ∧ '\n' ∉ t := by decide
  intro fb hfb
  obtain ⟨htype, hsubtype⟩ := hown fb hfb
  have ht := htypes _ htype
  obtain ⟨hs, he, hnl⟩ := hsubtypes _ hsubtype
  exact ⟨ht.1, ht.blank, ht.trimmed.newline, ht.trimmed.starts, ⟨⟨he, hnl⟩, hs⟩,
    fun _ => ht.trimmed.ends⟩

omit [NoCaseEq] in
theorem ownFeedback_apart (pt : U8) : (ownFeedback pt).Pairwise Apart := by
  simp [ownFeedback, Apart, SdpMedia.sameFeedback]

namespace RtpTransceiver

variable {t : RtpTransceiver} {mid : Text}

/-- The section of a transceiver before it is known whether it is stopped. -/
theorem offerBase_eq (t : RtpTransceiver) (mid : Text) : t.offerBase mid =
    { mid := mid
      port := 9
      proto := .UDP_TLS_RTP_SAVPF
      connNettype := "IN".toList
      connAddrtype := "IP4".toList
      connAddr := "0.0.0.0".toList
      mediaType := getMediaType t.kind
      rtcpMux := true
      formats := .payloadTypes [t.codec.payloadType]
      rtpmaps := [t.codec] } := rfl

omit [NoCaseEq] in
/-- What a section of video has besides. -/
theorem offerVideo_eq {m : SdpMedia} {codec : SdpRtpmap} (hmaps : m.rtpmaps = [codec])
    (hformats : m.formats = .payloadTypes [codec.payloadType]) (hfbs : m.rtcpFbs = []) :
    offerVideo codec m =
      { m with
        rtpmaps := [codec, rtxRtpmap codec]
        formats := .payloadTypes [codec.payloadType, codec.payloadType + 1]
        extmaps := ownExtmaps
        rtcpFbs := ownFeedback codec.payloadType } := by
  have hne : codec.payloadType ≠ (rtxRtpmap codec).payloadType := by
    rw [rtxRtpmap_payloadType]
    bv_omega
  have hadd : m.addRtpmap (rtxRtpmap codec) =
      { m with
        rtpmaps := [codec, rtxRtpmap codec]
        formats := .payloadTypes [codec.payloadType, codec.payloadType + 1] } := by
    rw [SdpMedia.addRtpmap, SdpMedia.findRtpmap, SdpMedia.payloadTypes, hmaps, hformats,
      List.find?_cons_of_neg (by simpa using hne)]
    rfl
  rw [offerVideo, hadd]
  simp [SdpMedia.addFeedback, SdpMedia.sameFeedback, hfbs, ownExtmaps, ownFeedback]

/-- The section of a transceiver that is not stopped, for video. -/
theorem offerLive_video (h : t.kind = .video) : t.offerLive mid =
    { mid := mid
      port := 9
      proto := .UDP_TLS_RTP_SAVPF
      connNettype := "IN".toList
      connAddrtype := "IP4".toList
      connAddr := "0.0.0.0".toList
      mediaType := getMediaType t.kind
      rtcpMux := true
      direction := t.direction
      msids := t.offerMsids
      formats := .payloadTypes [t.codec.payloadType, t.codec.payloadType + 1]
      rtpmaps := [t.codec, rtxRtpmap t.codec]
      extmaps := ownExtmaps
      rtcpFbs := ownFeedback t.codec.payloadType } :=
  (if_pos h).trans (offerVideo_eq rfl rfl rfl)

/-- The section of a transceiver that is not stopped, for audio. -/
theorem offerLive_audio (h : ¬ t.kind = .video) : t.offerLive mid =
    { mid := mid
      port := 9
      proto := .UDP_TLS_RTP_SAVPF
      connNettype := "IN".toList
      connAddrtype := "IP4".toList
      connAddr := "0.0.0.0".toList
      mediaType := getMediaType t.kind
      rtcpMux := true
      direction := t.direction
      msids := t.offerMsids
      formats := .payloadTypes [t.codec.payloadType]
      rtpmaps := [t.codec]
      extmaps := [{ id := 1, uri := midUri }, { id := 4, uri := transportCcUri }] } :=
  if_neg h

omit [NoCaseEq] in
/-- The codec of the retransmissions. -/
theorem rtxRtpmap_wellFormed (codec : SdpRtpmap) : (rtxRtpmap codec).WellFormed := by
  refine ⟨?_, ?_, ?_, ?_⟩
  · rw [rtxRtpmap_name]
    decide
  · rw [rtxRtpmap_name]
    decide
  · rw [rtxRtpmap_name]
    decide
  · exact trimmed_addParam .nil (by decide) (token_toText _)

omit [NoCaseEq] in
/-- The streams of an offered section. -/
theorem Spoken.offerMsids (ht : t.Spoken) : ∀ a ∈ t.offerMsids, a.WellFormed := by
  intro a ha
  unfold RtpTransceiver.offerMsids at ha
  cases hid : t.sender.trackId with
  | none =>
    rw [hid] at ha
    cases ha
  | some id =>
    rw [hid] at ha
    obtain ⟨ms, hms, rfl⟩ := List.mem_map.1 ha
    have hword := ht.msids ms hms
    have htrack := ht.trackId id hid
    exact ⟨hword.blank, hword.trimmed.newline, htrack.trimmed, fun h => absurd h htrack.1⟩

omit [NoCaseEq] in
/-- They are of one track. -/
theorem offerMsids_track (t : RtpTransceiver) :
    ∀ a ∈ t.offerMsids, ∀ b ∈ t.offerMsids, a.trackId = b.trackId := by
  unfold offerMsids
  cases t.sender.trackId with
  | none => exact fun a ha => absurd ha List.not_mem_nil
  | some id =>
    intro a ha b hb
    obtain ⟨ms, -, rfl⟩ := List.mem_map.1 ha
    obtain ⟨ms', -, rfl⟩ := List.mem_map.1 hb
    rfl

end RtpTransceiver

omit [NoCaseEq] in
theorem checkMsid_of_track {m : SdpMedia}
    (h : ∀ a ∈ m.msids, ∀ b ∈ m.msids, a.trackId = b.trackId) : checkMsid m = true := by
  unfold checkMsid
  split
  · rfl
  · rename_i first rest heq
    refine List.all_eq_true.2 fun a ha => decide_eq_true ?_
    rw [heq] at h
    exact h a (List.mem_cons_of_mem _ ha) first (List.mem_cons_self ..)

/-- What is written of the connection itself is in words. -/
structure Connection.AgentSpoken (c : Connection) : Prop where
  username : Trimmed c.localUsername
  password : Trimmed c.localPassword
  fingerprint : c.fingerprint.WellFormed

/-- A section for media as a connection makes it. -/
structure SdpMedia.Made (c : Connection) (m : SdpMedia) : Prop where
  iceUfrag : m.iceUfrag = [] ∨ m.iceUfrag = c.localUsername
  icePwd : m.icePwd = [] ∨ m.icePwd = c.localPassword
  fingerprints : ∀ fp ∈ m.fingerprints, fp = c.fingerprint
  connNettype : m.connNettype = "IN".toList
  connAddrtype : m.connAddrtype = "IP4".toList
  connAddr : m.connAddr = "0.0.0.0".toList
  others : m.iceOptions = [] ∧ m.candidates = [] ∧ m.rtcp = none ∧ m.ssrcGroups = [] ∧
    m.cryptos = [] ∧ m.simulcast = {} ∧ m.attributes = []

/-- **A section that a connection makes** is spoken where its streams, codecs, extensions and
feedback are. -/
theorem SdpMedia.Made.spoken {c : Connection} {m : SdpMedia} (h : m.Made c) (hc : c.AgentSpoken)
    (hmid : Token m.mid) (hmsids : ∀ a ∈ m.msids, a.WellFormed) (hcheck : checkMsid m = true)
    (hext : ∀ e ∈ m.extmaps, e.WellFormed) (hcodecs : ∀ r ∈ m.rtpmaps, r.WellFormed)
    (hpayloads : (m.rtpmaps.map SdpRtpmap.payloadType).Nodup)
    (hformats : FormatsOf m.mediaType m.rtpmaps (m.onWire).formats)
    (hfbs : ∀ fb ∈ m.rtcpFbs, fb.WellFormed) (hapart : m.rtcpFbs.Pairwise Apart)
    (hfeedback : ∀ fb ∈ m.rtcpFbs, ∀ pt, fb.payloadType = some pt → m.HasCodec pt)
    (hssrcs : ∀ a ∈ m.ssrcs, a.WellFormed ∧ a.Clean) (hrids : ∀ a ∈ m.rids, a.WellFormed) :
    m.Spoken := by
  obtain ⟨hoptions, hcandidates, hrtcp, hgroups, hcryptos, hsimulcast, hattributes⟩ := h.others
  refine ⟨⟨hmid.trimmed, ?_, ?_, ?_, hmsids, ?_, ?_, ?_, hext, hcodecs, hpayloads, hformats, hfbs,
    hapart, fun a ha => (hssrcs a ha).1, ?_, ?_, ?_, hrids, ?_, ⟨rfl, rfl, rfl⟩⟩,
    ⟨fun a ha => (hssrcs a ha).2, ?_, hfeedback⟩, hmid, hcheck, ⟨?_, ?_, ?_⟩⟩
  · show Trimmed m.iceUfrag
    rcases h.iceUfrag with h | h
    · exact h ▸ .nil
    · exact h ▸ hc.username
  · show Trimmed m.icePwd
    rcases h.icePwd with h | h
    · exact h ▸ .nil
    · exact h ▸ hc.password
  · show OptionWords m.iceOptions
    rw [hoptions]
    exact ⟨.nil, by simp⟩
  · show ∀ c ∈ m.candidates, CandidateText c
    rw [hcandidates]
    exact fun _ h => absurd h List.not_mem_nil
  · exact fun fp hfp => h.fingerprints fp hfp ▸ hc.fingerprint
  · show ∀ a ∈ m.rtcp, a.WellFormed
    rw [hrtcp]
    exact fun _ h => (by cases h)
  · show ∀ a ∈ m.ssrcGroups, a.WellFormed
    rw [hgroups]
    exact fun _ h => absurd h List.not_mem_nil
  · show ∀ a ∈ m.cryptos, a.WellFormed
    rw [hcryptos]
    exact fun _ h => absurd h List.not_mem_nil
  · show m.simulcast.WellFormed
    rw [hsimulcast]
    exact SdpSimulcast.wellFormed_empty
  · show ∀ a ∈ m.attributes, OtherAttr mediaAttrNames a
    rw [hattributes]
    exact fun _ h => absurd h List.not_mem_nil
  · show ∀ a ∈ m.attributes, a.2 = [] → EndsClean a.1
    rw [hattributes]
    exact fun _ h => absurd h List.not_mem_nil
  · rw [h.connNettype]
    decide
  · rw [h.connAddrtype]
    decide
  · rw [h.connAddr]
    decide

namespace Connection

variable {c : Connection} {t : RtpTransceiver} {mid : Text}

/-- The section of a transceiver in an offer: the codecs, and what the transceiver adds. -/
theorem mediaSection_cases (c : Connection) (t : RtpTransceiver) (mid : Text) :
    (c.mediaSection t mid).Made c ∧ (c.mediaSection t mid).mid = mid ∧
      (c.mediaSection t mid).ssrcs = [] ∧
      ((c.mediaSection t mid).msids = [] ∨ (c.mediaSection t mid).msids = t.offerMsids) ∧
      (c.mediaSection t mid).extmaps ⊆ ownExtmaps ∧
      ((c.mediaSection t mid).rids = [] ∨ (c.mediaSection t mid).rids =
        (t.sender.rids.filter (· ≠ [])).map fun rid => { id := rid }) ∧
      (((c.mediaSection t mid).rtpmaps = [t.codec] ∧
          (c.mediaSection t mid).formats = .payloadTypes [t.codec.payloadType] ∧
          (c.mediaSection t mid).rtcpFbs = []) ∨
        ((c.mediaSection t mid).rtpmaps = [t.codec, RtpTransceiver.rtxRtpmap t.codec] ∧
          (c.mediaSection t mid).formats =
            .payloadTypes [t.codec.payloadType, t.codec.payloadType + 1] ∧
          (c.mediaSection t mid).rtcpFbs = ownFeedback t.codec.payloadType)) := by
  have haudio : [({ id := 1, uri := RtpTransceiver.midUri } : SdpExtmap),
      { id := 4, uri := RtpTransceiver.transportCcUri }] ⊆ ownExtmaps := by decide
  have hfp : ∀ fp ∈ [c.fingerprint], fp = c.fingerprint := fun fp h => List.mem_singleton.1 h
  unfold mediaSection RtpTransceiver.toOfferSdpMedia
  split
  · rw [RtpTransceiver.offerBase_eq]
    exact ⟨⟨.inr rfl, .inr rfl, hfp, rfl, rfl, rfl, rfl, rfl, rfl, rfl, rfl, rfl, rfl⟩, rfl, rfl,
      .inl rfl, List.nil_subset _, .inl rfl, .inl ⟨rfl, rfl, rfl⟩⟩
  · by_cases hvideo : t.kind = .video
    · rw [RtpTransceiver.offerLive_video hvideo]
      simp only []
      split
      · exact ⟨⟨.inr rfl, .inr rfl, hfp, rfl, rfl, rfl, rfl, rfl, rfl, rfl, rfl, rfl, rfl⟩, rfl,
          rfl, .inr rfl, List.Subset.refl _, .inr rfl, .inr ⟨rfl, rfl, rfl⟩⟩
      · exact ⟨⟨.inr rfl, .inr rfl, hfp, rfl, rfl, rfl, rfl, rfl, rfl, rfl, rfl, rfl, rfl⟩, rfl,
          rfl, .inr rfl, List.Subset.refl _, .inl rfl, .inr ⟨rfl, rfl, rfl⟩⟩
    · rw [RtpTransceiver.offerLive_audio hvideo]
      simp only []
      split
      · exact ⟨⟨.inr rfl, .inr rfl, hfp, rfl, rfl, rfl, rfl, rfl, rfl, rfl, rfl, rfl, rfl⟩, rfl,
          rfl, .inr rfl, haudio, .inr rfl, .inl ⟨rfl, rfl, rfl⟩⟩
      · exact ⟨⟨.inr rfl, .inr rfl, hfp, rfl, rfl, rfl, rfl, rfl, rfl, rfl, rfl, rfl, rfl⟩, rfl,
          rfl, .inr rfl, haudio, .inl rfl, .inl ⟨rfl, rfl, rfl⟩⟩

/-- **The section of a transceiver can be read.** -/
theorem mediaSection_spoken (hc : c.AgentSpoken) (ht : t.Spoken) (hmid : Token mid) :
    (c.mediaSection t mid).Spoken := by
  obtain ⟨hmade, hmid', hssrcs, hmsids, hext, hrids, hcodecs⟩ := c.mediaSection_cases t mid
  have hown : (c.mediaSection t mid).onWire.formats = (c.mediaSection t mid).formats := by
    rcases hcodecs with ⟨-, hf, -⟩ | ⟨-, hf, -⟩ <;>
    · rw [SdpMedia.onWire, hf]
      rfl
  have hids : ∀ a ∈ (c.mediaSection t mid).rids, a.WellFormed := by
    rcases hrids with h | h
    · simp [h]
    · rw [h]
      intro a ha
      obtain ⟨rid, hrid, rfl⟩ := List.mem_map.1 ha
      obtain ⟨hmem, hne⟩ := List.mem_filter.1 hrid
      exact ⟨ht.rids rid hmem (by simpa using hne), fun e he => absurd he (by simp [OrdMap.empty])⟩
  have hstreams : (∀ a ∈ (c.mediaSection t mid).msids, a.WellFormed) ∧
      checkMsid (c.mediaSection t mid) = true := by
    rcases hmsids with h | h
    · exact ⟨by simp [h], checkMsid_of_track (by simp [h])⟩
    · exact ⟨h ▸ ht.offerMsids, checkMsid_of_track (h ▸ t.offerMsids_track)⟩
  refine hmade.spoken hc (by rwa [hmid']) hstreams.1 hstreams.2
    (fun e he => ownExtmaps_wellFormed e (hext he)) ?_ ?_ ?_ ?_ ?_ ?_ (by simp [hssrcs]) hids
  · rcases hcodecs with ⟨hm, -, -⟩ | ⟨hm, -, -⟩
    · rw [hm]
      exact fun r hr => List.mem_singleton.1 hr ▸ ht.codec
    · rw [hm]
      intro r hr
      rcases List.mem_pair.1 hr with rfl | rfl
      · exact ht.codec
      · exact RtpTransceiver.rtxRtpmap_wellFormed _
  · rcases hcodecs with ⟨hm, -, -⟩ | ⟨hm, -, -⟩
    · simp [hm]
    · have hne : t.codec.payloadType ≠ t.codec.payloadType + 1 := by bv_omega
      rw [hm, List.map_cons, List.map_singleton, RtpTransceiver.rtxRtpmap_payloadType]
      exact List.nodup_cons.2 ⟨fun h => hne (List.mem_singleton.1 h), List.nodup_singleton _⟩
  · rw [hown]
    rcases hcodecs with ⟨hm, hf, -⟩ | ⟨hm, hf, -⟩
    · rw [hm, hf]
      exact .payloadTypes (List.cons_ne_nil _ _)
    · rw [hm, hf]
      exact .payloadTypes (List.cons_ne_nil _ _)
  · rcases hcodecs with ⟨-, -, h⟩ | ⟨-, -, h⟩
    · simp [h]
    · rw [h]
      exact ownFeedback_wellFormed _
  · rcases hcodecs with ⟨-, -, h⟩ | ⟨-, -, h⟩
    · simp [h]
    · rw [h]
      exact ownFeedback_apart _
  · rcases hcodecs with ⟨-, -, h⟩ | ⟨hm, -, h⟩
    · simp [h]
    · intro fb hfb pt hpt
      rw [h] at hfb
      refine ⟨t.codec, by simp [hm], ?_⟩
      simp only [ownFeedback, List.mem_cons, List.not_mem_nil, or_false] at hfb
      rcases hfb with rfl | rfl | rfl <;> exact Option.some.inj hpt

/-- **The section of the data channels can be read.** -/
theorem sctpSection_spoken (hc : c.AgentSpoken) (hmid : Token mid) :
    (c.sctpSection mid).Spoken := by
  have hmade : (c.sctpSection mid).Made c :=
    ⟨.inr rfl, .inr rfl, fun fp h => List.mem_singleton.1 h, rfl, rfl, rfl, rfl, rfl, rfl, rfl, rfl,
      rfl, rfl⟩
  refine hmade.spoken hc hmid (fun _ h => absurd h List.not_mem_nil) rfl
    (fun _ h => absurd h List.not_mem_nil) (fun _ h => absurd h List.not_mem_nil) List.nodup_nil
    ?_ (fun _ h => absurd h List.not_mem_nil) List.Pairwise.nil
    (fun _ h => absurd h List.not_mem_nil) (fun _ h => absurd h List.not_mem_nil)
    (fun _ h => absurd h List.not_mem_nil)
  exact .strings rfl (by decide) rfl (by decide)

/-! ### Answered sections -/

end Connection

/-- A section of a description that `parse_sdp` has accepted, with a mid of one word and streams of
one track. -/
structure SdpMedia.Heard (m : SdpMedia) : Prop where
  wellFormed : m.WellFormed
  mid : Token m.mid
  msids : checkMsid m = true

namespace RtpTransceiver

variable {t : RtpTransceiver} {rm : SdpMedia}

/-- The codecs of an answer: at most one, which is an offered one. -/
theorem answerBase_codecs (t : RtpTransceiver) (rm : SdpMedia) :
    ∃ rtpmaps formats, t.answerBase rm =
        { mid := t.mid
          mediaType := rm.mediaType
          proto := rm.proto
          connNettype := "IN".toList
          connAddrtype := "IP4".toList
          connAddr := "0.0.0.0".toList
          rtcpMux := rm.rtcpMux
          msids := rm.msids
          direction := negotiateDirection t.direction rm.direction
          rtpmaps := rtpmaps
          formats := formats } ∧
      (rtpmaps = [] ∧ formats = .none ∨
        ∃ r ∈ rm.rtpmaps, rtpmaps = [r] ∧ formats = .payloadTypes [r.payloadType]) := by
  unfold answerBase matchOfferRtpmaps
  cases hfind : rm.rtpmaps.find? fun c => SdpRtpmap.isMatch t.codec c with
  | some r => exact ⟨_, _, rfl, .inr ⟨r, List.mem_of_find?_eq_some hfind, rfl, rfl⟩⟩
  | none =>
    cases hhead : rm.rtpmaps.head? with
    | none => exact ⟨_, _, rfl, .inl ⟨rfl, rfl⟩⟩
    | some r => exact ⟨_, _, rfl, .inr ⟨r, List.mem_of_head? hhead, rfl, rfl⟩⟩

omit [NoCaseEq] in
/-- The sources of an answered section. -/
theorem Spoken.answerSsrcs (ht : t.Spoken) (hmid : Token t.mid) :
    ∀ a ∈ t.answerSsrcs, a.WellFormed ∧ a.Clean := by
  have htrack : Token (t.sender.trackId.getD t.mid) := by
    cases hid : t.sender.trackId with
    | none => exact hmid
    | some id => exact ht.trackId id hid
  have hnames : ∀ name ∈ ["cname".toList, "msid".toList], ':' ∉ name ∧ '\n' ∉ name := by decide
  have hcname : Token "asiortc".toList := by decide
  intro a ha
  unfold RtpTransceiver.answerSsrcs at ha
  split at ha
  · exact absurd ha List.not_mem_nil
  · rcases List.mem_cons.1 ha with rfl | ha
    · obtain ⟨hcolon, hnl⟩ := hnames "cname".toList (by simp)
      exact ⟨⟨hcolon, hnl, hcname.trimmed.toValue⟩, fun h => absurd h hcname.1⟩
    · obtain ⟨ms, hms, rfl⟩ := List.mem_map.1 ha
      have hvalue := trimmed_joined (ht.msids ms hms) htrack (c := ' ') (by decide)
      obtain ⟨hcolon, hnl⟩ := hnames "msid".toList (by simp)
      exact ⟨⟨hcolon, hnl, hvalue.toValue⟩, fun h => absurd h (by simp)⟩

/-- The section of an answer: its codecs, and what the transceiver adds. -/
theorem toAnswerSdpMedia_made (c : Connection) (t : RtpTransceiver) (rm : SdpMedia) :
    (t.toAnswerSdpMedia rm).Made c ∧ (t.toAnswerSdpMedia rm).mid = t.mid ∧
      (t.toAnswerSdpMedia rm).mediaType = rm.mediaType ∧
      (t.toAnswerSdpMedia rm).msids = rm.msids ∧
      (t.toAnswerSdpMedia rm).extmaps ⊆ rm.extmaps ∧
      (t.toAnswerSdpMedia rm).ssrcs ⊆ t.answerSsrcs ∧
      (t.toAnswerSdpMedia rm).rtcpFbs = [] ∧ (t.toAnswerSdpMedia rm).rids = [] ∧
      ((t.toAnswerSdpMedia rm).rtpmaps = [] ∧ (t.toAnswerSdpMedia rm).formats = .none ∨
        ∃ r ∈ rm.rtpmaps, (t.toAnswerSdpMedia rm).rtpmaps = [r] ∧
          (t.toAnswerSdpMedia rm).formats = .payloadTypes [r.payloadType]) := by
  obtain ⟨rtpmaps, formats, hbase, hcodecs⟩ := t.answerBase_codecs rm
  have hmade {m : SdpMedia} (h : m = t.answerBase rm) (port : U16) (d : SdpDirection)
      (ssrcs : List SdpSsrc) (extmaps : List SdpExtmap) : SdpMedia.Made c
      { m with port := port, direction := d, ssrcs := ssrcs, extmaps := extmaps } := by
    rw [h, hbase]
    exact ⟨.inl rfl, .inl rfl, fun _ h => absurd h List.not_mem_nil, rfl, rfl, rfl, rfl, rfl, rfl,
      rfl, rfl, rfl, rfl⟩
  unfold toAnswerSdpMedia
  simp only []
  split
  · refine ⟨hmade rfl 0 .inactive (t.answerBase rm).ssrcs (t.answerBase rm).extmaps, ?_⟩
    rw [hbase]
    exact ⟨rfl, rfl, rfl, List.nil_subset _, List.nil_subset _, rfl, rfl, hcodecs⟩
  · refine ⟨?_, ?_⟩
    · rw [hbase]
      exact ⟨.inl rfl, .inl rfl, fun _ h => absurd h List.not_mem_nil, rfl, rfl, rfl, rfl, rfl, rfl,
        rfl, rfl, rfl, rfl⟩
    · rw [hbase]
      exact ⟨rfl, rfl, rfl, List.Subset.refl _, List.Subset.refl _, rfl, rfl, hcodecs⟩

end RtpTransceiver

namespace Connection

variable {c : Connection} {rm : SdpMedia}

/-- **The answer to a section can be read.** -/
theorem answerSection_spoken (hc : c.AgentSpoken) (hts : ∀ t ∈ c.transceivers, t.Spoken)
    (hrm : rm.Heard) : (c.answerSection rm).Spoken := by
  unfold answerSection
  split
  · rename_i htype
    have hmade (formats : SdpFormats) : SdpMedia.Made c
        { mid := rm.mid, mediaType := rm.mediaType, port := 9, proto := rm.proto
          formats := formats
          connNettype := "IN".toList, connAddrtype := "IP4".toList, connAddr := "0.0.0.0".toList
          direction := rm.direction, sctpPort := rm.sctpPort } :=
      ⟨.inl rfl, .inl rfl, fun _ h => absurd h List.not_mem_nil, rfl, rfl, rfl, rfl, rfl, rfl, rfl,
        rfl, rfl, rfl⟩
    refine (hmade _).spoken hc hrm.mid (fun _ h => absurd h List.not_mem_nil) rfl
      (fun _ h => absurd h List.not_mem_nil) (fun _ h => absurd h List.not_mem_nil) List.nodup_nil
      ?_ (fun _ h => absurd h List.not_mem_nil) List.Pairwise.nil
      (fun _ h => absurd h List.not_mem_nil) (fun _ h => absurd h List.not_mem_nil)
      (fun _ h => absurd h List.not_mem_nil)
    have hformats := hrm.wellFormed.formats
    show FormatsOf rm.mediaType [] (SdpMedia.onWire _).formats
    rw [SdpMedia.onWire]
    simp only []
    generalize rm.formats = formats at hformats
    cases hformats with
    | payloadTypes hne => exact .none rfl
    | none hnil => exact .none rfl
    | strings hnil hne ht hf =>
      rw [if_neg fun h => hne (SdpFormats.strings.inj h)]
      exact .strings rfl hne ht hf
  · cases hfind : c.transceivers.find? fun t => t.mid = rm.mid with
    | none =>
      have hmade : SdpMedia.Made c
          { mid := rm.mid, mediaType := rm.mediaType, port := 0, proto := rm.proto
            direction := .inactive, connNettype := "IN".toList, connAddrtype := "IP4".toList
            connAddr := "0.0.0.0".toList } :=
        ⟨.inl rfl, .inl rfl, fun _ h => absurd h List.not_mem_nil, rfl, rfl, rfl, rfl, rfl, rfl,
          rfl, rfl, rfl, rfl⟩
      exact hmade.spoken hc hrm.mid (fun _ h => absurd h List.not_mem_nil) rfl
        (fun _ h => absurd h List.not_mem_nil) (fun _ h => absurd h List.not_mem_nil) List.nodup_nil
        (.none rfl) (fun _ h => absurd h List.not_mem_nil) List.Pairwise.nil
        (fun _ h => absurd h List.not_mem_nil) (fun _ h => absurd h List.not_mem_nil)
        (fun _ h => absurd h List.not_mem_nil)
    | some t =>
      have ht := hts t (List.mem_of_find?_eq_some hfind)
      have hmid : t.mid = rm.mid := by simpa using List.find?_some hfind
      obtain ⟨hmade, hmid', htype, hmsids, hext, hssrcs, hfbs, hrids, hcodecs⟩ :=
        t.toAnswerSdpMedia_made c rm
      have haddr : { t.toAnswerSdpMedia rm with
          connNettype := "IN".toList, connAddrtype := "IP4".toList
          connAddr := "0.0.0.0".toList } = t.toAnswerSdpMedia rm := by
        have h₁ := hmade.connNettype
        have h₂ := hmade.connAddrtype
        have h₃ := hmade.connAddr
        generalize t.toAnswerSdpMedia rm = m at h₁ h₂ h₃
        cases m
        simp only at h₁ h₂ h₃
        rw [h₁, h₂, h₃]
      simp only [haddr]
      have hnone : (t.toAnswerSdpMedia rm).onWire.formats = (t.toAnswerSdpMedia rm).formats := by
        rcases hcodecs with ⟨-, hf⟩ | ⟨r, -, -, hf⟩ <;>
        · rw [SdpMedia.onWire, hf]
          rfl
      refine hmade.spoken hc (by rw [hmid', hmid]; exact hrm.mid)
        (hmsids ▸ hrm.wellFormed.msids) ?_ (fun e he => hrm.wellFormed.extmaps e (hext he)) ?_ ?_ ?_
        (by simp [hfbs]) (by simp [hfbs]) (by simp [hfbs])
        (fun a ha => ht.answerSsrcs (hmid ▸ hrm.mid) a (hssrcs ha)) (by simp [hrids])
      · have hcheck := hrm.msids
        rwa [checkMsid, ← hmsids] at hcheck
      · rcases hcodecs with ⟨hm, -⟩ | ⟨r, hr, hm, -⟩
        · simp [hm]
        · rw [hm]
          exact fun r' hr' => List.mem_singleton.1 hr' ▸ hrm.wellFormed.rtpmaps r hr
      · rcases hcodecs with ⟨hm, -⟩ | ⟨r, hr, hm, -⟩ <;> simp [hm]
      · rw [hnone]
        rcases hcodecs with ⟨hm, hf⟩ | ⟨r, hr, hm, hf⟩
        · rw [hm, hf]
          exact .none rfl
        · rw [hm, hf]
          exact .payloadTypes (List.cons_ne_nil _ _)

end Connection

end AsioRtc
