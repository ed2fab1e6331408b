/-
# The codecs of a section

`apply_media_attr` of `src/sdp.cpp` builds the codecs of a section from its `a=rtpmap`
and `a=fmtp` lines alone: a codec is there from its first line on, and the last
parameters count (`SectionRun.rtpmaps_eq`, `codecsOf`).

So the payload types of a section are those of its `a=rtpmap` lines, each one where it
comes first, and the numbers of the `m=` line play no part (`parseSdp_payloadTypes`).

`a=fmtp` for a codec that is not there yet rejects the text.  Up to that the order of
the lines is free: with the `a=rtpmap` lines in their order and the `a=fmtp` lines in
theirs, a section whose lines are in another order is accepted or rejected alike, with
the same codecs (`parseSdp_reordered`).
-/

import AsioRtc.Sdp.Bodies

namespace AsioRtc

open Lib Text

/-! ### What the lines say -/

/-- A codec is added, where there is none of its payload type. -/
def addCodec (cs : List SdpRtpmap) (c : SdpRtpmap) : List SdpRtpmap :=
  if c.payloadType ∈ cs.map SdpRtpmap.payloadType then cs else cs ++ [c]

/-- The first codec of each payload type. -/
def firstCodecs (cs : List SdpRtpmap) : List SdpRtpmap := cs.foldl addCodec []

/-- A codec with the last of its parameters. -/
def withParams (fs : List (U8 × Text)) (c : SdpRtpmap) : SdpRtpmap :=
  { c with
    params := ((fs.filter fun f => f.1 = c.payloadType).getLast?.map Prod.snd).getD c.params }

/-- **The codecs that the lines of a section say.** -/
def codecsOf (ls : List Text) : List SdpRtpmap :=
  (firstCodecs (ls.filterMap codecLine)).map (withParams (ls.filterMap fmtpLine))

/-- The payload types of the `a=rtpmap` lines, each one where it comes first. -/
def codecNumbers (ls : List Text) : List U8 :=
  ((ls.filterMap codecLine).map SdpRtpmap.payloadType).eraseDups

/-- The payload numbers behind `m=type port proto`. -/
def payloadNumbers (v : Text) : List U8 := ((streamWords v).drop 3).filterMap (parseUint 8)

section Lists

variable {cs : List SdpRtpmap} {c : SdpRtpmap} {fs : List (U8 × Text)} {f : U8 × Text}

/-- One more codec counts where its payload type is new. -/
theorem firstCodecs_concat (cs : List SdpRtpmap) (c : SdpRtpmap) :
    firstCodecs (cs ++ [c]) = addCodec (firstCodecs cs) c := by
  rw [firstCodecs, List.foldl_append]
  rfl

/-- The payload types of the first codecs. -/
theorem firstCodecs_payloads (cs : List SdpRtpmap) :
    (firstCodecs cs).map SdpRtpmap.payloadType = (cs.map SdpRtpmap.payloadType).eraseDups := by
  induction cs using List.reverseRecOn with
  | nil => rfl
  | append_singleton cs c ih =>
    rw [firstCodecs_concat, addCodec, List.map_append, List.eraseDups_append, ← ih]
    have hiff : c.payloadType ∈ (firstCodecs cs).map SdpRtpmap.payloadType ↔
        c.payloadType ∈ cs.map SdpRtpmap.payloadType := by
      rw [ih, List.mem_eraseDups]
    by_cases hmem : c.payloadType ∈ cs.map SdpRtpmap.payloadType
    · rw [if_pos (hiff.2 hmem)]
      simp only [List.map_singleton, List.removeAll, List.filter_singleton, List.elem_eq_mem, hmem]
      exact (List.append_nil _).symm
    · rw [if_neg fun h => hmem (hiff.1 h), List.map_append]
      simp only [List.map_singleton, List.removeAll, List.filter_singleton, List.elem_eq_mem, hmem]
      rfl

/-- Every payload type that has a codec has a first one. -/
theorem mem_payloads_iff {pt : U8} : pt ∈ (firstCodecs cs).map SdpRtpmap.payloadType ↔
    ∃ c ∈ cs, c.payloadType = pt := by
  rw [firstCodecs_payloads, List.mem_eraseDups, List.mem_map]

/-- No payload type has two first codecs. -/
theorem nodup_payloads (cs : List SdpRtpmap) :
    ((firstCodecs cs).map SdpRtpmap.payloadType).Nodup := by
  induction cs using List.reverseRecOn with
  | nil => exact List.nodup_nil
  | append_singleton cs c ih =>
    rw [firstCodecs_concat, addCodec]
    split
    · exact ih
    · rename_i hnew
      rw [List.map_append, List.nodup_append]
      refine ⟨ih, List.nodup_singleton _, fun a ha b hb heq => hnew ?_⟩
      rw [List.map_singleton, List.mem_singleton] at hb
      rwa [← hb, ← heq]

/-- Parameters do not change the payload type. -/
@[simp] theorem withParams_payloadType : (withParams fs c).payloadType = c.payloadType := rfl

/-- A codec without parameters of its own. -/
theorem withParams_of_not_mem (h : ∀ f ∈ fs, f.1 ≠ c.payloadType) : withParams fs c = c := by
  have hnil : fs.filter (fun f => f.1 = c.payloadType) = [] :=
    List.filter_eq_nil_iff.2 fun f hf => by simpa using h f hf
  rw [withParams, hnil]
  rfl

/-- The last parameters count. -/
theorem withParams_concat : withParams (fs ++ [f]) c =
    if c.payloadType = f.1 then { withParams fs c with params := f.2 } else withParams fs c := by
  rw [withParams, List.filter_append]
  by_cases h : f.1 = c.payloadType
  · rw [if_pos h.symm, List.filter_singleton]
    simp [h, withParams]
  · rw [if_neg fun heq => h heq.symm, List.filter_singleton]
    simp [h, withParams]

end Lists

variable [NoCaseEq]

section Sections

variable {m m' : SdpMedia} {name value line : Text} {ls : List Text} {cs : List SdpRtpmap}
  {fs : List (U8 × Text)}

/-- **The codecs of a section** behind the codecs and parameters of its lines so far. -/
structure CodecsAre (m : SdpMedia) (cs : List SdpRtpmap) (fs : List (U8 × Text)) : Prop where
  rtpmaps : m.rtpmaps = (firstCodecs cs).map (withParams fs)
  behind : ∀ f ∈ fs, ∃ c ∈ cs, c.payloadType = f.1

omit [NoCaseEq] in
/-- The payload types of a section are those of its first codecs. -/
theorem CodecsAre.payloads (h : CodecsAre m cs fs) :
    m.rtpmaps.map SdpRtpmap.payloadType = (firstCodecs cs).map SdpRtpmap.payloadType := by
  rw [h.rtpmaps, List.map_map]
  rfl

omit [NoCaseEq] in
/-- A section has a codec where a line gave one. -/
theorem CodecsAre.hasCodec_iff (h : CodecsAre m cs fs) {pt : U8} :
    m.HasCodec pt ↔ pt ∈ (firstCodecs cs).map SdpRtpmap.payloadType := by
  rw [← h.payloads, List.mem_map, SdpMedia.HasCodec]

omit [NoCaseEq] in
/-- One more codec. -/
theorem CodecsAre.rtpmap (h : CodecsAre m cs fs) (c : SdpRtpmap) :
    CodecsAre (m.addRtpmap c) (cs ++ [c]) fs where
  rtpmaps := by
    have hiff : (m.findRtpmap c.payloadType).isSome = true ↔
        c.payloadType ∈ (firstCodecs cs).map SdpRtpmap.payloadType :=
      findRtpmap_isSome_iff.trans h.hasCodec_iff
    rw [firstCodecs_concat, addCodec, SdpMedia.addRtpmap]
    by_cases hmem : c.payloadType ∈ (firstCodecs cs).map SdpRtpmap.payloadType
    · rw [if_pos hmem, if_pos (hiff.2 hmem)]
      exact h.rtpmaps
    · rw [if_neg hmem, if_neg fun hfind => hmem (hiff.1 hfind)]
      have hparams : withParams fs c = c := withParams_of_not_mem fun f hf heq => by
        obtain ⟨d, hd, hpt⟩ := h.behind f hf
        exact hmem (mem_payloads_iff.2 ⟨d, hd, hpt.trans heq⟩)
      rw [List.map_append, List.map_singleton, hparams, ← h.rtpmaps]
  behind f hf := by
    obtain ⟨d, hd, hpt⟩ := h.behind f hf
    exact ⟨d, List.mem_append_left _ hd, hpt⟩

omit [NoCaseEq] in
/-- The parameters of a codec that is there. -/
theorem CodecsAre.fmtp (h : CodecsAre m cs fs) {pt : U8} {params : Text}
    (hfind : (m.findRtpmap pt).isSome = true) :
    CodecsAre (m.setParams pt params) cs (fs ++ [(pt, params)]) where
  rtpmaps := by
    obtain ⟨pre, d, post, hsplit, rfl, hpre⟩ := exists_of_findRtpmap hfind
    have hnodup := nodup_payloads cs
    rw [← h.payloads, hsplit, List.map_append, List.map_cons, List.nodup_append,
      List.nodup_cons] at hnodup
    have hpost : ∀ e ∈ post, e.payloadType ≠ d.payloadType := fun e he heq =>
      hnodup.2.1.1 (heq ▸ List.mem_map_of_mem he)
    have hset : (firstCodecs cs).map (withParams (fs ++ [(d.payloadType, params)])) =
        m.rtpmaps.map fun e => if e.payloadType = d.payloadType then { e with params := params }
          else e := by
      rw [h.rtpmaps, List.map_map]
      exact List.map_congr_left fun e _ => withParams_concat
    have hsame : ∀ l : List SdpRtpmap, (∀ e ∈ l, e.payloadType ≠ d.payloadType) →
        (l.map fun e => if e.payloadType = d.payloadType then { e with params := params } else e) =
          l := fun l hl => (List.map_congr_left fun e he => if_neg (hl e he)).trans (List.map_id l)
    rw [hset, setParams_eq params hsplit hpre, hsplit, List.map_append, List.map_cons,
      hsame pre hpre, hsame post hpost, if_pos rfl]
  behind f hf := by
    rcases List.mem_append.1 hf with hf | hf
    · exact h.behind f hf
    · rw [List.mem_singleton.1 hf]
      exact mem_payloads_iff.1 (h.hasCodec_iff.1 (findRtpmap_isSome_iff.1 hfind))

/-- **What an attribute says of the codecs.** -/
theorem MediaAttr.codecsAre (ha : MediaAttr m value name m') (h : CodecsAre m cs fs) :
    CodecsAre m' (cs ++ (rtpmapOf (name, value)).toList) (fs ++ (fmtpOf (name, value)).toList) := by
  have silent {m' : SdpMedia} {n : Text} (hr : n ≠ "rtpmap".toList) (hf : n ≠ "fmtp".toList)
      (hm : m'.rtpmaps = m.rtpmaps) :
      CodecsAre m' (cs ++ (rtpmapOf (n, value)).toList) (fs ++ (fmtpOf (n, value)).toList) := by
    rw [rtpmapOf, fmtpOf, valueOf_of_ne hr, valueOf_of_ne hf, Option.bind_none, Option.bind_none,
      Option.toList_none, Option.toList_none, List.append_nil, List.append_nil]
    exact ⟨hm.trans h.rtpmaps, h.behind⟩
  cases ha with
  | @rtpmap c hc =>
    have hread : rtpmapOf ("rtpmap".toList, value) = some c := accepted_ok hc
    have hnone : fmtpOf ("rtpmap".toList, value) = none := rfl
    rw [hread, hnone, Option.toList_none, List.append_nil]
    exact h.rtpmap c
  | @fmtp ptText params pt hcut hpt hfind =>
    have hnone : rtpmapOf ("fmtp".toList, value) = none := rfl
    have hread : fmtpOf ("fmtp".toList, value) = some (pt, strip params) := by
      have hof : fmtpOf ("fmtp".toList, value) = (cutOff value ' ').bind fun p =>
        (parseUint 8 p.1).map fun pt => (pt, strip p.2) := rfl
      rw [hof, hcut, Option.bind_some, hpt]
      rfl
    rw [hread, hnone, Option.toList_none, List.append_nil]
    exact h.fmtp hfind
  | rtcpFb _ => exact silent (by decide) (by decide) (by simp)
  | direction hn _ => exact silent (fun h => hn (h ▸ by decide)) (fun h => hn (h ▸ by decide)) rfl
  | other hn _ => exact silent (fun h => hn (h ▸ by decide)) (fun h => hn (h ▸ by decide)) rfl
  | _ => exact silent (by decide) (by decide) rfl

/-- The codecs of a section that is read are those of its lines. -/
theorem BodyRun.codecsAre (hr : BodyRun m ls m') (h : CodecsAre m [] []) :
    CodecsAre m' (ls.filterMap codecLine) (ls.filterMap fmtpLine) := by
  have hattrs := hr.of_attrs
    (P := fun m attrs => CodecsAre m (attrs.filterMap rtpmapOf) (attrs.filterMap fmtpOf))
    (fun _ _ ha hm => by
      rw [filterMap_concat, filterMap_concat]
      exact ha.codecsAre hm) h
  rwa [List.filterMap_filterMap, List.filterMap_filterMap] at hattrs

/-- **The codecs of a section** are those that its lines say. -/
theorem SectionRun.rtpmaps_eq {sec : Text × List Text} (h : SectionRun sec m) :
    m.rtpmaps = codecsOf sec.2 := by
  obtain ⟨v, m₀, -, hparse, hrun⟩ := h
  obtain ⟨type, port, proto, fmts, -, rfl⟩ := yields_some (parseMediaLine_yields v) hparse
  have hempty : ∀ fmts : SdpFormats, CodecsAre
      { mediaType := type, port := port, proto := proto, formats := fmts } [] [] :=
    fun fmts => ⟨rfl, by simp⟩
  exact (hrun.codecsAre (hempty _)).rtpmaps

/-- The codecs of an accepted text. -/
theorem parseSdp_codecs {sdp type : Text} {d : SessionDescription}
    (h : parseSdp sdp type = .ok (some d)) :
    d.medias.map SdpMedia.rtpmaps = (sectionLines (lines sdp)).2.map fun sec => codecsOf sec.2 := by
  obtain ⟨-, s, ms, -, hrest, -, rfl⟩ := parseSdp_sections_iff.1 h
  clear h
  dsimp only
  generalize (sectionLines (lines sdp)).2 = secs at hrest
  induction hrest with
  | nil => rfl
  | cons hsec _ ih => rw [List.map_cons, List.map_cons, hsec.rtpmaps_eq, ih]

/-! ### The payload types -/

/-- **The payload types of a section** are those of its `a=rtpmap` lines, and the media line lists
them. -/
structure ListsCodecs (ls : List Text) (m : SdpMedia) : Prop where
  payloadTypes : m.payloadTypes = codecNumbers ls
  printed : m.mediaType ≠ .application → payloadNumbers (m.mediaLine.drop 2) = codecNumbers ls

omit [NoCaseEq] in
/-- The payload types of the codecs are the numbers of the lines. -/
theorem firstCodecs_numbers (ls : List Text) :
    (codecsOf ls).map SdpRtpmap.payloadType = codecNumbers ls := by
  rw [codecsOf, List.map_map, codecNumbers, ← firstCodecs_payloads]
  rfl

/-- The numbers on the printed media line. -/
theorem payloadNumbers_mediaLine (hm : m.WellFormed) (ht : m.mediaType ≠ .application) :
    payloadNumbers (m.mediaLine.drop 2) = m.payloadTypes := by
  have hline : m.mediaLine.drop 2 = m.mediaType.toString ++
      spaced (toText m.port.toNat :: m.proto.toString :: m.formatTexts) := rfl
  rw [payloadNumbers, hline, streamWords_append_spaced m.mediaType.token hm.token_mediaLine,
    SdpMedia.payloadTypes, SdpMedia.formatTexts]
  have hnumbers : ∀ pts : List U8,
      (pts.map fun pt => toText pt.toNat).filterMap (parseUint 8) = pts := fun pts => by
    rw [List.filterMap_map]
    exact (List.filterMap_congr fun pt _ => parseUint_toText pt).trans List.filterMap_some
  have hformats := hm.formats
  generalize m.formats = formats at hformats
  cases hformats with
  | payloadTypes _ => exact hnumbers _
  | strings _ _ happ _ => exact absurd happ ht
  | none _ => rfl

/-- **The payload types of an accepted text.**  Whatever numbers its `m=` line has, the payload types
of a section are those of its `a=rtpmap` lines, each one where it comes first, and `to_string` writes
them on the `m=` line. -/
theorem parseSdp_payloadTypes {sdp type : Text} {d : SessionDescription}
    (h : parseSdp sdp type = .ok (some d)) :
    List.Forall₂ (fun sec m => ListsCodecs sec.2 m) (sectionLines (lines sdp)).2 d.medias := by
  have hwf := (parseSdp_wellFormed h).1.medias
  obtain ⟨-, s, ms, -, hrest, -, rfl⟩ := parseSdp_sections_iff.1 h
  dsimp only at hwf ⊢
  refine List.forall₂_iff_zip.2 ⟨hrest.length_eq, fun {sec m} hmem => ?_⟩
  have hm : m.WellFormed := hwf m (List.of_mem_zip hmem).2
  have hcodecs := (List.forall₂_iff_zip.1 hrest).2 hmem
  have hpts : m.payloadTypes = codecNumbers sec.2 := by
    rw [hm.formats.payloadTypes_eq, hcodecs.rtpmaps_eq, firstCodecs_numbers]
  exact ⟨hpts, fun ht => (payloadNumbers_mediaLine hm ht).trans hpts⟩

end Sections

/-- A section with two codecs, the second one in front, and a number without a codec. -/
def reversedText : Text :=
  "v=0\r\nm=video 9 RTP/AVP 96 97 34\r\na=rtpmap:97 VP9/90000\r\na=rtpmap:96 VP8/90000\r\n".toList

/-- The same section as a description. -/
def reversedDescription : SessionDescription where
  sdpType := "offer".toList
  medias := [{ mediaType := .video, port := 9, proto := .RTP_AVP
               formats := .payloadTypes [97, 96]
               rtpmaps := [{ payloadType := 97, name := "VP9".toList, clockRate := 90000 },
                 { payloadType := 96, name := "VP8".toList, clockRate := 90000 }] }]

omit [NoCaseEq] in
/-- Its payload types are those of the `a=rtpmap` lines. -/
theorem reversedText_payloadTypes :
    @parseSdp asciiNoCase reversedText "offer".toList = .ok (some reversedDescription) ∧
      List.Forall₂ (fun sec m => ListsCodecs sec.2 m) (sectionLines (lines reversedText)).2
        reversedDescription.medias :=
  ⟨rfl, @parseSdp_payloadTypes asciiNoCase _ "offer".toList _ rfl⟩

omit [NoCaseEq] in
/-- **They are not those of its `m=` line**, neither the same nor in its order. -/
theorem reversedText_mediaLine :
    @parseSdp asciiNoCase reversedText "offer".toList = .ok (some reversedDescription) ∧
      ¬ List.Forall₂ (fun sec m => m.payloadTypes = payloadNumbers ((strip sec.1).drop 2))
        (sectionLines (lines reversedText)).2 reversedDescription.medias := by
  have hsecs : (sectionLines (lines reversedText)).2 = [("m=video 9 RTP/AVP 96 97 34".toList,
      ["a=rtpmap:97 VP9/90000".toList, "a=rtpmap:96 VP8/90000".toList])] := by decide
  refine ⟨rfl, fun h => ?_⟩
  rw [hsecs] at h
  cases h with
  | cons hnumbers _ => exact absurd hnumbers (by decide)

/-! ### Lines in another order -/

/-- The line is an attribute of some name. -/
def isAttr (name line : Text) : Bool := (lineAttr line).any (·.1 = name)

/-- **Two texts that differ in the order of the lines of a section**, where the `a=rtpmap` lines are
in one order, and so are the `a=fmtp` lines. -/
structure Reordered (sdp sdp' : Text) (pre : List Text) (first : Text) (sec sec' post : List Text) :
    Prop where
  before : lines sdp = pre ++ first :: (sec ++ post)
  after : lines sdp' = pre ++ first :: (sec' ++ post)
  media : isMediaLine first = true
  body : ∀ line ∈ sec, isMediaLine line = false
  whole : ∀ line ∈ post.head?, isMediaLine line = true
  perm : sec.Perm sec'
  rtpmaps : sec.filter (isAttr "rtpmap".toList) = sec'.filter (isAttr "rtpmap".toList)
  fmtps : sec.filter (isAttr "fmtp".toList) = sec'.filter (isAttr "fmtp".toList)

/-- **Two texts that are accepted or rejected alike**, with the same codecs. -/
structure SameCodecs (sdp sdp' type : Text) : Prop where
  accepts : ∀ codecs, (∃ d, parseSdp sdp type = .ok (some d) ∧
      d.medias.map SdpMedia.rtpmaps = codecs) ↔
    ∃ d, parseSdp sdp' type = .ok (some d) ∧ d.medias.map SdpMedia.rtpmaps = codecs
  rejects : parseSdp sdp type = .ok none ↔ parseSdp sdp' type = .ok none

section Order

variable {sdp sdp' type first : Text} {pre sec sec' post ls ls' : List Text}

omit [NoCaseEq] in
/-- What is read from a list depends on the elements that are read at all. -/
theorem filterMap_of_filter {α β : Type} {p : α → Bool} {f : α → Option β} {l l' : List α}
    (hf : ∀ a, p a = false → f a = none) (h : l.filter p = l'.filter p) :
    l.filterMap f = l'.filterMap f := by
  have hfilter : ∀ l : List α, l.filterMap f = (l.filter p).filterMap f := fun l => by
    rw [List.filterMap_filter]
    refine List.filterMap_congr fun a _ => ?_
    cases hp : p a with
    | false => simp [hf a hp]
    | true => rfl
  rw [hfilter l, h, ← hfilter l']

omit [NoCaseEq] in
/-- A line of another attribute has no value for this one. -/
theorem lineAttr_read_none {line name : Text} (h : isAttr name line = false) :
    ((lineAttr line).bind (valueOf name)) = none := by
  rw [isAttr] at h
  cases hattr : lineAttr line with
  | none => rfl
  | some a =>
    have hne : a.1 ≠ name := by simpa [hattr] using h
    exact if_neg hne

omit [NoCaseEq] in
/-- The codecs that the lines say are those of either order. -/
theorem Reordered.codecsOf_eq (h : Reordered sdp sdp' pre first sec sec' post) :
    codecsOf sec = codecsOf sec' := by
  have hrtpmap : ∀ line, isAttr "rtpmap".toList line = false → codecLine line = none := by
    intro line hline
    have hnone := lineAttr_read_none hline
    cases hattr : lineAttr line with
    | none => rw [codecLine, hattr, Option.bind_none]
    | some a =>
      rw [hattr, Option.bind_some] at hnone
      rw [codecLine, hattr, Option.bind_some, rtpmapOf, hnone, Option.bind_none]
  have hfmtp : ∀ line, isAttr "fmtp".toList line = false → fmtpLine line = none := by
    intro line hline
    have hnone := lineAttr_read_none hline
    cases hattr : lineAttr line with
    | none => rw [fmtpLine, hattr, Option.bind_none]
    | some a =>
      rw [hattr, Option.bind_some] at hnone
      rw [fmtpLine, hattr, Option.bind_some, fmtpOf, hnone, Option.bind_none]
  rw [codecsOf, codecsOf, filterMap_of_filter hrtpmap h.rtpmaps, filterMap_of_filter hfmtp h.fmtps]

omit [NoCaseEq] in
/-- Lines from the first line of a section on are cut behind those in front of them. -/
theorem sectionLines_append_media (pre ls : List Text) (h : isMediaLine first = true) :
    sectionLines (pre ++ first :: ls) =
      ((sectionLines pre).1, (sectionLines pre).2 ++ (sectionLines (first :: ls)).2) := by
  induction pre with
  | nil => rw [List.nil_append, sectionLines_media ls h]; rfl
  | cons line pre ih =>
    rw [List.cons_append]
    by_cases hm : isMediaLine line = true
    · rw [sectionLines_media _ hm, sectionLines_media _ hm, ih]
      rfl
    · rw [Bool.not_eq_true] at hm
      rw [sectionLines_other _ hm, sectionLines_other _ hm, ih]

omit [NoCaseEq] in
/-- What starts with a section has no lines in front of one. -/
theorem sectionLines_whole (h : ∀ line ∈ post.head?, isMediaLine line = true) :
    (sectionLines post).1 = [] := by
  cases post with
  | nil => rfl
  | cons line post => rw [sectionLines_media post (h line rfl)]

omit [NoCaseEq] in
/-- The sections of such a text. -/
theorem sectionLines_section (hfirst : isMediaLine first = true)
    (hsec : ∀ line ∈ sec, isMediaLine line = false)
    (hpost : ∀ line ∈ post.head?, isMediaLine line = true) :
    sectionLines (pre ++ first :: (sec ++ post)) =
      ((sectionLines pre).1, (sectionLines pre).2 ++ (first, sec) :: (sectionLines post).2) := by
  rw [sectionLines_append_media pre _ hfirst, sectionLines_media _ hfirst,
    sectionLines_append hsec, sectionLines_whole hpost, List.append_nil]

omit [NoCaseEq] in
/-- The lines of a section can be put back. -/
theorem Reordered.symm (h : Reordered sdp sdp' pre first sec sec' post) :
    Reordered sdp' sdp pre first sec' sec post where
  before := h.after
  after := h.before
  media := h.media
  body line hl := h.body line (h.perm.mem_iff.2 hl)
  whole := h.whole
  perm := h.perm.symm
  rtpmaps := h.rtpmaps.symm
  fmtps := h.fmtps.symm

omit [NoCaseEq] in
/-- The section that is reordered, between the others. -/
theorem Reordered.sections (h : Reordered sdp sdp' pre first sec sec' post) :
    sectionLines (lines sdp) =
      ((sectionLines pre).1, (sectionLines pre).2 ++ (first, sec) :: (sectionLines post).2) := by
  rw [h.before, sectionLines_section h.media h.body h.whole]

/-- The lines of the other order are accepted where each parameter still has its codec. -/
theorem Reordered.linesAccepted (h : Reordered sdp sdp' pre first sec sec' post)
    (hready : FmtpsReady (fun _ => False) sec → FmtpsReady (fun _ => False) sec')
    (hacc : LinesAccepted sdp) : LinesAccepted sdp' := by
  have hsecs := h.sections
  have hsecs' := h.symm.sections
  have hmem : (first, sec) ∈ (sectionLines (lines sdp)).2 := by rw [hsecs]; simp
  -- The other sections are those of the other text.
  have hother : ∀ s ∈ (sectionLines (lines sdp')).2, s = (first, sec') ∨
      s ∈ (sectionLines (lines sdp)).2 := by
    intro s hs
    rw [hsecs', List.mem_append, List.mem_cons] at hs
    rw [hsecs, List.mem_append, List.mem_cons]
    rcases hs with hs | hs | hs
    · exact Or.inr (Or.inl hs)
    · exact Or.inl hs
    · exact Or.inr (Or.inr (Or.inr hs))
  refine ⟨by rw [h.after]; simp, ?_, fun s hs => ?_, fun s hs => ?_, fun s hs => ?_⟩
  · have hfront := hacc.front
    rw [hsecs] at hfront
    rw [hsecs']
    exact hfront
  · rcases hother s hs with rfl | hs
    · exact hacc.media (first, sec) hmem
    · exact hacc.media s hs
  · rcases hother s hs with rfl | hs
    · exact fun line hl => hacc.body _ hmem line (h.perm.mem_iff.2 hl)
    · exact hacc.body s hs
  · rcases hother s hs with rfl | hs
    · exact hready (hacc.fmtps _ hmem)
    · exact hacc.fmtps s hs

omit [NoCaseEq] in
/-- Streams agree in any order of the lines. -/
theorem Reordered.agree (h : Reordered sdp sdp' pre first sec sec' post)
    (hagree : ∀ s ∈ (sectionLines (lines sdp)).2.dropLast, MsidsAgree s.2) :
    ∀ s ∈ (sectionLines (lines sdp')).2.dropLast, MsidsAgree s.2 := by
  have hmem : ∀ a, a ∈ sec.filterMap msidLine ↔ a ∈ sec'.filterMap msidLine := fun a =>
    (h.perm.filterMap msidLine).mem_iff
  have hsec : MsidsAgree sec → MsidsAgree sec' := fun hs a ha b hb =>
    hs a ((hmem a).2 ha) b ((hmem b).2 hb)
  rw [h.sections, List.dropLast_append_cons] at hagree
  rw [h.symm.sections, List.dropLast_append_cons]
  cases hpost : (sectionLines post).2 with
  | nil => rwa [hpost] at hagree
  | cons s rest =>
    rw [hpost, List.dropLast_cons_cons, List.forall_mem_append, List.forall_mem_cons] at hagree
    rw [List.dropLast_cons_cons, List.forall_mem_append, List.forall_mem_cons]
    exact ⟨hagree.1, hsec hagree.2.1, hagree.2.2⟩

omit [NoCaseEq] in
/-- The lines in front of the sections are the front of the lines. -/
theorem exists_eq_front_append (ls : List Text) : ∃ rest, ls = (sectionLines ls).1 ++ rest := by
  induction ls with
  | nil => exact ⟨[], rfl⟩
  | cons line ls ih =>
    by_cases hm : isMediaLine line = true
    · exact ⟨line :: ls, by rw [sectionLines_media ls hm, List.nil_append]⟩
    · rw [Bool.not_eq_true] at hm
      obtain ⟨rest, hrest⟩ := ih
      exact ⟨rest, by rw [sectionLines_other ls hm, List.cons_append, ← hrest]⟩

/-- The fault of the session part is in its lines. -/
theorem msidSemanticReached_iff : MsidSemanticReached sdp ↔
    ∃ pre line post, (sectionLines (lines sdp)).1 = pre ++ line :: post ∧
      (∀ l ∈ pre, sessionLineAccepted (strip l) = true) ∧ BareMsidSemantic line := by
  have hfront : ∀ l, sessionLineAccepted (strip l) = true → isMediaLine l = false := by
    intro l hl
    rw [Bool.eq_false_iff]
    intro hm
    rw [isMediaLine, decide_eq_true_iff, List.head?_eq_some_iff] at hm
    obtain ⟨v, hv⟩ := hm
    have hrej : sessionLineAccepted ('m' :: v) = false := by
      cases v with
      | nil => rfl
      | cons e v => by_cases he : e = '=' <;> simp [sessionLineAccepted, he]
    rw [hv, hrej] at hl
    cases hl
  constructor
  · rintro ⟨pre, line, post, hls, hpre, hbare⟩
    have hline : isMediaLine line = false := by
      rcases hbare with h | h <;> simp [isMediaLine, h]
    refine ⟨pre, line, (sectionLines post).1, ?_, hpre, hbare⟩
    rw [hls, sectionLines_append fun l hl => hfront l (hpre l hl), sectionLines_other _ hline]
  · rintro ⟨pre, line, post, hls, hpre, hbare⟩
    obtain ⟨rest, hrest⟩ := exists_eq_front_append (lines sdp)
    refine ⟨pre, line, post ++ rest, ?_, hpre, hbare⟩
    rw [hrest, hls, List.append_assoc, List.cons_append]

/-- The order within a section does not matter to the lines that are reached. -/
theorem Reordered.reached_iff (h : Reordered sdp sdp' pre first sec sec' post) :
    MsidSemanticReached sdp ↔ MsidSemanticReached sdp' := by
  rw [msidSemanticReached_iff, msidSemanticReached_iff, h.sections, h.symm.sections]

/-- A text that is accepted is accepted in the other order, with the same codecs. -/
theorem Reordered.accepts (h : Reordered sdp sdp' pre first sec sec' post)
    (hready : FmtpsReady (fun _ => False) sec → FmtpsReady (fun _ => False) sec')
    {d : SessionDescription} (hd : parseSdp sdp type = .ok (some d)) :
    ∃ d', parseSdp sdp' type = .ok (some d') ∧
      d'.medias.map SdpMedia.rtpmaps = d.medias.map SdpMedia.rtpmaps := by
  obtain ⟨hacc, hagree⟩ := parseSdp_accepts_iff.1 ⟨d, hd⟩
  obtain ⟨d', hd'⟩ : ∃ d', parseSdp sdp' type = .ok (some d') :=
    parseSdp_accepts_iff.2 ⟨h.linesAccepted hready hacc, h.agree hagree⟩
  refine ⟨d', hd', ?_⟩
  rw [parseSdp_codecs hd, parseSdp_codecs hd', h.sections, h.symm.sections, List.map_append,
    List.map_append, List.map_cons, List.map_cons, h.codecsOf_eq]

/-- **A section in another order.**  Where the parameters of each codec are behind it in both orders,
or not in both, the two texts are accepted or rejected alike, with the same codecs and parameters;
a text with parameters in front of their codec is not accepted. -/
theorem parseSdp_reordered (h : Reordered sdp sdp' pre first sec sec' post) (type : Text) :
    ((FmtpsReady (fun _ => False) sec ↔ FmtpsReady (fun _ => False) sec') →
      SameCodecs sdp sdp' type) ∧
    (¬ FmtpsReady (fun _ => False) sec → ∀ d, parseSdp sdp type ≠ .ok (some d)) := by
  refine ⟨fun hready => ?_, fun hnot d hd => ?_⟩
  · have haccepts : ∀ codecs, (∃ d, parseSdp sdp type = .ok (some d) ∧
          d.medias.map SdpMedia.rtpmaps = codecs) ↔
        ∃ d, parseSdp sdp' type = .ok (some d) ∧ d.medias.map SdpMedia.rtpmaps = codecs := by
      intro codecs
      constructor
      · rintro ⟨d, hd, rfl⟩
        exact h.accepts hready.1 hd
      · rintro ⟨d, hd, rfl⟩
        exact h.symm.accepts hready.2 hd
    have hsome : (∃ d, parseSdp sdp type = .ok (some d)) ↔
        ∃ d, parseSdp sdp' type = .ok (some d) := by
      constructor
      · rintro ⟨d, hd⟩
        obtain ⟨d', hd', -⟩ := h.accepts hready.1 hd
        exact ⟨d', hd'⟩
      · rintro ⟨d, hd⟩
        obtain ⟨d', hd', -⟩ := h.symm.accepts hready.2 hd
        exact ⟨d', hd'⟩
    refine ⟨haccepts, ?_⟩
    rw [parseSdp_rejects_iff, parseSdp_rejects_iff, h.reached_iff, hsome]
  · have hacc := (parseSdp_accepts_iff.1 ⟨d, hd⟩).1
    exact hnot (hacc.fmtps (first, sec) (by rw [h.sections]; simp))

end Order

/-- A text with one section. -/
def sectionText (ls : List Text) : Text :=
  unlines ("v=0".toList :: "m=video 9 RTP/AVP 96".toList :: ls)

/-- A codec. -/
def rtpmapLine : Text := "a=rtpmap:96 VP8/90000".toList

/-- The parameters of the codec. -/
def paramsLine : Text := "a=fmtp:96 max-fr=30".toList

/-- The identifier of the section. -/
def midLine : Text := "a=mid:0".toList

omit [NoCaseEq] in
/-- Two orders of the lines of one section. -/
theorem sectionText_reordered {sec sec' : List Text} (hn : ∀ l ∈ sec, '\n' ∉ l)
    (hm : ∀ l ∈ sec, isMediaLine l = false) (hperm : sec.Perm sec')
    (hr : sec.filter (isAttr "rtpmap".toList) = sec'.filter (isAttr "rtpmap".toList))
    (hf : sec.filter (isAttr "fmtp".toList) = sec'.filter (isAttr "fmtp".toList)) :
    Reordered (sectionText sec) (sectionText sec') ["v=0".toList] "m=video 9 RTP/AVP 96".toList
      sec sec' [] where
  before := by
    rw [sectionText, lines_unlines (List.forall_mem_cons.2 ⟨by decide, List.forall_mem_cons.2
      ⟨by decide, hn⟩⟩), List.append_nil]
    rfl
  after := by
    have hn' : ∀ l ∈ sec', '\n' ∉ l := fun l hl => hn l (hperm.mem_iff.2 hl)
    rw [sectionText, lines_unlines (List.forall_mem_cons.2 ⟨by decide, List.forall_mem_cons.2
      ⟨by decide, hn'⟩⟩), List.append_nil]
    rfl
  media := by decide
  body := hm
  whole := by simp
  perm := hperm
  rtpmaps := hr
  fmtps := hf

omit [NoCaseEq] in
/-- The identifier of a section may stand in front of its codec. -/
theorem parseSdp_reordered_mid :
    @SameCodecs asciiNoCase (sectionText [rtpmapLine, paramsLine, midLine])
      (sectionText [midLine, rtpmapLine, paramsLine]) "offer".toList := by
  have hperm : [rtpmapLine, paramsLine, midLine].Perm [midLine, rtpmapLine, paramsLine] := by decide
  refine (@parseSdp_reordered asciiNoCase _ _ _ _ _ _ _ (sectionText_reordered (by decide)
    (by decide) hperm (by decide) (by decide)) _).1 ?_
  have hrtpmap : fmtpLine rtpmapLine = none ∧
      codecLine rtpmapLine = some { payloadType := 96, name := "VP8".toList, clockRate := 90000 } := by
    decide
  have hparams : fmtpLine paramsLine = some (96, "max-fr=30".toList) := by decide
  have hmid : fmtpLine midLine = none := by decide
  have hnil : ∀ codecs, FmtpsReady codecs [] := fun codecs pre line post h => by simp at h
  simp [fmtpsReady_cons_iff, hrtpmap, hparams, hmid, hnil]

omit [NoCaseEq] in
/-- **The parameters in front of the codec** reject a text that is accepted in the other order. -/
theorem parseSdp_fmtpFirst_rejected :
    Reordered (sectionText [rtpmapLine, paramsLine]) (sectionText [paramsLine, rtpmapLine])
        ["v=0".toList] "m=video 9 RTP/AVP 96".toList [rtpmapLine, paramsLine]
        [paramsLine, rtpmapLine] [] ∧
      ¬ @SameCodecs asciiNoCase (sectionText [rtpmapLine, paramsLine])
        (sectionText [paramsLine, rtpmapLine]) "offer".toList := by
  refine ⟨sectionText_reordered (by decide) (by decide) (by decide) (by decide) (by decide),
    fun h => ?_⟩
  have hrejected : @parseSdp asciiNoCase (sectionText [paramsLine, rtpmapLine]) "offer".toList =
      .ok none := rfl
  have haccepted : @parseSdp asciiNoCase (sectionText [rtpmapLine, paramsLine]) "offer".toList ≠
      .ok none := nofun
  exact haccepted ((@SameCodecs.rejects asciiNoCase _ _ _ h).2 hrejected)

end AsioRtc
