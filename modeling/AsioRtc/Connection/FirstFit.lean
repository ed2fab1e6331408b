/-
# Which transceiver a section of an offer gets

The loop of `set_remote_description` gives each audio or video section of an offer to the first
transceiver of its kind that is free, and only then looks at the codec and the direction, by
`from_remote_offer`.  A transceiver has one codec.  So where the first free one does not fit the
section, it is used up for it and made inactive, although another one may fit
(`applyOffer_fits_iff`).
-/

import AsioRtc.Connection.Rejection

namespace AsioRtc

open Lib Text

namespace Connection

variable [NoCaseEq] {c : Connection} {tracks : List OnTrack}

/-- A transceiver that the loop can give a section of kind `k` to. -/
def Free (k : MediaKind) (t : RtpTransceiver) : Prop :=
  t.mid = [] ∧ t.stopped = false ∧ t.kind = k

instance (k : MediaKind) (t : RtpTransceiver) : Decidable (Free k t) :=
  inferInstanceAs (Decidable (_ ∧ _ ∧ _))

/-- A transceiver can be given the section `rm` of kind `k`, and would use it: it is free, and has
a codec and a direction in common with it. -/
structure Fits (k : MediaKind) (rm : SdpMedia) (t : RtpTransceiver) : Prop where
  free : Free k t
  codec : ∃ m ∈ rm.rtpmaps, SdpRtpmap.isMatch m t.codec = true
  direction : negotiateDirection t.direction rm.direction ≠ .inactive

/-- Where some transceiver of `c` fits the section, one that fits has been given it in `c'`, and
is not inactive. -/
def GivenToFitting (c : Connection) (k : MediaKind) (rm : SdpMedia) (c' : Connection) : Prop :=
  (∃ t ∈ c.transceivers, Fits k rm t) →
    ∃ (i : ℕ) (t t' : RtpTransceiver), c.transceivers[i]? = some t ∧ Fits k rm t ∧
      c'.transceivers[i]? = some t' ∧ t'.mid ≠ [] ∧ t'.mid = rm.mid ∧ t'.direction ≠ .inactive

/-! ### One section -/

/-- What the loop takes is the first free transceiver. -/
theorem find?_free {k : MediaKind} :
    c.transceivers.find? (fun t => Free k t) = (c.freeTransceiver k).map Prod.snd := by
  change _ = Option.map Prod.snd ((c.transceivers.findIdx? fun t => decide (Free k t)).bind
    fun i => (c.transceivers[i]?).map fun t => (i, t))
  rw [List.find?_eq_bind_findIdx?_getElem?]
  cases c.transceivers.findIdx? fun t => decide (Free k t) with
  | none => rfl
  | some i =>
    rw [Option.bind_some, Option.bind_some, Option.map_map]
    exact Option.map_id'.symm

/-- The loop over two parts of an offer. -/
theorem applyOffer_append {pre post : List SdpMedia}
    (h : (applyOffer pre c tracks).thrown = none) :
    applyOffer (pre ++ post) c tracks =
      applyOffer post (applyOffer pre c tracks).state (applyOffer pre c tracks).tracks := by
  induction pre generalizing c tracks with
  | nil => rfl
  | cons rm pre ih =>
    rw [List.cons_append, applyOffer, applyOffer]
    rw [applyOffer] at h
    cases hk : sectionKind rm.mediaType with
    | none =>
      simp only [hk] at h ⊢
      exact ih h
    | some k =>
      simp only [hk] at h ⊢
      split
      · rename_i hmid
        rw [if_pos hmid] at h
        cases h
      · rename_i hmid
        rw [if_neg hmid] at h
        cases hfree : c.freeTransceiver k with
        | none =>
          simp only [hfree] at h ⊢
          exact ih h
        | some p =>
          simp only [hfree] at h ⊢
          exact ih h

/-- What one section does to the transceivers. -/
theorem applyOffer_single {k : MediaKind} {rm : SdpMedia} (hk : sectionKind rm.mediaType = some k) :
    (applyOffer [rm] c tracks).state.transceivers =
      if rm.mid = [] then c.transceivers
      else (c.freeTransceiver k).elim c.transceivers fun p =>
        c.transceivers.set p.1 (({ p.2 with mid := rm.mid } : RtpTransceiver).fromRemoteOffer rm) := by
  rw [applyOffer, hk]
  simp only
  split
  · rfl
  · cases c.freeTransceiver k with
    | none => rfl
    | some p => exact associate_transceivers c p.1 p.2 rm

/-- A transceiver that has a codec in common with the section keeps the direction that they
agree on. -/
theorem fromRemoteOffer_direction {t : RtpTransceiver} {rm : SdpMedia}
    (hcodec : ∃ m ∈ rm.rtpmaps, SdpRtpmap.isMatch m t.codec = true) :
    (t.fromRemoteOffer rm).direction = negotiateDirection t.direction rm.direction := by
  obtain ⟨codec, hfind⟩ : ∃ codec, t.remoteCodec rm = some codec :=
    Option.isSome_iff_exists.1 (List.find?_isSome.2 hcodec)
  have hfind' : ({ t with direction := negotiateDirection t.direction rm.direction } :
      RtpTransceiver).remoteCodec rm = some codec := hfind
  unfold RtpTransceiver.fromRemoteOffer
  simp only [hfind']
  split
  · rfl
  · split <;> rfl

/-- **The section goes to one that fits** where the first free one does. -/
theorem givenToFitting_of_first {k : MediaKind} {rm : SdpMedia} {c' : Connection}
    (hk : sectionKind rm.mediaType = some k) (hc' : c' = (applyOffer [rm] c tracks).state)
    (hmid : rm.mid ≠ []) {t : RtpTransceiver}
    (hfirst : c.transceivers.find? (fun t => Free k t) = some t) (hfits : Fits k rm t) :
    GivenToFitting c k rm c' := by
  intro _
  rw [find?_free] at hfirst
  obtain ⟨⟨i, u⟩, hfree, hu⟩ := Option.map_eq_some_iff.1 hfirst
  obtain rfl : u = t := hu
  have hi := (freeTransceiver_eq_some hfree).1
  obtain ⟨hlt, -⟩ := List.getElem?_eq_some_iff.1 hi
  have hts := @applyOffer_single _ c tracks k rm hk
  rw [if_neg hmid, hfree, Option.elim_some] at hts
  have hmid' := (RtpTransceiver.fromRemoteOffer_cases
    ({ u with mid := rm.mid } : RtpTransceiver) rm).1
  refine ⟨i, u, ({ u with mid := rm.mid } : RtpTransceiver).fromRemoteOffer rm, hi, hfits, ?_, ?_,
    hmid', ?_⟩
  · rw [hc', hts, List.getElem?_set_self hlt]
  · rw [hmid']
    exact hmid
  · rw [fromRemoteOffer_direction (t := { u with mid := rm.mid }) hfits.codec]
    exact hfits.direction

/-- A transceiver that gets its mid from the section is the first free one. -/
theorem first_of_taken {k : MediaKind} {rm : SdpMedia} (hk : sectionKind rm.mediaType = some k)
    {i : ℕ} {t t' : RtpTransceiver} (ht : c.transceivers[i]? = some t) (hmid : t.mid = [])
    (ht' : (applyOffer [rm] c tracks).state.transceivers[i]? = some t') (hne : t'.mid ≠ []) :
    c.transceivers.find? (fun t => Free k t) = some t := by
  -- A transceiver that has not changed has no mid yet.
  have hchanged : c.transceivers[i]? ≠ some t' := by
    intro h
    obtain rfl := Option.some.inj (ht.symm.trans h)
    exact hne hmid
  rw [applyOffer_single hk] at ht'
  split at ht'
  · exact absurd ht' hchanged
  · cases hfree : c.freeTransceiver k with
    | none =>
      rw [hfree, Option.elim_none] at ht'
      exact absurd ht' hchanged
    | some p =>
      rw [hfree, Option.elim_some] at ht'
      by_cases hpi : p.1 = i
      · obtain ⟨hp, -⟩ := freeTransceiver_eq_some hfree
        rw [hpi, ht] at hp
        rw [find?_free, hfree, Option.map_some, ← Option.some.inj hp]
      · rw [List.getElem?_set_ne hpi] at ht'
        exact absurd ht' hchanged

/-! ### The loop -/

/-- **Which transceiver a section of an offer gets.**  Where the loop has come to `rm`, it is
given to a transceiver that fits, if there is one, exactly where it has a mid and the first free
transceiver of its kind is one of those that fit. -/
theorem applyOffer_fits_iff (b : Connection) {pre : List SdpMedia} {rm : SdpMedia} {k : MediaKind}
    (hpre : (applyOffer pre b []).thrown = none) (hk : sectionKind rm.mediaType = some k) :
    GivenToFitting (applyOffer pre b []).state k rm (applyOffer (pre ++ [rm]) b []).state ↔
      ((∃ t ∈ (applyOffer pre b []).state.transceivers, Fits k rm t) →
        rm.mid ≠ [] ∧ ∃ t, (applyOffer pre b []).state.transceivers.find? (fun t => Free k t) =
          some t ∧ Fits k rm t) := by
  rw [applyOffer_append hpre]
  constructor
  · intro h hex
    obtain ⟨i, t, t', ht, hfits, ht', hne, hmid, -⟩ := h hex
    exact ⟨hmid ▸ hne, t, first_of_taken hk ht hfits.free.1 ht' hne, hfits⟩
  · intro h hex
    obtain ⟨hmid, t, hfirst, hfits⟩ := h hex
    exact givenToFitting_of_first hk rfl hmid hfirst hfits hex

end Connection

/-- A transceiver of a codec of that name. -/
def namedTransceiver (name : Text) : RtpTransceiver := { codec := { name := name } }

/-- A video section with the mid `0` and a codec of that name. -/
def namedSection (name : Text) : SdpMedia :=
  { mid := "0".toList, mediaType := .video, rtpmaps := [{ name := name }] }

/-- A connection with a transceiver for each of the codecs. -/
def withCodecs (names : List Text) : Connection :=
  { transceivers := names.map namedTransceiver }

/-- An audio section with the mid `1`. -/
def audioSection : SdpMedia := { mid := "1".toList, mediaType := .audio }

/-- Behind an audio section that no transceiver takes, the section for vp8 goes to the one for vp8,
which is in front of the one for vp9. -/
theorem applyOffer_fits_vp8 :
    @Connection.GivenToFitting asciiNoCase
      (@Connection.applyOffer asciiNoCase [audioSection]
        (withCodecs ["vp8".toList, "vp9".toList]) []).state
      .video (namedSection "vp8".toList)
      (@Connection.applyOffer asciiNoCase ([audioSection] ++ [namedSection "vp8".toList])
        (withCodecs ["vp8".toList, "vp9".toList]) []).state := by
  let _ : NoCaseEq := asciiNoCase
  refine (Connection.applyOffer_fits_iff (k := .video) (withCodecs ["vp8".toList, "vp9".toList])
    (by decide) rfl).2 fun _ => ⟨by decide, namedTransceiver "vp8".toList, rfl, ?_⟩
  exact ⟨by decide, ⟨_, List.mem_singleton_self _, by decide⟩, by decide⟩

/-- The transceiver for vp9 comes first: it takes the section for vp8, and the one for vp8 gets
nothing. -/
theorem not_givenToFitting :
    ¬ @Connection.GivenToFitting asciiNoCase (withCodecs ["vp9".toList, "vp8".toList]) .video
      (namedSection "vp8".toList)
      (@Connection.applyOffer asciiNoCase [namedSection "vp8".toList]
        (withCodecs ["vp9".toList, "vp8".toList]) []).state := by
  intro h
  let _ : NoCaseEq := asciiNoCase
  have hvp8 : Connection.Fits .video (namedSection "vp8".toList)
      (namedTransceiver "vp8".toList) :=
    ⟨by decide, ⟨_, List.mem_singleton_self _, by decide⟩, by decide⟩
  obtain ⟨i, t, t', ht, hfits, ht', hne, -⟩ := h ⟨_, by simp [withCodecs], hvp8⟩
  have hfirst := Connection.first_of_taken (k := .video) rfl ht hfits.free.1 ht' hne
  have hvp9 : namedTransceiver "vp9".toList = t := Option.some.inj hfirst
  subst hvp9
  obtain ⟨m, hm, hmatch⟩ := hfits.codec
  obtain rfl := List.mem_singleton.1 hm
  exact absurd hmatch (by decide)

end AsioRtc
