/-
# Offers and answers on the wire

The descriptions that a connection makes go to the other side as texts.  What the other side reads
is what was made (`SessionDescription.Survives`): of every answer, and of every offer but for one
slip.  An offer that is not the first one has the version of its session written into it as a
character; it survives where that character is not whitespace (`createOffer_survives_iff`).  So the
tenth offer after the first one, whose version is a newline, is one that the other side cannot read
as it was meant.
-/

import AsioRtc.Connection.Reoffer
import AsioRtc.Connection.Spoken

namespace AsioRtc

open Lib Text

/-! ### Mids and groups -/

theorem nextMid_token {used : List Text} {fuel : ℕ} {counter counter' : U16} {mid : Text}
    (h : nextMid used fuel counter = .ok (mid, counter')) : Token mid := by
  induction fuel generalizing counter with
  | zero => exact absurd h (by simp [nextMid])
  | succ fuel ih =>
    rw [nextMid] at h
    split at h
    · exact ih h
    · obtain ⟨rfl, -⟩ := Prod.mk.inj (Except.ok.inj h)
      exact token_toText _

/-- The mids of the entries of an offer are words. -/
theorem assignMids_token {es es' : List MediaEntry} {used : List Text} {counter counter' : U16}
    (hes : ∀ e ∈ es, e.mid = [] ∨ Token e.mid)
    (h : assignMids es used counter = .ok (es', counter')) : ∀ e ∈ es', Token e.mid := by
  induction es generalizing es' used counter counter' with
  | nil =>
    obtain ⟨rfl, -⟩ := Prod.mk.inj (Except.ok.inj h)
    exact fun e he => absurd he List.not_mem_nil
  | cons e es ih =>
    obtain ⟨he, hes⟩ := List.forall_mem_cons.1 hes
    rw [assignMids] at h
    split at h
    · obtain ⟨⟨mid, c₁⟩, hnext, h⟩ := Checked.bind_eq_ok.1 h
      obtain ⟨⟨es₁, c₂⟩, hes₁, h⟩ := Checked.bind_eq_ok.1 h
      obtain ⟨rfl, -⟩ := Prod.mk.inj (Except.ok.inj h)
      exact List.forall_mem_cons.2 ⟨nextMid_token hnext, ih hes hes₁⟩
    · rename_i hmid
      obtain ⟨⟨es₁, c₂⟩, hes₁, h⟩ := Checked.bind_eq_ok.1 h
      obtain ⟨rfl, -⟩ := Prod.mk.inj (Except.ok.inj h)
      exact List.forall_mem_cons.2 ⟨he.resolve_left hmid, ih hes hes₁⟩

/-- A group of words. -/
theorem group_wellFormed {semantic : Text} {mids : List Text} (hs : ' ' ∉ semantic)
    (hn : '\n' ∉ semantic) (hne : mids ≠ []) (hmids : ∀ mid ∈ mids, Token mid) :
    (⟨semantic, mids⟩ : SdpGroup).WellFormed :=
  ⟨hs, hn, hne, .of_tokens hmids, fun w hw => (hmids w (List.mem_of_mem_head? hw)).trimmed.starts⟩

/-- The groups of lip synchronisation hold what is put into them. -/
theorem syncGroup_mids {P : Text → Prop} {msid mid : Text} (hmid : P mid)
    (gs : List (Text × List Text)) (hgs : ∀ g ∈ gs, ∀ x ∈ g.2, P x) :
    ∀ g ∈ syncGroup msid mid gs, ∀ x ∈ g.2, P x := by
  have hone : ∀ x ∈ [mid], P x := fun x hx => List.mem_singleton.1 hx ▸ hmid
  induction gs with
  | nil => exact fun g hg => List.mem_singleton.1 hg ▸ hone
  | cons g₀ gs ih =>
    obtain ⟨h₀, hgs⟩ := List.forall_mem_cons.1 hgs
    rw [syncGroup]
    split
    · exact List.forall_mem_cons.2 ⟨h₀, ih hgs⟩
    · split
      · exact List.forall_mem_cons.2 ⟨List.forall_mem_append.2 ⟨h₀, hone⟩, hgs⟩
      · exact List.forall_mem_cons.2 ⟨hone, List.forall_mem_cons.2 ⟨h₀, hgs⟩⟩

theorem lipSyncGroups_wellFormed (ts : List RtpTransceiver) {es : List MediaEntry}
    (hes : ∀ e ∈ es, Token e.mid) : ∀ g ∈ lipSyncGroups ts es, g.WellFormed := by
  have hinner (e : MediaEntry) (he : Token e.mid) (msids : List Text) (gs : List (Text × List Text))
      (hgs : ∀ g ∈ gs, ∀ x ∈ g.2, Token x) :
      ∀ g ∈ msids.foldl (fun gs msid => syncGroup msid e.mid gs) gs, ∀ x ∈ g.2, Token x := by
    induction msids generalizing gs with
    | nil => exact hgs
    | cons msid msids ih => exact ih _ (syncGroup_mids he gs hgs)
  have houter (gs : List (Text × List Text)) (hgs : ∀ g ∈ gs, ∀ x ∈ g.2, Token x) :
      ∀ g ∈ es.foldl (fun gs e =>
          (e.msids ts).foldl (fun gs msid => syncGroup msid e.mid gs) gs) gs,
        ∀ x ∈ g.2, Token x := by
    induction es generalizing gs with
    | nil => exact hgs
    | cons e es ih =>
      obtain ⟨he, hes⟩ := List.forall_mem_cons.1 hes
      exact ih hes _ (hinner e he _ gs hgs)
  intro g hg
  obtain ⟨g₀, hmem, rfl⟩ := List.mem_map.1 hg
  obtain ⟨hmem, hlen⟩ := List.mem_filter.1 hmem
  refine group_wellFormed (by decide) (by decide) ?_ (houter [] (by simp) g₀ hmem)
  rintro hnil
  simp [hnil] at hlen

/-! ### What a connection makes -/

variable [NoCaseEq] {c c' : Connection}

/-- What is written of a connection is in words, and its current description can be read. -/
structure Connection.Spoken (c : Connection) : Prop where
  agent : c.AgentSpoken
  transceivers : ∀ t ∈ c.transceivers, t.Spoken
  sessionName : Value (c.localDesc.elim [] SessionDescription.sessionName)
  sections : ∀ m ∈ c.currentMedias, m.Spoken

namespace Connection

/-- The entries of an offer have words for mids. -/
theorem Spoken.nextEntries (hc : c.Spoken) : ∀ e ∈ c.nextEntries, e.mid = [] ∨ Token e.mid := by
  obtain ⟨kept, fresh, gaps, hparts, hes⟩ :=
    offerEntries_parts c.currentMedias c.needSctp c.transceivers
  have hmidAt (i : ℕ) (hne : midAt c.currentMedias i ≠ []) : Token (midAt c.currentMedias i) := by
    have hi := lt_of_midAt_ne hne
    rw [midAt_eq (List.getElem?_eq_getElem hi)]
    exact (hc.sections _ (List.getElem_mem hi)).mid
  have hold (i : ℕ) : midAt c.currentMedias i = [] ∨ Token (midAt c.currentMedias i) :=
    or_iff_not_imp_left.2 (hmidAt i)
  intro e he
  rcases (mem_nextEntries hes e).1 he with hk | hd | hf | hg
  · exact hparts.kept_mid e hk ▸ hold e.index
  · obtain ⟨i, -, rfl⟩ := List.mem_map.1 hd
    exact hold i
  · exact .inl (hparts.fresh.mid e hf)
  · exact hparts.gaps_mid e hg ▸ hold e.index

/-- The section of an entry can be read. -/
theorem Spoken.entrySection (hc : c.Spoken) {e : MediaEntry} {m : SdpMedia} (he : Token e.mid)
    (h : c.entrySection c.currentMedias e = .ok m) : m.Spoken := by
  unfold Connection.entrySection at h
  split at h
  · obtain rfl := Except.ok.inj h
    exact sctpSection_spoken hc.agent he
  · split at h
    · split at h
      · cases h
      · rename_i m₀ hm
        obtain rfl := Except.ok.inj h
        exact (hc.sections m₀ (List.mem_of_getElem? hm)).rejected
    · split at h
      · cases h
      · rename_i t ht
        obtain rfl := Except.ok.inj h
        exact mediaSection_spoken hc.agent (hc.transceivers t (List.mem_of_getElem? ht)) he

/-- What is left of a description of a connection on the wire, besides its origin. -/
theorem wellFormed_onWire {d : SessionDescription} (hc : c.AgentSpoken)
    (horigin : d.origin.WellFormed) (hname : Value d.sessionName)
    (hufrag : d.iceUfrag = c.localUsername) (hpwd : d.icePwd = c.localPassword)
    (hfp : d.fingerprints = [c.fingerprint]) (hoptions : Words d.iceOptions)
    (hsemantic : d.msidSemantic = {} ∨ d.msidSemantic = ⟨"WMS".toList, ["*".toList]⟩)
    (hgroups : ∀ g ∈ d.groups, g.WellFormed) (hmedias : ∀ m ∈ d.medias, m.Spoken)
    (hothers : d.uri = [] ∧ d.email = [] ∧ d.phoneNumber = [] ∧ d.connNettype = [] ∧
      d.connAddrtype = [] ∧ d.connAddr = [] ∧ d.candidates = [] ∧ d.attributes = []) :
    d.onWire.WellFormed ∧ d.onWire.Clean := by
  obtain ⟨huri, hemail, hphone, hnet, hatype, haddr, hcand, hattrs⟩ := hothers
  have hwms : Words ["WMS".toList, "*".toList] := .of_tokens (by decide)
  refine ⟨⟨horigin, hname, ?_, ?_, ?_, ⟨hnet, hatype, haddr⟩, ?_, ?_, hoptions, ?_, ?_, hgroups,
    ?_, ?_,
    ?_, ?_⟩, ?_, ?_, ?_⟩
  · show Value d.uri
    exact huri ▸ .nil
  · show Value d.email
    exact hemail ▸ .nil
  · show Value d.phoneNumber
    exact hphone ▸ .nil
  · show Trimmed d.iceUfrag
    exact hufrag ▸ hc.username
  · show Trimmed d.icePwd
    exact hpwd ▸ hc.password
  · show ∀ a ∈ d.fingerprints, a.WellFormed
    rw [hfp]
    exact fun a ha => List.mem_singleton.1 ha ▸ hc.fingerprint
  · exact hsemantic.imp_right fun h => by
      show Words (d.msidSemantic.semantic :: d.msidSemantic.streamIds)
      rw [h]
      exact hwms
  · show ∀ l ∈ d.candidates, CandidateText l
    rw [hcand]
    exact fun _ h => absurd h List.not_mem_nil
  · show ∀ a ∈ d.attributes, OtherAttr sessionAttrNames a
    rw [hattrs]
    exact fun _ h => absurd h List.not_mem_nil
  · intro m hm
    obtain ⟨m₀, hm₀, rfl⟩ := List.mem_map.1 hm
    exact (hmedias m₀ hm₀).onWire
  · intro m hm
    obtain ⟨m₀, hm₀, rfl⟩ := List.mem_map.1 (List.dropLast_subset _ hm)
    exact (hmedias m₀ hm₀).msids
  · show ∀ a ∈ d.attributes, a.2 = [] → EndsClean a.1
    rw [hattrs]
    exact fun _ h => absurd h List.not_mem_nil
  · exact hsemantic.imp_right fun h => by
      show d.msidSemantic.streamIds ≠ []
      rw [h]
      exact List.cons_ne_nil _ _
  · intro m hm
    obtain ⟨m₀, hm₀, rfl⟩ := List.mem_map.1 hm
    exact (hmedias m₀ hm₀).clean

/-- The parts of an offer. -/
theorem createOffer_parts {offer : SessionDescription} (h : c.createOffer = .ok (c', offer)) :
    ∃ es counter, assignMids c.nextEntries ((c.nextEntries.map MediaEntry.mid).filter (· ≠ []))
        c.midCounter = .ok (es, counter) ∧
      es.mapM (c.entrySection c.currentMedias) = .ok offer.medias ∧
      c'.transceivers = setMlineIndices es c.transceivers ∧
      offer =
        { sdpType := "offer".toList
          sessionName := c.localDesc.elim "-".toList SessionDescription.sessionName
          origin := c.localDesc.elim {} fun _ =>
            { sessionVersion := [Char.ofNat (c.sessionVersion % 256)] }
          iceUfrag := c.localUsername
          icePwd := c.localPassword
          fingerprints := [c.fingerprint]
          setup := some .actpass
          groups := offerGroups c.transceivers es offer.medias
          msidSemantic := if offer.medias = [] then {} else ⟨"WMS".toList, ["*".toList]⟩
          iceOptions := ["trickle".toList]
          medias := offer.medias } := by
  rw [createOffer] at h
  obtain ⟨⟨es, counter⟩, hmids, h⟩ := Checked.bind_eq_ok.1 h
  obtain ⟨sections, hsections, h⟩ := Checked.bind_eq_ok.1 h
  obtain ⟨rfl, rfl⟩ := Prod.mk.inj (Except.ok.inj h)
  exact ⟨es, counter, hmids, hsections, rfl, rfl⟩

/-- The sections of an offer can be read, and its mids are words. -/
theorem Spoken.createOffer (hc : c.Spoken) {es : List MediaEntry} {counter : U16}
    {sections : List SdpMedia}
    (hmids : assignMids c.nextEntries ((c.nextEntries.map MediaEntry.mid).filter (· ≠ []))
      c.midCounter = .ok (es, counter))
    (hsections : es.mapM (c.entrySection c.currentMedias) = .ok sections) :
    (∀ e ∈ es, Token e.mid) ∧ ∀ m ∈ sections, m.Spoken := by
  have hes := assignMids_token hc.nextEntries hmids
  refine ⟨hes, fun m hm => ?_⟩
  obtain ⟨e, he, hem⟩ := exists_left_of_mem (Checked.forall₂_of_mapM hsections) hm
  exact hc.entrySection (hes e he) hem

/-- The sections of an offer are described by one line each for their addresses. -/
theorem survives_of_spoken [LawfulNoCaseEq] {d : SessionDescription} (hd : d.onWire.WellFormed ∧
    d.onWire.Clean) (hmedias : ∀ m ∈ d.medias, m.Spoken) : d.Survives :=
  SessionDescription.survives_of_onWire hd.1 hd.2 fun m hm => (hmedias m hm).conn

/-- **An offer survives** where it is the first one, or the version of the session is not
whitespace as a character. -/
theorem createOffer_survives_iff [LawfulNoCaseEq] {offer : SessionDescription} (hc : c.Spoken)
    (h : c.createOffer = .ok (c', offer)) :
    offer.Survives ↔
      c.localDesc = none ∨ isSpace (Char.ofNat (c.sessionVersion % 256)) = false := by
  obtain ⟨es, counter, hmids, hsections, -, hoffer⟩ := createOffer_parts h
  obtain ⟨hes, hmedias⟩ := hc.createOffer hmids hsections
  have horigin : offer.origin = c.localDesc.elim {} fun _ =>
      { sessionVersion := [Char.ofNat (c.sessionVersion % 256)] } := by
    rw [hoffer]
  constructor
  · intro hsurvives
    have hwords := hsurvives.origin
    rw [horigin] at hwords
    cases hlocal : c.localDesc with
    | none => exact .inl rfl
    | some d =>
      rw [hlocal] at hwords
      have hversion := hwords [Char.ofNat (c.sessionVersion % 256)] (by simp [SdpOrigin.fields])
      exact .inr (hversion.2 _ (List.mem_singleton_self _))
  · intro hversion
    refine survives_of_spoken
      (wellFormed_onWire hc.agent ?_ ?_ ?_ ?_ ?_ ?_ ?_ ?_ hmedias ?_) hmedias
    · rw [horigin]
      cases hlocal : c.localDesc with
      | none => exact SdpOrigin.wellFormed_default
      | some d =>
        rcases hversion with hnone | hspace
        · cases hnone.symm.trans hlocal
        · have hdefault : ∀ w ∈ SdpOrigin.fields {}, Token w := SdpOrigin.wellFormed_default
          intro w hw
          simp only [SdpOrigin.fields, Option.elim_some, List.mem_cons, List.not_mem_nil,
            or_false] at hw
          rcases hw with rfl | rfl | rfl | rfl | rfl | rfl
          · decide
          · decide
          · exact ⟨List.cons_ne_nil _ _, fun x hx => List.mem_singleton.1 hx ▸ hspace⟩
          · decide
          · decide
          · decide
    · rw [hoffer]
      have hname := hc.sessionName
      cases hlocal : c.localDesc with
      | none => exact (show Token "-".toList by decide).trimmed.toValue
      | some d =>
        rw [hlocal] at hname
        exact hname
    · rw [hoffer]
    · rw [hoffer]
    · rw [hoffer]
    · rw [hoffer]
      show Words ["trickle".toList]
      exact .of_tokens (by decide)
    · rw [hoffer]
      split
      · exact .inl rfl
      · exact .inr rfl
    · rw [hoffer]
      show ∀ g ∈ offerGroups c.transceivers es offer.medias, g.WellFormed
      unfold offerGroups
      simp only []
      refine List.forall_mem_append.2 ⟨lipSyncGroups_wellFormed _ hes, ?_⟩
      split
      · exact fun _ h => absurd h List.not_mem_nil
      · rename_i hne
        refine fun g hg => List.mem_singleton.1 hg ▸ group_wellFormed (by decide) (by decide) hne ?_
        intro mid hmid
        obtain ⟨m, hm, rfl⟩ := List.mem_map.1 hmid
        exact (hmedias m (List.mem_filter.1 hm).1).mid
    · rw [hoffer]
      exact ⟨rfl, rfl, rfl, rfl, rfl, rfl, rfl, rfl⟩

/-- **An answer survives.** -/
theorem createAnswer_survives [LawfulNoCaseEq] {answer : SessionDescription} (hc : c.Spoken)
    (hremote : ∀ r, c.remoteDesc = some r → ∀ m ∈ r.medias, m.Heard)
    (h : c.createAnswer = some answer) :
    answer.Survives ∧ answer.sessionName = "-".toList ∧ ∀ m ∈ answer.medias, m.Spoken := by
  unfold createAnswer at h
  cases hr : c.remoteDesc with
  | none =>
    rw [hr] at h
    cases h
  | some r =>
    rw [hr] at h
    simp only [] at h
    split at h
    · cases h
    · obtain rfl := Option.some.inj h
      have hmedias : ∀ m ∈ r.medias.map c.answerSection, m.Spoken := by
        intro m hm
        obtain ⟨rm, hrm, rfl⟩ := List.mem_map.1 hm
        exact answerSection_spoken hc.agent hc.transceivers (hremote r hr rm hrm)
      refine ⟨survives_of_spoken (wellFormed_onWire hc.agent SdpOrigin.wellFormed_default ?_ rfl rfl
        rfl ?_ (.inr rfl) ?_ hmedias ⟨rfl, rfl, rfl, rfl, rfl, rfl, rfl, rfl⟩) hmedias, rfl,
        hmedias⟩
      · exact (show Token "-".toList by decide).trimmed.toValue
      · show Words (if iceOptionsTrickleFrom r then ["trickle".toList] else [])
        split
        · exact .of_tokens (by decide)
        · exact .nil
      · show ∀ g ∈ (if r.medias.map c.answerSection = [] then [] else _), SdpGroup.WellFormed g
        split
        · exact fun _ h => absurd h List.not_mem_nil
        · rename_i hne
          refine fun g hg =>
            List.mem_singleton.1 hg ▸ group_wellFormed (by decide) (by decide) ?_ ?_
          · exact fun h => hne (List.map_eq_nil_iff.1 h)
          · intro mid hmid
            obtain ⟨m, hm, rfl⟩ := List.mem_map.1 hmid
            exact (hmedias m hm).mid

end Connection

end AsioRtc
