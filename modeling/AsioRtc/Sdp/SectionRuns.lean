/-
# A text in sections

The loop of `do_parse` in `src/sdp.cpp` keeps one description for the whole text.  Here
the text is cut at its `m=` lines (`sectionLines`): a text is accepted with what is in
front of them and each section read on its own (`parseSdp_sections_iff`), where the
stream identifiers of every section but the last are checked.

Behind its first line only the attributes of a section count (`sectionsOf`).  What each
attribute adds to a section is there behind all of them (`BodyRun.of_attrs`).
-/

import AsioRtc.Sdp.Steps

namespace AsioRtc

open Lib Text

/-! ### The lines -/

/-- The name and the value of an attribute line. -/
def lineAttr (line : Text) : Option (Text × Text) :=
  match strip line with
  | 'a' :: '=' :: v => some (attrParts v)
  | _ => none

/-- The line begins a section. -/
def isMediaLine (line : Text) : Bool := (strip line).head? = some 'm'

/-- The attributes in front of the first section, and those of each section. -/
def sectionsOf : List Text → List (Text × Text) × List (List (Text × Text))
  | [] => ([], [])
  | line :: ls =>
    let (front, rest) := sectionsOf ls
    if isMediaLine line then ([], front :: rest)
    else ((lineAttr line).toList ++ front, rest)

/-- The lines in front of the first section, and each section with its first line. -/
def sectionLines : List Text → List Text × List (Text × List Text)
  | [] => ([], [])
  | line :: ls =>
    let (front, rest) := sectionLines ls
    if isMediaLine line then ([], (line, front) :: rest) else (line :: front, rest)

section Lines

variable {line v : Text} {t : Char} {ls ls' : List Text}

/-- A line of another type is no attribute. -/
theorem lineAttr_eq_none (hl : strip line = t :: '=' :: v) (ht : t ≠ 'a') :
    lineAttr line = none := by
  unfold lineAttr
  split
  · rename_i h
    rw [hl] at h
    exact absurd (List.cons.inj h).1 ht
  · rfl

/-- An attribute, taken apart. -/
theorem lineAttr_eq_some (hl : strip line = 'a' :: '=' :: v) :
    lineAttr line = some (attrParts v) := by
  simp [lineAttr, hl]

/-- The first line of a section opens one. -/
theorem sectionsOf_media (ls : List Text) (h : isMediaLine line = true) :
    sectionsOf (line :: ls) = ([], (sectionsOf ls).1 :: (sectionsOf ls).2) := by
  rw [sectionsOf]
  exact if_pos h

/-- Another line belongs to what it stands in. -/
theorem sectionsOf_other (ls : List Text) (h : isMediaLine line = false) :
    sectionsOf (line :: ls) =
      ((lineAttr line).toList ++ (sectionsOf ls).1, (sectionsOf ls).2) := by
  rw [sectionsOf]
  exact if_neg (by simp [h])

/-- The first line of a section opens one. -/
theorem sectionLines_media (ls : List Text) (h : isMediaLine line = true) :
    sectionLines (line :: ls) = ([], (line, (sectionLines ls).1) :: (sectionLines ls).2) := by
  rw [sectionLines]
  exact if_pos h

/-- Another line belongs to what it stands in. -/
theorem sectionLines_other (ls : List Text) (h : isMediaLine line = false) :
    sectionLines (line :: ls) = (line :: (sectionLines ls).1, (sectionLines ls).2) := by
  rw [sectionLines]
  exact if_neg (by simp [h])

/-- Lines that begin no section stand in front of what comes behind them. -/
theorem sectionLines_append (h : ∀ l ∈ ls, isMediaLine l = false) (ls' : List Text) :
    sectionLines (ls ++ ls') = (ls ++ (sectionLines ls').1, (sectionLines ls').2) := by
  induction ls with
  | nil => rfl
  | cons l ls ih =>
    obtain ⟨hl, hls⟩ := List.forall_mem_cons.1 h
    rw [List.cons_append, sectionLines_other _ hl, ih hls, List.cons_append]

/-- No line in front of the sections opens one. -/
theorem not_media_of_front : ∀ l ∈ (sectionLines ls).1, isMediaLine l = false := by
  induction ls with
  | nil => simp [sectionLines]
  | cons line ls ih =>
    by_cases hm : isMediaLine line = true
    · simp [sectionLines_media ls hm]
    · rw [Bool.not_eq_true] at hm
      rw [sectionLines_other ls hm]
      exact List.forall_mem_cons.2 ⟨hm, ih⟩

/-- What holds of all lines holds of those of the parts. -/
theorem forall_sectionLines {P : Text → Prop} (h : ∀ l ∈ ls, P l) :
    (∀ l ∈ (sectionLines ls).1, P l) ∧ ∀ sec ∈ (sectionLines ls).2, ∀ l ∈ sec.2, P l := by
  induction ls with
  | nil => simp [sectionLines]
  | cons line ls ih =>
    obtain ⟨hline, hls⟩ := List.forall_mem_cons.1 h
    obtain ⟨hfront, hrest⟩ := ih hls
    by_cases hm : isMediaLine line = true
    · rw [sectionLines_media ls hm]
      exact ⟨by simp, List.forall_mem_cons.2 ⟨hfront, hrest⟩⟩
    · rw [Bool.not_eq_true] at hm
      rw [sectionLines_other ls hm]
      exact ⟨List.forall_mem_cons.2 ⟨hline, hfront⟩, hrest⟩

/-- A first element that counts, or does not. -/
theorem filterMap_cons_eq {α β : Type} (f : α → Option β) (a : α) (l : List α) :
    (a :: l).filterMap f = (f a).toList ++ l.filterMap f := by
  cases h : f a <;> simp [h]

/-- The attributes are those of the lines. -/
theorem sectionsOf_eq (ls : List Text) :
    sectionsOf ls = ((sectionLines ls).1.filterMap lineAttr,
      (sectionLines ls).2.map fun sec => sec.2.filterMap lineAttr) := by
  induction ls with
  | nil => rfl
  | cons line ls ih =>
    by_cases hm : isMediaLine line = true
    · rw [sectionsOf_media ls hm, sectionLines_media ls hm, ih]
      rfl
    · rw [Bool.not_eq_true] at hm
      rw [sectionsOf_other ls hm, sectionLines_other ls hm, ih, filterMap_cons_eq]

end Lines

/-! ### What is read of an attribute -/

/-- The value of an attribute of some name. -/
def valueOf (name : Text) (attr : Text × Text) : Option Text :=
  if attr.1 = name then some attr.2 else none

/-- An attribute of another name has no value for a field. -/
theorem valueOf_of_ne {name n : Text} (h : n ≠ name) (value : Text) :
    valueOf name (n, value) = none := if_neg h

/-- What is read, where it is accepted. -/
def accepted {α : Type} (x : Checked (Option α)) : Option α :=
  match x with
  | .ok r => r
  | .error _ => none

/-- What is accepted. -/
theorem accepted_ok {α : Type} {x : Checked (Option α)} {a : α} (h : x = .ok (some a)) :
    accepted x = some a := by
  rw [h]
  rfl

/-- The codec of an attribute. -/
def rtpmapOf (attr : Text × Text) : Option SdpRtpmap :=
  (valueOf "rtpmap".toList attr).bind fun v => accepted (parseRtpmap v)

/-! ### Runs -/

variable [NoCaseEq]

/-- A line behind the first one of a section. -/
inductive BodyStep (m : SdpMedia) (line : Text) : SdpMedia → Prop
  | blank (h : strip line = []) : BodyStep m line m
  | attr {v : Text} {m' : SdpMedia} (hl : strip line = 'a' :: '=' :: v)
      (h : MediaAttr m (attrParts v).2 (attrParts v).1 m') : BodyStep m line m'
  | ignored {t : Char} {v : Text} (hl : strip line = t :: '=' :: v) (ha : t ≠ 'a') :
      BodyStep m line m

/-- The lines behind the first one. -/
inductive BodyRun : SdpMedia → List Text → SdpMedia → Prop
  | nil (m : SdpMedia) : BodyRun m [] m
  | cons {m m' m'' : SdpMedia} {line : Text} {ls : List Text} (h : BodyStep m line m')
      (hr : BodyRun m' ls m'') : BodyRun m (line :: ls) m''

/-- A section on its own. -/
def SectionRun (sec : Text × List Text) (m : SdpMedia) : Prop :=
  ∃ v m₀, strip sec.1 = 'm' :: '=' :: v ∧ parseMediaLine v = .ok (some m₀) ∧ BodyRun m₀ sec.2 m

section Runs

variable {s : SessionDescription} {st st' : ParseState} {line : Text} {ls : List Text}
  {m m' : SdpMedia} {ms : List SdpMedia}

/-- **What every attribute adds** is there behind all of them. -/
theorem BodyRun.of_attrs {P : SdpMedia → List (Text × Text) → Prop} (h : BodyRun m ls m')
    (hattr : ∀ {m m' attrs line v}, line ∈ ls → strip line = 'a' :: '=' :: v →
      MediaAttr m (attrParts v).2 (attrParts v).1 m' → P m attrs → P m' (attrs ++ [attrParts v]))
    (hm : P m []) : P m' (ls.filterMap lineAttr) := by
  suffices hbehind : ∀ attrs, P m attrs → P m' (attrs ++ ls.filterMap lineAttr) from
    hbehind [] hm
  clear hm
  induction h with
  | nil => simp
  | @cons m m₁ m' line ls h _ ih =>
    intro attrs hm
    have hstep : P m₁ (attrs ++ (lineAttr line).toList) := by
      cases h with
      | blank hl => simpa [lineAttr, hl] using hm
      | attr hl h =>
        rw [lineAttr_eq_some hl]
        exact hattr (List.mem_cons_self ..) hl h hm
      | ignored hl ha => simpa [lineAttr_eq_none hl ha] using hm
    rw [filterMap_cons_eq, ← List.append_assoc]
    exact ih (fun hmem => hattr (List.mem_cons_of_mem _ hmem)) _ hstep

/-- A line that begins a section. -/
theorem lineStep_media_iff (hm : isMediaLine line = true) :
    LineStep st line st' ↔ ∃ v m, strip line = 'm' :: '=' :: v ∧
      (∀ last ∈ st.session.medias.getLast?, checkMsid last = true) ∧
      parseMediaLine v = .ok (some m) ∧
      st' = ⟨{ st.session with medias := st.session.medias ++ [m] }, true⟩ := by
  constructor
  · intro h
    cases h with
    | blank h => simp [isMediaLine, h] at hm
    | media hl hcheck h => exact ⟨_, _, hl, hcheck, h, rfl⟩
    | attr hl _ _ _ => simp [isMediaLine, hl] at hm
    | ignored hl ht _ _ _ => simp [isMediaLine, hl, ht] at hm
    | session hl ht _ _ => simp [isMediaLine, hl, ht] at hm
  · rintro ⟨v, m, hl, hcheck, h, rfl⟩
    exact .media hl hcheck h

/-- A line behind the first one of a section. -/
theorem lineStep_body_iff (hin : st.inMedia = true) (hms : st.session.medias = ms ++ [m])
    (hm : isMediaLine line = false) :
    LineStep st line st' ↔ ∃ m', BodyStep m line m' ∧
      st' = ⟨{ st.session with medias := ms ++ [m'] }, true⟩ := by
  have hst : st = ⟨{ st.session with medias := ms ++ [m] }, true⟩ := by
    rw [← hms, ← hin]
  constructor
  · intro h
    cases h with
    | blank h => exact ⟨m, .blank h, hst⟩
    | media hl _ _ => simp [isMediaLine, hl] at hm
    | @attr v ms₁ m₁ m₂ hl _ hms₁ h =>
      obtain ⟨rfl, hlast⟩ := List.append_inj' (hms₁.symm.trans hms) rfl
      obtain rfl := (List.cons.inj hlast).1
      exact ⟨m₂, .attr hl h, by rw [← hin]⟩
    | ignored hl _ ha _ _ => exact ⟨m, .ignored hl ha, hst⟩
    | session _ _ hin' _ =>
      rw [hin] at hin'
      cases hin'
  · rintro ⟨m', h, rfl⟩
    cases h with
    | blank h => exact hst ▸ .blank h
    | attr hl h =>
      have hstep := LineStep.attr hl hin hms h
      rwa [hin] at hstep
    | @ignored t v hl ha =>
      have ht : t ≠ 'm' := fun h => by simp [isMediaLine, hl, h] at hm
      exact hst ▸ .ignored hl ht ha hin (by simp [hms])

omit [NoCaseEq] in
/-- All but the last, where there are two at least. -/
theorem forall_dropLast_cons {P : SdpMedia → Prop} :
    (∀ x ∈ (m :: m' :: ms).dropLast, P x) ↔ P m ∧ ∀ x ∈ (m' :: ms).dropLast, P x := by
  rw [List.dropLast_cons_cons, List.forall_mem_cons]

/-- **A run from a section on** reads the rest of the section, and then each of the others. -/
theorem LineRun.section_iff (hin : st.inMedia = true) (hms : st.session.medias = ms ++ [m]) :
    LineRun st ls st' ↔ ∃ m' ms', BodyRun m (sectionLines ls).1 m' ∧
      List.Forall₂ SectionRun (sectionLines ls).2 ms' ∧
      (∀ x ∈ (m' :: ms').dropLast, checkMsid x = true) ∧
      st' = ⟨{ st.session with medias := ms ++ m' :: ms' }, true⟩ := by
  induction ls generalizing st ms m with
  | nil =>
    constructor
    · intro h
      cases h
      refine ⟨m, [], .nil m, .nil, by simp, ?_⟩
      rw [← hms, ← hin]
    · rintro ⟨m', ms', hbody, hrest, -, rfl⟩
      cases hbody
      cases hrest
      have hst : st = ⟨{ st.session with medias := ms ++ [m] }, true⟩ := by rw [← hms, ← hin]
      exact hst ▸ .nil st
  | cons line ls ih =>
    by_cases hm : isMediaLine line = true
    · rw [sectionLines_media ls hm]
      constructor
      · intro h
        cases h with
        | cons h hrun =>
          obtain ⟨v, m₁, hl, hcheck, hparse, rfl⟩ := (lineStep_media_iff hm).1 h
          obtain ⟨m', ms', hbody, hrest, hchecks, rfl⟩ := (ih rfl rfl).1 hrun
          refine ⟨m, m' :: ms', .nil m, .cons ⟨v, m₁, hl, hparse, hbody⟩ hrest, ?_, ?_⟩
          · exact forall_dropLast_cons.2 ⟨hcheck m (by simp [hms]), hchecks⟩
          · simp [hms]
      · rintro ⟨m', ms', hbody, hrest, hchecks, rfl⟩
        cases hbody
        cases hrest with
        | @cons _ m₂ _ ms' hsec hrest =>
          obtain ⟨v, m₁, hl, hparse, hbody⟩ := hsec
          obtain ⟨hcheck, hchecks⟩ := forall_dropLast_cons.1 hchecks
          have hlast : ∀ last ∈ st.session.medias.getLast?, checkMsid last = true := by
            intro last hmem
            rw [hms, List.getLast?_concat] at hmem
            exact Option.some.inj hmem ▸ hcheck
          refine .cons ((lineStep_media_iff hm).2 ⟨v, m₁, hl, hlast, hparse, rfl⟩) ((ih rfl rfl).2
            ⟨m₂, ms', hbody, hrest, hchecks, ?_⟩)
          simp [hms]
    · rw [Bool.not_eq_true] at hm
      rw [sectionLines_other ls hm]
      constructor
      · intro h
        cases h with
        | cons h hrun =>
          obtain ⟨m₁, hstep, rfl⟩ := (lineStep_body_iff hin hms hm).1 h
          obtain ⟨m', ms', hbody, hrest, hchecks, rfl⟩ := (ih rfl rfl).1 hrun
          exact ⟨m', ms', .cons hstep hbody, hrest, hchecks, rfl⟩
      · rintro ⟨m', ms', hbody, hrest, hchecks, rfl⟩
        cases hbody with
        | cons hstep hbody =>
          exact .cons ((lineStep_body_iff hin hms hm).2 ⟨_, hstep, rfl⟩)
            ((ih rfl rfl).2 ⟨m', ms', hbody, hrest, hchecks, rfl⟩)

/-- An attribute of the session part leaves the sections alone. -/
theorem SessionAttr.medias {name value : Text} (h : SessionAttr s value name s') :
    s'.medias = s.medias := by
  cases h <;> rfl

/-- A line in front of the first section is blank, or one of the session part. -/
theorem LineStep.front_cases (h : LineStep st line st') (hin : st.inMedia = false)
    (hm : isMediaLine line = false) : strip line = [] ∧ st' = st ∨
      ∃ t v s', strip line = t :: '=' :: v ∧ SessionLine st.session v t s' ∧
        st' = { st with session := s' } := by
  cases h with
  | blank hl => exact Or.inl ⟨hl, rfl⟩
  | media hl _ _ => simp [isMediaLine, hl] at hm
  | attr _ hin' _ _ =>
    rw [hin] at hin'
    cases hin'
  | ignored _ _ _ hin' _ =>
    rw [hin] at hin'
    cases hin'
  | session hl _ _ h => exact Or.inr ⟨_, _, _, hl, h, rfl⟩

/-- It begins no section. -/
theorem LineStep.front (h : LineStep st line st') (hin : st.inMedia = false)
    (hm : isMediaLine line = false) :
    st'.inMedia = false ∧ st'.session.medias = st.session.medias := by
  rcases h.front_cases hin hm with ⟨-, rfl⟩ | ⟨t, v, s', -, hline, rfl⟩
  · exact ⟨hin, rfl⟩
  · refine ⟨hin, ?_⟩
    cases hline with
    | attr h => exact h.medias
    | _ => rfl

/-- **A run from the session part on.** -/
theorem LineRun.front_iff (hin : st.inMedia = false) (hms : st.session.medias = []) :
    LineRun st ls st' ↔ ∃ s ms, LineRun st (sectionLines ls).1 ⟨s, false⟩ ∧ s.medias = [] ∧
      List.Forall₂ SectionRun (sectionLines ls).2 ms ∧
      (∀ x ∈ ms.dropLast, checkMsid x = true) ∧
      st' = ⟨{ s with medias := ms }, ms ≠ []⟩ := by
  induction ls generalizing st with
  | nil =>
    have hst : st = ⟨{ st.session with medias := [] }, false⟩ := by rw [← hms, ← hin]
    constructor
    · intro h
      cases h
      refine ⟨st'.session, [], ?_, hms, .nil, by simp, hst⟩
      rw [← hin]
      exact .nil st'
    · rintro ⟨s, ms, hfront, hnil, hrest, -, rfl⟩
      cases hrest
      cases hfront
      have hs : s = { s with medias := [] } := by rw [← hnil]
      exact hs ▸ .nil _
  | cons line ls ih =>
    by_cases hm : isMediaLine line = true
    · rw [sectionLines_media ls hm]
      constructor
      · intro h
        cases h with
        | cons h hrun =>
          obtain ⟨v, m₁, hl, -, hparse, rfl⟩ := (lineStep_media_iff hm).1 h
          obtain ⟨m', ms', hbody, hrest, hchecks, rfl⟩ :=
            (LineRun.section_iff rfl rfl).1 hrun
          refine ⟨st.session, m' :: ms', ?_, hms, .cons ⟨v, m₁, hl, hparse, hbody⟩ hrest, hchecks, ?_⟩
          · rw [← hin]
            exact .nil st
          · simp [hms]
      · rintro ⟨s, ms, hfront, hnil, hrest, hchecks, rfl⟩
        cases hfront
        cases hrest with
        | @cons _ m₂ _ ms' hsec hrest =>
          obtain ⟨v, m₁, hl, hparse, hbody⟩ := hsec
          refine .cons ((lineStep_media_iff hm).2 ⟨v, m₁, hl, by simp [hnil], hparse, rfl⟩)
            ((LineRun.section_iff rfl rfl).2 ⟨m₂, ms', hbody, hrest, hchecks, ?_⟩)
          simp [hnil]
    · rw [Bool.not_eq_true] at hm
      rw [sectionLines_other ls hm]
      constructor
      · intro h
        cases h with
        | cons h hrun =>
          obtain ⟨hin₁, hms₁⟩ := h.front hin hm
          obtain ⟨s, ms, hfront, hnil, hrest, hchecks, rfl⟩ := (ih hin₁ (hms₁.trans hms)).1 hrun
          exact ⟨s, ms, .cons h hfront, hnil, hrest, hchecks, rfl⟩
      · rintro ⟨s, ms, hfront, hnil, hrest, hchecks, rfl⟩
        cases hfront with
        | cons h hfront =>
          obtain ⟨hin₁, hms₁⟩ := h.front hin hm
          exact .cons h ((ih hin₁ (hms₁.trans hms)).2 ⟨s, ms, hfront, hnil, hrest, hchecks, rfl⟩)

/-- **What `parse_sdp` accepts, section by section.** -/
theorem parseSdp_sections_iff {sdp type : Text} {d : SessionDescription} :
    parseSdp sdp type = .ok (some d) ↔ lines sdp ≠ [] ∧ ∃ s ms,
      LineRun ⟨{ sdpType := type }, false⟩ (sectionLines (lines sdp)).1 ⟨s, false⟩ ∧
      List.Forall₂ SectionRun (sectionLines (lines sdp)).2 ms ∧
      (∀ x ∈ ms.dropLast, checkMsid x = true) ∧ d = { s with medias := ms } := by
  rw [parseSdp_iff]
  refine and_congr_right fun _ => ?_
  constructor
  · rintro ⟨st, hrun, rfl⟩
    obtain ⟨s, ms, hfront, -, hrest, hchecks, rfl⟩ := (LineRun.front_iff rfl rfl).1 hrun
    exact ⟨s, ms, hfront, hrest, hchecks, rfl⟩
  · rintro ⟨s, ms, hfront, hrest, hchecks, rfl⟩
    have hnil := hfront.invariant
      (P := fun st => st.inMedia = false ∧ st.session.medias = [])
      (fun hmem hstep hst => by
        obtain ⟨hin, hms⟩ := hstep.front hst.1 (not_media_of_front _ hmem)
        exact ⟨hin, hms.trans hst.2⟩) ⟨rfl, rfl⟩
    exact ⟨_, (LineRun.front_iff rfl rfl).2 ⟨s, ms, hfront, hnil.2, hrest, hchecks, rfl⟩, rfl⟩

end Runs

end AsioRtc
