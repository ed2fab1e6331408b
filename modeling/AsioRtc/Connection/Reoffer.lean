/-
# Offers after the first one

An offer keeps the layout of the current local description (`OfferLayout`): the sections
stay where they are, with their mid and media type, or have been rejected and are used
for something new; what else is new stands behind them; and the mids are distinct.

It does so exactly where the state allows it (`createOffer_layout_iff`).  What goes wrong
in the usual case is the section of the data channels: nothing takes it out of the map
from mids to sections, so the gap fill offers it a second time (`layable_iff_of_nodup`).
-/

import AsioRtc.Connection.OfferEntries

namespace AsioRtc

open Lib Text

section Parts

variable {medias : List SdpMedia} {needSctp : Bool} {ts : List RtpTransceiver}

/-! ### Which places and mids there are -/

/-- A section that is kept has a mid, which is its own, and is not the one for data. -/
theorem midAt_of_keptAt {i : ℕ} (h : keptAt medias ts i = true) :
    midAt medias i ≠ [] ∧ sectionOf medias (midAt medias i) = some i ∧
      dataSection medias ≠ some i := by
  simp only [keptAt, decide_eq_true_eq] at h
  exact ⟨h.1, h.2.1, h.2.2.1⟩

/-- The section for data has a mid. -/
theorem midAt_of_dataSection {i : ℕ} (h : dataSection medias = some i) :
    midAt medias i ≠ [] ∧ ∃ m, medias[i]? = some m ∧ m.mediaType = .application := by
  obtain ⟨⟨m, hm, hp⟩, -⟩ := lastIdx?_eq_some.1 h
  obtain ⟨hmid, happ⟩ := of_decide_eq_true hp
  exact ⟨midAt_eq hm ▸ hmid, m, hm, happ⟩

/-- A section whose place is taken by a new one. -/
theorem mem_recycledSections {i : ℕ} (h : i ∈ recycledSections medias needSctp ts) :
    midAt medias i ≠ [] ∧ dataSection medias ≠ some i ∧ keptAt medias ts i = false ∧
      ∃ m, medias[i]? = some m ∧ m.port = 0 := by
  obtain ⟨-, hp⟩ := List.mem_filter.1 (List.mem_of_mem_take h)
  rw [Bool.and_eq_true, Bool.not_eq_true', rejectedAt, Option.any_eq_true] at hp
  obtain ⟨⟨m, hm, hrej⟩, hkept⟩ := hp
  obtain ⟨hmid, happ, hport⟩ := of_decide_eq_true hrej
  refine ⟨midAt_eq hm ▸ hmid, fun hd => ?_, hkept, m, hm, hport⟩
  obtain ⟨-, m', hm', happ'⟩ := midAt_of_dataSection hd
  obtain rfl := Option.some.inj (hm.symm.trans hm')
  exact happ happ'

/-- No section is recycled twice. -/
theorem recycledSections_nodup : (recycledSections medias needSctp ts).Nodup :=
  (List.nodup_range.sublist List.filter_sublist).sublist (List.take_sublist ..)

/-- The places of an offer that are among those of the current description. -/
def oldPlaces (medias : List SdpMedia) (needSctp : Bool) (ts : List RtpTransceiver)
    (kept gaps : List MediaEntry) : List ℕ :=
  kept.map MediaEntry.index ++ ((dataSection medias).toList ++
    (recycledSections medias needSctp ts ++ gaps.map MediaEntry.index))

variable {kept fresh gaps : List MediaEntry}

/-- The sections that are left are those that nothing takes. -/
theorem OfferParts.mem_gaps (h : OfferParts medias needSctp ts kept fresh gaps) (i : ℕ) :
    i ∈ gaps.map MediaEntry.index ↔ GapAt medias needSctp ts i := by
  rw [List.mem_map]
  constructor
  · rintro ⟨e, he, rfl⟩
    obtain ⟨i, hi, rfl⟩ := (h.gaps_mem e).1 he
    exact hi
  · exact fun hi => ⟨_, (h.gaps_mem _).2 ⟨i, hi, rfl⟩, rfl⟩

/-- They keep their mids. -/
theorem OfferParts.gaps_mid (h : OfferParts medias needSctp ts kept fresh gaps) :
    ∀ e ∈ gaps, e.mid = midAt medias e.index := by
  intro e he
  obtain ⟨i, -, rfl⟩ := (h.gaps_mem e).1 he
  rfl

/-- Entries with distinct mids are at distinct places. -/
theorem index_nodup {es : List MediaEntry} (hmid : ∀ e ∈ es, e.mid = midAt medias e.index)
    (h : (es.map MediaEntry.mid).Nodup) : (es.map MediaEntry.index).Nodup := by
  rw [List.map_congr_left hmid,
    show (fun e : MediaEntry => midAt medias e.index) = midAt medias ∘ MediaEntry.index from rfl,
    ← List.map_map] at h
  exact List.Nodup.of_map _ h

/-- The old places: kept, for data, recycled or left. -/
theorem OfferParts.mem_oldPlaces (h : OfferParts medias needSctp ts kept fresh gaps) (i : ℕ) :
    i ∈ oldPlaces medias needSctp ts kept gaps ↔
      keptAt medias ts i = true ∨ dataSection medias = some i ∨
        i ∈ recycledSections medias needSctp ts ∨ GapAt medias needSctp ts i := by
  rw [oldPlaces, List.mem_append, List.mem_append, List.mem_append, h.kept_index, h.mem_gaps,
    Option.mem_toList]

/-- The old places are those of the sections before. -/
theorem OfferParts.oldPlaces_lt (h : OfferParts medias needSctp ts kept fresh gaps) :
    ∀ i ∈ oldPlaces medias needSctp ts kept gaps, i < medias.length := by
  intro i hi
  refine lt_of_midAt_ne ?_
  rcases (h.mem_oldPlaces i).1 hi with hk | hd | hr | hg
  · exact (midAt_of_keptAt hk).1
  · exact (midAt_of_dataSection hd).1
  · exact (mem_recycledSections hr).1
  · exact hg.1

/-- A place of the current description comes twice only if it is that of the data channels. -/
theorem OfferParts.oldPlaces_nodup (h : OfferParts medias needSctp ts kept fresh gaps)
    (hdata : ∀ i, dataSection medias = some i → ¬ GapAt medias needSctp ts i) :
    (oldPlaces medias needSctp ts kept gaps).Nodup := by
  rw [oldPlaces, List.nodup_append, List.nodup_append, List.nodup_append]
  refine ⟨index_nodup h.kept_mid h.kept_nodup, ⟨?_, ⟨recycledSections_nodup,
    index_nodup h.gaps_mid h.gaps_nodup, ?_⟩, ?_⟩, ?_⟩
  · cases dataSection medias <;> simp
  · rintro i hi j hj rfl
    exact ((h.mem_gaps i).1 hj).2.2.2 i hi rfl
  · rintro i hi j hj rfl
    have hi := Option.mem_toList.1 hi
    rcases List.mem_append.1 hj with hj | hj
    · exact (mem_recycledSections hj).2.1 hi
    · exact hdata i hi ((h.mem_gaps i).1 hj)
  · rintro i hi j hj rfl
    have hi := (h.kept_index i).1 hi
    rcases List.mem_append.1 hj with hj | hj
    · exact (midAt_of_keptAt hi).2.2 (Option.mem_toList.1 hj)
    · rcases List.mem_append.1 hj with hj | hj
      · exact Bool.false_ne_true ((mem_recycledSections hj).2.2.1.symm.trans hi)
      · exact Bool.false_ne_true (((h.mem_gaps i).1 hj).2.2.1.symm.trans hi)

/-- Everything is at its place, and no place of the current description is left out. -/
theorem OfferParts.placed_iff (h : OfferParts medias needSctp ts kept fresh gaps)
    (hes : offerEntries medias needSctp ts = (kept ++ (dataEntry medias ++ fresh) ++ gaps).mergeSort
      fun a b => a.index ≤ b.index) :
    ((offerEntries medias needSctp ts).map MediaEntry.index =
        List.range (offerEntries medias needSctp ts).length ∧
      medias.length ≤ (offerEntries medias needSctp ts).length) ↔
    (oldPlaces medias needSctp ts kept gaps).Nodup ∧
      ∀ i < medias.length, i ∈ oldPlaces medias needSctp ts kept gaps := by
  have hdata : (dataEntry medias).map MediaEntry.index = (dataSection medias).toList := by
    rw [dataEntry, List.map_map]
    exact List.map_id _
  have hperm : ((kept ++ (dataEntry medias ++ fresh) ++ gaps).map MediaEntry.index).Perm
      (oldPlaces medias needSctp ts kept gaps ++ List.range' medias.length
        (newSections medias needSctp ts - (recyclableSections medias ts).length)) := by
    simp only [List.map_append, hdata, h.fresh.index, oldPlaces, List.append_assoc]
    refine List.Perm.append_left _ (List.Perm.append_left _ (List.Perm.append_left _ ?_))
    exact List.perm_append_comm
  have hlen := hperm.length_eq
  rw [List.length_map] at hlen
  rw [hes, List.length_mergeSort, mergeSort_places_iff, hlen,
    ← perm_range_append_iff h.oldPlaces_lt]
  exact and_congr_left fun _ => ⟨hperm.symm.trans, hperm.trans⟩

/-- New entries have no mid yet. -/
theorem filter_mids_of_fresh {l : List MediaEntry} (hl : ∀ e ∈ l, e.mid = []) :
    (l.map MediaEntry.mid).filter (· ≠ []) = [] := by
  refine List.filter_eq_nil_iff.2 fun t ht => ?_
  obtain ⟨e, he, rfl⟩ := List.mem_map.1 ht
  simp [hl e he]

/-- Old entries have their mids. -/
theorem filter_mids_of_old {l : List MediaEntry} (hl : ∀ e ∈ l, e.mid ≠ []) :
    (l.map MediaEntry.mid).filter (· ≠ []) = l.map MediaEntry.mid := by
  refine List.filter_eq_self.2 fun t ht => ?_
  obtain ⟨e, he, rfl⟩ := List.mem_map.1 ht
  simpa using hl e he

/-- The mids that are not new are those of the data channels, of what is kept and of the gaps. -/
theorem OfferParts.mids_perm (h : OfferParts medias needSctp ts kept fresh gaps)
    (hes : offerEntries medias needSctp ts = (kept ++ (dataEntry medias ++ fresh) ++ gaps).mergeSort
      fun a b => a.index ≤ b.index) :
    (((offerEntries medias needSctp ts).map MediaEntry.mid).filter (· ≠ [])).Perm
      ((dataSection medias).toList.map (midAt medias) ++
        (kept.map MediaEntry.mid ++ gaps.map MediaEntry.mid)) := by
  have hkept : ∀ e ∈ kept, e.mid ≠ [] := fun e he => by
    rw [h.kept_mid e he]
    exact (midAt_of_keptAt ((h.kept_index _).1 (List.mem_map_of_mem he))).1
  have hgaps : ∀ e ∈ gaps, e.mid ≠ [] := fun e he => by
    rw [h.gaps_mid e he]
    exact ((h.mem_gaps _).1 (List.mem_map_of_mem he)).1
  have hdata : (dataEntry medias).map MediaEntry.mid =
      (dataSection medias).toList.map (midAt medias) := by
    rw [dataEntry, List.map_map]
    rfl
  have hdatane : ∀ e ∈ dataEntry medias, e.mid ≠ [] := fun e he => by
    obtain ⟨i, hi, rfl⟩ := List.mem_map.1 he
    exact (midAt_of_dataSection (Option.mem_toList.1 hi)).1
  rw [hes]
  refine (((List.mergeSort_perm _ _).map _).filter _).trans ?_
  simp only [List.map_append, List.filter_append, filter_mids_of_old hkept,
    filter_mids_of_old hgaps, (filter_mids_of_old hdatane).trans hdata,
    filter_mids_of_fresh h.fresh.mid, List.nil_append, List.append_assoc]
  exact List.perm_append_comm_assoc ..

/-- The gaps have other mids than what is kept. -/
theorem OfferParts.keptGaps_nodup (h : OfferParts medias needSctp ts kept fresh gaps) :
    (kept.map MediaEntry.mid ++ gaps.map MediaEntry.mid).Nodup := by
  refine List.nodup_append.2 ⟨h.kept_nodup, h.gaps_nodup, ?_⟩
  rintro a ha b hb rfl
  obtain ⟨e, he, rfl⟩ := List.mem_map.1 ha
  obtain ⟨g, hg, hmid⟩ := List.mem_map.1 hb
  rw [h.gaps_mid g hg, h.kept_mid e he] at hmid
  have hk := (h.kept_index _).1 (List.mem_map_of_mem he)
  have hgap := (h.mem_gaps _).1 (List.mem_map_of_mem hg)
  -- Both are the last section with their mid.
  have hsame := hgap.2.1
  rw [hmid, (midAt_of_keptAt hk).2.1] at hsame
  rw [← Option.some.inj hsame] at hgap
  exact Bool.false_ne_true (hgap.2.2.1.symm.trans hk)

/-- The mids of the entries that are kept or left. -/
theorem OfferParts.mem_keptGaps (h : OfferParts medias needSctp ts kept fresh gaps) (mid : Text) :
    mid ∈ kept.map MediaEntry.mid ++ gaps.map MediaEntry.mid ↔
      ∃ i, (keptAt medias ts i = true ∨ GapAt medias needSctp ts i) ∧ midAt medias i = mid := by
  rw [List.map_congr_left h.kept_mid, List.map_congr_left h.gaps_mid, List.mem_append,
    List.mem_map, List.mem_map]
  simp only [← h.kept_index, ← h.mem_gaps, List.mem_map]
  constructor
  · rintro (⟨e, he, rfl⟩ | ⟨e, he, rfl⟩)
    · exact ⟨_, Or.inl ⟨e, he, rfl⟩, rfl⟩
    · exact ⟨_, Or.inr ⟨e, he, rfl⟩, rfl⟩
  · rintro ⟨_, ⟨e, he, rfl⟩ | ⟨e, he, rfl⟩, rfl⟩
    · exact Or.inl ⟨e, he, rfl⟩
    · exact Or.inr ⟨e, he, rfl⟩

/-- The mids of an offer that are not new. -/
theorem OfferParts.mids_nodup_iff (h : OfferParts medias needSctp ts kept fresh gaps)
    (hes : offerEntries medias needSctp ts = (kept ++ (dataEntry medias ++ fresh) ++ gaps).mergeSort
      fun a b => a.index ≤ b.index) :
    (((offerEntries medias needSctp ts).map MediaEntry.mid).filter (· ≠ [])).Nodup ↔
      ∀ s, dataSection medias = some s →
        ∀ i, keptAt medias ts i = true ∨ GapAt medias needSctp ts i →
          midAt medias i ≠ midAt medias s := by
  rw [(h.mids_perm hes).nodup_iff]
  have hold := h.keptGaps_nodup
  cases hd : dataSection medias with
  | none => simpa using hold
  | some s =>
    simp only [Option.toList_some, List.map_cons, List.map_nil, List.singleton_append,
      List.nodup_cons, hold, and_true, h.mem_keptGaps, Option.some.injEq]
    constructor
    · rintro hnot _ rfl i hi heq
      exact hnot ⟨i, hi, heq⟩
    · rintro hall' ⟨i, hi, heq⟩
      exact hall' s rfl i hi heq

/-! ### The states whose layout is kept -/

/-- The current description can be laid out again.  Of the sections with one mid, at most one is
not recycled; if others are, it has to be one that is looked up before they are, by a transceiver
or as the section of the data channels.  The latter is never taken out of the map from mids to
sections, unless a section with the same mid is recycled. -/
structure Layable (medias : List SdpMedia) (needSctp : Bool) (ts : List RtpTransceiver) : Prop where
  mid_ne : ∀ i < medias.length, midAt medias i ≠ []
  distinct : ∀ i j, i < medias.length → j < medias.length →
    i ∉ recycledSections medias needSctp ts → j ∉ recycledSections medias needSctp ts →
    midAt medias i = midAt medias j → i = j
  shared : ∀ i < medias.length, i ∉ recycledSections medias needSctp ts →
    ∀ j ∈ recycledSections medias needSctp ts, midAt medias j = midAt medias i →
      keptAt medias ts i = true ∨ dataSection medias = some i
  data : ∀ i, dataSection medias = some i →
    ∃ j ∈ recycledSections medias needSctp ts, midAt medias j = midAt medias i

/-- Every mid of a section is that of some last section. -/
theorem sectionOf_isSome {i : ℕ} (hi : i < medias.length) :
    ∃ j, sectionOf medias (midAt medias i) = some j := by
  cases h : sectionOf medias (midAt medias i) with
  | some j => exact ⟨j, rfl⟩
  | none =>
    have := lastIdx?_eq_none.1 h medias[i] (List.getElem_mem hi)
    simp [midAt, List.getElem?_eq_getElem hi] at this

/-- A section that is neither recycled nor looked up before is a gap. -/
theorem Layable.gapAt (h : Layable medias needSctp ts) {i : ℕ} (hi : i < medias.length)
    (hrec : i ∉ recycledSections medias needSctp ts)
    (hkd : ¬ (keptAt medias ts i = true ∨ dataSection medias = some i)) :
    GapAt medias needSctp ts i := by
  refine ⟨h.mid_ne i hi, ?_, Bool.eq_false_iff.2 fun hk => hkd (Or.inl hk),
    fun j hj heq => hkd (h.shared i hi hrec j hj heq)⟩
  -- No other section has the mid.
  obtain ⟨j, hj⟩ := sectionOf_isSome hi
  have hmid := sectionOf_midAt hj
  have hjlt := lt_of_midAt_ne (hmid ▸ h.mid_ne i hi)
  by_cases hjrec : j ∈ recycledSections medias needSctp ts
  · exact absurd (h.shared i hi hrec j hjrec hmid) hkd
  · rw [hj, h.distinct i j hi hjlt hrec hjrec hmid.symm]

/-- The section of the data channels shares its mid with no section that is kept, nor with a
gap. -/
theorem Layable.midAt_ne_data (h : Layable medias needSctp ts) {s i : ℕ}
    (hs : dataSection medias = some s)
    (hi : keptAt medias ts i = true ∨ GapAt medias needSctp ts i) :
    midAt medias i ≠ midAt medias s := by
  intro heq
  have hnot : i ∉ recycledSections medias needSctp ts := fun hin => by
    rcases hi with hk | hg
    · exact Bool.false_ne_true ((mem_recycledSections hin).2.2.1.symm.trans hk)
    · exact hg.2.2.2 i hin rfl
  have hsrec : s ∉ recycledSections medias needSctp ts := fun hin =>
    (mem_recycledSections hin).2.1 hs
  have hslt := lt_of_midAt_ne (midAt_of_dataSection hs).1
  have hilt := lt_of_midAt_ne (heq ▸ (midAt_of_dataSection hs).1)
  obtain rfl := h.distinct i s hilt hslt hnot hsrec heq
  rcases hi with hk | hg
  · exact (midAt_of_keptAt hk).2.2 hs
  · obtain ⟨j, hj, hjm⟩ := h.data i hs
    exact hg.2.2.2 j hj hjm

/-- A section that is kept, or a gap, is the last one with its mid. -/
theorem sectionOf_of_kept_or_gap {i : ℕ}
    (hi : keptAt medias ts i = true ∨ GapAt medias needSctp ts i) :
    sectionOf medias (midAt medias i) = some i := by
  rcases hi with hk | hg
  · exact (midAt_of_keptAt hk).2.1
  · exact hg.2.1

/-- Where the section of the data channels shares its mid with no section that is kept, nor with
a gap, it shares it with one that is recycled. -/
theorem exists_recycled_of_data {s : ℕ} (hs : dataSection medias = some s)
    (hdata : ∀ i, keptAt medias ts i = true ∨ GapAt medias needSctp ts i →
      midAt medias i ≠ midAt medias s) :
    ∃ j ∈ recycledSections medias needSctp ts, midAt medias j = midAt medias s := by
  by_contra hnone
  have hne := (midAt_of_dataSection hs).1
  obtain ⟨l, hl⟩ := sectionOf_isSome (lt_of_midAt_ne hne)
  have hmid := sectionOf_midAt hl
  refine hdata l ?_ hmid
  by_cases hk : keptAt medias ts l = true
  · exact Or.inl hk
  · exact Or.inr ⟨hmid ▸ hne, hmid ▸ hl, Bool.eq_false_iff.2 hk,
      fun j hj heq => hnone ⟨j, hj, heq.trans hmid⟩⟩

/-- **The layout in terms of the sections.** -/
theorem layable_iff :
    Layable medias needSctp ts ↔
      (∀ i < medias.length, keptAt medias ts i = true ∨ dataSection medias = some i ∨
        i ∈ recycledSections medias needSctp ts ∨ GapAt medias needSctp ts i) ∧
      ∀ s, dataSection medias = some s →
        ∀ i, keptAt medias ts i = true ∨ GapAt medias needSctp ts i →
          midAt medias i ≠ midAt medias s := by
  constructor
  · intro h
    refine ⟨fun i hi => ?_, fun s hs i hi => h.midAt_ne_data hs hi⟩
    by_cases hrec : i ∈ recycledSections medias needSctp ts
    · exact Or.inr (Or.inr (Or.inl hrec))
    by_cases hkd : keptAt medias ts i = true ∨ dataSection medias = some i
    · exact hkd.imp_right Or.inl
    · exact Or.inr (Or.inr (Or.inr (h.gapAt hi hrec hkd)))
  · rintro ⟨hcover, hdata⟩
    have hstays {i : ℕ} (hi : i < medias.length)
        (hrec : i ∉ recycledSections medias needSctp ts) :
        dataSection medias = some i ∨ (keptAt medias ts i = true ∨ GapAt medias needSctp ts i) := by
      rcases hcover i hi with hk | hd | hr | hg
      · exact Or.inr (Or.inl hk)
      · exact Or.inl hd
      · exact absurd hr hrec
      · exact Or.inr (Or.inr hg)
    refine ⟨fun i hi => ?_, fun i j hi hj hirec hjrec heq => ?_, fun i hi hirec j hj heq => ?_,
      fun s hs => exists_recycled_of_data hs (hdata s hs)⟩
    · rcases hcover i hi with hk | hd | hr | hg
      · exact (midAt_of_keptAt hk).1
      · exact (midAt_of_dataSection hd).1
      · exact (mem_recycledSections hr).1
      · exact hg.1
    · rcases hstays hi hirec with hid | hik <;> rcases hstays hj hjrec with hjd | hjk
      · exact Option.some.inj (hid.symm.trans hjd)
      · exact absurd heq.symm (hdata i hid j hjk)
      · exact absurd heq (hdata j hjd i hik)
      · exact Option.some.inj
          ((sectionOf_of_kept_or_gap hik).symm.trans (heq ▸ sectionOf_of_kept_or_gap hjk))
    · rcases hstays hi hirec with hd | hk | hg
      · exact Or.inr hd
      · exact Or.inl hk
      · exact absurd heq (hg.2.2.2 j hj)

/-- **The usual case.**  A description whose sections have mids, all different, can be laid out
again exactly if there is no section for the data channels in it. -/
theorem layable_iff_of_nodup (hne : ∀ m ∈ medias, m.mid ≠ [])
    (hnodup : (medias.map SdpMedia.mid).Nodup) :
    Layable medias needSctp ts ↔ ∀ m ∈ medias, m.mediaType ≠ .application := by
  have hinj {i j : ℕ} (hi : i < medias.length) (hj : j < medias.length)
      (h : midAt medias i = midAt medias j) : i = j := by
    rw [midAt_eq (List.getElem?_eq_getElem hi), midAt_eq (List.getElem?_eq_getElem hj)] at h
    have hlen : (medias.map SdpMedia.mid).length = medias.length := List.length_map _
    refine (@List.Nodup.getElem_inj_iff _ _ hnodup i (hlen ▸ hi) j (hlen ▸ hj)).1 ?_
    rwa [List.getElem_map, List.getElem_map]
  have hdata : dataSection medias = none ↔ ∀ m ∈ medias, m.mediaType ≠ .application := by
    rw [dataSection, lastIdx?_eq_none]
    refine forall₂_congr fun m hm => ?_
    simp [hne m hm]
  rw [← hdata]
  constructor
  · intro h
    by_contra hsome
    obtain ⟨s, hs⟩ := Option.ne_none_iff_exists'.1 hsome
    obtain ⟨j, hj, hmid⟩ := h.data s hs
    have hjlt := lt_of_midAt_ne (mem_recycledSections hj).1
    obtain rfl := hinj hjlt (lt_of_midAt_ne (midAt_of_dataSection hs).1) hmid
    exact (mem_recycledSections hj).2.1 hs
  · intro hnone
    refine ⟨fun i hi => ?_, fun i j hi hj _ _ => hinj hi hj, fun i hi hirec j hj hmid => ?_,
      fun s hs => ?_⟩
    · rw [midAt_eq (List.getElem?_eq_getElem hi)]
      exact hne _ (List.getElem_mem hi)
    · obtain rfl := hinj (lt_of_midAt_ne (mem_recycledSections hj).1) hi hmid
      exact absurd hj hirec
    · exact absurd (hnone.symm.trans hs) (by simp)

end Parts

/-! ### The offer -/

namespace Connection

/-- The sections of the current local description. -/
def currentMedias (c : Connection) : List SdpMedia := c.localDesc.elim [] SessionDescription.medias

/-- The entries of the next offer, in the order of its sections. -/
def nextEntries (c : Connection) : List MediaEntry :=
  offerEntries c.currentMedias c.needSctp c.transceivers

variable [NoCaseEq] {c c' : Connection} {offer : SessionDescription}

/-- `m` is the section of the entry `e`, which keeps its mid if it has one. -/
structure OfEntry (c : Connection) (e : MediaEntry) (m : SdpMedia) : Prop where
  mid : e.mid ≠ [] → m.mid = e.mid
  section_eq : c.entrySection c.currentMedias { e with mid := m.mid } = .ok m

/-- **The layout of an offer.**  Its sections are those of the entries, each at its place; the
sections of the current description keep their place, mid and media type, or have been rejected
and are used for something new; new ones are behind them; and the mids are distinct. -/
structure OfferLayout (c : Connection) (offer : SessionDescription) : Prop where
  sections : List.Forall₂ c.OfEntry c.nextEntries offer.medias
  placed : c.nextEntries.map MediaEntry.index = List.range c.nextEntries.length
  keeps : ∀ (i : ℕ) (m : SdpMedia), c.currentMedias[i]? = some m →
    ∃ (e : MediaEntry) (m' : SdpMedia), c.nextEntries[i]? = some e ∧ offer.medias[i]? = some m' ∧
      ((m'.mid = m.mid ∧ m'.mediaType = m.mediaType) ∨ (m.port = 0 ∧ e.mid = []))
  appends : ∀ (i : ℕ) (e : MediaEntry), c.currentMedias.length ≤ i →
    c.nextEntries[i]? = some e → e.mid = []
  mids : (offer.medias.map SdpMedia.mid).Nodup

/-- The states whose layout an offer keeps. -/
structure KeepsLayout (c : Connection) : Prop where
  layable : Layable c.currentMedias c.needSctp c.transceivers
  fits : ∀ (i : ℕ) (m : SdpMedia) (t : RtpTransceiver), c.currentMedias[i]? = some m →
    keptAt c.currentMedias c.transceivers i = true →
    c.transceivers.find? (fun t => t.mid = m.mid) = some t →
    m.mediaType = RtpTransceiver.getMediaType t.kind

omit [NoCaseEq] in
/-- The entries of the next offer. -/
theorem mem_nextEntries {kept fresh gaps : List MediaEntry}
    (hes : c.nextEntries =
      (kept ++ (dataEntry c.currentMedias ++ fresh) ++ gaps).mergeSort fun a b => a.index ≤ b.index)
    (e : MediaEntry) :
    e ∈ c.nextEntries ↔ e ∈ kept ∨ e ∈ dataEntry c.currentMedias ∨ e ∈ fresh ∨ e ∈ gaps := by
  rw [hes, (List.mergeSort_perm _ _).mem_iff]
  simp only [List.mem_append, or_assoc]

/-- The section of an entry that has an owner has the entry's mid. -/
theorem entrySection_mid {medias : List SdpMedia} {e : MediaEntry} {m : SdpMedia}
    (h : c.entrySection medias e = .ok m)
    (he : e.isSctp = true ∨ e.tr.isSome = true ∨ e.mid = midAt medias e.index) : m.mid = e.mid := by
  unfold entrySection at h
  split at h
  · obtain rfl := Except.ok.inj h
    rfl
  · rename_i hs
    split at h
    · rename_i htr
      split at h
      · cases h
      · rename_i m₀ hm
        obtain rfl := Except.ok.inj h
        rcases he with he | he | he
        · exact absurd he hs
        · rw [htr] at he
          exact absurd he Bool.false_ne_true
        · exact (midAt_eq hm).symm.trans he.symm
    · rename_i i htr
      split at h
      · cases h
      · rename_i t ht
        obtain rfl := Except.ok.inj h
        exact (t.toOfferSdpMedia_layout e.mid).1

/-- **The sections of an offer are those of its entries.** -/
theorem createOffer_sections (h : c.createOffer = .ok (c', offer)) :
    List.Forall₂ c.OfEntry c.nextEntries offer.medias ∧
      ((offer.medias.map SdpMedia.mid).Nodup ↔
        ((c.nextEntries.map MediaEntry.mid).filter (· ≠ [])).Nodup) := by
  obtain ⟨kept, fresh, gaps, hparts, hes⟩ :=
    offerEntries_parts c.currentMedias c.needSctp c.transceivers
  have howner : ∀ e ∈ c.nextEntries, e.isSctp = true ∨ e.tr.isSome = true ∨
      (e.mid = midAt c.currentMedias e.index ∧ e.mid ≠ []) := by
    intro e he
    rcases (mem_nextEntries hes e).1 he with hk | hd | hf | hg
    · obtain ⟨-, k, t, htr, -⟩ := hparts.kept_tr e hk
      exact Or.inr (Or.inl (htr ▸ rfl))
    · obtain ⟨i, -, rfl⟩ := List.mem_map.1 hd
      exact Or.inl rfl
    · exact (hparts.fresh.owner e hf).imp_right Or.inl
    · obtain ⟨i, hi, rfl⟩ := (hparts.gaps_mem e).1 hg
      exact Or.inr (Or.inr ⟨rfl, hi.1⟩)
  rw [createOffer] at h
  obtain ⟨⟨es, counter⟩, hmids, h⟩ := Checked.bind_eq_ok.1 h
  obtain ⟨sections, hsections, h⟩ := Checked.bind_eq_ok.1 h
  obtain ⟨rfl, rfl⟩ := Prod.mk.inj (Except.ok.inj h)
  obtain ⟨hnamed, hnodup⟩ := assignMids_spec (fun e he hm =>
    List.mem_filter.2 ⟨List.mem_map_of_mem he, by simpa using hm⟩) hmids
  have howner' : ∀ e' ∈ es, e'.isSctp = true ∨ e'.tr.isSome = true ∨
      e'.mid = midAt c.currentMedias e'.index := by
    intro e' he'
    obtain ⟨e, he, hee⟩ := exists_left_of_mem hnamed he'
    rw [hee.named]
    exact (howner e he).imp_right (Or.imp_right fun h => (hee.keeps h.2).trans h.1)
  have hpairs : List.Forall₂ (fun e' m => m.mid = e'.mid ∧
      c.entrySection c.currentMedias e' = .ok m) es sections := by
    have hmap := (List.forall₂_and_left _ _).2 ⟨howner', Checked.forall₂_of_mapM hsections⟩
    exact hmap.imp fun e' m h => ⟨entrySection_mid h.2 h.1, h.2⟩
  have hmid : es.map MediaEntry.mid = sections.map SdpMedia.mid := by
    rw [← List.forall₂_eq_eq_eq, List.forall₂_map_left_iff, List.forall₂_map_right_iff]
    exact hpairs.imp fun e' m h => h.1.symm
  refine ⟨(forall₂_comp hnamed hpairs).imp fun e m h => ?_, hmid ▸ hnodup⟩
  obtain ⟨e', hee, hm, hsection⟩ := h
  refine ⟨fun hne => hm.trans (hee.keeps hne), ?_⟩
  rw [hm, ← hee.named]
  exact hsection

/-- What the section of an entry is, by what the entry is of. -/
theorem OfEntry.cases {kept fresh gaps : List MediaEntry} {e : MediaEntry} {m' : SdpMedia}
    (hparts : OfferParts c.currentMedias c.needSctp c.transceivers kept fresh gaps)
    (h : c.OfEntry e m') :
    (e ∈ kept → ∃ t, c.transceivers.find? (fun t => t.mid = e.mid) = some t ∧
        m'.mediaType = RtpTransceiver.getMediaType t.kind) ∧
      (e ∈ dataEntry c.currentMedias → m'.mediaType = .application) ∧
      ∀ m, e ∈ gaps → c.currentMedias[e.index]? = some m → m'.mediaType = m.mediaType := by
  obtain ⟨-, hsection⟩ := h
  refine ⟨fun he => ?_, fun he => ?_, fun m he hm => ?_⟩
  · obtain ⟨hs, k, t, htr, hk, hfind⟩ := hparts.kept_tr e he
    simp only [entrySection, hs, htr, hk, Bool.false_eq_true, if_false] at hsection
    rw [← Except.ok.inj hsection]
    exact ⟨t, hfind, (t.toOfferSdpMedia_layout _).2⟩
  · obtain ⟨i, -, rfl⟩ := List.mem_map.1 he
    simp only [entrySection, if_true] at hsection
    rw [← Except.ok.inj hsection]
    rfl
  · obtain ⟨i, -, rfl⟩ := (hparts.gaps_mem e).1 he
    simp only [entrySection, hm, Bool.false_eq_true, if_false] at hsection
    rw [← Except.ok.inj hsection]

omit [NoCaseEq] in
/-- The place of an entry, by what the entry is of. -/
theorem place_cases {kept fresh gaps : List MediaEntry}
    (hparts : OfferParts c.currentMedias c.needSctp c.transceivers kept fresh gaps)
    (hes : c.nextEntries =
      (kept ++ (dataEntry c.currentMedias ++ fresh) ++ gaps).mergeSort fun a b => a.index ≤ b.index)
    {e : MediaEntry} (he : e ∈ c.nextEntries) :
    (e ∈ kept ∧ keptAt c.currentMedias c.transceivers e.index = true) ∨
      (e ∈ dataEntry c.currentMedias ∧ dataSection c.currentMedias = some e.index) ∨
      (e.mid = [] ∧ (e.index ∈ recycledSections c.currentMedias c.needSctp c.transceivers ∨
        c.currentMedias.length ≤ e.index)) ∨
      (e ∈ gaps ∧ GapAt c.currentMedias c.needSctp c.transceivers e.index) := by
  rcases (mem_nextEntries hes e).1 he with hk | hd | hf | hg
  · exact Or.inl ⟨hk, (hparts.kept_index _).1 (List.mem_map_of_mem hk)⟩
  · obtain ⟨i, hi, rfl⟩ := List.mem_map.1 hd
    exact Or.inr (Or.inl ⟨hd, Option.mem_toList.1 hi⟩)
  · have hindex : e.index ∈ fresh.map MediaEntry.index := List.mem_map_of_mem hf
    rw [hparts.fresh.index, List.mem_append] at hindex
    refine Or.inr (Or.inr (Or.inl ⟨hparts.fresh.mid e hf, hindex.imp_right fun h => ?_⟩))
    exact (List.mem_range'_1.1 h).1
  · exact Or.inr (Or.inr (Or.inr ⟨hg, (hparts.mem_gaps _).1 (List.mem_map_of_mem hg)⟩))

/-- An offer from its entries and their sections. -/
theorem createOffer_of {es : List MediaEntry} {counter : U16} {sections : List SdpMedia}
    (hmids : assignMids c.nextEntries ((c.nextEntries.map MediaEntry.mid).filter (· ≠ []))
      c.midCounter = .ok (es, counter))
    (hsections : es.mapM (c.entrySection c.currentMedias) = .ok sections) :
    ∃ c' offer, c.createOffer = .ok (c', offer) ∧ offer.medias = sections :=
  ⟨_, _, Checked.bind_eq_ok.2 ⟨_, hmids, Checked.bind_eq_ok.2 ⟨_, hsections, rfl⟩⟩, rfl⟩

section Layout

variable {kept fresh gaps : List MediaEntry} {e : MediaEntry} {m m' : SdpMedia}

/-- An entry at the place of a section of the current description keeps it, or is new and the
section was rejected. -/
theorem KeepsLayout.section_kept (h : c.KeepsLayout)
    (hparts : OfferParts c.currentMedias c.needSctp c.transceivers kept fresh gaps)
    (hes : c.nextEntries =
      (kept ++ (dataEntry c.currentMedias ++ fresh) ++ gaps).mergeSort fun a b => a.index ≤ b.index)
    (he : e ∈ c.nextEntries) (hm : c.currentMedias[e.index]? = some m) (hof : c.OfEntry e m') :
    (m'.mid = m.mid ∧ m'.mediaType = m.mediaType) ∨ (m.port = 0 ∧ e.mid = []) := by
  rcases place_cases hparts hes he with
    ⟨hkept, hk⟩ | ⟨hentry, hd⟩ | ⟨hnew, hr | hge⟩ | ⟨hgap, hg⟩
  · have hemid : e.mid = m.mid := (hparts.kept_mid e hkept).trans (midAt_eq hm)
    obtain ⟨t, ht, htype⟩ := (hof.cases hparts).1 hkept
    refine Or.inl ⟨(hof.mid ?_).trans hemid, htype.trans (h.fits _ m t hm hk ?_).symm⟩
    · exact (hparts.kept_mid e hkept) ▸ (midAt_of_keptAt hk).1
    · rw [← hemid]
      exact ht
  · obtain ⟨hmid, m₀, hm₀, happ⟩ := midAt_of_dataSection hd
    obtain rfl := Option.some.inj (hm₀.symm.trans hm)
    obtain ⟨j, -, rfl⟩ := List.mem_map.1 hentry
    exact Or.inl ⟨(hof.mid hmid).trans (midAt_eq hm),
      ((hof.cases hparts).2.1 hentry).trans happ.symm⟩
  · obtain ⟨-, -, -, m₀, hm₀, hport⟩ := mem_recycledSections hr
    obtain rfl := Option.some.inj (hm₀.symm.trans hm)
    exact Or.inr ⟨hport, hnew⟩
  · exact absurd (List.getElem?_eq_some_iff.1 hm).1 (Nat.not_lt.2 hge)
  · have hemid := hparts.gaps_mid e hgap
    exact Or.inl ⟨(hof.mid (hemid ▸ hg.1)).trans (hemid.trans (midAt_eq hm)),
      (hof.cases hparts).2.2 m hgap hm⟩

omit [NoCaseEq] in
/-- An entry behind the sections of the current description is new. -/
theorem mid_of_behind
    (hparts : OfferParts c.currentMedias c.needSctp c.transceivers kept fresh gaps)
    (hes : c.nextEntries =
      (kept ++ (dataEntry c.currentMedias ++ fresh) ++ gaps).mergeSort fun a b => a.index ≤ b.index)
    (he : e ∈ c.nextEntries) (hge : c.currentMedias.length ≤ e.index) : e.mid = [] := by
  have hout : ¬ midAt c.currentMedias e.index ≠ [] := fun hne =>
    absurd (lt_of_midAt_ne hne) (Nat.not_lt.2 hge)
  rcases place_cases hparts hes he with ⟨-, hk⟩ | ⟨-, hd⟩ | ⟨hnew, -⟩ | ⟨-, hg⟩
  · exact absurd (midAt_of_keptAt hk).1 hout
  · exact absurd (midAt_of_dataSection hd).1 hout
  · exact hnew
  · exact absurd hg.1 hout

/-- The section that a transceiver keeps is of its kind, if it is kept with its type. -/
theorem OfferLayout.fits (h : c.OfferLayout offer)
    (hparts : OfferParts c.currentMedias c.needSctp c.transceivers kept fresh gaps)
    (hes : c.nextEntries =
      (kept ++ (dataEntry c.currentMedias ++ fresh) ++ gaps).mergeSort fun a b => a.index ≤ b.index)
    (he : c.nextEntries[e.index]? = some e) (hm : c.currentMedias[e.index]? = some m)
    (hk : keptAt c.currentMedias c.transceivers e.index = true) {t : RtpTransceiver}
    (ht : c.transceivers.find? (fun t => t.mid = m.mid) = some t) :
    m.mediaType = RtpTransceiver.getMediaType t.kind := by
  obtain ⟨e', m', he', hm', hkeeps⟩ := h.keeps e.index m hm
  obtain rfl := Option.some.inj (he'.symm.trans he)
  obtain ⟨m'', hm'', hof⟩ := exists_right_of_getElem? h.sections he
  obtain rfl := Option.some.inj (hm'.symm.trans hm'')
  have hmid := midAt_of_keptAt hk
  -- The entry is the one of the transceiver.
  rcases place_cases hparts hes (List.mem_of_getElem? he) with
    ⟨hkept, -⟩ | ⟨-, hd⟩ | ⟨-, hr | hge⟩ | ⟨-, hg⟩
  · have hemid : e'.mid = m.mid := (hparts.kept_mid e' hkept).trans (midAt_eq hm)
    obtain ⟨u, hu, htype⟩ := (hof.cases hparts).1 hkept
    rw [hemid] at hu
    obtain rfl := Option.some.inj (hu.symm.trans ht)
    rcases hkeeps with hkeeps | ⟨-, hnone⟩
    · exact hkeeps.2.symm.trans htype
    · exact absurd ((hparts.kept_mid e' hkept).symm.trans hnone) hmid.1
  · exact absurd hd hmid.2.2
  · exact absurd (hk.symm.trans (mem_recycledSections hr).2.2.1) (by simp)
  · exact absurd (lt_of_midAt_ne hmid.1) (Nat.not_lt.2 hge)
  · exact absurd (hk.symm.trans hg.2.2.1) (by simp)

omit [NoCaseEq] in
/-- The place of an entry, where all are at theirs. -/
theorem index_of_placed {i : ℕ}
    (hplaced : c.nextEntries.map MediaEntry.index = List.range c.nextEntries.length)
    (he : c.nextEntries[i]? = some e) : e.index = i := by
  obtain ⟨hlt, rfl⟩ := List.getElem?_eq_some_iff.1 he
  have hi := congrArg (·[i]?) hplaced
  simpa [hlt] using hi

/-- **When an offer keeps the layout of the current description.** -/
theorem createOffer_layout_iff (h : c.createOffer = .ok (c', offer)) :
    c.OfferLayout offer ↔ c.KeepsLayout := by
  obtain ⟨hsections, hmids⟩ := createOffer_sections h
  obtain ⟨kept, fresh, gaps, hparts, hes⟩ :=
    offerEntries_parts c.currentMedias c.needSctp c.transceivers
  have hplaced := hparts.placed_iff hes
  have hnodup := hparts.mids_nodup_iff hes
  constructor
  · intro hlayout
    have hlen : c.currentMedias.length ≤ c.nextEntries.length := by
      by_contra hgt
      obtain ⟨e, -, he, -⟩ := hlayout.keeps (c.nextEntries.length)
        _ (List.getElem?_eq_getElem (Nat.lt_of_not_le hgt))
      exact absurd (List.getElem?_eq_some_iff.1 he).1 (Nat.lt_irrefl _)
    obtain ⟨-, hcover⟩ := hplaced.1 ⟨hlayout.placed, hlen⟩
    refine ⟨layable_iff.2 ⟨fun i hi => (hparts.mem_oldPlaces i).1 (hcover i hi),
      hnodup.1 (hmids.1 hlayout.mids)⟩, fun i m t hm hk ht => ?_⟩
    obtain ⟨e, -, he, -⟩ := hlayout.keeps i m hm
    obtain rfl := index_of_placed hlayout.placed he
    exact hlayout.fits hparts hes he hm hk ht
  · intro hkeeps
    obtain ⟨hcover, hdata⟩ := layable_iff.1 hkeeps.layable
    have hnotgap : ∀ i, dataSection c.currentMedias = some i →
        ¬ GapAt c.currentMedias c.needSctp c.transceivers i :=
      fun i hi hgap => hdata i hi i (Or.inr hgap) rfl
    obtain ⟨hrange, hlen⟩ := hplaced.2 ⟨hparts.oldPlaces_nodup hnotgap,
      fun i hi => (hparts.mem_oldPlaces i).2 (hcover i hi)⟩
    refine ⟨hsections, hrange, fun i m hm => ?_, fun i e hi he => ?_, hmids.2 (hnodup.2 hdata)⟩
    · obtain ⟨e, he⟩ : ∃ e, c.nextEntries[i]? = some e :=
        ⟨_, List.getElem?_eq_getElem
          (Nat.lt_of_lt_of_le (List.getElem?_eq_some_iff.1 hm).1 hlen)⟩
      obtain ⟨m', hm', hof⟩ := exists_right_of_getElem? hsections he
      obtain rfl := index_of_placed hrange he
      exact ⟨e, m', he, hm', hkeeps.section_kept hparts hes (List.mem_of_getElem? he) hm hof⟩
    · obtain rfl := index_of_placed hrange he
      exact mid_of_behind hparts hes (List.mem_of_getElem? he) hi

end Layout

end Connection

/-- A transceiver for audio. -/
def audioTransceiver (mid : Text) : RtpTransceiver where
  mid := mid
  codec := { name := "opus".toList }

/-- A connection that has offered two sections for audio, the second as rejected, and has a new
transceiver. -/
def rejectedSecond : Connection where
  localDesc := some
    { medias := [{ mid := "0".toList, mediaType := .audio, port := 9 },
        { mid := "1".toList, mediaType := .audio, port := 0 }] }
  transceivers := [audioTransceiver "0".toList, audioTransceiver []]

/-- The new transceiver takes the place of the rejected section. -/
theorem createOffer_layout_recycled :
    ∃ c' offer, @Connection.createOffer asciiNoCase rejectedSecond = .ok (c', offer) ∧
      @Connection.OfferLayout asciiNoCase rejectedSecond offer := by
  have hkept : keptEntries rejectedSecond.transceivers.zipIdx
      (.ofMedias rejectedSecond.currentMedias) =
        ({ midToIndex := [("1".toList, 1)], recyclable := [1], nextAppend := 2 },
          [⟨some 0, 0, "0".toList, false⟩]) := by decide
  have hentries : rejectedSecond.nextEntries =
      [⟨some 0, 0, "0".toList, false⟩, ⟨some 1, 1, [], false⟩] :=
    offerEntries_of_sorted hkept rfl rfl rfl (by decide)
  obtain ⟨c', offer, h, -⟩ := @Connection.createOffer_of asciiNoCase rejectedSecond _ _ _
    (by rw [hentries]; rfl) rfl
  have hlayable : Layable rejectedSecond.currentMedias false rejectedSecond.transceivers :=
    (layable_iff_of_nodup (by decide) (by decide)).2 (by decide)
  refine ⟨c', offer, h, (@Connection.createOffer_layout_iff asciiNoCase _ _ _ h).2
    (@Connection.KeepsLayout.mk asciiNoCase _ hlayable fun i m t hm hk ht => ?_)⟩
  match i with
  | 0 =>
    obtain rfl := Option.some.inj hm
    obtain rfl := Option.some.inj ht
    decide
  | 1 => exact absurd hk (by decide)
  | i + 2 => cases hm

/-- A connection that has only data channels. -/
def onlyData : Connection := { needSctp := true }

/-- Its first offer. -/
def onlyDataOffer : SessionDescription where
  sdpType := "offer".toList
  sessionName := "-".toList
  fingerprints := [{}]
  setup := some .actpass
  groups := [⟨"BUNDLE".toList, ["0".toList]⟩]
  msidSemantic := ⟨"WMS".toList, ["*".toList]⟩
  iceOptions := ["trickle".toList]
  medias := [onlyData.sctpSection "0".toList]

/-- The connection after the offer has been applied. -/
def onlyDataApplied : Connection :=
  { onlyData with
    sessionVersion := 1
    midCounter := 1
    localDesc := some onlyDataOffer
    signalingState := .haveLocalOffer }

/-- A second offer has the section of the data channels twice. -/
theorem createOffer_not_layout :
    ∃ c₁ c₃ offer', @Connection.createOffer asciiNoCase onlyData = .ok (c₁, onlyDataOffer) ∧
      (c₁.setLocalDescription onlyDataOffer).completed = some onlyDataApplied ∧
      @Connection.createOffer asciiNoCase onlyDataApplied = .ok (c₃, offer') ∧
      offer'.medias.map SdpMedia.mid = ["0".toList, "0".toList] ∧
      ¬ @Connection.OfferLayout asciiNoCase onlyDataApplied offer' := by
  have hfirst : onlyData.nextEntries = [⟨none, 0, [], true⟩] :=
    offerEntries_of_sorted rfl rfl rfl rfl (by decide)
  have hmids : assignMids onlyData.nextEntries
      ((onlyData.nextEntries.map MediaEntry.mid).filter (· ≠ [])) onlyData.midCounter =
        .ok ([⟨none, 0, "0".toList, true⟩], 1) := by
    rw [hfirst]
    rfl
  have hsecond : onlyDataApplied.nextEntries =
      [⟨none, 0, "0".toList, true⟩, ⟨none, 0, "0".toList, false⟩] :=
    offerEntries_of_sorted rfl rfl rfl rfl (by decide)
  obtain ⟨c₃, offer', h, hmedias⟩ := @Connection.createOffer_of asciiNoCase onlyDataApplied _ _ _
    (by rw [hsecond]; rfl) rfl
  refine ⟨{ onlyData with sessionVersion := 1, midCounter := 1 }, c₃, offer',
    Checked.bind_eq_ok.2 ⟨_, hmids, Checked.bind_eq_ok.2 ⟨_, rfl, rfl⟩⟩, rfl, h, ?_, ?_⟩
  · rw [hmedias]
    rfl
  · rintro ⟨-, hplaced, -⟩
    rw [hsecond] at hplaced
    exact absurd hplaced (by decide)

end AsioRtc
