/-
# The entries of an offer

`create_offer` on a connection that has a local description.  The bookkeeping over the
sections of the description is taken apart stage by stage: `Scanned` is what the scan of
the sections knows, `KeptFrom` what the transceivers with a mid take of it, and
`takeSlots` what `get_index` gives out one after the other.  `OfferParts` puts them
together: the entries of the transceivers that keep a section, the one of the data
channels, the new ones, and the gap fill (`offerEntries_parts`).
-/

import AsioRtc.Connection.FirstOffer
import AsioRtc.Lib.Placement

namespace AsioRtc

open Lib Text

/-! ### Sections by their mid -/

/-- The mid of section `i`. -/
def midAt (medias : List SdpMedia) (i : ℕ) : Text := (medias[i]?).elim [] SdpMedia.mid

/-- The last section with the mid `mid`. -/
def sectionOf (medias : List SdpMedia) (mid : Text) : Option ℕ :=
  lastIdx? (fun m => m.mid = mid) medias

/-- The last application section that has a mid. -/
def dataSection (medias : List SdpMedia) : Option ℕ :=
  lastIdx? (fun m => m.mid ≠ [] ∧ m.mediaType = .application) medias

/-- Section `i` has been rejected, and could be used for something else. -/
def rejectedAt (medias : List SdpMedia) (i : ℕ) : Bool :=
  (medias[i]?).any fun m => m.mid ≠ [] ∧ m.mediaType ≠ .application ∧ m.port = 0

/-- Section `i` is the one that a transceiver of `ts` keeps. -/
def keptAt (medias : List SdpMedia) (ts : List RtpTransceiver) (i : ℕ) : Bool :=
  midAt medias i ≠ [] ∧ sectionOf medias (midAt medias i) = some i ∧ dataSection medias ≠ some i ∧
    ts.any fun t => t.mid = midAt medias i

/-- The rejected sections that no transceiver keeps. -/
def recyclableSections (medias : List SdpMedia) (ts : List RtpTransceiver) : List ℕ :=
  (List.range medias.length).filter fun i => rejectedAt medias i && !keptAt medias ts i

/-- How many sections of an offer are new. -/
def newSections (medias : List SdpMedia) (needSctp : Bool) (ts : List RtpTransceiver) : ℕ :=
  (if dataSection medias = none ∧ needSctp = true then 1 else 0) +
    ts.countP fun t => t.mid = [] ∧ t.stopped = false

/-- The rejected sections whose places the new sections take. -/
def recycledSections (medias : List SdpMedia) (needSctp : Bool) (ts : List RtpTransceiver) :
    List ℕ :=
  (recyclableSections medias ts).take (newSections medias needSctp ts)

theorem midAt_eq {medias : List SdpMedia} {i : ℕ} {m : SdpMedia} (h : medias[i]? = some m) :
    midAt medias i = m.mid := by
  rw [midAt, h, Option.elim_some]

theorem lt_of_midAt_ne {medias : List SdpMedia} {i : ℕ} (h : midAt medias i ≠ []) :
    i < medias.length := by
  by_contra hge
  rw [midAt, List.getElem?_eq_none (Nat.le_of_not_lt hge)] at h
  exact h rfl

/-! ### The scan of the sections -/

/-- What the scan of the sections comes to. -/
structure Scanned (medias : List SdpMedia) (s : OfferSlots) : Prop where
  mem : ∀ mid i, (mid, i) ∈ s.midToIndex ↔ mid ≠ [] ∧ sectionOf medias mid = some i
  keys : (s.midToIndex.map Prod.fst).Nodup
  recyclable : s.recyclable = (List.range medias.length).filter (rejectedAt medias)
  sctpIndex : s.sctpIndex = dataSection medias

theorem rejectedAt_concat {medias : List SdpMedia} {m : SdpMedia} {i : ℕ}
    (h : i < medias.length) : rejectedAt (medias ++ [m]) i = rejectedAt medias i := by
  rw [rejectedAt, rejectedAt, List.getElem?_append_left h]

theorem range_filter_concat {medias : List SdpMedia} {m : SdpMedia} :
    (List.range (medias ++ [m]).length).filter (rejectedAt (medias ++ [m])) =
      (List.range medias.length).filter (rejectedAt medias) ++
        if m.mid ≠ [] ∧ m.mediaType ≠ .application ∧ m.port = 0 then [medias.length] else [] := by
  have hold : (List.range medias.length).filter (rejectedAt (medias ++ [m])) =
      (List.range medias.length).filter (rejectedAt medias) :=
    List.filter_congr fun i hi => rejectedAt_concat (List.mem_range.1 hi)
  have hnew : rejectedAt (medias ++ [m]) medias.length =
      decide (m.mid ≠ [] ∧ m.mediaType ≠ .application ∧ m.port = 0) := by
    rw [rejectedAt, List.getElem?_concat_length, Option.any_some]
  rw [List.length_append, List.length_singleton, List.range_succ, List.filter_append, hold]
  simp only [List.filter_cons, List.filter_nil, hnew, decide_eq_true_eq]

theorem sectionOf_concat (medias : List SdpMedia) (m : SdpMedia) (mid : Text) :
    sectionOf (medias ++ [m]) mid =
      if m.mid = mid then some medias.length else sectionOf medias mid := by
  rw [sectionOf, lastIdx?_concat]
  simp only [decide_eq_true_eq]
  rfl

theorem dataSection_concat (medias : List SdpMedia) (m : SdpMedia) :
    dataSection (medias ++ [m]) =
      if m.mid ≠ [] ∧ m.mediaType = .application then some medias.length
      else dataSection medias := by
  rw [dataSection, lastIdx?_concat]
  simp only [decide_eq_true_eq]
  rfl

/-- The map after one more section that has a mid. -/
theorem Scanned.mem_assign {medias : List SdpMedia} {s : OfferSlots} {m : SdpMedia}
    (h : Scanned medias s) (hm : m.mid ≠ []) (mid : Text) (i : ℕ) :
    (mid, i) ∈ (s.assign m.mid medias.length).midToIndex ↔
      mid ≠ [] ∧ sectionOf (medias ++ [m]) mid = some i := by
  rw [sectionOf_concat, OfferSlots.assign]
  simp only [List.mem_append, List.mem_filter, h.mem, List.mem_singleton, Prod.mk.injEq,
    decide_eq_true_eq]
  by_cases heq : m.mid = mid
  · subst heq
    simp [hm, eq_comm]
  · simp [heq, Ne.symm heq]

/-- An assignment keeps one entry a key. -/
theorem OfferSlots.assign_keys {s : OfferSlots} (h : (s.midToIndex.map Prod.fst).Nodup)
    (mid : Text) (i : ℕ) : ((s.assign mid i).midToIndex.map Prod.fst).Nodup := by
  rw [OfferSlots.assign, List.map_append, List.nodup_append]
  refine ⟨h.sublist (List.filter_sublist.map _), List.nodup_singleton _, ?_⟩
  intro a ha b hb hab
  obtain ⟨e, he, rfl⟩ := List.mem_map.1 ha
  obtain rfl := List.mem_singleton.1 hb
  exact of_decide_eq_true (List.mem_filter.1 he).2 hab

/-- One more section. -/
theorem Scanned.scan {medias : List SdpMedia} {s : OfferSlots} (h : Scanned medias s)
    (m : SdpMedia) : Scanned (medias ++ [m]) (s.scan medias.length m) := by
  unfold OfferSlots.scan
  split
  · rename_i hm
    refine ⟨fun mid i => ?_, h.keys, ?_, ?_⟩
    · rw [h.mem, sectionOf_concat]
      refine and_congr_right fun hne => ?_
      rw [if_neg (fun heq => hne (heq.symm.trans hm))]
    · rw [range_filter_concat, if_neg (fun hc => hc.1 hm), List.append_nil, h.recyclable]
    · rw [dataSection_concat, if_neg (fun hc => hc.1 hm), h.sctpIndex]
  · rename_i hm
    have hkeys := OfferSlots.assign_keys h.keys m.mid medias.length
    by_cases happ : m.mediaType = .application
    · simp only [happ, if_true]
      refine ⟨h.mem_assign hm, hkeys, ?_, ?_⟩
      · rw [range_filter_concat, if_neg (fun hc => hc.2.1 happ), List.append_nil]
        exact h.recyclable
      · rw [dataSection_concat, if_pos ⟨hm, happ⟩]
    · have hdata : dataSection (medias ++ [m]) = s.sctpIndex := by
        rw [dataSection_concat, if_neg (fun hc => happ hc.2), h.sctpIndex]
      simp only [happ, if_false]
      by_cases hport : m.port = 0
      · simp only [hport, if_true]
        refine ⟨h.mem_assign hm, hkeys, ?_, hdata.symm⟩
        rw [range_filter_concat, if_pos ⟨hm, happ, hport⟩, ← h.recyclable]
        rfl
      · simp only [hport, if_false]
        refine ⟨h.mem_assign hm, hkeys, ?_, hdata.symm⟩
        rw [range_filter_concat, if_neg (fun hc => hport hc.2.2), List.append_nil]
        exact h.recyclable

/-- **What is known of the sections before the transceivers.** -/
theorem scanned_ofMedias (medias : List SdpMedia) :
    Scanned medias (.ofMedias medias) ∧ (OfferSlots.ofMedias medias).nextAppend = medias.length := by
  have hrun : ∀ (n : ℕ) (l : List SdpMedia),
      Scanned l (l.zipIdx.foldl (fun s p => s.scan p.2 p.1) { nextAppend := n }) ∧
        (l.zipIdx.foldl (fun s p => OfferSlots.scan s p.2 p.1) { nextAppend := n }).nextAppend = n := by
    intro n l
    induction l using List.reverseRecOn with
    | nil => exact ⟨⟨by simp [sectionOf], List.nodup_nil, rfl, rfl⟩, rfl⟩
    | append_singleton l m ih =>
      rw [List.zipIdx_append, List.foldl_append]
      refine ⟨?_, ?_⟩
      · simpa using ih.1.scan m
      · have hnext (s : OfferSlots) (i : ℕ) : (s.scan i m).nextAppend = s.nextAppend := by
          unfold OfferSlots.scan
          simp only []
          split
          · rfl
          · split
            · rfl
            · split <;> rfl
        simp only [List.zipIdx_singleton, List.foldl_cons, List.foldl_nil, hnext, ih.2]
  exact hrun medias.length medias

/-! ### The transceivers that have a mid -/

/-- What the transceivers of `l` take of the bookkeeping `s`: `es`, and `s'` is left. -/
structure KeptFrom (l : List (RtpTransceiver × ℕ)) (s s' : OfferSlots) (es : List MediaEntry) :
    Prop where
  mem : ∀ e ∈ es, (e.mid, e.index) ∈ s.midToIndex ∧ s.sctpIndex ≠ some e.index ∧ e.mid ≠ [] ∧
    e.isSctp = false ∧ ∃ p, l.find? (fun p => p.1.mid = e.mid) = some p ∧ e.tr = some p.2
  complete : ∀ mid i, (mid, i) ∈ s.midToIndex → s.sctpIndex ≠ some i → mid ≠ [] →
    (∃ p ∈ l, p.1.mid = mid) → mid ∈ es.map MediaEntry.mid
  nodup : (es.map MediaEntry.mid).Nodup
  midToIndex : s'.midToIndex = s.midToIndex.filter fun e => e.1 ∉ es.map MediaEntry.mid
  recyclable : s'.recyclable = s.recyclable.filter fun i => i ∉ es.map MediaEntry.index
  sctpIndex : s'.sctpIndex = s.sctpIndex
  nextAppend : s'.nextAppend = s.nextAppend

section Kept

variable {l : List (RtpTransceiver × ℕ)} {s s' : OfferSlots} {es : List MediaEntry}
  {p : RtpTransceiver × ℕ}

theorem KeptFrom.nil (s : OfferSlots) : KeptFrom [] s s [] where
  mem := by simp
  complete := by simp
  nodup := List.nodup_nil
  midToIndex := by simp
  recyclable := by simp
  sctpIndex := rfl
  nextAppend := rfl

/-- A transceiver that takes nothing: no section has its mid, or the one of the data
channels. -/
theorem KeptFrom.skip (h : KeptFrom l s s' es)
    (hp : ∀ i, p.1.mid ≠ [] → (p.1.mid, i) ∈ s.midToIndex → s.sctpIndex = some i) :
    KeptFrom (p :: l) s s' es := by
  refine ⟨fun e he => ?_, fun mid i hin hi hne hex => ?_, h.nodup, h.midToIndex, h.recyclable,
    h.sctpIndex, h.nextAppend⟩
  · obtain ⟨hin, hi, hne, hs, q, hq, ht⟩ := h.mem e he
    have hmid : p.1.mid ≠ e.mid := fun heq =>
      hi (hp e.index (heq ▸ hne) (heq ▸ hin))
    exact ⟨hin, hi, hne, hs, q, by rw [List.find?_cons_of_neg (by simpa using hmid), hq], ht⟩
  · obtain ⟨q, hq, rfl⟩ := hex
    rcases List.mem_cons.1 hq with rfl | hq
    · exact absurd (hp i hne hin) hi
    · exact h.complete _ i hin hi hne ⟨q, hq, rfl⟩

/-- A transceiver that keeps section `i`. -/
theorem KeptFrom.take {i : ℕ} (hne : p.1.mid ≠ [])
    (hin : (p.1.mid, i) ∈ s.midToIndex) (hi : s.sctpIndex ≠ some i)
    (h : KeptFrom l { s.eraseMid p.1.mid with recyclable := s.recyclable.filter (· ≠ i) } s' es) :
    KeptFrom (p :: l) s s' (⟨some p.2, i, p.1.mid, false⟩ :: es) := by
  have herase (mid : Text) (j : ℕ) : (mid, j) ∈ (s.eraseMid p.1.mid).midToIndex ↔
      (mid, j) ∈ s.midToIndex ∧ mid ≠ p.1.mid := by
    simp [OfferSlots.eraseMid]
  refine ⟨?_, ?_, ?_, ?_, ?_, h.sctpIndex, h.nextAppend⟩
  · refine List.forall_mem_cons.2 ⟨⟨hin, hi, hne, rfl, p, ?_, rfl⟩, fun e he => ?_⟩
    · rw [List.find?_cons_of_pos (by simp)]
    · obtain ⟨hein, hei, hene, hs, q, hq, ht⟩ := h.mem e he
      have hmid := (herase _ _).1 hein
      refine ⟨hmid.1, hei, hene, hs, q, ?_, ht⟩
      rw [List.find?_cons_of_neg (by simpa using hmid.2.symm), hq]
  · intro mid j hj hsj hmid hex
    rw [List.map_cons, List.mem_cons]
    by_cases heq : mid = p.1.mid
    · exact Or.inl heq
    · obtain ⟨q, hq, rfl⟩ := hex
      rcases List.mem_cons.1 hq with rfl | hq
      · exact absurd rfl heq
      · exact Or.inr (h.complete _ j ((herase _ _).2 ⟨hj, heq⟩) hsj hmid ⟨q, hq, rfl⟩)
  · rw [List.map_cons, List.nodup_cons]
    refine ⟨fun hmem => ?_, h.nodup⟩
    obtain ⟨e, he, hem⟩ := List.mem_map.1 hmem
    exact ((herase _ _).1 (h.mem e he).1).2 hem
  · rw [h.midToIndex]
    simp only [OfferSlots.eraseMid, List.filter_filter, List.map_cons, List.mem_cons, not_or]
    exact List.filter_congr fun e _ => by simp [Bool.and_comm]
  · rw [h.recyclable]
    simp only [List.filter_filter, List.map_cons, List.mem_cons, not_or]
    exact List.filter_congr fun e _ => by simp [Bool.and_comm]

/-- **What the transceivers with a mid take.** -/
theorem keptEntries_spec (l : List (RtpTransceiver × ℕ)) {s : OfferSlots}
    (hkeys : (s.midToIndex.map Prod.fst).Nodup) :
    KeptFrom l s (keptEntries l s).1 (keptEntries l s).2 := by
  induction l generalizing s with
  | nil => exact .nil s
  | cons p l ih =>
    obtain ⟨t, k⟩ := p
    rw [keptEntries]
    by_cases hmid : t.mid = []
    · rw [if_pos hmid]
      exact (ih hkeys).skip fun i hne _ => absurd hmid hne
    · rw [if_neg hmid]
      unfold OfferSlots.keep
      cases hfind : s.midToIndex.find? fun e => e.1 = t.mid with
      | none =>
        refine (ih hkeys).skip fun i _ hin => ?_
        exact absurd (decide_eq_true rfl) (List.find?_eq_none.1 hfind _ hin)
      | some e =>
        obtain ⟨mid, i⟩ := e
        have hfound := List.find?_some hfind
        obtain rfl : mid = t.mid := of_decide_eq_true hfound
        have hin := List.mem_of_find?_eq_some hfind
        by_cases hs : s.sctpIndex = some i
        · simp only [hs, if_true]
          refine (ih hkeys).skip fun j _ hj => ?_
          -- The keys of the map are distinct.
          have heq := List.inj_on_of_nodup_map hkeys hj hin rfl
          exact (congrArg (fun q : Text × ℕ => some q.2) heq ▸ hs)
        · simp only [hs, if_false]
          refine KeptFrom.take hmid hin hs (ih ?_)
          exact hkeys.sublist (List.filter_sublist.map _)

end Kept

/-! ### The places that are given out -/

/-- `get_index`, `k` times. -/
def takeSlots (medias : List SdpMedia) : ℕ → OfferSlots → OfferSlots × List ℕ
  | 0, s => (s, [])
  | k + 1, s =>
      let r := takeSlots medias k (s.getIndex medias).2
      (r.1, (s.getIndex medias).1 :: r.2)

/-- **The places of new sections**: the rejected sections first, then those behind the others. -/
theorem takeSlots_eq (medias : List SdpMedia) (k : ℕ) (s : OfferSlots) :
    takeSlots medias k s =
      ({ s with
          midToIndex := s.midToIndex.filter fun e => e.1 ∉ (s.recyclable.take k).map (midAt medias)
          recyclable := s.recyclable.drop k
          nextAppend := s.nextAppend + (k - s.recyclable.length) },
        s.recyclable.take k ++ List.range' s.nextAppend (k - s.recyclable.length)) := by
  induction k generalizing s with
  | zero => simp [takeSlots]
  | succ k ih =>
    rw [takeSlots, ih]
    cases hr : s.recyclable with
    | nil =>
      have hget : s.getIndex medias =
          (s.nextAppend, { s with nextAppend := s.nextAppend + 1 }) := by
        rw [OfferSlots.getIndex, hr]
      rw [hget]
      simp [hr, List.range'_succ, Nat.add_assoc, Nat.add_comm 1]
    | cons i rest =>
      have hget : s.getIndex medias =
          (i, { s.eraseMid (midAt medias i) with recyclable := rest }) := by
        rw [OfferSlots.getIndex, hr]
        rfl
      rw [hget]
      simp only [OfferSlots.eraseMid, List.filter_filter, List.take_succ_cons, List.map_cons,
        List.mem_cons, not_or, List.length_cons, Nat.add_sub_add_right, List.drop_succ_cons,
        List.cons_append, Prod.mk.injEq, and_true]
      congr 1
      exact List.filter_congr fun e _ => by simp [Bool.and_comm]

/-- The entries of new sections: without a mid, at the places `places`, each with what is to be
offered there. -/
structure FreshAt (es : List MediaEntry) (places : List ℕ) : Prop where
  mid : ∀ e ∈ es, e.mid = []
  owner : ∀ e ∈ es, e.isSctp = true ∨ e.tr.isSome = true
  index : es.map MediaEntry.index = places

/-- The new transceivers take the next places. -/
theorem newEntries_fresh (medias : List SdpMedia) (l : List (RtpTransceiver × ℕ)) (s : OfferSlots) :
    (newEntries medias l s).1 =
        (takeSlots medias (l.countP fun p => p.1.mid = [] ∧ p.1.stopped = false) s).1 ∧
      FreshAt (newEntries medias l s).2
        (takeSlots medias (l.countP fun p => p.1.mid = [] ∧ p.1.stopped = false) s).2 := by
  induction l generalizing s with
  | nil => exact ⟨rfl, by rintro e ⟨⟩, by rintro e ⟨⟩, rfl⟩
  | cons p l ih =>
    obtain ⟨t, k⟩ := p
    rw [newEntries]
    by_cases ht : t.mid ≠ [] ∨ t.stopped = true
    · rw [if_pos ht, List.countP_cons_of_neg]
      · exact ih s
      · simpa [Classical.or_iff_not_imp_left] using ht
    · rw [if_neg ht, List.countP_cons_of_pos]
      · obtain ⟨hs, hmid, howner, hindex⟩ := ih (s.getIndex medias).2
        refine ⟨hs, ?_, ?_, ?_⟩
        · exact List.forall_mem_cons.2 ⟨rfl, hmid⟩
        · exact List.forall_mem_cons.2 ⟨Or.inr rfl, howner⟩
        · exact congrArg ((s.getIndex medias).1 :: ·) hindex
      · simpa using ht

/-- The entry of the data channels of the current description. -/
def dataEntry (medias : List SdpMedia) : List MediaEntry :=
  (dataSection medias).toList.map fun i => ⟨none, i, midAt medias i, true⟩

/-- How many of the transceivers are new. -/
theorem countP_zipIdx (ts : List RtpTransceiver) :
    ts.zipIdx.countP (fun p => decide (p.1.mid = [] ∧ p.1.stopped = false)) =
      ts.countP fun t => t.mid = [] ∧ t.stopped = false := by
  rw [show (fun p : RtpTransceiver × ℕ => decide (p.1.mid = [] ∧ p.1.stopped = false)) =
    (fun t : RtpTransceiver => decide (t.mid = [] ∧ t.stopped = false)) ∘ Prod.fst from rfl,
    ← List.countP_map, List.zipIdx_map_fst]

/-- No new place is taken for the data channels: they have one, or none is needed. -/
theorem sctpEntry_old {medias : List SdpMedia} {needSctp : Bool} {s : OfferSlots}
    (hs : s.sctpIndex = dataSection medias) (h : ¬(dataSection medias = none ∧ needSctp = true)) :
    s.sctpEntry medias needSctp = (s, dataEntry medias) := by
  rw [OfferSlots.sctpEntry, hs, dataEntry]
  cases hd : dataSection medias with
  | some i => rfl
  | none =>
    obtain rfl : needSctp = false := Bool.eq_false_iff.2 fun hn => h ⟨hd, hn⟩
    rfl

/-- The data channels take the next place. -/
theorem sctpEntry_new {medias : List SdpMedia} {s : OfferSlots}
    (hs : s.sctpIndex = dataSection medias) (h : dataSection medias = none) :
    s.sctpEntry medias true =
      ((s.getIndex medias).2, [⟨none, (s.getIndex medias).1, [], true⟩]) := by
  rw [OfferSlots.sctpEntry, hs, h]
  rfl

/-- The data channels and the new transceivers take the next places, where the data channels have
none yet. -/
theorem sctpEntry_newEntries {medias : List SdpMedia} {needSctp : Bool} {s : OfferSlots}
    (ts : List RtpTransceiver) (hs : s.sctpIndex = dataSection medias) :
    ∃ fresh,
      (s.sctpEntry medias needSctp).2 ++
          (newEntries medias ts.zipIdx (s.sctpEntry medias needSctp).1).2 =
        dataEntry medias ++ fresh ∧
      (newEntries medias ts.zipIdx (s.sctpEntry medias needSctp).1).1 =
        (takeSlots medias (newSections medias needSctp ts) s).1 ∧
      FreshAt fresh (takeSlots medias (newSections medias needSctp ts) s).2 := by
  obtain ⟨hnew, hfresh⟩ :=
    newEntries_fresh medias ts.zipIdx (s.sctpEntry medias needSctp).1
  rw [countP_zipIdx] at hnew hfresh
  by_cases hd : dataSection medias = none ∧ needSctp = true
  · obtain ⟨hd, rfl⟩ := hd
    have hdata : dataEntry medias = [] := by
      rw [dataEntry, hd]
      rfl
    have hsucc : newSections medias true ts =
        (ts.countP fun t => t.mid = [] ∧ t.stopped = false) + 1 := by
      rw [newSections, if_pos ⟨hd, rfl⟩, Nat.add_comm]
    rw [sctpEntry_new hs hd] at hnew hfresh ⊢
    rw [hdata, hsucc, takeSlots]
    refine ⟨_, rfl, hnew, ?_, ?_, ?_⟩
    · exact List.forall_mem_cons.2 ⟨rfl, hfresh.mid⟩
    · exact List.forall_mem_cons.2 ⟨Or.inl rfl, hfresh.owner⟩
    · exact congrArg ((s.getIndex medias).1 :: ·) hfresh.index
  · have hsame : newSections medias needSctp ts =
        ts.countP fun t => t.mid = [] ∧ t.stopped = false := by
      rw [newSections, if_neg hd, Nat.zero_add]
    rw [sctpEntry_old hs hd] at hnew hfresh ⊢
    rw [hsame]
    exact ⟨_, rfl, hnew, hfresh⟩

/-! ### The entries of an offer -/

section Parts

variable {medias : List SdpMedia} {needSctp : Bool} {ts : List RtpTransceiver}

/-- Section `i` is left in the map at the end: no transceiver keeps it, and no section with its
mid has been recycled. -/
def GapAt (medias : List SdpMedia) (needSctp : Bool) (ts : List RtpTransceiver) (i : ℕ) : Prop :=
  midAt medias i ≠ [] ∧ sectionOf medias (midAt medias i) = some i ∧ keptAt medias ts i = false ∧
    ∀ j ∈ recycledSections medias needSctp ts, midAt medias j ≠ midAt medias i

/-- The entries of an offer besides the one of the data channels. -/
structure OfferParts (medias : List SdpMedia) (needSctp : Bool) (ts : List RtpTransceiver)
    (kept fresh gaps : List MediaEntry) : Prop where
  kept_index : ∀ i, i ∈ kept.map MediaEntry.index ↔ keptAt medias ts i = true
  kept_mid : ∀ e ∈ kept, e.mid = midAt medias e.index
  kept_tr : ∀ e ∈ kept, e.isSctp = false ∧ ∃ k t, e.tr = some k ∧ ts[k]? = some t ∧
    ts.find? (fun t => t.mid = e.mid) = some t
  kept_nodup : (kept.map MediaEntry.mid).Nodup
  fresh : FreshAt fresh (recycledSections medias needSctp ts ++
    List.range' medias.length
      (newSections medias needSctp ts - (recyclableSections medias ts).length))
  gaps_mem : ∀ e, e ∈ gaps ↔
    ∃ i, GapAt medias needSctp ts i ∧ e = ⟨none, i, midAt medias i, false⟩
  gaps_nodup : (gaps.map MediaEntry.mid).Nodup

theorem sectionOf_midAt {mid : Text} {i : ℕ} (h : sectionOf medias mid = some i) :
    midAt medias i = mid := by
  obtain ⟨⟨m, hm, hmid⟩, -⟩ := lastIdx?_eq_some.1 h
  rw [midAt_eq hm]
  exact of_decide_eq_true hmid

theorem find?_zipIdx {mid : Text} {p : RtpTransceiver × ℕ}
    (h : ts.zipIdx.find? (fun p => p.1.mid = mid) = some p) :
    ts[p.2]? = some p.1 ∧ ts.find? (fun t => t.mid = mid) = some p.1 := by
  refine ⟨List.mem_zipIdx_iff_getElem?.1 (List.mem_of_find?_eq_some h), ?_⟩
  have hmap := List.find?_map (f := Prod.fst) (p := fun t : RtpTransceiver => decide (t.mid = mid))
    (l := ts.zipIdx)
  rw [List.zipIdx_map_fst] at hmap
  rw [hmap]
  exact congrArg (Option.map Prod.fst) h

/-- The transceivers with a mid keep the sections that `keptAt` says. -/
theorem KeptFrom.index_iff {s s' : OfferSlots} {es : List MediaEntry} (hs : Scanned medias s)
    (h : KeptFrom ts.zipIdx s s' es) (i : ℕ) :
    i ∈ es.map MediaEntry.index ↔ keptAt medias ts i = true := by
  have hkept : keptAt medias ts i = true ↔ midAt medias i ≠ [] ∧
      sectionOf medias (midAt medias i) = some i ∧ dataSection medias ≠ some i ∧
        ∃ t ∈ ts, t.mid = midAt medias i := by
    simp [keptAt]
  rw [hkept]
  constructor
  · intro hi
    obtain ⟨e, he, rfl⟩ := List.mem_map.1 hi
    obtain ⟨hin, hne, -, -, p, hp, -⟩ := h.mem e he
    obtain ⟨hmid, hsection⟩ := (hs.mem _ _).1 hin
    rw [sectionOf_midAt hsection]
    have hfind := (find?_zipIdx hp).2
    exact ⟨hmid, hsection, hs.sctpIndex ▸ hne, p.1, List.mem_of_find?_eq_some hfind,
      by simpa using List.find?_some hfind⟩
  · rintro ⟨hmid, hsection, hdata, t, ht, htm⟩
    obtain ⟨k, hk⟩ := List.mem_iff_getElem?.1 ht
    have hin := h.complete _ i ((hs.mem _ _).2 ⟨hmid, hsection⟩) (hs.sctpIndex ▸ hdata) hmid
      ⟨(t, k), List.mem_zipIdx_iff_getElem?.2 hk, htm⟩
    obtain ⟨e, he, hem⟩ := List.mem_map.1 hin
    have hsection' := ((hs.mem _ _).1 (h.mem e he).1).2
    rw [hem, hsection] at hsection'
    exact Option.some.inj hsection' ▸ List.mem_map_of_mem he

theorem KeptFrom.mid_eq {s s' : OfferSlots} {l : List (RtpTransceiver × ℕ)} {es : List MediaEntry}
    (hs : Scanned medias s) (h : KeptFrom l s s' es) {e : MediaEntry} (he : e ∈ es) :
    midAt medias e.index = e.mid :=
  sectionOf_midAt ((hs.mem _ _).1 (h.mem e he).1).2

/-- What stays in the map once the kept sections and the recycled ones have left it. -/
theorem KeptFrom.gap_iff {s s' : OfferSlots} {es : List MediaEntry} (hs : Scanned medias s)
    (h : KeptFrom ts.zipIdx s s' es) (mid : Text) (i : ℕ) :
    ((mid, i) ∈ s'.midToIndex.filter fun e =>
        e.1 ∉ (recycledSections medias needSctp ts).map (midAt medias)) ↔
      GapAt medias needSctp ts i ∧ mid = midAt medias i := by
  simp only [h.midToIndex, List.mem_filter, hs.mem, decide_eq_true_eq]
  constructor
  · rintro ⟨⟨⟨hmid, hsection⟩, hnot⟩, hrec⟩
    obtain rfl := sectionOf_midAt hsection
    refine ⟨⟨hmid, hsection, ?_, fun j hj heq => hrec (heq ▸ List.mem_map_of_mem hj)⟩, rfl⟩
    rw [← Bool.not_eq_true, ← h.index_iff hs]
    intro hi
    obtain ⟨e, he, rfl⟩ := List.mem_map.1 hi
    exact hnot (h.mid_eq hs he ▸ List.mem_map_of_mem he)
  · rintro ⟨⟨hmid, hsection, hkeep, hrec⟩, rfl⟩
    refine ⟨⟨⟨hmid, hsection⟩, fun hin => ?_⟩, fun hin => ?_⟩
    · obtain ⟨e, he, hem⟩ := List.mem_map.1 hin
      have hsection' := ((hs.mem _ _).1 (h.mem e he).1).2
      rw [hem, hsection] at hsection'
      obtain rfl := Option.some.inj hsection'
      rw [← Bool.not_eq_true, ← h.index_iff hs] at hkeep
      exact hkeep (List.mem_map_of_mem he)
    · obtain ⟨j, hj, hjm⟩ := List.mem_map.1 hin
      exact hrec j hj hjm

/-- **The entries of an offer.** -/
theorem offerEntries_parts (medias : List SdpMedia) (needSctp : Bool) (ts : List RtpTransceiver) :
    ∃ kept fresh gaps, OfferParts medias needSctp ts kept fresh gaps ∧
      offerEntries medias needSctp ts = (kept ++ (dataEntry medias ++ fresh) ++ gaps).mergeSort
        fun a b => a.index ≤ b.index := by
  obtain ⟨hs, hnext⟩ := scanned_ofMedias medias
  have hkept := keptEntries_spec ts.zipIdx hs.keys
  set r := keptEntries ts.zipIdx (.ofMedias medias) with hr
  obtain ⟨fresh, hentries, hslots, hfresh⟩ :=
    @sctpEntry_newEntries medias needSctp r.1 ts (hkept.sctpIndex.trans hs.sctpIndex)
  have hrecyclable : r.1.recyclable = recyclableSections medias ts := by
    rw [hkept.recyclable, hs.recyclable, List.filter_filter, recyclableSections]
    refine List.filter_congr fun i _ => ?_
    rw [Bool.and_comm]
    congr 1
    rw [Bool.eq_iff_iff, decide_eq_true_eq, hkept.index_iff hs, Bool.not_eq_true',
      Bool.not_eq_true]
  rw [takeSlots_eq, hrecyclable, hkept.nextAppend, hnext] at hslots hfresh
  have hgap (mid : Text) (i : ℕ) :
      (mid, i) ∈ (newEntries medias ts.zipIdx (r.1.sctpEntry medias needSctp).1).1.midToIndex ↔
        GapAt medias needSctp ts i ∧ mid = midAt medias i := by
    rw [hslots]
    exact hkept.gap_iff hs mid i
  refine ⟨r.2, fresh, (newEntries medias ts.zipIdx
    (r.1.sctpEntry medias needSctp).1).1.midToIndex.map fun e => ⟨none, e.2, e.1, false⟩,
    ⟨hkept.index_iff hs, fun e he => (hkept.mid_eq hs he).symm, fun e he => ?_, hkept.nodup, hfresh,
      fun e => ?_, ?_⟩, ?_⟩
  · obtain ⟨-, -, -, hsctp, p, hp, htr⟩ := hkept.mem e he
    exact ⟨hsctp, p.2, p.1, htr, (find?_zipIdx hp).1, (find?_zipIdx hp).2⟩
  · rw [List.mem_map]
    constructor
    · rintro ⟨⟨mid, i⟩, hin, rfl⟩
      obtain ⟨hi, rfl⟩ := (hgap mid i).1 hin
      exact ⟨i, hi, rfl⟩
    · rintro ⟨i, hi, rfl⟩
      exact ⟨(midAt medias i, i), (hgap _ i).2 ⟨hi, rfl⟩, rfl⟩
  · rw [List.map_map, hslots]
    refine (hs.keys.sublist ?_)
    rw [hkept.midToIndex]
    exact (List.filter_sublist.trans List.filter_sublist).map _
  · rw [offerEntries, ← hentries, hr]
    simp only [List.append_assoc]

/-- The entries of an offer, where they are sorted already. -/
theorem offerEntries_of_sorted {s s' s'' : OfferSlots} {kept sctp new es : List MediaEntry}
    (hkept : keptEntries ts.zipIdx (.ofMedias medias) = (s, kept))
    (hsctp : s.sctpEntry medias needSctp = (s', sctp))
    (hnew : newEntries medias ts.zipIdx s' = (s'', new))
    (hes : es = kept ++ sctp ++ new ++ s''.midToIndex.map fun e => ⟨none, e.2, e.1, false⟩)
    (hsorted : es.Pairwise fun a b => decide (a.index ≤ b.index) = true) :
    offerEntries medias needSctp ts = es := by
  rw [offerEntries, hkept]
  simp only [hsctp, hnew]
  rw [← hes]
  exact List.mergeSort_of_pairwise hsorted

end Parts

end AsioRtc
