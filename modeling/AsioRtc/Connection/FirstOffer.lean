/-
# The first offer of a connection

What `create_offer` and `set_local_description` do on a connection that has not
negotiated: an entry for the data channels if they are used, and one for each
transceiver in the order of the list (`offerEntries_new`), each with a mid of its
own (`assignMids_new`).  `Offered` is what the rest of a negotiation needs to know of
it, and `offered` says that the two calls come to that; they do come to an end as
long as there are not more than 2^16 sections (`offer_completes`).
-/

import AsioRtc.Connection.Signaling
import AsioRtc.Lib.Placement

namespace AsioRtc

open Lib Text

/-- A transceiver that has not been negotiated: one that `add_transceiver` made. -/
structure RtpTransceiver.IsNew (t : RtpTransceiver) : Prop where
  mid : t.mid = []
  mLineIndex : t.mLineIndex = none
  stopped : t.stopped = false
  codec : ∃ desc, SdpRtpmap.fromMediaDescription desc = some t.codec

/-- A connection that has not negotiated. -/
structure Connection.IsNew (c : Connection) : Prop where
  localDesc : c.localDesc = none
  signalingState : c.signalingState = .stable
  midCounter : c.midCounter = 0
  transceivers : ∀ t ∈ c.transceivers, t.IsNew

/-- The state after a call that did not throw. -/
def Outcome.completed (o : Outcome) : Option Connection :=
  if o.thrown.isSome then none else some o.state

/-! ### The entries -/

/-- The entry of a new transceiver, with `off` sections before those of the transceivers. -/
def newEntry (off i : ℕ) : MediaEntry := ⟨some i, off + i, [], false⟩

/-- New transceivers keep no section. -/
theorem keptEntries_new {l : List (RtpTransceiver × ℕ)} (h : ∀ p ∈ l, p.1.mid = [])
    (s : OfferSlots) : keptEntries l s = (s, []) := by
  induction l with
  | nil => rfl
  | cons p l ih =>
    rw [keptEntries, if_pos (h p (List.mem_cons_self ..))]
    exact ih fun q hq => h q (List.mem_cons_of_mem _ hq)

/-- New transceivers get the places from `next_append_index` on. -/
theorem newEntries_new {medias : List SdpMedia} {ts : List RtpTransceiver}
    (h : ∀ t ∈ ts, t.mid = [] ∧ t.stopped = false) {off i : ℕ} {s : OfferSlots}
    (hr : s.recyclable = []) (hs : s.nextAppend = off + i) :
    newEntries medias (ts.zipIdx i) s =
      ({ s with nextAppend := off + i + ts.length },
        (List.range' i ts.length).map (newEntry off)) := by
  induction ts generalizing i s with
  | nil => simp [newEntries, ← hs]
  | cons t ts ih =>
    obtain ⟨hm, ht⟩ := h t (List.mem_cons_self ..)
    have hget : s.getIndex medias = (off + i, { s with nextAppend := off + i + 1 }) := by
      rw [OfferSlots.getIndex, hr, hs]
    rw [List.zipIdx_cons, newEntries, if_neg (by simp [hm, ht]), hget]
    simp only []
    rw [ih (fun u hu => h u (List.mem_cons_of_mem _ hu)) (i := i + 1)
      (s := { s with nextAppend := off + i + 1 }) hr rfl]
    simp only [List.length_cons, List.range'_succ, List.map_cons, newEntry]
    congr 2
    omega

/-- The entry of the data channels. -/
def sctpEntries (needSctp : Bool) : List MediaEntry :=
  if needSctp then [⟨none, 0, [], true⟩] else []

/-- The entry for data, where there is one. -/
theorem mem_sctpEntries {needSctp : Bool} {e : MediaEntry} (h : e ∈ sctpEntries needSctp) :
    e = ⟨none, 0, [], true⟩ ∧ needSctp = true := by
  unfold sctpEntries at h
  split at h
  · exact ⟨List.mem_singleton.1 h, by assumption⟩
  · exact absurd h List.not_mem_nil

/-- **The entries of a first offer.**  They are at their places already. -/
theorem offerEntries_new {ts : List RtpTransceiver} (h : ∀ t ∈ ts, t.IsNew) (needSctp : Bool) :
    offerEntries [] needSctp ts = sctpEntries needSctp ++
      (List.range ts.length).map (newEntry (sctpEntries needSctp).length) := by
  have hmid : ∀ p ∈ ts.zipIdx, p.1.mid = [] := fun p hp =>
    (h p.1 (List.fst_mem_of_mem_zipIdx hp)).mid
  have hnew : ∀ t ∈ ts, t.mid = [] ∧ t.stopped = false := fun t ht =>
    ⟨(h t ht).mid, (h t ht).stopped⟩
  have hs : ∀ s : OfferSlots, s.recyclable = [] →
      s.nextAppend = (sctpEntries needSctp).length →
      newEntries [] ts.zipIdx s = ({ s with nextAppend := s.nextAppend + ts.length },
        (List.range ts.length).map (newEntry (sctpEntries needSctp).length)) := by
    intro s hr hn
    rw [newEntries_new hnew (i := 0) hr hn, List.range_eq_range', Nat.add_zero, hn]
  have hsorted : (sctpEntries needSctp ++
      (List.range ts.length).map (newEntry (sctpEntries needSctp).length)).Pairwise
        fun a b => decide (a.index ≤ b.index) = true := by
    refine List.pairwise_append.2 ⟨?_, ?_, ?_⟩
    · unfold sctpEntries
      split <;> simp
    · refine List.pairwise_map.2 (List.pairwise_lt_range.imp fun {i j} hlt => ?_)
      exact decide_eq_true (Nat.add_le_add_left (Nat.le_of_lt hlt) _)
    · intro e he _ _
      exact decide_eq_true (by rw [(mem_sctpEntries he).1]; exact Nat.zero_le _)
  rw [offerEntries]
  simp only [OfferSlots.ofMedias, List.zipIdx_nil, List.foldl_nil, List.length_nil,
    keptEntries_new hmid, List.nil_append]
  cases needSctp with
  | false =>
    simp only [OfferSlots.sctpEntry, Bool.false_eq_true, if_false, hs {} rfl rfl, List.map_nil,
      List.append_nil, List.nil_append]
    exact List.mergeSort_of_pairwise hsorted
  | true =>
    simp only [OfferSlots.sctpEntry, OfferSlots.getIndex, if_true, Nat.zero_add,
      hs { nextAppend := 1 } rfl rfl, List.map_nil, List.append_nil]
    exact List.mergeSort_of_pairwise hsorted

/-! ### The mids -/

/-- The next mid is none that is used, and not empty. -/
theorem nextMid_yields {used : List Text} {fuel : ℕ} {counter counter' : U16} {mid : Text}
    (h : nextMid used fuel counter = .ok (mid, counter')) : mid ∉ used ∧ mid ≠ [] := by
  induction fuel generalizing counter with
  | zero => exact absurd h (by simp [nextMid])
  | succ fuel ih =>
    rw [nextMid] at h
    split at h
    · exact ih h
    · rename_i hfree
      obtain ⟨rfl, -⟩ := Prod.mk.inj (Except.ok.inj h)
      exact ⟨hfree, toText_ne_nil _⟩

/-- An entry with its mid. -/
def MediaEntry.Named (e e' : MediaEntry) : Prop := e' = { e with mid := e'.mid }

/-- An entry with its mid, which is new where it had none. -/
structure MediaEntry.NamedOutside (used : List Text) (e e' : MediaEntry) : Prop where
  named : e.Named e'
  keeps : e.mid ≠ [] → e'.mid = e.mid
  fresh : e.mid = [] → e'.mid ∉ used ∧ e'.mid ≠ []

/-- **The mids of an offer.**  The new ones are different from all others. -/
theorem assignMids_spec {es es' : List MediaEntry} {used : List Text} {counter counter' : U16}
    (hused : ∀ e ∈ es, e.mid ≠ [] → e.mid ∈ used)
    (h : assignMids es used counter = .ok (es', counter')) :
    List.Forall₂ (MediaEntry.NamedOutside used) es es' ∧
      ((es'.map MediaEntry.mid).Nodup ↔ ((es.map MediaEntry.mid).filter (· ≠ [])).Nodup) := by
  induction es generalizing es' used counter counter' with
  | nil =>
    obtain ⟨rfl, -⟩ := Prod.mk.inj (Except.ok.inj h)
    exact ⟨.nil, by simp⟩
  | cons e es ih =>
    have hes : ∀ x ∈ es, x.mid ≠ [] → x.mid ∈ used := fun x hx =>
      hused x (List.mem_cons_of_mem _ hx)
    rw [assignMids] at h
    split at h
    · rename_i hmid
      obtain ⟨⟨mid, c₁⟩, hnext, h⟩ := Checked.bind_eq_ok.1 h
      obtain ⟨⟨es₁, c₂⟩, hes₁, h⟩ := Checked.bind_eq_ok.1 h
      obtain ⟨rfl, -⟩ := Prod.mk.inj (Except.ok.inj h)
      obtain ⟨hnew, hne⟩ := nextMid_yields hnext
      obtain ⟨hnamed, hnodup⟩ := ih (fun x hx hxm => List.mem_cons_of_mem _ (hes x hx hxm)) hes₁
      refine ⟨.cons ⟨rfl, fun hm => absurd hmid hm, fun _ => ⟨hnew, hne⟩⟩ ?_, ?_⟩
      · refine hnamed.imp fun x x' hx => ⟨hx.named, hx.keeps, fun hm => ?_⟩
        exact ⟨fun hin => (hx.fresh hm).1 (List.mem_cons_of_mem _ hin), (hx.fresh hm).2⟩
      · have hnot : mid ∉ es₁.map MediaEntry.mid := by
          intro hin
          obtain ⟨x', hx', rfl⟩ := List.mem_map.1 hin
          obtain ⟨x, hx, hxx⟩ := exists_left_of_mem hnamed hx'
          by_cases hm : x.mid = []
          · exact (hxx.fresh hm).1 (List.mem_cons_self ..)
          · exact hnew (hxx.keeps hm ▸ hes x hx hm)
        rw [List.map_cons, List.nodup_cons, hnodup, List.map_cons, List.filter_cons_of_neg (by simpa)]
        exact ⟨And.right, fun h => ⟨hnot, h⟩⟩
    · rename_i hmid
      obtain ⟨⟨es₁, c₂⟩, hes₁, h⟩ := Checked.bind_eq_ok.1 h
      obtain ⟨rfl, -⟩ := Prod.mk.inj (Except.ok.inj h)
      obtain ⟨hnamed, hnodup⟩ := ih hes hes₁
      refine ⟨.cons ⟨rfl, fun _ => rfl, fun hm => absurd hm hmid⟩ hnamed, ?_⟩
      rw [List.map_cons, List.nodup_cons, hnodup, List.map_cons, List.filter_cons_of_pos (by simpa),
        List.nodup_cons]
      refine and_congr_left fun _ => not_congr ?_
      rw [List.mem_filter, decide_eq_true_eq, and_iff_left hmid]
      constructor
      · intro hin
        obtain ⟨x', hx', hxm⟩ := List.mem_map.1 hin
        obtain ⟨x, hx, hxx⟩ := exists_left_of_mem hnamed hx'
        by_cases hm : x.mid = []
        · -- A new mid is none of those in use.
          exact absurd (hxm ▸ hused e (List.mem_cons_self ..) hmid) (hxx.fresh hm).1
        · exact List.mem_map.2 ⟨x, hx, (hxx.keeps hm).symm.trans hxm⟩
      · intro hin
        obtain ⟨x, hx, hxm⟩ := List.mem_map.1 hin
        obtain ⟨i, hi⟩ := List.mem_iff_getElem?.1 hx
        obtain ⟨x', hx', hxx⟩ := exists_right_of_getElem? hnamed hi
        refine List.mem_map.2 ⟨x', List.mem_of_getElem? hx', ?_⟩
        exact (hxx.keeps (hxm ▸ hmid)).trans hxm

/-- **The mids of a first offer.**  They are new, and all different. -/
theorem assignMids_new {es es' : List MediaEntry} {used : List Text} {counter counter' : U16}
    (hes : ∀ e ∈ es, e.mid = []) (h : assignMids es used counter = .ok (es', counter')) :
    List.Forall₂ MediaEntry.Named es es' ∧ (es'.map MediaEntry.mid).Nodup ∧
      ∀ e ∈ es', e.mid ∉ used ∧ e.mid ≠ [] := by
  obtain ⟨hnamed, hnodup⟩ := assignMids_spec (fun e he hm => absurd (hes e he) hm) h
  refine ⟨hnamed.imp fun _ _ => MediaEntry.NamedOutside.named, hnodup.2 ?_, fun e he => ?_⟩
  · have hnil : (es.map MediaEntry.mid).filter (· ≠ []) = [] := by
      refine List.filter_eq_nil_iff.2 fun t ht => ?_
      obtain ⟨e, he, rfl⟩ := List.mem_map.1 ht
      simp [hes e he]
    exact hnil ▸ List.nodup_nil
  · obtain ⟨x, hx, hxe⟩ := exists_left_of_mem hnamed he
    exact hxe.fresh (hes x hx)

/-- The counter finds a mid at once as long as it has not gone round. -/
theorem assignMids_safe {es : List MediaEntry} {used : List Text} {counter : U16}
    (hes : ∀ e ∈ es, e.mid = []) (hused : ∀ t ∈ used, ∃ n < counter.toNat, t = toText n)
    (hlen : counter.toNat + es.length ≤ 2 ^ 16) : (assignMids es used counter).Safe := by
  induction es generalizing used counter with
  | nil => exact Checked.safe_pure
  | cons e es ih =>
    rw [List.length_cons] at hlen
    have hfree : toText counter.toNat ∉ used := fun hin => by
      obtain ⟨n, hn, h⟩ := hused _ hin
      exact absurd (toText_injective h) (by omega)
    have hmid : nextMid used (2 ^ 16) counter = .ok (toText counter.toNat, counter + 1) := by
      rw [show (2 : ℕ) ^ 16 = 65535 + 1 from rfl, nextMid, if_neg hfree]
    rw [assignMids, if_pos (hes e (List.mem_cons_self ..)), hmid, Checked.ok_bind]
    cases es with
    | nil => exact Checked.safe_pure
    | cons e' es =>
      rw [List.length_cons] at hlen
      have hnext : (counter + 1).toNat = counter.toNat + 1 := by
        rw [BitVec.toNat_add]
        exact Nat.mod_eq_of_lt (by simp; omega)
      refine (ih (fun x hx => hes x (List.mem_cons_of_mem _ hx)) ?_ ?_).bind fun _ _ =>
        Checked.safe_pure
      · refine List.forall_mem_cons.2 ⟨⟨counter.toNat, by omega, rfl⟩, fun t ht => ?_⟩
        obtain ⟨n, hn, rfl⟩ := hused t ht
        exact ⟨n, by omega, rfl⟩
      · rw [List.length_cons]
        omega

/-! ### The sections -/

namespace Connection

variable [NoCaseEq]

/-- The number of sections of a first offer that come before those of the transceivers. -/
def sctpCount (a : Connection) : ℕ := (sctpEntries a.needSctp).length

/-- The entries of a first offer, with their mids. -/
structure FirstEntries (a : Connection) (es : List MediaEntry) : Prop where
  named : List.Forall₂ MediaEntry.Named
    (sctpEntries a.needSctp ++ (List.range a.transceivers.length).map (newEntry a.sctpCount)) es
  mids_nodup : (es.map MediaEntry.mid).Nodup
  mids_ne : ∀ e ∈ es, e.mid ≠ []

/-- The section of an entry of a first offer. -/
def firstSection (a : Connection) (e : MediaEntry) : SdpMedia :=
  (e.tr.bind (a.transceivers[·]?)).elim (a.sctpSection e.mid) fun t => a.mediaSection t e.mid

variable {a : Connection} {es : List MediaEntry}

omit [NoCaseEq] in
/-- There is an entry for each transceiver, and one for data. -/
theorem FirstEntries.length_eq (h : FirstEntries a es) :
    es.length = a.sctpCount + a.transceivers.length := by
  rw [← h.named.length_eq, List.length_append, List.length_map, List.length_range, sctpCount]

omit [NoCaseEq] in
/-- Entry `j` is the one of the data channels, or that of the transceiver at its place. -/
theorem FirstEntries.entry (h : FirstEntries a es) {j : ℕ} {e : MediaEntry} (he : es[j]? = some e) :
    (j < a.sctpCount ∧ e.isSctp = true ∧ e.tr = none ∧ a.needSctp = true) ∨
      ∃ k t, j = a.sctpCount + k ∧ a.transceivers[k]? = some t ∧ e.isSctp = false ∧
        e.tr = some k := by
  obtain ⟨hlen, hnamed⟩ := List.forall₂_iff_get.1 h.named
  obtain ⟨hj, rfl⟩ := List.getElem?_eq_some_iff.1 he
  have hn := hnamed j (hlen ▸ hj) hj
  simp only [List.get_eq_getElem] at hn
  rw [MediaEntry.Named, List.getElem_append] at hn
  split at hn
  · rename_i hlt
    obtain ⟨he, hneed⟩ := mem_sctpEntries (List.getElem_mem hlt)
    rw [hn, he]
    exact Or.inl ⟨hlt, rfl, rfl, hneed⟩
  · rename_i hge
    have hge : a.sctpCount ≤ j := Nat.le_of_not_lt hge
    have hk : j - a.sctpCount < a.transceivers.length := by
      have := h.length_eq
      omega
    refine Or.inr ⟨j - a.sctpCount, a.transceivers[j - a.sctpCount], by omega,
      List.getElem?_eq_getElem hk, ?_, ?_⟩
    · rw [hn]
      simp [newEntry]
    · rw [hn]
      simp [newEntry, sctpCount]

omit [NoCaseEq] in
/-- Each transceiver has an entry. -/
theorem FirstEntries.entry_of_transceiver (h : FirstEntries a es) {k : ℕ} {t : RtpTransceiver}
    (ht : a.transceivers[k]? = some t) :
    ∃ e, es[a.sctpCount + k]? = some e ∧ e.isSctp = false ∧ e.tr = some k := by
  obtain ⟨hk, -⟩ := List.getElem?_eq_some_iff.1 ht
  have hj : a.sctpCount + k < es.length := by
    rw [h.length_eq]
    omega
  refine ⟨_, List.getElem?_eq_getElem hj, ?_⟩
  rcases h.entry (List.getElem?_eq_getElem hj) with ⟨hlt, -⟩ | ⟨i, u, hi, -, hs, htr⟩
  · omega
  · exact ⟨hs, by rw [htr, show k = i by omega]⟩

/-- `set_mline_index`. -/
def withMline (i : ℕ) (t : RtpTransceiver) : RtpTransceiver := { t with mLineIndex := some i }

omit [NoCaseEq] in
/-- Where each entry is at its place, a transceiver that has one gets the place it has. -/
theorem setMlineIndices_getElem? {off k : ℕ} {l : List (MediaEntry × ℕ)}
    (h : ∀ p ∈ l, p.1.isSctp = true ∨ ∃ i, p.1.tr = some i ∧ p.2 = off + i)
    (ts : List RtpTransceiver) :
    (l.foldl (fun ts p =>
        match p.1.isSctp, p.1.tr with
        | false, some i => ts.modify i fun t => { t with mLineIndex := some p.2 }
        | _, _ => ts) ts)[k]? =
      if l.any fun p => !p.1.isSctp && p.1.tr = some k then ts[k]?.map (withMline (off + k))
      else ts[k]? := by
  induction l generalizing ts with
  | nil => simp
  | cons p l ih =>
    rw [List.foldl_cons, ih fun q hq => h q (List.mem_cons_of_mem _ hq)]
    rw [List.any_cons]
    cases hs : p.1.isSctp with
    | true => rw [Bool.not_true, Bool.false_and, Bool.false_or]
    | false =>
      obtain ⟨i, hi, hp⟩ := (h p (List.mem_cons_self ..)).resolve_left (by simp [hs])
      simp only [hi, hp, List.getElem?_modify, Bool.not_false, Bool.true_and, Option.some.injEq]
      by_cases hik : i = k
      · subst hik
        rw [decide_eq_true rfl, Bool.true_or, if_pos rfl]
        split <;> cases ts[i]? <;> simp [withMline]
      · rw [decide_eq_false hik, Bool.false_or]
        split <;> cases ts[k]? <;> simp

/-- What `create_offer` makes of a connection that has not negotiated. -/
structure FirstOffer (a a₁ : Connection) (offer : SessionDescription)
    (es : List MediaEntry) : Prop where
  entries : FirstEntries a es
  sdpType : offer.sdpType = "offer".toList
  medias : offer.medias = es.map a.firstSection
  groups : offer.groups = offerGroups a.transceivers es offer.medias
  transceivers : ∀ k : ℕ, a₁.transceivers[k]? =
    a.transceivers[k]?.map (withMline (a.sctpCount + k))
  signalingState : a₁.signalingState = .stable

/-- The section of an entry is that of a first offer. -/
theorem entrySection_first (h : FirstEntries a es) {e : MediaEntry} (he : e ∈ es) :
    a.entrySection [] e = .ok (a.firstSection e) := by
  obtain ⟨j, hj⟩ := List.mem_iff_getElem?.1 he
  rcases h.entry hj with ⟨-, hs, ht, -⟩ | ⟨k, t, -, hk, hs, ht⟩
  · rw [entrySection, firstSection, hs, ht]
    rfl
  · rw [entrySection, firstSection, hs, ht, if_neg Bool.false_ne_true]
    simp only [Option.bind_some, hk]
    rfl

omit [NoCaseEq] in
/-- The entries of a new connection have no mid yet. -/
theorem offerEntries_mid (ha : a.IsNew) :
    ∀ e ∈ offerEntries [] a.needSctp a.transceivers, e.mid = [] := by
  intro e he
  rw [offerEntries_new ha.transceivers, List.mem_append, List.mem_map] at he
  rcases he with he | ⟨i, -, rfl⟩
  · rw [(mem_sctpEntries he).1]
  · rfl

omit [NoCaseEq] in
/-- The mids that are given make the entries those of a first offer. -/
theorem firstEntries_of_assignMids (ha : a.IsNew) {used : List Text} {c : U16}
    {r : List MediaEntry × U16}
    (h : assignMids (offerEntries [] a.needSctp a.transceivers) used c = .ok r) :
    FirstEntries a r.1 := by
  obtain ⟨hnamed, hnodup, hfree⟩ := assignMids_new (offerEntries_mid ha) h
  rw [offerEntries_new ha.transceivers] at hnamed
  exact ⟨hnamed, hnodup, fun e he => (hfree e he).2⟩

/-- **A first `create_offer`.** -/
theorem createOffer_new (ha : a.IsNew) {a₁ : Connection} {offer : SessionDescription}
    (h : a.createOffer = .ok (a₁, offer)) : ∃ es, FirstOffer a a₁ offer es := by
  rw [createOffer, ha.localDesc] at h
  obtain ⟨⟨es, counter⟩, hmids, h⟩ := Checked.bind_eq_ok.1 h
  have hfirst := firstEntries_of_assignMids ha hmids
  obtain ⟨sections, hsections, h⟩ := Checked.bind_eq_ok.1 h
  have hmap := Checked.mapM_ok fun e (he : e ∈ es) => entrySection_first hfirst he
  obtain rfl : es.map a.firstSection = sections := Except.ok.inj (hmap.symm.trans hsections)
  obtain ⟨rfl, rfl⟩ := Prod.mk.inj (Except.ok.inj h)
  refine ⟨es, hfirst, rfl, rfl, rfl, fun k => ?_, ha.signalingState⟩
  have hplaced : ∀ p ∈ es.zipIdx, p.1.isSctp = true ∨
      ∃ i, p.1.tr = some i ∧ p.2 = a.sctpCount + i := by
    intro p hp
    rcases hfirst.entry (List.mem_zipIdx_iff_getElem?.1 hp) with ⟨-, hs, -⟩ | ⟨i, -, hj, -, -, ht⟩
    · exact Or.inl hs
    · exact Or.inr ⟨i, ht, hj⟩
  refine (setMlineIndices_getElem? hplaced a.transceivers).trans ?_
  cases hk : a.transceivers[k]? with
  | none => simp
  | some t =>
    obtain ⟨e, he, hs, ht⟩ := hfirst.entry_of_transceiver hk
    exact if_pos (List.any_eq_true.2 ⟨(e, a.sctpCount + k),
      List.mem_zipIdx_iff_getElem?.2 he, by simp [hs, ht]⟩)

/-! ### Both calls -/

omit [NoCaseEq] in
/-- The check of the sections passes for new transceivers. -/
theorem checkMlines_new {medias : List SdpMedia} {ts : List RtpTransceiver}
    (h : ∀ t ∈ ts, t.mid = [] ∧ ∃ i m, t.mLineIndex = some i ∧ medias[i]? = some m) :
    checkMlines medias ts = none := by
  induction ts with
  | nil => rfl
  | cons t ts ih =>
    obtain ⟨hm, i, m, hi, hmed⟩ := h t (List.mem_cons_self ..)
    simp only [checkMlines, hi, hmed, hm, ne_eq, not_true, false_and, if_false]
    exact ih fun u hu => h u (List.mem_cons_of_mem _ hu)

/-- What is left of an offer in the transceiver it was made from. -/
structure OfferedFrom (t t' : RtpTransceiver) (m : SdpMedia) : Prop where
  mid : t'.mid = m.mid
  direction : t'.direction = t.direction
  codec : t'.codec = t.codec
  mDirection : m.direction = t.direction
  mediaType : m.mediaType = RtpTransceiver.getMediaType t.kind
  rtpmaps : ∃ rest, m.rtpmaps = t.codec :: rest ∧
    ∀ c ∈ rest, c = RtpTransceiver.rtxRtpmap t.codec

/-- **The first offer.**  `a` has offered `offer` and is `a₂` now. -/
structure Offered (a a₂ : Connection) (offer : SessionDescription) : Prop where
  sdpType : offer.sdpType = "offer".toList
  mids_nodup : (offer.medias.map SdpMedia.mid).Nodup
  mids_ne : ∀ m ∈ offer.medias, m.mid ≠ []
  signalingState : a₂.signalingState = .haveLocalOffer
  sections : ∀ m ∈ offer.medias, m.mediaType = .application ∨
    ∃ t ∈ a₂.transceivers, t.mid = m.mid
  transceivers : ∀ t' ∈ a₂.transceivers, ∃ t ∈ a.transceivers, ∃ m ∈ offer.medias,
    OfferedFrom t t' m
  bundle : a.transceivers ≠ [] → checkBundle offer = none

/-- A first section has the mid of its entry, and is not rejected. -/
theorem firstSection_mid (h : FirstEntries a es) {e : MediaEntry} (he : e ∈ es)
    (ha : a.IsNew) : (a.firstSection e).mid = e.mid ∧ (a.firstSection e).port = 9 := by
  obtain ⟨j, hj⟩ := List.mem_iff_getElem?.1 he
  rcases h.entry hj with ⟨-, -, ht, hneed⟩ | ⟨k, t, -, hk, -, ht⟩
  · rw [firstSection, ht]
    exact ⟨rfl, if_pos hneed⟩
  · have hnew := ha.transceivers t (List.mem_of_getElem? hk)
    obtain ⟨hm, -, hp, -⟩ := RtpTransceiver.toOfferSdpMedia_cases hnew.stopped e.mid
    rw [firstSection, ht, Option.bind_some, hk]
    exact ⟨hm, hp⟩

/-- The sections of a first offer are bundled. -/
theorem FirstOffer.bundle {a₁ : Connection} {offer : SessionDescription} (ha : a.IsNew)
    (h : FirstOffer a a₁ offer es) (hne : a.transceivers ≠ []) : checkBundle offer = none := by
  have hport : offer.medias.filter (fun m => m.port ≠ 0) = offer.medias := by
    refine List.filter_eq_self.2 fun m hm => ?_
    rw [h.medias] at hm
    obtain ⟨e, he, rfl⟩ := List.mem_map.1 hm
    rw [(firstSection_mid h.entries he ha).2]
    rfl
  have hmids : offer.medias.map SdpMedia.mid ≠ [] := by
    intro hnil
    have hlen := congrArg List.length hnil
    rw [h.medias, List.length_map, List.length_map, h.entries.length_eq, List.length_nil] at hlen
    exact hne (List.eq_nil_of_length_eq_zero (by omega))
  have hlip : (lipSyncGroups a.transceivers es).find? (fun g => g.semantic = "BUNDLE".toList) =
      none := by
    refine List.find?_eq_none.2 fun g hg => ?_
    obtain ⟨p, -, rfl⟩ := List.mem_map.1 hg
    simp
  rw [checkBundle, h.groups, offerGroups, hport, if_neg hmids, List.find?_append, hlip,
    Option.none_or, List.find?_cons_of_pos (by simp)]
  simp only [Option.map_eq_none_iff, List.find?_eq_none, decide_eq_true_eq, not_and, not_not]
  exact fun m hm _ => List.mem_map_of_mem hm

omit [NoCaseEq] in
/-- A new transceiver takes the mid of its section. -/
theorem takeMid_new {medias : List SdpMedia} {t : RtpTransceiver} (ht : t.mid = []) {i : ℕ}
    {m : SdpMedia} (hm : medias[i]? = some m) :
    takeMid medias (withMline i t) = { withMline i t with mid := m.mid } := by
  rw [takeMid, if_pos (show (withMline i t).mid = [] from ht)]
  simp only [withMline, Option.bind_some, hm, Option.map_some, Option.getD_some]

/-- The section of transceiver `k`. -/
theorem FirstOffer.section_of_transceiver {a₁ : Connection} {offer : SessionDescription}
    (h : FirstOffer a a₁ offer es) {k : ℕ} {t : RtpTransceiver} (hk : a.transceivers[k]? = some t) :
    ∃ e ∈ es, offer.medias[a.sctpCount + k]? = some (a.mediaSection t e.mid) := by
  obtain ⟨e, he, -, ht⟩ := h.entries.entry_of_transceiver hk
  refine ⟨e, List.mem_of_getElem? he, ?_⟩
  rw [h.medias, List.getElem?_map, he, Option.map_some, firstSection, ht, Option.bind_some, hk,
    Option.elim_some]

/-- The transceivers behind a first offer are those before, with their sections. -/
theorem FirstOffer.mem_transceivers {a₁ : Connection} {offer : SessionDescription}
    (h : FirstOffer a a₁ offer es) {t : RtpTransceiver} (ht : t ∈ a₁.transceivers) :
    ∃ k u, a.transceivers[k]? = some u ∧ t = withMline (a.sctpCount + k) u := by
  obtain ⟨k, hk⟩ := List.mem_iff_getElem?.1 ht
  rw [h.transceivers, Option.map_eq_some_iff] at hk
  obtain ⟨u, hu, rfl⟩ := hk
  exact ⟨k, u, hu, rfl⟩

/-- `set_local_description` takes a first offer. -/
theorem FirstOffer.setLocalDescription {a₁ : Connection} {offer : SessionDescription}
    (ha : a.IsNew) (h : FirstOffer a a₁ offer es) :
    (a₁.setLocalDescription offer).completed = some { a₁ with
      transceivers := a₁.transceivers.map (takeMid offer.medias)
      localDesc := some offer
      signalingState := .haveLocalOffer } := by
  have hcheck : checkMlines offer.medias a₁.transceivers = none := by
    refine checkMlines_new fun t ht => ?_
    obtain ⟨k, u, hu, rfl⟩ := h.mem_transceivers ht
    obtain ⟨e, -, hm⟩ := h.section_of_transceiver hu
    exact ⟨(ha.transceivers u (List.mem_of_getElem? hu)).mid, _, _, rfl, hm⟩
  rw [Connection.setLocalDescription, h.signalingState]
  simp only [h.sdpType, ne_eq, not_true, if_false, hcheck]
  rfl

/-- **The first offer.**  What `create_offer` and `set_local_description` come to. -/
theorem offered (ha : a.IsNew) {a₁ a₂ : Connection} {offer : SessionDescription}
    (h₁ : a.createOffer = .ok (a₁, offer))
    (h₂ : (a₁.setLocalDescription offer).completed = some a₂) : Offered a a₂ offer := by
  obtain ⟨es, h⟩ := createOffer_new ha h₁
  rw [h.setLocalDescription ha] at h₂
  obtain rfl := Option.some.inj h₂
  have hmids : offer.medias.map SdpMedia.mid = es.map MediaEntry.mid := by
    rw [h.medias, List.map_map]
    exact List.map_congr_left fun e he => (firstSection_mid h.entries he ha).1
  refine ⟨h.sdpType, hmids ▸ h.entries.mids_nodup, fun m hm => ?_, rfl, fun m hm => ?_,
    fun t' ht' => ?_, h.bundle ha⟩
  · have hin := hmids ▸ List.mem_map_of_mem (f := SdpMedia.mid) hm
    obtain ⟨e, he, hem⟩ := List.mem_map.1 hin
    exact hem ▸ h.entries.mids_ne e he
  · obtain ⟨j, hj⟩ := List.mem_iff_getElem?.1 hm
    have hj' := hj
    rw [h.medias, List.getElem?_map, Option.map_eq_some_iff] at hj'
    obtain ⟨e, he, rfl⟩ := hj'
    rcases h.entries.entry he with ⟨-, -, ht, -⟩ | ⟨k, t, rfl, hk, -, -⟩
    · rw [firstSection, ht]
      exact Or.inl rfl
    · refine Or.inr ⟨takeMid offer.medias (withMline (a.sctpCount + k) t), ?_, ?_⟩
      · refine List.mem_map_of_mem (List.mem_of_getElem? (i := k) ?_)
        rw [h.transceivers, hk, Option.map_some]
      · rw [takeMid_new (ha.transceivers t (List.mem_of_getElem? hk)).mid hj]
  · obtain ⟨t₁, ht₁, rfl⟩ := List.mem_map.1 ht'
    obtain ⟨k, t, hk, rfl⟩ := h.mem_transceivers ht₁
    obtain ⟨e, -, hm⟩ := h.section_of_transceiver hk
    have hnew := ha.transceivers t (List.mem_of_getElem? hk)
    obtain ⟨hmid, hdir, -, hkind, hmaps⟩ :=
      RtpTransceiver.toOfferSdpMedia_cases hnew.stopped e.mid
    rw [takeMid_new hnew.mid hm]
    exact ⟨t, List.mem_of_getElem? hk, _, List.mem_of_getElem? hm, rfl, rfl, rfl, hdir, hkind,
      hmaps⟩

/-- **A first offer comes to an end** where there are mids for all its sections. -/
theorem offer_completes (ha : a.IsNew)
    (hlen : a.sctpCount + a.transceivers.length ≤ 2 ^ 16) :
    ∃ a₁ offer a₂, a.createOffer = .ok (a₁, offer) ∧
      (a₁.setLocalDescription offer).completed = some a₂ := by
  have hsafe : a.createOffer.Safe := by
    rw [createOffer, ha.localDesc]
    refine (assignMids_safe (offerEntries_mid ha) ?_ ?_).bind fun r hr => ?_
    · intro t ht
      obtain ⟨hin, hne⟩ := List.mem_filter.1 ht
      obtain ⟨e, he, rfl⟩ := List.mem_map.1 hin
      simp [offerEntries_mid ha e he] at hne
    · have hcount : (offerEntries [] a.needSctp a.transceivers).length =
          a.sctpCount + a.transceivers.length := by
        rw [offerEntries_new ha.transceivers, List.length_append, List.length_map,
          List.length_range, sctpCount]
      rw [ha.midCounter]
      change 0 + (offerEntries [] a.needSctp a.transceivers).length ≤ _
      omega
    · have hmap := Checked.mapM_ok fun e (he : e ∈ r.1) =>
        entrySection_first (firstEntries_of_assignMids ha hr) he
      exact Checked.Safe.bind ⟨_, hmap⟩ fun _ _ => Checked.safe_pure
  obtain ⟨⟨a₁, offer⟩, h⟩ := hsafe
  obtain ⟨es, hfirst⟩ := createOffer_new ha h
  exact ⟨a₁, offer, _, h, hfirst.setLocalDescription ha⟩

end Connection
end AsioRtc
