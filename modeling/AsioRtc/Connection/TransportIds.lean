/-
# Whose numbers the transport-cc state takes

A session description maps each header extension to an id, and the side that offers chooses
the ids.  `make_rtp` looks the id of the transport-wide number up; `handle_incoming` of
`src/twcc.cpp` has the id 4 in its text.  Where the description maps the transport-wide number
to another id, and id 4 to the mid, a mid of two characters is taken for a number.

`elementTurns` are the turns of the loop of `handle_incoming`, one for an element of the
extension, with the state before and after each; what is in the queue afterwards was there
before, or a turn has put it there (`mem_incoming`).  `records_mapped_iff` says when every turn
that puts a number into the queue is for an element with the id that the description gives the
transport-wide number.
-/

import AsioRtc.Connection.Send

namespace AsioRtc

open Lib

namespace TransportCc

/-- The number in an element: two bytes under id 4. -/
def elementSeq (e : RtpExtElement) : Option U16 :=
  match e.data with
  | [hi, lo] => if e.id = 4 then some (BitVec.ofNat 16 (hi.toNat * 256 + lo.toNat)) else none
  | _ => none

theorem transportSeqs_eq (ext : Bytes) : transportSeqs ext = (extElements ext).filterMap elementSeq :=
  rfl

theorem id_of_elementSeq {e : RtpExtElement} {s : U16} (h : elementSeq e = some s) : e.id = 4 := by
  unfold elementSeq at h
  split at h
  · by_contra hid
    rw [if_neg hid] at h
    cases h
  · cases h

/-- A turn of the loop over the elements. -/
structure ElementTurn where
  before : TransportCc
  element : RtpExtElement
  after : TransportCc

/-- The turns for the elements `es`, with the readings of the clock from `i` on: an element with a
number reads it once. -/
def elementTurns (now : ℕ → ℤ) : ℕ → TransportCc → List RtpExtElement → List ElementTurn
  | _, _, [] => []
  | i, t, e :: es =>
      match elementSeq e with
      | none => ⟨t, e, t⟩ :: elementTurns now i t es
      | some s => ⟨t, e, t.arrive s (now i)⟩ :: elementTurns now (i + 1) (t.arrive s (now i)) es

theorem elementTurns_none {now : ℕ → ℤ} {i : ℕ} {t : TransportCc} {e : RtpExtElement}
    {es : List RtpExtElement} (h : elementSeq e = none) :
    elementTurns now i t (e :: es) = ⟨t, e, t⟩ :: elementTurns now i t es := by
  rw [elementTurns, h]

theorem elementTurns_some {now : ℕ → ℤ} {i : ℕ} {t : TransportCc} {e : RtpExtElement}
    {es : List RtpExtElement} {s : U16} (h : elementSeq e = some s) :
    elementTurns now i t (e :: es) =
      ⟨t, e, t.arrive s (now i)⟩ :: elementTurns now (i + 1) (t.arrive s (now i)) es := by
  rw [elementTurns, h]

/-- The number is queued where `std::lower_bound` looks for it. -/
def Queued (t : TransportCc) (s : U16) : Prop :=
  t.recv[place ⟨s, 0⟩ t.recv]?.map TccEntry.seq = some s

instance (t : TransportCc) (s : U16) : Decidable (t.Queued s) := by
  unfold Queued
  infer_instance

section Turns

variable {now : ℕ → ℤ} {t : TransportCc} {e : TccEntry} {l : List TccEntry} {s m : U16} {i : ℕ}
  {ts : ℤ} {es : List RtpExtElement}

/-- A number changes the queue if it is not there. -/
theorem arrive_recv_eq_iff : (t.arrive s ts).recv = t.recv ↔ t.Queued s := by
  -- The search compares numbers, not times.
  have hplace : place ⟨s, ts⟩ t.recv = place ⟨s, 0⟩ t.recv := rfl
  unfold Queued arrive insertEntry
  rw [hplace]
  split
  · rename_i hfound
    exact iff_of_true rfl hfound
  · rename_i hnew
    refine iff_of_false (fun h => ?_) hnew
    have hlen := congrArg List.length h
    have hsplit := congrArg List.length (List.take_append_drop (place ⟨s, 0⟩ t.recv) t.recv)
    simp only [List.length_append, List.length_cons] at hlen hsplit
    omega

theorem arrive_of_queued (h : t.Queued s) : t.arrive s ts = t := by
  have hrecv : (t.arrive s ts).recv = t.recv := arrive_recv_eq_iff.2 h
  cases t
  exact congrArg (TransportCc.mk · _ _ _ _) hrecv

/-- The turns come to what `arriveAll` comes to. -/
theorem elementTurns_last (now : ℕ → ℤ) (i : ℕ) (t : TransportCc) (es : List RtpExtElement) :
    ((elementTurns now i t es).map ElementTurn.after).getLastD t =
      t.arriveAll now i (es.filterMap elementSeq) := by
  induction es generalizing i t with
  | nil => rfl
  | cons e es ih =>
    cases hs : elementSeq e with
    | none =>
      rw [elementTurns_none hs, List.filterMap_cons_none hs, ← ih, List.map_cons, List.getLastD_cons]
    | some s =>
      rw [elementTurns_some hs, List.filterMap_cons_some hs, arriveAll, ← ih, List.map_cons,
        List.getLastD_cons]

/-- A turn that changes the queue is for an element with a number. -/
theorem seq_of_mem {turn : ElementTurn} (h : turn ∈ elementTurns now i t es)
    (hchange : turn.after.recv ≠ turn.before.recv) : ∃ s, elementSeq turn.element = some s := by
  induction es generalizing i t with
  | nil => exact absurd h List.not_mem_nil
  | cons e es ih =>
    cases hs : elementSeq e with
    | none =>
      rw [elementTurns_none hs] at h
      rcases List.mem_cons.1 h with rfl | h
      · exact absurd rfl hchange
      · exact ih h
    | some s =>
      rw [elementTurns_some hs] at h
      rcases List.mem_cons.1 h with rfl | h
      · exact ⟨s, hs⟩
      · exact ih h

/-- Numbers that are queued change nothing. -/
theorem unchanged_of_queued {turn : ElementTurn} (hq : ∀ s ∈ es.filterMap elementSeq, t.Queued s)
    (h : turn ∈ elementTurns now i t es) : turn.after = turn.before := by
  induction es generalizing i with
  | nil => exact absurd h List.not_mem_nil
  | cons e es ih =>
    cases hs : elementSeq e with
    | none =>
      rw [elementTurns_none hs] at h
      rw [List.filterMap_cons_none hs] at hq
      rcases List.mem_cons.1 h with rfl | h
      · rfl
      · exact ih hq h
    | some s =>
      rw [List.filterMap_cons_some hs, List.forall_mem_cons] at hq
      rw [elementTurns_some hs, arrive_of_queued hq.1] at h
      rcases List.mem_cons.1 h with rfl | h
      · rfl
      · exact ih hq.2 h

/-- What is queued was queued before, or a turn has put it there. -/
theorem mem_arriveAll {x : TccEntry} (h : x ∈ (t.arriveAll now i (es.filterMap elementSeq)).recv) :
    x ∈ t.recv ∨ ∃ turn ∈ elementTurns now i t es, x ∉ turn.before.recv ∧ x ∈ turn.after.recv := by
  induction es generalizing i t with
  | nil => exact .inl h
  | cons e es ih =>
    cases hs : elementSeq e with
    | none =>
      rw [List.filterMap_cons_none hs] at h
      rw [elementTurns_none hs]
      refine (ih h).imp_right ?_
      rintro ⟨turn, hturn, hx⟩
      exact ⟨turn, List.mem_cons_of_mem _ hturn, hx⟩
    | some s =>
      rw [List.filterMap_cons_some hs, arriveAll] at h
      rw [elementTurns_some hs]
      by_cases hbefore : x ∈ t.recv
      · exact .inl hbefore
      right
      rcases ih h with hx | ⟨turn, hturn, hx⟩
      · exact ⟨_, List.mem_cons_self, hbefore, hx⟩
      · exact ⟨turn, List.mem_cons_of_mem _ hturn, hx⟩

/-- A report takes entries out. -/
theorem mem_report {x : TccEntry} (h : x ∈ t.report.1.recv) : x ∈ t.recv := by
  have hrun : ∀ (l : List TccEntry) (w : TccWalk), (TccWalk.run l w).1 ⊆ l := by
    intro l
    induction l with
    | nil => exact fun _ => List.Subset.refl _
    | cons e l ih =>
      intro w
      rw [TccWalk.run]
      split
      · exact List.Subset.refl _
      · split
        · exact List.Subset.refl _
        · exact List.Subset.trans (ih _) (List.subset_cons_self e l)
  unfold report at h
  split at h
  · exact h
  · exact hrun _ _ h

theorem mem_drain {x : TccEntry} (h : x ∈ t.drain.2.recv) : x ∈ t.recv := by
  induction t using drain.induct with
  | case1 t hlen ih =>
    rw [drain, dif_pos hlen] at h
    exact mem_report (ih h)
  | case2 t hlen => rwa [drain, dif_neg hlen] at h

/-- **The turns that change the queue are for elements with the id `m`** exactly if `m` is 4, or
every number of the extension is queued already. -/
theorem turns_mapped_iff :
    (∀ turn ∈ elementTurns now i t es, turn.after.recv ≠ turn.before.recv →
        turn.element.id.setWidth 16 = m) ↔
      m = 4 ∨ ∀ s ∈ es.filterMap elementSeq, t.Queued s := by
  constructor
  · intro h
    by_cases hm : m = 4
    · exact .inl hm
    right
    have hfour {e : RtpExtElement} {s : U16} (hs : elementSeq e = some s) :
        ¬ e.id.setWidth 16 = m := by
      rw [id_of_elementSeq hs]
      exact fun h => hm h.symm
    induction es generalizing i with
    | nil => exact fun s hs => absurd hs List.not_mem_nil
    | cons e es ih =>
      cases hs : elementSeq e with
      | none =>
        rw [elementTurns_none hs] at h
        rw [List.filterMap_cons_none hs]
        exact ih fun turn hturn => h turn (List.mem_cons_of_mem _ hturn)
      | some s =>
        rw [elementTurns_some hs] at h
        have hqueued : t.Queued s := by
          by_contra hnew
          exact hfour hs (h _ List.mem_cons_self (mt arrive_recv_eq_iff.1 hnew))
        rw [arrive_of_queued hqueued] at h
        rw [List.filterMap_cons_some hs, List.forall_mem_cons]
        exact ⟨hqueued, ih fun turn hturn => h turn (List.mem_cons_of_mem _ hturn)⟩
  · rintro (rfl | hqueued) turn hturn hchange
    · obtain ⟨s, hs⟩ := seq_of_mem hturn hchange
      rw [id_of_elementSeq hs]
      rfl
    · exact absurd (congrArg recv (unchanged_of_queued hqueued hturn)) hchange

end Turns
end TransportCc

/-! ### A received packet -/

namespace Reception

open TransportCc

/-- The turns of the loop for a received packet. -/
def turns (clock : Clock) (pkt : RtpPacket) (r : Reception) : List ElementTurn :=
  elementTurns (fun i => clock.steady (r.reads + i)) 0 { r.conn.twcc with mediaSsrc := pkt.ssrc }
    (extElements pkt.extensionData)

/-- Numbers go into the queue only for elements with the id of the transport-wide number. -/
def RecordsMapped (extmaps : List SdpExtmap) (clock : Clock) (pkt : RtpPacket) (r : Reception) :
    Prop :=
  ∀ turn ∈ r.turns clock pkt, turn.after.recv ≠ turn.before.recv →
    turn.element.id.setWidth 16 = extId extmaps RtpTransceiver.transportCcUri

/-- What is queued behind a packet was queued before it, or a turn has put it there. -/
theorem mem_incoming {clock : Clock} {pkt : RtpPacket} {r : Reception} {x : TccEntry}
    (h : x ∈ (r.incoming clock pkt).conn.twcc.recv) :
    x ∈ r.conn.twcc.recv ∨
      ∃ turn ∈ r.turns clock pkt, x ∉ turn.before.recv ∧ x ∈ turn.after.recv :=
  mem_arriveAll (mem_drain h)

/-- **Where only numbers under the negotiated id are taken.**  The description maps the
transport-wide number to 4, or every two bytes under id 4 in the packet are a number that is
queued already. -/
theorem records_mapped_iff (extmaps : List SdpExtmap) (clock : Clock) (pkt : RtpPacket)
    (r : Reception) :
    r.RecordsMapped extmaps clock pkt ↔
      extId extmaps RtpTransceiver.transportCcUri = 4 ∨
        ∀ s ∈ transportSeqs pkt.extensionData, r.conn.twcc.Queued s := by
  rw [transportSeqs_eq]
  exact turns_mapped_iff

/-- A description that maps the mid to 4 and the transport-wide number to 5. -/
def midUnderFour : List SdpExtmap :=
  [{ id := 4, uri := RtpTransceiver.midUri }, { id := 5, uri := RtpTransceiver.transportCcUri }]

/-- A packet with the mid `10`: it is taken for the number 0x3130. -/
theorem mid_recorded : ∃ pkt, RtpPacket.parse
      [0x90, 0, 0, 0, 0, 0, 0, 0, 0, 0, 0, 0, 0xBE, 0xDE, 0, 1, 0x41, 0x31, 0x30, 0, 1, 2, 3] =
        .ok (some pkt) ∧
      ¬ RecordsMapped midUnderFour ⟨fun _ => 0, fun _ => 0⟩ pkt { conn := {} } := by
  refine ⟨{ extension := 1, extensionProfile := 0xBEDE, extensionData := [0x41, 0x31, 0x30, 0],
            payload := [1, 2, 3] }, rfl, fun h => ?_⟩
  have hid := h ⟨{}, ⟨4, [0x31, 0x30]⟩, arrive {} 0x3130 0⟩ List.mem_cons_self (by decide)
  exact absurd hid (by decide)

end Reception
end AsioRtc
