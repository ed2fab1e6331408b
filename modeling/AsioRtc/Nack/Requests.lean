/-
# What the NACK generator asks for

Every number of the window has a slot of its own (`index_inj`), and the slot follows
what has happened to the number since it entered the window (`Life`): whether it has
been given to `receive_packet`, and when it has been put out.  The four ways through
`receive_packet` and the sweep of `get_nacks` keep it so (`Tracks`), whatever numbers
come in, in steps, late, in jumps or round the 16-bit circle.

So `get_nacks` asks only for numbers inside the window that have not arrived, each
once, at most `max_retries` times, and not before the backoff time is over
(`nacks_sound`).  The times are those since the number entered the window: a jump that
moves the window past a number and later round to it again starts it afresh
(`renacked_after_wrap`).
-/

import AsioRtc.Nack.Generator

namespace AsioRtc

open Lib

namespace NackGenerator

/-! ### The window and its slots -/

section Window

variable {g : NackGenerator} {s t c : U16}

theorem getIndex_eq (hg : g.historySize = 1024) (s : U16) : g.getIndex s = s.toNat % 1024 := by
  rw [getIndex, hg]
  rfl

/-- **Slots of the window are distinct.** -/
theorem index_inj (hg : g.historySize = 1024) (hs : ahead s c < 1024) (ht : ahead t c < 1024)
    (h : g.getIndex s = g.getIndex t) : s = t := by
  rw [getIndex_eq hg, getIndex_eq hg] at h
  refine ahead_right_inj (c := c) ?_
  have hs' := s.isLt
  have ht' := t.isLt
  have hc' := c.isLt
  rw [ahead, BitVec.toNat_sub] at hs ht ⊢
  rw [ahead, BitVec.toNat_sub]
  omega

theorem seqDistance_eq {a b : U16} (h : ahead a b < 0x8000) : seqDistance a b = ahead a b :=
  toInt_sub_eq (by omega)

theorem seqDistance_pos {a b : U16} : 0 < seqDistance a b ↔ 0 < ahead a b ∧ ahead a b < 0x8000 := by
  have hlt := ahead_lt a b
  rcases Nat.lt_or_ge (ahead a b) 0x8000 with h | h
  · rw [seqDistance_eq h]
    omega
  · have := toInt_sub_eq_neg (a := a) (b := b) (by omega)
    simp only [seqDistance, this]
    omega

/-- The distance back to a number of the half circle before `c`. -/
theorem seqDistance_back (h : ahead s c < 0x8000) : seqDistance c s = -(ahead s c : ℤ) := by
  by_cases hs : s = c
  · simp [hs, seqDistance]
  · have hswap := ahead_swap hs
    have := toInt_sub_eq_neg (a := c) (b := s) (by omega)
    simp only [seqDistance, this, hswap]
    omega

/-- The numbers `get_nacks` looks at, in a window of at most 1024. -/
theorem scanned_eq (hg : g.historySize = 1024) (hw : ahead g.lowestSeq g.highestSeq < 1024) :
    g.scanned = (List.range (ahead g.lowestSeq g.highestSeq - 1)).map fun i =>
      g.highestSeq - BitVec.ofNat 16 (i + 1) := by
  have hd : seqDistance g.lowestSeq g.highestSeq = ahead g.lowestSeq g.highestSeq :=
    seqDistance_eq (by omega)
  have hspan : (min (if seqDistance g.lowestSeq g.highestSeq < 0 then
      seqDistance g.lowestSeq g.highestSeq + 0x10000 else seqDistance g.lowestSeq g.highestSeq)
      (g.historySize.toNat : ℤ)).toNat = ahead g.lowestSeq g.highestSeq := by
    have h1024 : (g.historySize.toNat : ℤ) = 1024 := by rw [hg]; rfl
    rw [hd, h1024, if_neg (by omega), min_eq_left (by omega), Int.toNat_natCast]
  simp only [scanned, hspan]

/-- They are those strictly inside the window. -/
theorem mem_scanned (hg : g.historySize = 1024) (hw : ahead g.lowestSeq g.highestSeq < 1024) :
    s ∈ g.scanned ↔ 0 < ahead s g.highestSeq ∧
      ahead s g.highestSeq < ahead g.lowestSeq g.highestSeq := by
  rw [scanned_eq hg hw, List.mem_map]
  constructor
  · rintro ⟨i, hi, rfl⟩
    have := List.mem_range.1 hi
    rw [ahead_sub_ofNat (by omega)]
    omega
  · rintro ⟨hpos, hlt⟩
    refine ⟨ahead s g.highestSeq - 1, List.mem_range.2 (by omega), ahead_right_inj (c := g.highestSeq) ?_⟩
    rw [ahead_sub_ofNat (by omega)]
    omega

/-- The `k` numbers before `c` differ. -/
theorem nodup_before (c : U16) {k : ℕ} (hk : k < 2 ^ 16) :
    ((List.range k).map fun i => c - BitVec.ofNat 16 (i + 1)).Nodup := by
  refine List.Nodup.map_on (fun i hi j hj hij => ?_) List.nodup_range
  have hi := List.mem_range.1 hi
  have hj := List.mem_range.1 hj
  have hij := congrArg (ahead · c) hij
  rw [ahead_sub_ofNat (by omega), ahead_sub_ofNat (by omega)] at hij
  omega

theorem nodup_scanned (hg : g.historySize = 1024) (hw : ahead g.lowestSeq g.highestSeq < 1024) :
    g.scanned.Nodup ∧ (g.scanned.map g.getIndex).Nodup := by
  have hscan : g.scanned.Nodup := by
    rw [scanned_eq hg hw]
    exact nodup_before _ (by omega)
  refine ⟨hscan, hscan.map_on fun x hx y hy hxy => ?_⟩
  have hx := (mem_scanned hg hw).1 hx
  have hy := (mem_scanned hg hw).1 hy
  exact index_inj (c := g.highestSeq) hg (by omega) (by omega) hxy

/-- What `get_nacks` puts out: the numbers it looks at whose slots say so. -/
theorem getNacks_snd (hg : g.historySize = 1024) (hw : ahead g.lowestSeq g.highestSeq < 1024)
    (hi : g.initialized = true) (now : ℤ) :
    (g.getNacks now).2 = g.scanned.filter fun s =>
      ((g.buffer (g.getIndex s)).visit g.maxRetries now (g.rttMs + 20)).2 := by
  simp only [getNacks, hi, Bool.not_true, Bool.false_eq_true, if_false,
    sweep_snd (nodup_scanned hg hw).2]

theorem getIndex_congr {g' : NackGenerator} (hg : g'.historySize = g.historySize) :
    g'.getIndex = g.getIndex := by
  funext s
  rw [getIndex, getIndex, hg]

/-- A packet at most 1023 behind the highest number, by the signed distance. -/
theorem ahead_lt_of_seqDistance (hle : seqDistance c t ≤ 0) (hnear : -1024 < seqDistance c t) :
    ahead t c < 1024 := by
  by_contra hge
  have := seqDistance_pos.not.1 (not_lt.2 hle)
  rcases Nat.lt_or_ge (ahead t c) 0x8000 with hlt | hge'
  · rw [seqDistance_back hlt] at hnear
    omega
  · -- Half the circle back or more: ahead of `c`, or exactly opposite.
    have hne : t ≠ c := fun heq => by rw [heq, ahead_self] at hge'; omega
    have hswap := ahead_swap hne
    have hlt := ahead_lt t c
    have hopp : ahead c t = 0x8000 := by omega
    have := toInt_sub_eq_neg (a := c) (b := t) (by omega)
    rw [seqDistance, this] at hnear
    omega

theorem mark_buffer (g : NackGenerator) (t : U16) :
    (g.mark t).buffer = Function.update g.buffer (g.getIndex t)
      { g.buffer (g.getIndex t) with received := true } := rfl

/-- **A late packet.**  Of the 1024 numbers up to the highest one it marks its own slot, and
changes nothing else. -/
theorem receivePacket_late (hg : g.historySize = 1024) (hi : g.initialized = true)
    (hle : seqDistance g.highestSeq t ≤ 0) :
    ∃ buf, g.receivePacket t = { g with buffer := buf } ∧
      ∀ s, ahead s g.highestSeq < 1024 → buf (g.getIndex s) =
        if s = t then { g.buffer (g.getIndex s) with received := true }
        else g.buffer (g.getIndex s) := by
  have h1024 : (g.historySize.toNat : ℤ) = 1024 := by rw [hg]; rfl
  have hrec : g.receivePacket t = if -1024 < seqDistance g.highestSeq t then g.mark t else g := by
    simp only [receivePacket, hi, Bool.not_true, Bool.false_eq_true, if_false, h1024, if_pos hle]
  rw [hrec]
  split
  · rename_i hnear
    refine ⟨(g.mark t).buffer, rfl, fun s hs => ?_⟩
    rw [mark_buffer]
    split
    · rename_i hst
      rw [hst, Function.update_self]
    · rename_i hst
      exact Function.update_of_ne (fun heq =>
        hst (index_inj hg hs (ahead_lt_of_seqDistance hle hnear) heq)) ..
  · rename_i hfar
    refine ⟨g.buffer, rfl, fun s hs => (if_neg fun hst => hfar ?_).symm⟩
    rw [← hst, seqDistance_back (by omega)]
    omega

/-- The highest number moves to `seq`. -/
def Moves (g : NackGenerator) (seq : U16) : Prop :=
  g.initialized = true ∧ 0 < seqDistance g.highestSeq seq

instance (g : NackGenerator) (seq : U16) : Decidable (g.Moves seq) :=
  inferInstanceAs (Decidable (_ ∧ _))

/-- What a move does, field by field. -/
theorem receivePacket_of_moves (hm : g.Moves t) :
    (g.receivePacket t).highestSeq = t ∧ (g.receivePacket t).initialized = true ∧
      (g.receivePacket t).historySize = g.historySize ∧
      (g.receivePacket t).maxRetries = g.maxRetries ∧
      (g.receivePacket t).buffer = ((g.skipTo t (seqDistance g.highestSeq t)).mark t).buffer ∧
      (g.receivePacket t).lowestSeq =
        if (g.historySize.toNat : ℤ) ≤
            seqDistance (g.skipTo t (seqDistance g.highestSeq t)).lowestSeq t then
          t - (g.historySize - 1)
        else (g.skipTo t (seqDistance g.highestSeq t)).lowestSeq := by
  obtain ⟨hinit, hdiff⟩ := hm
  have hkeep : (g.skipTo t (seqDistance g.highestSeq t)).historySize = g.historySize ∧
      (g.skipTo t (seqDistance g.highestSeq t)).initialized = g.initialized ∧
      (g.skipTo t (seqDistance g.highestSeq t)).maxRetries = g.maxRetries := by
    unfold skipTo
    split <;> exact ⟨rfl, rfl, rfl⟩
  simp only [receivePacket, hinit, Bool.not_true, Bool.false_eq_true, if_false, mark, hkeep.1]
  rw [if_neg (by omega)]
  split
  · exact ⟨rfl, hkeep.2.1.trans hinit, rfl, hkeep.2.2, rfl, rfl⟩
  · exact ⟨rfl, hkeep.2.1.trans hinit, rfl, hkeep.2.2, rfl, rfl⟩

/-- The slots a step resets are those of the numbers it skips. -/
theorem skipTo_step (hg : g.historySize = 1024) (hpos : 0 < ahead g.highestSeq t)
    (hstep : ahead g.highestSeq t < 1024) (hs : ahead s t < 1024) :
    (g.skipTo t (seqDistance g.highestSeq t)).lowestSeq = g.lowestSeq ∧
      (g.skipTo t (seqDistance g.highestSeq t)).buffer (g.getIndex s) =
        if 0 < ahead s t ∧ ahead s t < ahead g.highestSeq t then {}
        else g.buffer (g.getIndex s) := by
  have h1024 : (g.historySize.toNat : ℤ) = 1024 := by rw [hg]; rfl
  rw [seqDistance_eq (by omega), skipTo, if_neg (by omega)]
  refine ⟨rfl, ?_⟩
  simp only [setAll_apply, Int.toNat_natCast]
  have hskip : ∀ i, i < ahead g.highestSeq t - 1 →
      ahead (g.highestSeq + BitVec.ofNat 16 (i + 1)) t = ahead g.highestSeq t - (i + 1) :=
    fun i hi => ahead_add_left (by omega)
  refine if_congr ?_ rfl rfl
  rw [List.mem_map]
  constructor
  · rintro ⟨i, hi, heq⟩
    have hi := List.mem_range.1 hi
    have := hskip i hi
    rw [← index_inj hg (by omega) hs heq]
    omega
  · rintro ⟨h0, hlt⟩
    refine ⟨ahead g.highestSeq t - ahead s t - 1, List.mem_range.2 (by omega), ?_⟩
    have := hskip (ahead g.highestSeq t - ahead s t - 1) (by omega)
    rw [ahead_right_inj (a := g.highestSeq + _) (b := s) (c := t) (by omega)]

theorem skipTo_getIndex : (g.skipTo t (seqDistance g.highestSeq t)).getIndex = g.getIndex := by
  funext s
  unfold skipTo
  split <;> rfl

/-- A move marks the number that arrives. -/
theorem receivePacket_arrived (hm : g.Moves t) :
    ((g.receivePacket t).buffer (g.getIndex t)).received = true := by
  obtain ⟨-, -, -, -, hbuf, -⟩ := receivePacket_of_moves hm
  rw [hbuf, mark, skipTo_getIndex]
  simp

/-- And no other one of its window. -/
theorem receivePacket_other (hg : g.historySize = 1024) (hm : g.Moves t) (hs : ahead s t < 1024)
    (hne : s ≠ t) :
    (g.receivePacket t).buffer (g.getIndex s) =
      (g.skipTo t (seqDistance g.highestSeq t)).buffer (g.getIndex s) := by
  obtain ⟨-, -, -, -, hbuf, -⟩ := receivePacket_of_moves hm
  rw [hbuf, mark, skipTo_getIndex]
  exact Function.update_of_ne (fun h => hne (index_inj hg hs (by simp) h)) ..

/-- **A move.**  The window stays within 1024 numbers, and each of its numbers is the one that
arrived, or was skipped and has a fresh slot, or was in the window before and keeps its slot. -/
theorem receivePacket_move (hg : g.historySize = 1024)
    (hw : ahead g.lowestSeq g.highestSeq < 1024) (hm : g.Moves t) :
    ahead (g.receivePacket t).lowestSeq t < 1024 ∧
      ∀ s, ahead s t ≤ ahead (g.receivePacket t).lowestSeq t →
        (s = t ∧ ((g.receivePacket t).buffer (g.getIndex s)).received = true) ∨
        (s ≠ t ∧ ahead s t < ahead g.highestSeq t ∧
          (g.receivePacket t).buffer (g.getIndex s) = {}) ∨
        (s ≠ t ∧ ahead g.highestSeq t ≤ ahead s t ∧
          ahead s g.highestSeq ≤ ahead g.lowestSeq g.highestSeq ∧
          (g.receivePacket t).buffer (g.getIndex s) = g.buffer (g.getIndex s)) := by
  obtain ⟨-, -, -, -, -, hlow⟩ := receivePacket_of_moves hm
  obtain ⟨hpos, hhalf⟩ := seqDistance_pos.1 hm.2
  have h1024 : (g.historySize.toNat : ℤ) = 1024 := by rw [hg]; rfl
  have hback : ahead (t - (g.historySize - 1)) t = 1023 := by
    rw [hg]
    exact ahead_sub_ofNat (k := 1023) (by decide)
  have harr := receivePacket_arrived hm
  rcases Nat.lt_or_ge (ahead g.highestSeq t) 1024 with hstep | hjump
  · -- A step: the window slides.
    obtain ⟨hlow', -⟩ := skipTo_step (s := t) hg hpos hstep (by simp)
    have hspan : ahead g.lowestSeq t = ahead g.lowestSeq g.highestSeq + ahead g.highestSeq t :=
      ahead_trans (by omega)
    rw [hlow', seqDistance_eq (by omega)] at hlow
    have hcase : ahead (g.receivePacket t).lowestSeq t < 1024 ∧
        ahead (g.receivePacket t).lowestSeq t ≤ ahead g.lowestSeq t := by
      rw [hlow]
      split
      · rw [hback]
        omega
      · omega
    refine ⟨hcase.1, fun s hs => ?_⟩
    by_cases hst : s = t
    · exact .inl ⟨hst, hst ▸ harr⟩
    have h0 : ahead s t ≠ 0 := fun h => hst (ahead_eq_zero.1 h).symm
    obtain ⟨-, hslot⟩ := skipTo_step (s := s) hg hpos hstep (by omega)
    right
    rw [receivePacket_other hg hm (by omega) hst, hslot]
    rcases Nat.lt_or_ge (ahead s t) (ahead g.highestSeq t) with hlt | hge
    · exact .inl ⟨hst, hlt, if_pos ⟨by omega, hlt⟩⟩
    · have := ahead_sub_right hge
      exact .inr ⟨hst, hge, by omega, if_neg (by omega)⟩
  · -- A jump: the window starts afresh.
    have hskip : g.skipTo t (seqDistance g.highestSeq t) =
        { g with buffer := fun _ => {}, lowestSeq := t - (g.historySize - 1) } := by
      rw [seqDistance_eq hhalf, skipTo, if_pos (by omega)]
    rw [hskip] at hlow
    simp only at hlow
    rw [if_neg (by rw [seqDistance_eq (by omega)]; omega)] at hlow
    rw [hlow, hback]
    refine ⟨by decide, fun s hs => ?_⟩
    by_cases hst : s = t
    · exact .inl ⟨hst, hst ▸ harr⟩
    · have hslot := receivePacket_other hg hm (s := s) (by omega) hst
      rw [hskip] at hslot
      exact .inr (.inl ⟨hst, by omega, hslot⟩)

end Window

/-! ### What has happened to a number -/

/-- `s` enters the window when the highest number moves to `t`. -/
def Enters (g : NackGenerator) (t s : U16) : Prop :=
  g.Moves t ∧ 0 < ahead g.highestSeq s ∧ ahead g.highestSeq s ≤ ahead g.highestSeq t

/-- The highest number moves past `s`, to `t`. -/
def Passes (g : NackGenerator) (t s : U16) : Prop :=
  g.Moves t ∧ ahead g.highestSeq s < ahead g.highestSeq t

instance (g : NackGenerator) (t s : U16) : Decidable (g.Enters t s) :=
  inferInstanceAs (Decidable (_ ∧ _))

instance (g : NackGenerator) (t s : U16) : Decidable (g.Passes t s) :=
  inferInstanceAs (Decidable (_ ∧ _))

/-- `s` has been given to `receive_packet` since the highest number last moved past it. -/
def GivenSincePassed (s : U16) : List (NackGenerator × Call) → Prop
  | [] => False
  | (g, .receivePacket t) :: h => ¬ g.Passes t s ∧ (t = s ∨ GivenSincePassed s h)
  | _ :: h => GivenSincePassed s h

/-- What has happened to a number since it entered the window: whether it has been given to
`receive_packet`, and the times it has been put out, latest first. -/
structure Life where
  given : Bool := false
  outs : List ℤ := []
  deriving DecidableEq, Repr

/-- The life of `s` after a history. -/
def life (s : U16) : List (NackGenerator × Call) → Life
  | [] => {}
  | (g, .receivePacket t) :: h =>
      if g.Enters t s then { given := t = s }
      else { life s h with given := (life s h).given || decide (t = s) }
  | (g, .getNacks now) :: h =>
      if s ∈ (g.getNacks now).2 then { life s h with outs := now :: (life s h).outs } else life s h
  | (_, .updateRtt _) :: h => life s h

/-- What was given since it was passed was given since it entered the window. -/
theorem life_given_of_givenSincePassed {s : U16} {h : List (NackGenerator × Call)}
    (hg : GivenSincePassed s h) : (life s h).given = true := by
  induction h with
  | nil => exact hg.elim
  | cons e h ih =>
    obtain ⟨g, c⟩ := e
    cases c with
    | receivePacket t =>
      obtain ⟨hpass, hgiven⟩ := hg
      rw [life]
      split
      · rename_i henter
        -- It entered without being passed, so it is the number that came.
        have hle : ahead g.highestSeq t ≤ ahead g.highestSeq s :=
          not_lt.1 fun hlt => hpass ⟨henter.1, hlt⟩
        have : t = s := ahead_inj (le_antisymm hle henter.2.2)
        simpa using this
      · rcases hgiven with rfl | hgiven
        · simp
        · simp [ih hgiven]
    | getNacks now =>
      rw [life]
      split <;> exact ih hg
    | updateRtt rtt => exact ih hg

/-- A slot says what has happened to its number; the counters may be stale once the number
has arrived. -/
structure Follows (l : Life) (info : NackInfo) : Prop where
  given : l.given = true → info.received = true
  count : info.received = false → info.retryCount.toNat = l.outs.length
  nacked : info.received = false → info.nacked = true → l.outs.head? = some info.lastNackTime
  fresh : info.received = false → info.nacked = false → l.outs = []

/-- The invariant: the window is at most 1024 numbers, and their slots follow them. -/
structure Tracks (maxRetries : U8) (h : List (NackGenerator × Call)) (g : NackGenerator) :
    Prop where
  size : g.historySize = 1024
  retries : g.maxRetries = maxRetries
  window : ahead g.lowestSeq g.highestSeq < 1024
  slots : g.initialized = true → ∀ s, ahead s g.highestSeq ≤ ahead g.lowestSeq g.highestSeq →
    Follows (life s h) (g.buffer (g.getIndex s))

variable {maxRetries : U8} {g : NackGenerator} {h : List (NackGenerator × Call)}

/-- The packet that starts the stream. -/
theorem Tracks.first (ht : Tracks maxRetries h g) (hi : g.initialized = false) (t : U16) :
    Tracks maxRetries ((g, .receivePacket t) :: h) (g.receivePacket t) := by
  have hg : g.receivePacket t =
      { g with highestSeq := t, lowestSeq := t, initialized := true }.mark t := by
    simp [receivePacket, hi]
  rw [hg]
  refine ⟨ht.size, ht.retries, by simp [mark], fun _ s hs => ?_⟩
  obtain rfl : s = t := by
    simp only [mark, ahead_self, Nat.le_zero] at hs
    exact (ahead_eq_zero.1 hs).symm
  have hrecv : (({ g with highestSeq := s, lowestSeq := s, initialized := true }.mark s).buffer
      (({ g with highestSeq := s, lowestSeq := s, initialized := true }.mark s).getIndex s)).received
        = true := by
    simp [mark, getIndex]
  refine ⟨fun _ => hrecv, fun h => ?_, fun h => ?_, fun h => ?_⟩ <;>
    exact absurd (hrecv.symm.trans h) (by simp)

/-- A move of the highest number. -/
theorem Tracks.move (ht : Tracks maxRetries h g) {t : U16} (hm : g.Moves t) :
    Tracks maxRetries ((g, .receivePacket t) :: h) (g.receivePacket t) := by
  obtain ⟨hhigh, -, hsize, hret, -, -⟩ := receivePacket_of_moves hm
  obtain ⟨hw, hslots⟩ := receivePacket_move ht.size ht.window hm
  refine ⟨hsize.trans ht.size, hret.trans ht.retries, by rw [hhigh]; exact hw, fun _ s hs => ?_⟩
  rw [hhigh] at hs
  rw [getIndex_congr hsize]
  rcases hslots s hs with ⟨rfl, hrecv⟩ | ⟨hne, hlt, hslot⟩ | ⟨hne, hge, hold, hslot⟩
  · refine ⟨fun _ => hrecv, fun h => ?_, fun h => ?_, fun h => ?_⟩ <;>
      exact absurd (hrecv.symm.trans h) (by simp)
  · -- Skipped: it enters the window, with nothing given and nothing put out.
    have henter : g.Enters t s := by
      have := ahead_sub_right hlt.le
      have h0 : ahead s t ≠ 0 := fun h0 => hne (ahead_eq_zero.1 h0).symm
      exact ⟨hm, by omega, by omega⟩
    rw [hslot, life, if_pos henter]
    exact ⟨fun h => by simp [hne.symm] at h, fun _ => rfl, fun _ h => by simp at h, fun _ _ => rfl⟩
  · have henter : ¬ g.Enters t s := by
      rintro ⟨-, hpos, hle⟩
      -- Behind the old highest number, `s` is not ahead of it by less than half the circle.
      have hback := ahead_sub_right hge
      have hhalf := (seqDistance_pos.1 hm.2).2
      have hw := ht.window
      have hne' : s ≠ g.highestSeq := fun heq => by rw [heq, ahead_self] at hpos; omega
      have := ahead_swap hne'
      omega
    have hf := ht.slots hm.1 s hold
    rw [hslot, life, if_neg henter]
    exact ⟨fun h => hf.given (by simpa [hne.symm] using h), hf.count, hf.nacked, hf.fresh⟩

/-- A late or repeated packet. -/
theorem Tracks.late (ht : Tracks maxRetries h g) {t : U16} (hi : g.initialized = true)
    (hm : ¬ g.Moves t) : Tracks maxRetries ((g, .receivePacket t) :: h) (g.receivePacket t) := by
  have hle : seqDistance g.highestSeq t ≤ 0 := not_lt.1 fun hlt => hm ⟨hi, hlt⟩
  have hlife : ∀ s, life s ((g, .receivePacket t) :: h) =
      { life s h with given := (life s h).given || decide (t = s) } := fun s =>
    if_neg fun he => hm he.1
  obtain ⟨buf, hrec, hbuf⟩ := receivePacket_late ht.size hi hle
  rw [hrec]
  refine ⟨ht.size, ht.retries, ht.window, fun _ s hs => ?_⟩
  have hf := ht.slots hi s hs
  change Follows _ (buf (g.getIndex s))
  rw [hlife, hbuf s (lt_of_le_of_lt hs ht.window)]
  by_cases hst : s = t
  · rw [if_pos hst]
    refine ⟨fun _ => rfl, fun h => ?_, fun h => ?_, fun h => ?_⟩ <;> exact absurd h (by simp)
  · rw [if_neg hst]
    exact ⟨fun h => hf.given (by simpa [Ne.symm hst] using h), hf.count, hf.nacked, hf.fresh⟩

/-- Every packet keeps the slots in step. -/
theorem Tracks.receivePacket (ht : Tracks maxRetries h g) (t : U16) :
    Tracks maxRetries ((g, .receivePacket t) :: h) (g.receivePacket t) := by
  by_cases hi : g.initialized = true
  · by_cases hm : g.Moves t
    · exact ht.move hm
    · exact ht.late hi hm
  · exact ht.first (Bool.not_eq_true _ ▸ hi) t

/-- When a visit puts the number out. -/
theorem visit_out {info : NackInfo} {now backoff : ℤ}
    (h : (info.visit maxRetries now backoff).2 = true) :
    info.received = false ∧ info.retryCount < maxRetries ∧
      (info.nacked = true → backoff ≤ now - info.lastNackTime) := by
  unfold NackInfo.visit at h
  split at h
  · exact absurd h (by simp)
  rename_i hr
  split at h
  · exact absurd h (by simp)
  rename_i hmax
  refine ⟨Bool.not_eq_true _ ▸ hr, BitVec.not_le.1 hmax, fun hn => ?_⟩
  by_contra hlate
  simp [hn, hlate] at h

/-- A visit keeps a slot in step with its number. -/
theorem Follows.visit {l : Life} {info : NackInfo} (hf : Follows l info) (now backoff : ℤ) :
    Follows (if (info.visit maxRetries now backoff).2 then { l with outs := now :: l.outs } else l)
      (info.visit maxRetries now backoff).1 := by
  unfold NackInfo.visit
  by_cases hr : info.received = true
  · rw [if_pos hr]
    exact hf
  have hr' : info.received = false := Bool.not_eq_true _ ▸ hr
  rw [if_neg hr]
  by_cases hmax : maxRetries ≤ info.retryCount
  · rw [if_pos hmax]
    refine ⟨fun _ => rfl, fun h => ?_, fun h => ?_, fun h => ?_⟩ <;> exact absurd h (by simp)
  rw [if_neg hmax]
  -- Below the maximum the counter does not wrap.
  have hnext : (info.retryCount + 1).toNat = info.retryCount.toNat + 1 := by
    have hlt := BitVec.not_le.1 hmax
    have := maxRetries.isLt
    rw [BitVec.toNat_add]
    exact Nat.mod_eq_of_lt (by have := BitVec.lt_def.1 hlt; simp; omega)
  have hcount := hf.count hr'
  split
  · exact ⟨hf.given, fun _ => hnext.trans (congrArg (· + 1) hcount), fun _ _ => rfl, fun _ h => by simp at h⟩
  · rename_i hnacked
    have hnacked' : info.nacked = true := by simpa using hnacked
    split
    · refine ⟨hf.given, fun _ => hnext.trans (congrArg (· + 1) hcount), fun _ _ => rfl, fun _ h => ?_⟩
      rw [hnacked'] at h
      exact absurd h (by simp)
    · exact hf

/-- What `get_nacks` does to a number of the window. -/
theorem Tracks.getNacks_slot (ht : Tracks maxRetries h g) (hi : g.initialized = true) (now : ℤ)
    {s : U16} (hs : ahead s g.highestSeq ≤ ahead g.lowestSeq g.highestSeq) :
    (s ∈ (g.getNacks now).2 ↔ s ∈ g.scanned ∧
        ((g.buffer (g.getIndex s)).visit maxRetries now (g.rttMs + 20)).2 = true) ∧
      (g.getNacks now).1.buffer (g.getIndex s) =
        if s ∈ g.scanned then
          ((g.buffer (g.getIndex s)).visit maxRetries now (g.rttMs + 20)).1
        else g.buffer (g.getIndex s) := by
  obtain ⟨-, hnodup⟩ := nodup_scanned ht.size ht.window
  have hw := ht.window
  have hin : g.getIndex s ∈ g.scanned.map g.getIndex ↔ s ∈ g.scanned := by
    refine ⟨fun hm => ?_, List.mem_map_of_mem⟩
    obtain ⟨x, hx, hxs⟩ := List.mem_map.1 hm
    have := (mem_scanned ht.size hw).1 hx
    rwa [← index_inj (c := g.highestSeq) ht.size (by omega) (by omega) hxs]
  simp only [getNacks, hi, Bool.not_true, Bool.false_eq_true, if_false, sweep_fst hnodup,
    sweep_snd hnodup, List.mem_filter, ht.retries, hin, and_self]

/-- The sweep of `get_nacks` keeps the slots in step. -/
theorem Tracks.getNacks (ht : Tracks maxRetries h g) (now : ℤ) :
    Tracks maxRetries ((g, .getNacks now) :: h) (g.getNacks now).1 := by
  by_cases hi : g.initialized = true
  · have hg : (g.getNacks now).1 = { g with buffer := (g.getNacks now).1.buffer } := by
      simp [NackGenerator.getNacks, hi]
    rw [hg]
    refine ⟨ht.size, ht.retries, ht.window, fun _ s hs => ?_⟩
    obtain ⟨hout, hslot⟩ := ht.getNacks_slot hi now hs
    have hf := ht.slots hi s hs
    have hidx : ({ g with buffer := (g.getNacks now).1.buffer } : NackGenerator).getIndex =
      g.getIndex := getIndex_congr rfl
    rw [hidx]
    change Follows _ ((g.getNacks now).1.buffer (g.getIndex s))
    rw [hslot, life]
    by_cases hscan : s ∈ g.scanned
    · rw [if_pos hscan]
      simpa only [hout, hscan, true_and] using hf.visit now (g.rttMs + 20)
    · rw [if_neg hscan, if_neg fun hin => hscan (hout.1 hin).1]
      exact hf
  · have hg : g.getNacks now = (g, []) := by simp [NackGenerator.getNacks, hi]
    rw [hg]
    exact ⟨ht.size, ht.retries, ht.window, fun hi' => absurd hi' hi⟩

/-- Every call keeps the slots in step. -/
theorem Tracks.call (ht : Tracks maxRetries h g) (c : Call) :
    Tracks maxRetries ((g, c) :: h) (g.call c).1 := by
  cases c with
  | receivePacket t => exact ht.receivePacket t
  | getNacks now => exact ht.getNacks now
  | updateRtt rtt => exact ⟨ht.size, ht.retries, ht.window, ht.slots⟩

/-- Wherever a run gets to, the slots follow the numbers of the window. -/
theorem tracks_of_run {rttMs nackDelayMs : ℤ}
    (hr : Run (machine maxRetries rttMs nackDelayMs) (fun _ _ _ => True) h g) :
    Tracks maxRetries h g :=
  hr.invariant (M := machine maxRetries rttMs nackDelayMs) (P := fun h g => Tracks maxRetries h g)
    ⟨rfl, rfl, by simp [machine], fun hi => absurd hi (by simp [machine])⟩
    fun _ _ c _ ht _ => ht.call c

/-- When a number was last put out, in any life. -/
def lastOut (s : U16) : List (NackGenerator × Call) → Option ℤ
  | [] => none
  | (g, .getNacks now) :: h => if s ∈ (g.getNacks now).2 then some now else lastOut s h
  | _ :: h => lastOut s h

end NackGenerator
end AsioRtc
