/-
# The jitter estimate in `int`

The second half of `track_packet` in `src/ssrc_context.hpp`.  The transit time of a packet is
its arrival less its RTP time, both in ticks of 90 kHz, and `_jitter_q4` is sixteen times a
running mean of how much it changes.  The two differences wrap, but their own difference and
the estimate are an `int`: `jitterInt` is the computation operation by operation, undefined
where one of them leaves the type.

The peer chooses the RTP times, so the change of the transit time is anything up to `2^32`.
`callInt_eq` is one call: it is defined exactly where the packet leaves room (`LeavesRoom`),
and there it is what `trackJitter` computes in integers.  `jitter_sound_iff` is a run, and
`leaveRoom_of_transit` says that changes below `2^27` ticks, 24 minutes, are never too much.
-/

import AsioRtc.Ssrc.Lost

namespace AsioRtc

open Lib

/-- The value of an `int` expression, where it is one. -/
def int32 (x : ℤ) : Option ℤ := if -2 ^ 31 ≤ x ∧ x < 2 ^ 31 then some x else none

/-- `if (x < 0) x = -x`. -/
def absInt (x : ℤ) : Option ℤ := if x < 0 then int32 (-x) else some x

section Int32

variable {x : ℤ}

theorem int32_ok (h : -2 ^ 31 ≤ x ∧ x < 2 ^ 31) : int32 x = some x := if_pos h

theorem int32_none (h : ¬ (-2 ^ 31 ≤ x ∧ x < 2 ^ 31)) : int32 x = none := if_neg h

/-- A difference that is made positive: `-2^31` has no negative. -/
theorem int32_abs (x : ℤ) :
    (int32 x >>= absInt) = if |x| < 2 ^ 31 then some |x| else none := by
  rcases abs_cases x with ⟨habs, hsign⟩ | ⟨habs, hsign⟩
  · rw [habs]
    split
    · rw [int32_ok (by omega), Option.bind_eq_bind, Option.bind_some, absInt, if_neg (by omega)]
    · rw [int32_none (by omega)]
      rfl
  · rw [habs]
    by_cases hlow : -2 ^ 31 ≤ x
    · rw [int32_ok (by omega), Option.bind_eq_bind, Option.bind_some, absInt, if_pos hsign]
      split
      · exact int32_ok (by omega)
      · exact int32_none (by omega)
    · rw [int32_none (by omega), if_neg (by omega)]
      rfl

end Int32

namespace SsrcContext

/-- How much the transit time has changed since the last packet. -/
def transit (c : SsrcContext) (rtpTs : U32) (now : ℤ) : ℤ :=
  (arrivalTs now - c.lastArrivalTs).toInt - (rtpTs - c.lastRtpTs).toInt

/-- `_jitter_q4` after a packet. -/
def jitterInt (c : SsrcContext) (rtpTs : U32) (now : ℤ) : Option ℤ :=
  if c.lastArrivalTs ≠ 0 then do
    let transit ← int32 (c.transit rtpTs now)
    let transit ← absInt transit
    let old ← int32 (c.jitterQ4 + 8)
    let change ← int32 (transit - old / 16)
    int32 (c.jitterQ4 + change)
  else some c.jitterQ4

/-- `track_packet`, with the jitter in `int`. -/
def trackPacketInt (c : SsrcContext) (seq : U16) (rtpTs : U32) (now : ℤ) : Option SsrcContext := do
  let c := c.trackSeq seq
  let jitter ← c.jitterInt rtpTs now
  some { c with jitterQ4 := jitter, lastArrivalTs := arrivalTs now, lastRtpTs := rtpTs }

/-- One call. -/
def callInt (c : SsrcContext) : Call → Option SsrcContext
  | .trackPacket n rtpTs now => c.trackPacketInt (BitVec.ofInt 16 n) rtpTs now
  | .recordSr ntpTs now => some (c.recordSr ntpTs now)
  | .advancePrior => some c.advancePrior

/-- What the estimate keeps of itself leaves room for the change of the transit time. -/
def LeavesRoom (c : SsrcContext) : Call → Prop
  | .trackPacket _ rtpTs now =>
      c.lastArrivalTs ≠ 0 → c.jitterQ4 ≤ 2 ^ 31 - 9 ∧
        |c.transit rtpTs now| < 2 ^ 31 - (c.jitterQ4 - (c.jitterQ4 + 8) / 16)
  | _ => True

instance (c : SsrcContext) (e : Call) : Decidable (c.LeavesRoom e) :=
  match e with
  | .trackPacket _ _ _ => inferInstanceAs (Decidable (_ → _))
  | .recordSr _ _ => inferInstanceAs (Decidable True)
  | .advancePrior => inferInstanceAs (Decidable True)

/-- Every call leaves room, in the state it is made in. -/
def AllLeaveRoom : SsrcContext → List Call → Prop
  | _, [] => True
  | c, e :: es => c.LeavesRoom e ∧ AllLeaveRoom (c.call e) es

/-- `_jitter_q4` is not negative, and `jitter_q4() >> 4` is the field of a report. -/
structure JitterFits (c : SsrcContext) : Prop where
  nonneg : 0 ≤ c.jitterQ4
  lt : c.jitterQ4 < 2 ^ 31
  field : ∀ dlsr, ((c.reportBlock dlsr).jitter.toNat : ℤ) = c.jitterQ4 / 16

/-- After any number of the calls nothing has overflowed, and the estimate fits. -/
def JitterSound (c : SsrcContext) (calls : List Call) : Prop :=
  ∀ before, before <+: calls → ∃ c', before.foldlM callInt c = some c' ∧ c'.JitterFits

/-! ### One packet -/

section Packet

variable {c : SsrcContext} {rtpTs : U32} {now : ℤ}

theorem jitterFits_iff : c.JitterFits ↔ 0 ≤ c.jitterQ4 ∧ c.jitterQ4 < 2 ^ 31 := by
  refine ⟨fun h => ⟨h.nonneg, h.lt⟩, fun ⟨h0, hlt⟩ => ⟨h0, hlt, fun dlsr => ?_⟩⟩
  rw [reportBlock, BitVec.toNat_ofInt]
  omega

theorem trackJitter_jitterQ4 (c : SsrcContext) (rtpTs : U32) (now : ℤ) :
    (c.trackJitter rtpTs now).jitterQ4 =
      if c.lastArrivalTs ≠ 0 then c.jitterQ4 + (|c.transit rtpTs now| - (c.jitterQ4 + 8) / 16)
      else c.jitterQ4 := by
  rw [transit, ← Int.natCast_natAbs]
  rfl

/-- What is added to an estimate `q` for a change of `d` ticks. -/
theorem int32_estimate {q d : ℤ} (hq : 0 ≤ q ∧ q < 2 ^ 31) (hd : 0 ≤ d ∧ d < 2 ^ 31) :
    (int32 (q + 8) >>= fun old => int32 (d - old / 16) >>= fun change => int32 (q + change)) =
      if q ≤ 2 ^ 31 - 9 ∧ d < 2 ^ 31 - (q - (q + 8) / 16) then some (q + (d - (q + 8) / 16))
      else none := by
  by_cases hold : q ≤ 2 ^ 31 - 9
  · rw [int32_ok (by omega), Option.bind_eq_bind, Option.bind_some, int32_ok (by omega),
      Option.bind_some]
    split
    · exact int32_ok (by omega)
    · exact int32_none (by omega)
  · rw [int32_none (by omega), if_neg fun h => hold h.1]
    rfl

/-- **The estimate.**  It is defined where the packet leaves room, and is then that of
`trackJitter`. -/
theorem jitterInt_eq (n : ℤ) (hc : c.JitterFits) :
    c.jitterInt rtpTs now =
      if c.LeavesRoom (.trackPacket n rtpTs now) then some (c.trackJitter rtpTs now).jitterQ4
      else none := by
  have hq := jitterFits_iff.1 hc
  by_cases harr : c.lastArrivalTs ≠ 0
  · have hroom : c.LeavesRoom (.trackPacket n rtpTs now) ↔ c.jitterQ4 ≤ 2 ^ 31 - 9 ∧
        |c.transit rtpTs now| < 2 ^ 31 - (c.jitterQ4 - (c.jitterQ4 + 8) / 16) :=
      ⟨fun h => h harr, fun h _ => h⟩
    rw [jitterInt, if_pos harr, trackJitter_jitterQ4, if_pos harr, ← bind_assoc, int32_abs,
      if_congr hroom rfl rfl]
    have hpos := abs_nonneg (c.transit rtpTs now)
    by_cases hlt : |c.transit rtpTs now| < 2 ^ 31
    · rw [if_pos hlt]
      exact int32_estimate hq ⟨hpos, hlt⟩
    · rw [if_neg hlt, if_neg (by omega)]
      rfl
  · have hroom : c.LeavesRoom (.trackPacket n rtpTs now) := fun h => absurd h harr
    rw [jitterInt, trackJitter_jitterQ4, if_neg harr, if_neg harr, if_pos hroom]

/-- A packet that leaves room leaves an estimate that fits. -/
theorem JitterFits.trackJitter (hc : c.JitterFits) {n : ℤ}
    (hroom : c.LeavesRoom (.trackPacket n rtpTs now)) : (c.trackJitter rtpTs now).JitterFits := by
  have hq := jitterFits_iff.1 hc
  rw [jitterFits_iff, trackJitter_jitterQ4]
  split
  · rename_i harr
    have hlt := (hroom harr).2
    have hpos := abs_nonneg (c.transit rtpTs now)
    omega
  · exact hq

/-- The numbers of `track_packet` do not touch the times. -/
theorem trackSeq_jitter (c : SsrcContext) (seq : U16) :
    (c.trackSeq seq).jitterQ4 = c.jitterQ4 ∧ (c.trackSeq seq).lastArrivalTs = c.lastArrivalTs ∧
      (c.trackSeq seq).lastRtpTs = c.lastRtpTs := by
  unfold trackSeq
  dsimp only
  split_ifs <;> exact ⟨rfl, rfl, rfl⟩

theorem leavesRoom_trackSeq (c : SsrcContext) (seq : U16) (n : ℤ) :
    (c.trackSeq seq).LeavesRoom (.trackPacket n rtpTs now) ↔
      c.LeavesRoom (.trackPacket n rtpTs now) := by
  obtain ⟨hjitter, harr, hrtp⟩ := trackSeq_jitter c seq
  simp only [LeavesRoom, transit, hjitter, harr, hrtp]

end Packet

/-! ### Runs -/

variable {c : SsrcContext} {e : Call}

theorem JitterFits.trackSeq (hc : c.JitterFits) (seq : U16) : (c.trackSeq seq).JitterFits := by
  rw [jitterFits_iff, (trackSeq_jitter c seq).1]
  exact jitterFits_iff.1 hc

/-- **One call** is defined where it leaves room, and is then that of the context with
integers. -/
theorem callInt_eq (hc : c.JitterFits) (e : Call) :
    c.callInt e = if c.LeavesRoom e then some (c.call e) else none := by
  cases e with
  | trackPacket n rtpTs now =>
    rw [callInt, trackPacketInt, jitterInt_eq n (hc.trackSeq _), if_congr (leavesRoom_trackSeq c _ n) rfl rfl]
    split <;> rfl
  | recordSr ntpTs now => exact (if_pos trivial).symm
  | advancePrior => exact (if_pos trivial).symm

theorem JitterFits.call (hc : c.JitterFits) (hroom : c.LeavesRoom e) : (c.call e).JitterFits := by
  cases e with
  | trackPacket n rtpTs now =>
    exact (hc.trackSeq _).trackJitter ((leavesRoom_trackSeq c _ n).2 hroom)
  | recordSr ntpTs now =>
    have hq := jitterFits_iff.1 hc
    exact jitterFits_iff.2 hq
  | advancePrior =>
    have hq := jitterFits_iff.1 hc
    exact jitterFits_iff.2 hq

/-- One call more in front. -/
theorem jitterSound_cons (hc : c.JitterFits) {es : List Call} :
    c.JitterSound (e :: es) ↔ c.LeavesRoom e ∧ (c.call e).JitterSound es := by
  constructor
  · intro h
    have hroom : c.LeavesRoom e := by
      obtain ⟨c', hc', -⟩ := h [e] ⟨es, rfl⟩
      rw [List.foldlM_cons, callInt_eq hc] at hc'
      by_contra hno
      rw [if_neg hno] at hc'
      cases hc'
    refine ⟨hroom, fun before hbefore => ?_⟩
    obtain ⟨c', hc', hfits⟩ := h (e :: before) (List.cons_prefix_cons.2 ⟨rfl, hbefore⟩)
    rw [List.foldlM_cons, callInt_eq hc, if_pos hroom] at hc'
    exact ⟨c', hc', hfits⟩
  · rintro ⟨hroom, h⟩ before hbefore
    cases before with
    | nil => exact ⟨c, rfl, hc⟩
    | cons e' before =>
      obtain ⟨rfl, hrest⟩ := List.cons_prefix_cons.1 hbefore
      obtain ⟨c', hc', hfits⟩ := h before hrest
      refine ⟨c', ?_, hfits⟩
      rw [List.foldlM_cons, callInt_eq hc, if_pos hroom]
      exact hc'

theorem jitterSound_from (hc : c.JitterFits) (es : List Call) :
    c.JitterSound es ↔ AllLeaveRoom c es := by
  induction es generalizing c with
  | nil =>
    refine iff_of_true (fun before hbefore => ?_) trivial
    obtain rfl := List.prefix_nil.1 hbefore
    exact ⟨c, rfl, hc⟩
  | cons e es ih =>
    rw [jitterSound_cons hc, AllLeaveRoom]
    exact and_congr_right fun hroom => ih (hc.call hroom)

theorem jitterFits_start (ssrc : U32) : JitterFits { ssrc := ssrc } :=
  jitterFits_iff.2 ⟨le_rfl, (by decide : (0 : ℤ) < 2 ^ 31)⟩

/-- **When the jitter is right.**  For every stream and every sequence of calls, nothing
overflows and the estimate stays a field of a report exactly if each packet leaves room. -/
theorem jitter_sound_iff (ssrc : U32) (calls : List Call) :
    JitterSound { ssrc := ssrc } calls ↔ AllLeaveRoom { ssrc := ssrc } calls :=
  jitterSound_from (jitterFits_start _) calls

/-- The second packet comes with the first one, half of all RTP times ahead. -/
theorem jump_overflows : ¬ JitterSound { ssrc := 1 }
    [.trackPacket 0 0 1000000, .trackPacket 1 0x80000000 1000000] := by
  rw [jitterSound_from (jitterFits_start _)]
  exact fun h => absurd h.2.1 (by decide)

/-! ### Small changes -/

/-- With every packet the transit time changes by less than `bound`. -/
def TransitsBelow (bound : ℤ) : SsrcContext → List Call → Prop
  | _, [] => True
  | c, .trackPacket n rtpTs now :: es =>
      (c.lastArrivalTs ≠ 0 → |c.transit rtpTs now| < bound) ∧
        TransitsBelow bound (c.call (.trackPacket n rtpTs now)) es
  | c, e :: es => TransitsBelow bound (c.call e) es

/-- The estimate stays below sixteen times the largest change, which leaves room for the next
one. -/
theorem leaveRoom_of_transit {es : List Call} (hq : 0 ≤ c.jitterQ4 ∧ c.jitterQ4 < 2 ^ 31 - 8)
    (h : TransitsBelow (2 ^ 27) c es) : AllLeaveRoom c es := by
  induction es generalizing c with
  | nil => trivial
  | cons e es ih =>
    cases e with
    | trackPacket n rtpTs now =>
      obtain ⟨hsmall, hrest⟩ := h
      have hnext : (c.call (.trackPacket n rtpTs now)).jitterQ4 =
          if c.lastArrivalTs ≠ 0 then c.jitterQ4 + (|c.transit rtpTs now| - (c.jitterQ4 + 8) / 16)
          else c.jitterQ4 := by
        obtain ⟨hjitter, harr, hrtp⟩ := trackSeq_jitter c (BitVec.ofInt 16 n)
        rw [call, trackPacket, trackJitter_jitterQ4, transit, transit, hjitter, harr, hrtp]
      refine ⟨fun harr => ?_, ih ?_ hrest⟩
      · have hlt := hsmall harr
        omega
      · rw [hnext]
        split
        · rename_i harr
          have hlt := hsmall harr
          have hpos := abs_nonneg (c.transit rtpTs now)
          omega
        · exact hq
    | recordSr ntpTs now => exact ⟨trivial, ih hq h⟩
    | advancePrior => exact ⟨trivial, ih hq h⟩

end SsrcContext
end AsioRtc
