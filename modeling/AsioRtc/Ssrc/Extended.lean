/-
# The extended highest sequence number

A sender counts its packets without end and sends the count in 16 bits.
`track_packet` is to find the count again: the highest number so far, counted from
the 65536-cycle of the first packet, is `_cycles + _max_seq`.

A number below `_max_seq` is taken for a late packet, or for a wrap when it is more
than half a cycle below.  There is no such case above: a late packet from before a
wrap has a number above `_max_seq`, and becomes the new highest, almost a cycle too
high.  From then on every report counts that cycle.  `accurate_iff_in_cycle` says
that this is the only way to go wrong, over whole runs: the counts are right after
every call exactly if no packet comes from a cycle before that of the highest one.
-/

import Mathlib.Algebra.Order.Group.Abs
import AsioRtc.Lib.Machine
import AsioRtc.Ssrc.Context

namespace AsioRtc

open Lib

namespace SsrcContext

/-- A call to the component.  A packet is given with the number the sender counts it by. -/
inductive Call where
  | trackPacket (n : ℤ) (rtpTs : U32) (now : ℤ)
  | recordSr (ntpTs : U64) (now : ℤ)
  | advancePrior

/-- One call. -/
def call (c : SsrcContext) : Call → SsrcContext
  | .trackPacket n rtpTs now => c.trackPacket (BitVec.ofInt 16 n) rtpTs now
  | .recordSr ntpTs now => c.recordSr ntpTs now
  | .advancePrior => c.advancePrior

/-- A stream of its own, as a machine. -/
def machine (ssrc : U32) : Machine SsrcContext Call Unit :=
  ⟨{ ssrc := ssrc }, fun c e => (c.call e, ())⟩

/-- The first and the highest number of a history. -/
def firstHighest : List (SsrcContext × Call) → Option (ℤ × ℤ)
  | [] => none
  | (_, .trackPacket n _ _) :: h =>
      match firstHighest h with
      | none => some (n, n)
      | some (first, highest) => some (first, max highest n)
  | _ :: h => firstHighest h

/-- Each packet is within half a cycle of the highest one before it. -/
def WithinHalf (h : List (SsrcContext × Call)) (_ : SsrcContext) : Call → Prop
  | .trackPacket n _ _ => ∀ p ∈ firstHighest h, |n - p.2| ≤ 2 ^ 15 - 1
  | _ => True

/-- The number of the 65536-cycle. -/
def cycleOf (n : ℤ) : ℤ := n / 65536

/-- The counts are those of the stream: the highest number, counted from the cycle of the first
one, in 32 bits, and how many there are from the first to the highest, in 64. -/
def Accurate (h : List (SsrcContext × Call)) (c : SsrcContext) : Prop :=
  ∀ p ∈ firstHighest h,
    c.extendedMax = BitVec.ofInt 32 (p.2 - 65536 * cycleOf p.1) ∧
      c.packetsExpectedCount = BitVec.ofInt 64 (p.2 - p.1 + 1)

/-- The counts were right after every call. -/
def AlwaysAccurate : List (SsrcContext × Call) → SsrcContext → Prop
  | [], _ => True
  | (c', e) :: h, c => AlwaysAccurate h c' ∧ Accurate ((c', e) :: h) c

/-- No packet came from a cycle before that of the highest one. -/
def InCycle : List (SsrcContext × Call) → Prop
  | [] => True
  | (_, .trackPacket n _ _) :: h =>
      InCycle h ∧ ∀ p ∈ firstHighest h, n < p.2 → cycleOf n = cycleOf p.2
  | _ :: h => InCycle h

/-- What the fields are when the counts are right. -/
structure Counts (p : Option (ℤ × ℤ)) (c : SsrcContext) : Prop where
  base_none : p = none → c.baseSeqSet = false ∧ c.maxSeq = 0 ∧ c.cycles = 0
  fields : ∀ q ∈ p, c.baseSeqSet = true ∧
    c.baseSeq = BitVec.ofInt 32 (q.1 % 65536) ∧
    c.maxSeq = BitVec.ofInt 32 (q.2 % 65536) ∧
    c.cycles = BitVec.ofInt 64 (65536 * (cycleOf q.2 - cycleOf q.1)) ∧
    c.packetsExpected = BitVec.ofInt 64 (q.2 - q.1 + 1)

section Width

/-- The low 32 bits of an integer in 64. -/
theorem setWidth_ofInt (x : ℤ) : (BitVec.ofInt 64 x).setWidth 32 = BitVec.ofInt 32 x := by
  refine BitVec.eq_of_toNat_eq ?_
  simp only [BitVec.toNat_setWidth, BitVec.toNat_ofInt]
  omega

/-- A 16-bit number in 32 bits. -/
theorem setWidth_ofInt_seq (n : ℤ) :
    (BitVec.ofInt 16 n).setWidth 32 = BitVec.ofInt 32 (n % 65536) := by
  refine BitVec.eq_of_toNat_eq ?_
  simp only [BitVec.toNat_setWidth, BitVec.toNat_ofInt]
  omega

/-- A 16-bit number in 64 bits. -/
theorem setWidth_ofInt_mod (n : ℤ) :
    (BitVec.ofInt 32 (n % 65536)).setWidth 64 = BitVec.ofInt 64 (n % 65536) := by
  refine BitVec.eq_of_toNat_eq ?_
  simp only [BitVec.toNat_setWidth, BitVec.toNat_ofInt]
  omega

theorem ofInt_lt_ofInt (a b : ℤ) :
    BitVec.ofInt 32 (a % 65536) < BitVec.ofInt 32 (b % 65536) ↔ a % 65536 < b % 65536 := by
  rw [BitVec.lt_def, BitVec.toNat_ofInt, BitVec.toNat_ofInt]
  omega

theorem half_lt_sub {a b : ℤ} (h : a % 65536 < b % 65536) :
    (0x8000 : U32) < BitVec.ofInt 32 (b % 65536) - BitVec.ofInt 32 (a % 65536) ↔
      0x8000 < b % 65536 - a % 65536 := by
  rw [BitVec.lt_def, BitVec.toNat_sub_of_le (BitVec.le_of_lt ((ofInt_lt_ofInt a b).2 h)),
    BitVec.toNat_ofInt, BitVec.toNat_ofInt, show (0x8000 : U32).toNat = 0x8000 from rfl]
  omega

/-- `_packets_expected`, in integers. -/
theorem expected_eq (x top first : ℤ) :
    BitVec.ofInt 64 x + (BitVec.ofInt 32 (top % 65536)).setWidth 64 -
        (BitVec.ofInt 32 (first % 65536)).setWidth 64 + 1 =
      BitVec.ofInt 64 (x + top % 65536 - first % 65536 + 1) := by
  rw [setWidth_ofInt_mod, setWidth_ofInt_mod, BitVec.ofInt_add, sub_eq_add_neg, sub_eq_add_neg,
    ← BitVec.ofInt_neg, BitVec.ofInt_add, BitVec.ofInt_add]
  rfl

end Width

variable {c : SsrcContext} {first highest n : ℤ}

/-- The highest number and the wraps `track_packet` counts for `n` after `highest`: whether
`n` is taken for late, and whether it is taken for a wrap. -/
def TakenLate (highest n : ℤ) : Prop :=
  n % 65536 < highest % 65536 ∧ highest % 65536 - n % 65536 ≤ 0x8000

def TakenWrap (highest n : ℤ) : Prop :=
  n % 65536 < highest % 65536 ∧ 0x8000 < highest % 65536 - n % 65536

instance (highest n : ℤ) : Decidable (TakenLate highest n) := inferInstanceAs (Decidable (_ ∧ _))
instance (highest n : ℤ) : Decidable (TakenWrap highest n) := inferInstanceAs (Decidable (_ ∧ _))

/-- What is taken for late is late within the cycle, and what is taken for a wrap is one. -/
theorem taken_iff {highest n : ℤ} (hhalf : |n - highest| ≤ 2 ^ 15 - 1) :
    (TakenLate highest n ↔ n < highest ∧ cycleOf n = cycleOf highest) ∧
      (TakenWrap highest n ↔ cycleOf n = cycleOf highest + 1) := by
  have habs := abs_le.1 hhalf
  unfold TakenLate TakenWrap cycleOf
  omega

/-- `track_packet` after the first packet, in integers. -/
theorem trackPacket_fields (hc : Counts (some (first, highest)) c) (n : ℤ) (rtpTs : U32)
    (now : ℤ) :
    let r := c.trackPacket (BitVec.ofInt 16 n) rtpTs now
    let top := if TakenLate highest n then highest else n
    let turns := cycleOf highest - cycleOf first + if TakenWrap highest n then 1 else 0
    r.baseSeqSet = true ∧ r.baseSeq = BitVec.ofInt 32 (first % 65536) ∧
      r.maxSeq = BitVec.ofInt 32 (top % 65536) ∧ r.cycles = BitVec.ofInt 64 (65536 * turns) ∧
      r.packetsExpected = BitVec.ofInt 64 (65536 * turns + top % 65536 - first % 65536 + 1) := by
  obtain ⟨hset, hbase, hmax, hcyc, -⟩ := hc.fields _ rfl
  have hnext : ∀ x : ℤ, BitVec.ofInt 64 (65536 * x) + 0x10000 = BitVec.ofInt 64 (65536 * (x + 1)) :=
    fun x => by rw [mul_add, BitVec.ofInt_add]; rfl
  simp only [trackPacket, trackJitter, trackSeq, hset, Bool.not_true, Bool.false_eq_true, if_false,
    setWidth_ofInt_seq, hmax, ofInt_lt_ofInt]
  by_cases hlt : n % 65536 < highest % 65536
  · by_cases hwrap : 0x8000 < highest % 65536 - n % 65536
    · have hl : ¬ TakenLate highest n := fun h => absurd h.2 (by omega)
      have hw : TakenWrap highest n := ⟨hlt, hwrap⟩
      simp only [if_pos hlt, (half_lt_sub hlt).2 hwrap, if_true, if_neg hl, if_pos hw, hbase, hcyc,
        hnext, expected_eq, and_self]
    · have hl : TakenLate highest n := ⟨hlt, by omega⟩
      have hw : ¬ TakenWrap highest n := fun h => hwrap h.2
      simp only [if_pos hlt, (half_lt_sub hlt).not.2 hwrap, if_false, if_pos hl, if_neg hw, hbase,
        hcyc, hmax, add_zero, expected_eq, hset, and_self]
  · have hl : ¬ TakenLate highest n := fun h => hlt h.1
    have hw : ¬ TakenWrap highest n := fun h => hlt h.1
    simp only [if_neg hlt, if_neg hl, if_neg hw, hbase, hcyc, add_zero, expected_eq, and_self]

/-- The first packet. -/
theorem Counts.start (hc : Counts none c) (n : ℤ) (rtpTs : U32) (now : ℤ) :
    Counts (some (n, n)) (c.trackPacket (BitVec.ofInt 16 n) rtpTs now) := by
  obtain ⟨hset, hmax, hcyc⟩ := hc.base_none rfl
  have hge : ¬ BitVec.ofInt 32 (n % 65536) < 0 := BitVec.not_lt_zero
  refine ⟨fun h => absurd h (by simp), fun q hq => ?_⟩
  obtain rfl := Option.some.inj hq
  simp only [trackPacket, trackJitter, trackSeq, hset, hmax, hcyc, setWidth_ofInt_seq, hge,
    Bool.not_false, if_true, if_false, sub_self, mul_zero, true_and]
  refine ⟨rfl, ?_⟩
  simp

/-- The integers the counts stand for. -/
theorem Counts.accurate {h : List (SsrcContext × Call)} (hc : Counts (firstHighest h) c) :
    Accurate h c := by
  intro p hp
  obtain ⟨-, -, hmax, hcyc, hexp⟩ := hc.fields p hp
  refine ⟨?_, hexp⟩
  rw [extendedMax, hmax, hcyc, setWidth_ofInt_mod, ← BitVec.ofInt_add, setWidth_ofInt]
  congr 1
  unfold cycleOf
  omega

/-- A packet that is not behind the cycle of the highest one keeps the counts. -/
theorem Counts.track (hc : Counts (some (first, highest)) c) {rtpTs : U32} {now : ℤ}
    (hhalf : |n - highest| ≤ 2 ^ 15 - 1) (hin : n < highest → cycleOf n = cycleOf highest) :
    Counts (some (first, max highest n)) (c.trackPacket (BitVec.ofInt 16 n) rtpTs now) := by
  obtain ⟨hset, hbase, hmax, hcyc, hexp⟩ := trackPacket_fields hc n rtpTs now
  obtain ⟨hlate, hwrap⟩ := taken_iff hhalf
  have hclose : highest ≤ n → cycleOf n = cycleOf highest ∨ cycleOf n = cycleOf highest + 1 := by
    have habs := abs_le.1 hhalf
    unfold cycleOf
    omega
  refine ⟨fun h => absurd h (by simp), fun q hq => ?_⟩
  obtain rfl := Option.some.inj hq
  have htop : (if TakenLate highest n then highest else n) = max highest n := by
    split
    · exact (max_eq_left (hlate.1 ‹_›).1.le).symm
    · rename_i h
      exact (max_eq_right (not_lt.1 fun hlt => h (hlate.2 ⟨hlt, hin hlt⟩))).symm
  have hturn : (cycleOf highest - cycleOf first + if TakenWrap highest n then 1 else 0) =
      cycleOf (max highest n) - cycleOf first := by
    rcases lt_or_ge n highest with hlt | hge
    · rw [max_eq_left hlt.le, if_neg fun h => by have := hwrap.1 h; have := hin hlt; omega]
      omega
    · rw [max_eq_right hge]
      split
      · have := hwrap.1 ‹_›
        omega
      · have := hclose hge
        have := hwrap.not.1 ‹_›
        omega
  rw [htop] at hmax hexp
  rw [hturn] at hcyc hexp
  refine ⟨hset, hbase, hmax, hcyc, hexp.trans ?_⟩
  congr 1
  unfold cycleOf
  omega

/-- A packet from a cycle before that of the highest one is taken for the highest one. -/
theorem Counts.not_accurate {h : List (SsrcContext × Call)} (hh : firstHighest h = some (first, highest))
    (hc : Counts (some (first, highest)) c) {rtpTs : U32} {now : ℤ}
    (hhalf : |n - highest| ≤ 2 ^ 15 - 1) (hlt : n < highest) (hcyc : cycleOf n ≠ cycleOf highest) :
    ¬ Accurate ((c, .trackPacket n rtpTs now) :: h)
      (c.trackPacket (BitVec.ofInt 16 n) rtpTs now) := by
  intro ha
  obtain ⟨-, -, hmax, hcycles, -⟩ := trackPacket_fields hc n rtpTs now
  have hext := (ha (first, max highest n) (by simp [firstHighest, hh])).1
  rw [extendedMax, hmax, hcycles, setWidth_ofInt_mod, ← BitVec.ofInt_add, setWidth_ofInt] at hext
  have hnat := congrArg BitVec.toNat hext
  have habs := abs_le.1 hhalf
  have hl : ¬ TakenLate highest n := fun h => hcyc ((taken_iff hhalf).1.1 h).2
  have hw : ¬ TakenWrap highest n := fun h => by
    have := (taken_iff hhalf).2.1 h
    unfold cycleOf at *
    omega
  rw [BitVec.toNat_ofInt, BitVec.toNat_ofInt, if_neg hl, if_neg hw, max_eq_left hlt.le] at hnat
  unfold cycleOf at *
  omega

/-- What a packet does to the counts. -/
theorem Counts.step {h : List (SsrcContext × Call)} (hc : Counts (firstHighest h) c) {rtpTs : U32}
    {now : ℤ} (hhalf : ∀ p ∈ firstHighest h, |n - p.2| ≤ 2 ^ 15 - 1) :
    let h' := (c, Call.trackPacket n rtpTs now) :: h
    let c' := c.trackPacket (BitVec.ofInt 16 n) rtpTs now
    (Accurate h' c' ↔ ∀ p ∈ firstHighest h, n < p.2 → cycleOf n = cycleOf p.2) ∧
      ((∀ p ∈ firstHighest h, n < p.2 → cycleOf n = cycleOf p.2) → Counts (firstHighest h') c') := by
  intro h' c'
  have hkeep : (∀ p ∈ firstHighest h, n < p.2 → cycleOf n = cycleOf p.2) →
      Counts (firstHighest h') c' := by
    intro hin
    cases hh : firstHighest h with
    | none =>
      simp only [h', firstHighest, hh]
      exact (hh ▸ hc).start n rtpTs now
    | some p =>
      simp only [h', firstHighest, hh]
      rw [hh] at hc hhalf hin
      exact hc.track (hhalf p rfl) (hin p rfl)
  refine ⟨⟨fun ha p hp hlt => ?_, fun hin => (hkeep hin).accurate⟩, hkeep⟩
  by_contra hne
  have hp' : firstHighest h = some p := hp
  exact Counts.not_accurate hp' (hp' ▸ hc) (hhalf p hp) hlt hne ha

/-- **When the counts are right.**  In every run whose packets are within half a cycle of the
highest one: after every call the counts are those of the stream, exactly if no packet came
from a cycle before that of the highest one. -/
theorem accurate_iff_in_cycle (ssrc : U32) (h : List (SsrcContext × Call)) (c : SsrcContext)
    (hr : Run (machine ssrc) WithinHalf h c) : AlwaysAccurate h c ↔ InCycle h := by
  have key : (AlwaysAccurate h c ↔ InCycle h) ∧ (InCycle h → Counts (firstHighest h) c) := by
    refine hr.invariant (M := machine ssrc)
      (P := fun h c => (AlwaysAccurate h c ↔ InCycle h) ∧ (InCycle h → Counts (firstHighest h) c))
      ⟨Iff.rfl, fun _ => ⟨fun _ => ⟨rfl, rfl, rfl⟩, by simp [firstHighest]⟩⟩ ?_
    rintro h c e - ⟨ihiff, ihc⟩ hg
    cases e with
    | trackPacket n rtpTs now =>
      constructor
      · exact ⟨fun ⟨ha, hlast⟩ => ⟨ihiff.1 ha, ((ihc (ihiff.1 ha)).step hg).1.1 hlast⟩,
          fun ⟨hi, hin⟩ => ⟨ihiff.2 hi, ((ihc hi).step hg).1.2 hin⟩⟩
      · exact fun ⟨hi, hin⟩ => ((ihc hi).step hg).2 hin
    | recordSr ntpTs now =>
      have hkeep : InCycle h → Counts (firstHighest h) (c.recordSr ntpTs now) := fun hi =>
        ⟨(ihc hi).base_none, (ihc hi).fields⟩
      exact ⟨⟨fun ha => ihiff.1 ha.1, fun hi => ⟨ihiff.2 hi, (hkeep hi).accurate⟩⟩, hkeep⟩
    | advancePrior =>
      have hkeep : InCycle h → Counts (firstHighest h) c.advancePrior := fun hi =>
        ⟨(ihc hi).base_none, (ihc hi).fields⟩
      exact ⟨⟨fun ha => ihiff.1 ha.1, fun hi => ⟨ihiff.2 hi, (hkeep hi).accurate⟩⟩, hkeep⟩
  exact key.1

theorem run_trackPacket {ssrc : U32} {h : List (SsrcContext × Call)} {c : SsrcContext} {n : ℤ}
    (hr : Run (machine ssrc) WithinHalf h c) (hn : ∀ p ∈ firstHighest h, |n - p.2| ≤ 2 ^ 15 - 1) :
    Run (machine ssrc) WithinHalf ((c, .trackPacket n 0 0) :: h)
      (c.trackPacket (BitVec.ofInt 16 n) 0 0) :=
  hr.step hn

/-- A stream that wraps, and no late packets. -/
theorem accurate_iff_in_cycle_wrap :
    ∃ h c, firstHighest h = some (65530, 65540) ∧ (AlwaysAccurate h c ↔ InCycle h) := by
  have r₁ := run_trackPacket (n := 65530) (.init (M := machine 7)) (by simp [firstHighest])
  have r₂ := run_trackPacket (n := 65540) r₁ (by decide)
  exact ⟨_, _, by decide, accurate_iff_in_cycle 7 _ _ r₂⟩

/-- **A late packet counts a cycle.**  The stream starts at 65530 and is at 65540, number 4 of
the next cycle, when 65535 comes in late: the highest number is then 131071. -/
theorem late_packet_counts_cycle :
    ∃ h c, Run (machine 7) WithinHalf h c ∧ firstHighest h = some (65530, 65540) ∧
      c.extendedMax = 131071 ∧ ¬ AlwaysAccurate h c := by
  have r₁ := run_trackPacket (n := 65530) (.init (M := machine 7)) (by simp [firstHighest])
  have r₂ := run_trackPacket (n := 65540) r₁ (by decide)
  have r₃ := run_trackPacket (n := 65535) r₂ (by decide)
  refine ⟨_, _, r₃, by decide, by decide, fun ha => ?_⟩
  exact absurd (ha.2 (65530, 65540) (by decide)).1 (by decide)

end SsrcContext
end AsioRtc
