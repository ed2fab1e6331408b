/-
# Which number a packet is stored under

`_extend_seq` puts a 16-bit number into the cycle of `_next_extended_seq`, or into
the next cycle where that lies more than half a cycle back.  There is no step into
the cycle before.  So a newer packet gets its number (`extendSeq_newer`), and an
older one is recognised only within its cycle (`extendSeq_older`): a packet from
before a 16-bit wrap is taken for one most of a cycle ahead.

`places_right_iff` says for every reachable buffer exactly which packets `push`
treats as a buffer of half a cycle should; `late_packet_stored_ahead` is the late
packet, two calls into a stream.
-/

import AsioRtc.Lib.Serial
import AsioRtc.Jitter.Buffer

namespace AsioRtc

open Lib

/-- How far `s` lies ahead of the extended number `last`, in 16 bits. -/
def aheadOf (last : ℕ) (s : U16) : ℕ := ahead (BitVec.ofNat 16 last) s

section Extend

variable {s : U16} {last : ℕ}

/-- Counting in the cycle of `last`: either `s` is at or after it, or a cycle is missing. -/
theorem aheadOf_cases (last : ℕ) (s : U16) :
    (last % 2 ^ 16 ≤ s.toNat ∧ last / 0x10000 * 0x10000 + s.toNat = last + aheadOf last s) ∨
      (s.toNat < last % 2 ^ 16 ∧
        last / 0x10000 * 0x10000 + s.toNat + 2 ^ 16 = last + aheadOf last s) := by
  have hs := s.isLt
  have hr : last % 2 ^ 16 < 2 ^ 16 := Nat.mod_lt _ (by decide)
  have hd : aheadOf last s = (2 ^ 16 - last % 2 ^ 16 + s.toNat) % 2 ^ 16 := by
    rw [aheadOf, ahead, BitVec.toNat_sub, BitVec.toNat_ofNat]
  have hq := Nat.div_add_mod' last (2 ^ 16)
  rcases Nat.lt_or_ge s.toNat (last % 2 ^ 16) with h | h
  · right
    rw [Nat.mod_eq_of_lt (by omega)] at hd
    omega
  · left
    rw [Nat.mod_eq_sub_mod (by omega), Nat.mod_eq_of_lt (by omega)] at hd
    omega

/-- One turn past the modulus. -/
theorem mod_of_eq_add {x m k : ℕ} (h : x = m + k) (hk : k < m) : x % m = k := by
  rw [h, Nat.add_mod_left, Nat.mod_eq_of_lt hk]

/-- The outcomes of `_extend_seq`, by the number `e` in the cycle of `last`: the step into
the next cycle is taken where `e` is half a cycle back, or where the sum wraps. -/
theorem extendSeq_cases (s : U16) {last e : ℕ} (hl : last < 2 ^ 32)
    (he : last / 0x10000 * 0x10000 + s.toNat = e) :
    (e + 0x8000 < last ∧ e + 0x10000 < 2 ^ 32 ∧ extendSeq s last = e + 0x10000) ∨
      (e + 0x8000 < last ∧ 2 ^ 32 ≤ e + 0x10000 ∧ extendSeq s last < last) ∨
      (last ≤ e + 0x8000 ∧ e + 0x8000 < 2 ^ 32 ∧ extendSeq s last = e) ∨
      (2 ^ 32 ≤ e + 0x8000 ∧ extendSeq s last < last) := by
  have hs := s.isLt
  have hlt : e < 2 ^ 32 := by omega
  have hclose : e < last + 0x10000 := by omega
  unfold extendSeq
  dsimp only
  rw [he]
  clear he hs
  rcases Nat.lt_or_ge (e + 0x8000) last with hback | hback
  · rw [Nat.mod_eq_of_lt (hback.trans hl), if_pos hback]
    rcases Nat.lt_or_ge (e + 0x10000) (2 ^ 32) with h | h
    · exact .inl ⟨hback, h, Nat.mod_eq_of_lt h⟩
    · obtain ⟨k, hk⟩ := Nat.exists_eq_add_of_le h
      rw [mod_of_eq_add hk (by omega)]
      exact .inr (.inl ⟨hback, h, by omega⟩)
  · rcases Nat.lt_or_ge (e + 0x8000) (2 ^ 32) with h | h
    · rw [Nat.mod_eq_of_lt h, if_neg (by omega)]
      exact .inr (.inr (.inl ⟨hback, h, rfl⟩))
    · obtain ⟨k, hk⟩ := Nat.exists_eq_add_of_le h
      rw [mod_of_eq_add hk (by omega), if_pos (by omega),
        mod_of_eq_add (k := k + 0x8000) (by omega) (by omega)]
      exact .inr (.inr (.inr ⟨h, by omega⟩))

/-- A newer packet gets its number, or one before `last` where that number would not fit. -/
theorem extendSeq_newer (hl : last < 2 ^ 32) (hd : aheadOf last s < 0x8000) :
    (last + aheadOf last s + 0x8000 < 2 ^ 32 ∧ extendSeq s last = last + aheadOf last s) ∨
      (2 ^ 32 ≤ last + aheadOf last s + 0x8000 ∧ extendSeq s last < last) := by
  have hcap : last / 0x10000 * 0x10000 + 0x10000 ≤ 2 ^ 32 := by omega
  have hs := s.isLt
  rcases aheadOf_cases last s with ⟨hle, he⟩ | ⟨hlt, he⟩
  · rcases extendSeq_cases s hl he with h | h | h | h <;> omega
  · rcases extendSeq_cases s hl rfl with h | h | h | h <;> omega

/-- An older packet gets a number before `last` where it is older within the cycle, and is
taken for one ahead where it is from the cycle before. -/
theorem extendSeq_older (hl : last < 2 ^ 32) (hd : 0x8000 ≤ aheadOf last s) :
    ((s.toNat < last % 2 ^ 16 ∨ 2 ^ 32 ≤ last + aheadOf last s + 0x8000) ∧
        extendSeq s last < last) ∨
      (last % 2 ^ 16 ≤ s.toNat ∧ last + aheadOf last s + 0x8000 < 2 ^ 32 ∧
        extendSeq s last = last + aheadOf last s) := by
  have hs := s.isLt
  rcases aheadOf_cases last s with ⟨hle, he⟩ | ⟨hlt, he⟩
  · rcases extendSeq_cases s hl he with h | h | h | h <;> omega
  · rcases extendSeq_cases s hl rfl with h | h | h | h <;> omega

end Extend

namespace JitterBuffer

/-- What `push` owes a packet: one at most half a cycle ahead of the cursor is stored under
its number, where that is free, and an older one leaves the buffer unchanged. -/
def PlacesRight (b : JitterBuffer) (pkt : RtpPacket) : Prop :=
  let k := b.nextExtendedSeq + aheadOf b.nextExtendedSeq pkt.sequenceNumber
  (aheadOf b.nextExtendedSeq pkt.sequenceNumber < 0x8000 →
    b.push pkt = if b.sorted.contains k then b else { b with sorted := b.sorted.emplace k pkt }) ∧
  (0x8000 ≤ aheadOf b.nextExtendedSeq pkt.sequenceNumber → b.push pkt = b)

/-- The packets `push` places right: a newer one whose number stays half a cycle below the
32-bit wrap, an older one of the cursor's own 65536-cycle, or of any cycle near the wrap, and
one whose key is taken. -/
def InReach (b : JitterBuffer) (pkt : RtpPacket) : Prop :=
  let d := aheadOf b.nextExtendedSeq pkt.sequenceNumber
  b.sorted.contains (b.nextExtendedSeq + d) = true ∨
    (d < 0x8000 ∧ b.nextExtendedSeq + d + 0x8000 < 2 ^ 32) ∨
    (0x8000 ≤ d ∧ (pkt.sequenceNumber.toNat < b.nextExtendedSeq % 2 ^ 16 ∨
      2 ^ 32 ≤ b.nextExtendedSeq + d + 0x8000))

instance (b : JitterBuffer) (pkt : RtpPacket) : Decidable (b.InReach pkt) :=
  inferInstanceAs (Decidable (_ ∨ _))

variable {b : JitterBuffer}

theorem push_of_open (hf : b.firstPacket = false) (pkt : RtpPacket) :
    b.push pkt =
      let extended := extendSeq pkt.sequenceNumber b.nextExtendedSeq
      if extended < b.nextExtendedSeq then b
      else if b.sorted.contains extended then b
      else { b with sorted := b.sorted.emplace extended pkt } := by
  simp only [push, hf, Bool.false_eq_true, false_and, if_false]

/-- A key that was free is not free after it was stored under. -/
theorem emplace_ne {k : ℕ} {pkt : RtpPacket} (hk : b.sorted.contains k = false) :
    ({ b with sorted := b.sorted.emplace k pkt } : JitterBuffer) ≠ b := by
  intro h
  have hin := OrdMap.contains_iff.2 ⟨pkt, (OrdMap.mem_emplace (v := pkt) hk).2 (.inl rfl)⟩
  have hsame : b.sorted.emplace k pkt = b.sorted := congrArg JitterBuffer.sorted h
  rw [hsame, hk] at hin
  exact absurd hin (by simp)

/-- **When `push` places a packet right.**  In every reachable buffer after the first
accepted packet, exactly where `InReach` says. -/
theorem places_right_iff (maxDelay : ℤ) (isVideo : Bool) (h : List (JitterBuffer × Call))
    (b : JitterBuffer) (hr : Run (machine maxDelay isVideo) (fun _ _ _ => True) h b)
    (hf : b.firstPacket = false) (pkt : RtpPacket) : b.PlacesRight pkt ↔ b.InReach pkt := by
  have hl := (wf_of_run hr).next_lt
  simp only [PlacesRight, InReach, push_of_open hf]
  generalize hd : aheadOf b.nextExtendedSeq pkt.sequenceNumber = d
  rcases Nat.lt_or_ge d 0x8000 with hnew | hold
  · -- A newer packet.
    rcases extendSeq_newer (s := pkt.sequenceNumber) hl (hd ▸ hnew) with ⟨hfit, he⟩ | ⟨hover, he⟩
    · rw [hd] at hfit he
      have hge : ¬ b.nextExtendedSeq + d < b.nextExtendedSeq := by omega
      simp only [he, if_neg hge]
      exact ⟨fun _ => .inr (.inl ⟨hnew, hfit⟩),
        fun _ => ⟨fun _ => trivial, fun hge => absurd hnew (by omega)⟩⟩
    · rw [hd] at hover
      simp only [if_pos he]
      constructor
      · rintro ⟨hstore, -⟩
        left
        by_contra hc
        rw [Bool.not_eq_true] at hc
        have := hstore hnew
        rw [hc] at this
        exact emplace_ne hc this.symm
      · rintro (hc | ⟨-, hfit⟩ | ⟨hge, -⟩)
        · exact ⟨fun _ => by rw [if_pos hc], fun _ => trivial⟩
        · omega
        · omega
  · -- An older packet.
    rcases extendSeq_older (s := pkt.sequenceNumber) hl (hd ▸ hold) with ⟨hin, he⟩ | ⟨hcyc, hfit, he⟩
    · rw [hd] at hin
      simp only [if_pos he]
      exact ⟨fun _ => .inr (.inr ⟨hold, hin⟩),
        fun _ => ⟨fun hlt => absurd hlt (by omega), fun _ => trivial⟩⟩
    · rw [hd] at hfit he
      have hge : ¬ b.nextExtendedSeq + d < b.nextExtendedSeq := by omega
      simp only [he, if_neg hge]
      constructor
      · rintro ⟨-, hkeep⟩
        left
        by_contra hc
        have hkeep := hkeep hold
        rw [if_neg hc] at hkeep
        exact emplace_ne (Bool.not_eq_true _ ▸ hc) hkeep
      · rintro (hc | ⟨hlt, -⟩ | ⟨-, hlow | hover⟩)
        · exact ⟨fun hlt => absurd hlt (by omega), fun _ => by rw [if_pos hc]⟩
        · omega
        · omega
        · omega

/-- A stream that starts at 10, and the packet before it by 16 numbers. -/
private theorem run_open : Run (machine 500 false) (fun _ _ _ => True)
    [(create 500 false, .push { sequenceNumber := 10, payload := [1] })]
    ((create 500 false).push { sequenceNumber := 10, payload := [1] }) :=
  run_push .init _ trivial

/-- The packet after the first one is placed right. -/
theorem places_right_iff_next :
    let b := (create 500 false).push { sequenceNumber := 10, payload := [1] }
    b.PlacesRight { sequenceNumber := 11, payload := [1] } ↔
      b.InReach { sequenceNumber := 11, payload := [1] } :=
  places_right_iff 500 false _ _ run_open rfl _

/-- **A late packet is stored ahead.**  The stream starts at 10; the packet 16 before it,
number 65530, is kept as number 65530 of the stream, 65520 ahead. -/
theorem late_packet_stored_ahead :
    let b := (create 500 false).push { sequenceNumber := 10, payload := [1] }
    (∃ h, Run (machine 500 false) (fun _ _ _ => True) h b) ∧ b.firstPacket = false ∧
      (b.push { sequenceNumber := 65530, payload := [1] }).sorted.keys = [10, 65530] ∧
      ¬ b.PlacesRight { sequenceNumber := 65530, payload := [1] } := by
  refine ⟨⟨_, run_open⟩, rfl, by decide, fun hp => ?_⟩
  have hkeep := hp.2 (by decide)
  exact absurd (congrArg (fun b => b.sorted.keys) hkeep) (by decide)

end JitterBuffer

end AsioRtc
