/-
# Streams of blocks, cut into chunks

A stream is a row of things that are written as `n` symbols each (`bs.flatMap f`), and it
comes in chunks that are cut anywhere.  What has come up to a cut is a row of whole things
and a part of the next (`exists_tail`), and each thing ends in one of the chunks
(`endingIn`): those that end in the first chunk, those in the second, and so on, are all of
them, in their order (`flatten_endingIn`).
-/

import Mathlib.Algebra.GroupWithZero.Nat
import Mathlib.Data.List.Basic

namespace AsioRtc
namespace Lib

variable {α β : Type*} {f : β → List α} {n : ℕ}

theorem length_blocks (hf : ∀ b, (f b).length = n) (bs : List β) :
    (bs.flatMap f).length = bs.length * n := by
  induction bs with
  | nil => simp
  | cons b bs ih =>
    rw [List.flatMap_cons, List.length_append, hf, ih, List.length_cons, Nat.succ_mul,
      Nat.add_comm]

/-- The first `k` things are the first `k * n` symbols. -/
theorem take_blocks (hf : ∀ b, (f b).length = n) (bs : List β) (k : ℕ) :
    (bs.flatMap f).take (k * n) = (bs.take k).flatMap f := by
  induction bs generalizing k with
  | nil => simp
  | cons b bs ih =>
    cases k with
    | zero => simp
    | succ k =>
      rw [List.flatMap_cons, List.take_succ_cons, List.flatMap_cons, Nat.succ_mul, Nat.add_comm,
        ← hf b, List.take_length_add_append, hf b, ih]

/-- The symbols behind the first `k * n`. -/
theorem drop_blocks (hf : ∀ b, (f b).length = n) (bs : List β) (k : ℕ) :
    (bs.flatMap f).drop (k * n) = (bs.drop k).flatMap f := by
  have h := List.take_append_drop (k * n) (bs.flatMap f)
  nth_rewrite 3 [← List.take_append_drop k bs] at h
  rw [List.flatMap_append, take_blocks hf] at h
  exact List.append_cancel_left h

/-- **What has come of a stream**: whole things, and a part of the next. -/
theorem exists_tail (hf : ∀ b, (f b).length = n) {bs : List β} {l rest : List α}
    (h : l ++ rest = bs.flatMap f) :
    ∃ tail, l = (bs.take (l.length / n)).flatMap f ++ tail ∧ tail.length = l.length % n ∧
      tail ++ rest = (bs.drop (l.length / n)).flatMap f := by
  have hle : l.length / n * n ≤ l.length := Nat.div_mul_le_self ..
  refine ⟨l.drop (l.length / n * n), ?_, ?_, ?_⟩
  · rw [← take_blocks hf, ← h, List.take_append_of_le_length hle, List.take_append_drop]
  · rw [List.length_drop, Nat.mod_def, Nat.mul_comm]
  · rw [← drop_blocks hf, ← h, List.drop_append_of_le_length hle]

/-- The things that end in each of the chunks, whose lengths are `lens`, where `carried` symbols of
the first thing have come before. -/
def endingIn (n : ℕ) : ℕ → List β → List ℕ → List (List β)
  | _, _, [] => []
  | carried, bs, len :: lens =>
      bs.take ((carried + len) / n) ::
        endingIn n ((carried + len) % n) (bs.drop ((carried + len) / n)) lens

/-- **Every thing ends in one of the chunks.** -/
theorem flatten_endingIn (hn : 0 < n) {carried : ℕ} {bs : List β} {lens : List ℕ}
    (h : carried + lens.sum = bs.length * n) (hcarried : carried < n) :
    (endingIn n carried bs lens).flatten = bs := by
  induction lens generalizing carried bs with
  | nil =>
    have hnil : bs.length = 0 := by
      by_contra hne
      have : 1 * n ≤ bs.length * n := Nat.mul_le_mul_right _ (Nat.one_le_iff_ne_zero.2 hne)
      rw [List.sum_nil] at h
      omega
    rw [List.length_eq_zero_iff.1 hnil]
    rfl
  | cons len lens ih =>
    rw [List.sum_cons, ← Nat.add_assoc] at h
    rw [endingIn, List.flatten_cons, ih ?_ (Nat.mod_lt _ hn), List.take_append_drop]
    have hdiv := Nat.div_add_mod (carried + len) n
    rw [List.length_drop, Nat.sub_mul, ← h]
    rw [Nat.mul_comm] at hdiv
    omega

/-- In a chunk of up to `k * n` symbols there end at most `k` things. -/
theorem length_le_of_mem_endingIn {k carried : ℕ} {bs : List β} {lens : List ℕ}
    (hlens : ∀ len ∈ lens, len ≤ k * n) (hcarried : carried < n) :
    ∀ group ∈ endingIn n carried bs lens, group.length ≤ k := by
  induction lens generalizing carried bs with
  | nil => exact fun _ h => by cases h
  | cons len lens ih =>
    obtain ⟨hlen, hlens⟩ := List.forall_mem_cons.1 hlens
    refine List.forall_mem_cons.2 ⟨?_, ih hlens (Nat.mod_lt _ (Nat.zero_lt_of_lt hcarried))⟩
    refine Nat.le_trans (List.length_take_le ..) (Nat.le_of_lt_succ ?_)
    rw [Nat.div_lt_iff_lt_mul (Nat.zero_lt_of_lt hcarried), Nat.succ_mul]
    omega

end Lib
end AsioRtc
