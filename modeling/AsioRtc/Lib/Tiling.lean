/-
# Segments of a circle that follow one another

A stretch of serial numbers is its first number and its length (`segment`).  Where
each of a list of stretches begins at the end of the one before (`Follows`), they
make up one stretch together (`flatMap_segment`): going round from its start, every
number of it belongs to exactly one of them.
-/

import AsioRtc.Lib.Serial
import Mathlib.Data.List.Chain

namespace AsioRtc
namespace Lib

variable {w : ℕ}

/-- The `n` numbers from `b` on. -/
def segment (b : BitVec w) (n : ℕ) : List (BitVec w) :=
  (List.range n).map fun i => b + BitVec.ofNat w i

@[simp] theorem length_segment (b : BitVec w) (n : ℕ) : (segment b n).length = n := by
  simp [segment]

theorem segment_append (b : BitVec w) (n m : ℕ) :
    segment b n ++ segment (b + BitVec.ofNat w n) m = segment b (n + m) := by
  rw [segment, segment, segment, List.range_add, List.map_append, List.map_map]
  congr 1
  refine List.map_congr_left fun i _ => ?_
  rw [Function.comp_apply, BitVec.ofNat_add, BitVec.add_assoc]

/-- The second stretch begins where the first one ends. -/
def Follows (s s' : BitVec w × ℕ) : Prop := s'.1 = s.1 + BitVec.ofNat w s.2

instance (s s' : BitVec w × ℕ) : Decidable (Follows s s') := inferInstanceAs (Decidable (_ = _))

/-- **Stretches that follow one another are one stretch.** -/
theorem flatMap_segment {s : BitVec w × ℕ} {l : List (BitVec w × ℕ)}
    (h : (s :: l).IsChain Follows) :
    ((s :: l).flatMap fun p => segment p.1 p.2) = segment s.1 ((s :: l).map Prod.snd).sum := by
  induction l generalizing s with
  | nil => simp
  | cons s' l ih =>
    obtain ⟨hfollows, hchain⟩ := List.isChain_cons_cons.1 h
    rw [List.flatMap_cons, ih hchain, hfollows, segment_append, List.map_cons (l := s' :: l),
      List.sum_cons]

end Lib
end AsioRtc
