/-
# Serial numbers of a fixed width

Counters that are sent in `w` bits wrap, so their order is local: of two numbers
the newer one is the one that lies ahead by less than half the circle.  `ahead a b`
is how far `b` lies ahead of `a`, going forward round the circle.  A comparison
through the signed reading of a difference, `(b - a).toInt`, is the same thing
said in two's complement (`toInt_sub_nonneg`, `toInt_sub_neg`).

Inside one half of the circle counted from a base `c`, `ahead c` orders the
numbers like plain naturals: it is injective (`ahead_inj`), it counts steps
(`ahead_add`), and it splits over a number in between (`ahead_sub`).
-/

import Mathlib.Data.BitVec
import Mathlib.Tactic.Ring

namespace AsioRtc
namespace Lib

variable {w : ℕ}

/-- How far `b` lies ahead of `a`, going forward round the circle. -/
def ahead (a b : BitVec w) : ℕ := (b - a).toNat

/-- A distance is less than the circle. -/
theorem ahead_lt (a b : BitVec w) : ahead a b < 2 ^ w := (b - a).isLt

/-- A number is at distance zero from itself. -/
@[simp] theorem ahead_self (a : BitVec w) : ahead a a = 0 := by simp [ahead]

/-- Numbers at one distance from a third are the same. -/
theorem ahead_inj {c a b : BitVec w} (h : ahead c a = ahead c b) : a = b := by
  have h' : a - c = b - c := BitVec.eq_of_toNat_eq h
  have h'' := congrArg (· + c) h'
  simpa [BitVec.sub_add_cancel] using h''

/-- Only a number itself is at distance zero. -/
theorem ahead_eq_zero {a b : BitVec w} : ahead a b = 0 ↔ b = a :=
  ⟨fun h => ahead_inj (h.trans (ahead_self a).symm), fun h => by rw [h, ahead_self]⟩

/-- Counting `k` steps forward from `c`. -/
theorem ahead_add {c : BitVec w} {k : ℕ} (hk : k < 2 ^ w) : ahead c (c + BitVec.ofNat w k) = k := by
  rw [ahead, BitVec.add_comm, BitVec.add_sub_cancel, BitVec.toNat_ofNat, Nat.mod_eq_of_lt hk]

/-- Going all the way from `c` to `b`. -/
theorem add_ahead (c b : BitVec w) : c + BitVec.ofNat w (ahead c b) = b :=
  ahead_inj (ahead_add (ahead_lt c b))

/-- **Splitting the way.**  A number on the way from `c` to `b` splits it in two. -/
theorem ahead_sub {c a b : BitVec w} (h : ahead c a ≤ ahead c b) :
    ahead a b = ahead c b - ahead c a := by
  have key : b - a = (b - c) - (a - c) := by ring
  rw [ahead, key, BitVec.toNat_sub_of_le (BitVec.le_def.2 h)]
  rfl

/-- The same seen from the end: of two numbers before `c`, the one further back. -/
theorem ahead_sub_right {c a b : BitVec w} (h : ahead a c ≤ ahead b c) :
    ahead b a = ahead b c - ahead a c := by
  have key : a - b = (c - b) - (c - a) := by ring
  rw [ahead, key, BitVec.toNat_sub_of_le (BitVec.le_def.2 h)]
  rfl

/-- Two ways one after the other, where they stay within one turn. -/
theorem ahead_trans {a b c : BitVec w} (h : ahead a b + ahead b c < 2 ^ w) :
    ahead a c = ahead a b + ahead b c := by
  have key : c - a = (b - a) + (c - b) := by ring
  rw [ahead, key, BitVec.toNat_add]
  exact Nat.mod_eq_of_lt h

/-- Numbers that have one distance to a third are the same. -/
theorem ahead_right_inj {a b c : BitVec w} (h : ahead a c = ahead b c) : a = b := by
  have h' := ahead_sub_right h.le
  rw [h, Nat.sub_self] at h'
  exact ahead_eq_zero.1 h'

/-- Counting `k` steps back from `c`. -/
theorem ahead_sub_ofNat {c : BitVec w} {k : ℕ} (hk : k < 2 ^ w) :
    ahead (c - BitVec.ofNat w k) c = k := by
  rw [ahead, sub_sub_cancel, BitVec.toNat_ofNat, Nat.mod_eq_of_lt hk]

/-- After `k` steps towards `b`, it is `k` nearer. -/
theorem ahead_add_left {c b : BitVec w} {k : ℕ} (h : k ≤ ahead c b) :
    ahead (c + BitVec.ofNat w k) b = ahead c b - k := by
  have hk := ahead_add (c := c) (lt_of_le_of_lt h (ahead_lt c b))
  rw [ahead_sub (by rw [hk]; exact h), hk]

/-- The way there and the way back make a full circle. -/
theorem ahead_swap {a b : BitVec w} (h : a ≠ b) : ahead b a = 2 ^ w - ahead a b := by
  have hne : b - a ≠ 0 := fun h0 => h (ahead_eq_zero.1 (by simp [ahead, h0])).symm
  have key : a - b = -(b - a) := by ring
  have hpos : 0 < (b - a).toNat :=
    Nat.pos_of_ne_zero fun h0 => hne (BitVec.eq_of_toNat_eq (by simpa using h0))
  rw [ahead, key, BitVec.toNat_neg, Nat.mod_eq_of_lt (by omega)]
  rfl

/-- `b` is not older than `a`: it lies ahead by less than half the circle. -/
theorem toInt_sub_nonneg {a b : BitVec w} : 0 ≤ (b - a).toInt ↔ 2 * ahead a b < 2 ^ w := by
  have := ahead_lt a b
  rw [BitVec.toInt_eq_toNat_cond, ahead] at *
  split <;> omega

/-- A signed difference is negative from half the circle on. -/
theorem toInt_sub_neg {a b : BitVec w} : (b - a).toInt < 0 ↔ 2 ^ w ≤ 2 * ahead a b := by
  rw [← not_le, toInt_sub_nonneg, not_lt]

/-- The signed difference of a number that is not older is the way to it. -/
theorem toInt_sub_eq {a b : BitVec w} (h : 2 * ahead a b < 2 ^ w) :
    (b - a).toInt = ahead a b := by
  rw [BitVec.toInt_eq_toNat_cond, if_pos (by simpa [ahead] using h), ahead]

/-- The signed difference of an older number is minus the way back. -/
theorem toInt_sub_eq_neg {a b : BitVec w} (h : 2 ^ w ≤ 2 * ahead a b) :
    (b - a).toInt = (ahead a b : ℤ) - 2 ^ w := by
  rw [BitVec.toInt_eq_toNat_cond, if_neg (by simpa [ahead] using h), ahead]
  push_cast
  rfl

/-- `x` is within the half of the circle that starts at `c`. -/
def Near (c x : BitVec w) : Prop := 2 * ahead c x < 2 ^ w

/-- Being near is decided by the distance. -/
instance (c x : BitVec w) : Decidable (Near c x) := inferInstanceAs (Decidable (_ < _))

/-- **Signed differences order a half circle.** -/
theorem toInt_sub_neg_of_near {c a b : BitVec w} (ha : Near c a) (hb : Near c b) :
    (a - b).toInt < 0 ↔ ahead c a < ahead c b := by
  unfold Near at ha hb
  rw [toInt_sub_neg]
  rcases lt_or_ge (ahead c a) (ahead c b) with h | h
  · have hne : a ≠ b := fun heq => absurd h (by rw [heq]; exact lt_irrefl _)
    have := ahead_swap hne
    have := ahead_sub h.le
    omega
  · have := ahead_sub h
    omega

/-- Near one number, a signed difference tells the order. -/
theorem toInt_sub_pos_of_near {c a b : BitVec w} (ha : Near c a) (hb : Near c b) :
    0 < (a - b).toInt ↔ ahead c b < ahead c a := by
  have h₁ := toInt_sub_neg_of_near ha hb
  have h₂ : (a - b).toInt = 0 ↔ ahead c a = ahead c b := by
    constructor
    · intro h
      have : a - b = 0 := BitVec.eq_of_toInt_eq (by simpa using h)
      rw [show a = b from sub_eq_zero.1 this]
    · intro h
      rw [ahead_inj h, BitVec.sub_self, BitVec.toInt_zero]
  omega

/-- Two half circles that hold `a` and `b` agree on their order. -/
theorem Near.le_iff {c d a b : BitVec w} (hca : Near c a) (hcb : Near c b) (hda : Near d a)
    (hdb : Near d b) : ahead c a ≤ ahead c b ↔ ahead d a ≤ ahead d b := by
  rw [← not_lt, ← not_lt, ← toInt_sub_neg_of_near hcb hca, ← toInt_sub_neg_of_near hdb hda]

/-- The numbers of `l` come in serial order, all within half a circle from `c`. -/
structure SortedFrom (c : BitVec w) (l : List (BitVec w)) : Prop where
  order : l.Pairwise fun a b => ahead c a < ahead c b
  near : ∀ a ∈ l, Near c a

namespace SortedFrom

variable {c b a : BitVec w} {l : List (BitVec w)}

/-- No numbers are in order. -/
theorem nil : SortedFrom c [] := ⟨.nil, fun _ h => absurd h List.not_mem_nil⟩

/-- The rest is in order. -/
theorem tail (h : SortedFrom c (a :: l)) : SortedFrom c l :=
  ⟨(List.pairwise_cons.1 h.order).2, fun x hx => h.near x (List.mem_cons_of_mem _ hx)⟩

/-- A part is in order. -/
theorem sublist {l' : List (BitVec w)} (h : SortedFrom c l) (hs : l'.Sublist l) :
    SortedFrom c l' :=
  ⟨h.order.sublist hs, fun x hx => h.near x (hs.subset hx)⟩

/-- Serial order does not depend on where the half circle starts. -/
theorem rebase (h : SortedFrom c l) (hb : ∀ x ∈ l, Near b x) : SortedFrom b l := by
  refine ⟨h.order.imp_of_mem fun {x y} hx hy hxy => ?_, hb⟩
  exact (toInt_sub_neg_of_near (hb x hx) (hb y hy)).1
    ((toInt_sub_neg_of_near (h.near x hx) (h.near y hy)).2 hxy)

/-- Every number lies ahead of the first one. -/
theorem front_le (h : SortedFrom c (a :: l)) {x : BitVec w} (hx : x ∈ a :: l) :
    ahead c a ≤ ahead c x := by
  rcases List.mem_cons.1 hx with rfl | hx
  · exact le_rfl
  · exact ((List.pairwise_cons.1 h.order).1 x hx).le

/-- Moving the start forward, not past any of the numbers. -/
theorem advance {k : ℕ} (h : SortedFrom c l) (hk : ∀ x ∈ l, k ≤ ahead c x) :
    SortedFrom (c + BitVec.ofNat w k) l := by
  refine h.rebase fun x hx => ?_
  have := h.near x hx
  unfold Near at *
  rw [ahead_add_left (hk x hx)]
  omega

/-- The numbers are in order counted from the first of them. -/
theorem from_front (h : SortedFrom c (a :: l)) : SortedFrom a (a :: l) := by
  refine h.rebase fun x hx => ?_
  have := h.near x hx
  unfold Near at *
  rw [ahead_sub (h.front_le hx)]
  omega

end SortedFrom

end Lib
end AsioRtc
