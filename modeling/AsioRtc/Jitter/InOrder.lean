/-
# A jitter buffer fed in order

Where packets come in order and none is missing, the buffer is a queue: the packets that wait
lie under keys that follow each other (`JitterBuffer.Queues`).  A packet goes to the end
(`Queues.push`), and `pop_frame` gives the packets of the first timestamp, where others wait
behind them, or the wait for more of them is over (`Queues.pop`).
-/

import AsioRtc.Jitter.Unwrap

namespace AsioRtc

open Lib

/-- Packets under keys that follow each other from `k` on. -/
def keyed (k : ℕ) : List RtpPacket → List (ℕ × RtpPacket)
  | [] => []
  | q :: qs => (k, q) :: keyed (k + 1) qs

@[simp] theorem map_snd_keyed (k : ℕ) (qs : List RtpPacket) : (keyed k qs).map Prod.snd = qs := by
  induction qs generalizing k with
  | nil => rfl
  | cons q qs ih => rw [keyed, List.map_cons, ih]

@[simp] theorem length_keyed (k : ℕ) (qs : List RtpPacket) : (keyed k qs).length = qs.length := by
  rw [← List.length_map Prod.snd, map_snd_keyed]

theorem keyed_append (k : ℕ) (qs rs : List RtpPacket) :
    keyed k (qs ++ rs) = keyed k qs ++ keyed (k + qs.length) rs := by
  induction qs generalizing k with
  | nil => rfl
  | cons q qs ih =>
    rw [List.cons_append, keyed, keyed, ih, List.length_cons, List.cons_append, Nat.add_assoc,
      Nat.add_comm 1]

theorem lt_of_mem_keyed {k : ℕ} {qs : List RtpPacket} {e : ℕ × RtpPacket} (he : e ∈ keyed k qs) :
    e.1 < k + qs.length := by
  induction qs generalizing k with
  | nil => cases he
  | cons q qs ih =>
    rw [keyed] at he
    rw [List.length_cons]
    rcases List.mem_cons.1 he with rfl | he
    · omega
    · have := ih he
      omega

/-- The scan stops behind the packets of the first timestamp. -/
theorem scanFrame_keyed {ts : U32} {k : ℕ} {block rest : List RtpPacket}
    (hblock : ∀ q ∈ block, q.timestamp = ts) (hrest : ∀ q ∈ rest.head?, q.timestamp ≠ ts)
    (hsmall : k + block.length < 2 ^ 32) :
    scanFrame ts k (keyed k (block ++ rest)) = (k + block.length, block.length) := by
  induction block generalizing k with
  | nil =>
    cases rest with
    | nil => rfl
    | cons q rest =>
      rw [List.nil_append, keyed, scanFrame, if_neg fun h => hrest q rfl h.2]
      rfl
  | cons q block ih =>
    rw [List.length_cons] at hsmall
    rw [List.cons_append, keyed, scanFrame,
      if_pos ⟨rfl, hblock q (List.mem_cons_self ..)⟩, Nat.mod_eq_of_lt (by omega),
      ih (fun q hq => hblock q (List.mem_cons_of_mem _ hq)) (by omega), List.length_cons]
    simp only [Prod.mk.injEq, and_true]
    omega

namespace JitterBuffer

/-- The packets `qs` wait, under the keys from `k` on, and nothing else does. -/
structure Queues (b : JitterBuffer) (k : ℕ) (qs : List RtpPacket) : Prop where
  wf : b.Wf
  entries : b.sorted.entries = keyed k qs
  next : b.firstPacket = false → b.nextExtendedSeq = k
  first : b.firstPacket = true → qs = [] ∧ k < 2 ^ 16

/-- The settings of a buffer do not change. -/
def SameSettings (b b' : JitterBuffer) : Prop := b'.isVideo = b.isVideo ∧ b'.maxDelay = b.maxDelay

variable {b : JitterBuffer} {k : ℕ} {qs : List RtpPacket}

theorem push_settings (b : JitterBuffer) (pkt : RtpPacket) : b.SameSettings (b.push pkt) := by
  simp only [push]
  split_ifs <;> exact ⟨rfl, rfl⟩

theorem Queues.create (maxDelay : ℤ) (isVideo : Bool) (hk : k < 2 ^ 16) :
    (create maxDelay isVideo).Queues k [] :=
  ⟨wf_create maxDelay isVideo, rfl, fun h => (by cases h), fun _ => ⟨rfl, hk⟩⟩

/-- **The next packet** goes to the end. -/
theorem Queues.push (hq : b.Queues k qs) {pkt : RtpPacket}
    (hseq : pkt.sequenceNumber = BitVec.ofNat 16 (k + qs.length)) (hpayload : pkt.payload ≠ [])
    (hlen : qs.length < 0x8000) (hsmall : k + qs.length + 0x8000 < 2 ^ 32) :
    (b.push pkt).Queues k (qs ++ [pkt]) := by
  -- The key is the next one, whether the packet is the first one or not.
  have hkey : extendSeq pkt.sequenceNumber b.nextExtendedSeq = k + qs.length := by
    cases hf : b.firstPacket with
    | true =>
      obtain ⟨rfl, hk⟩ := hq.first hf
      rw [(hq.wf.fresh hf).2, hseq, extendSeq]
      simp only [BitVec.toNat_ofNat, List.length_nil, Nat.add_zero]
      rw [Nat.mod_eq_of_lt hk]
      simp
    | false =>
      have hahead : aheadOf b.nextExtendedSeq pkt.sequenceNumber = qs.length := by
        rw [hq.next hf, hseq, aheadOf, ahead]
        simp only [BitVec.toNat_sub, BitVec.toNat_ofNat]
        omega
      rcases extendSeq_newer hq.wf.next_lt (hahead ▸ hlen) with ⟨-, h⟩ | ⟨h, -⟩
      · rw [h, hahead, hq.next hf]
      · rw [hahead, hq.next hf] at h
        omega
  have hlast : ∀ e ∈ b.sorted.entries, e.1 < k + qs.length := fun e he =>
    lt_of_mem_keyed (hq.entries ▸ he)
  have hfree : b.sorted.contains (k + qs.length) = false := by
    rw [← Bool.not_eq_true, OrdMap.contains_iff]
    rintro ⟨v, hv⟩
    exact absurd (hlast _ hv) (lt_irrefl _)
  have hwf := hq.wf.push pkt
  have hentries : (b.sorted.emplace (k + qs.length) pkt).entries = keyed k (qs ++ [pkt]) := by
    rw [keyed_append, ← hq.entries]
    exact OrdMap.insertEntry_of_lt hlast
  have hpush : b.push pkt = { b with
      firstPacket := false
      nextExtendedSeq := k
      sorted := b.sorted.emplace (k + qs.length) pkt } := by
    cases hf : b.firstPacket with
    | true =>
      obtain ⟨rfl, -⟩ := hq.first hf
      rw [List.length_nil, Nat.add_zero] at hkey hfree ⊢
      simp only [JitterBuffer.push, hkey, hf, true_and]
      rw [if_neg hpayload]
      simp only [if_true, lt_irrefl, if_false, hfree, Bool.false_eq_true]
    | false =>
      obtain rfl := hq.next hf
      rw [push_of_open hf]
      simp only [hkey]
      rw [if_neg (by omega), hfree, if_neg Bool.false_ne_true, ← hf]
  rw [hpush] at hwf ⊢
  exact ⟨hwf, hentries, fun _ => rfl, fun h => by cases h⟩

/-- What is given does not depend on more than the packets that wait. -/
theorem Queues.pop_nil (hq : b.Queues k []) (now : ℕ → ℤ) : b.popEntries now = (b, []) := by
  have hpass := popEntries_pass hq.wf now
  rw [hq.entries, keyed] at hpass
  exact hpass

/-- **A frame is asked for**: the packets of the first timestamp, unless more of them may come. -/
theorem Queues.pop {ts : U32} {block rest : List RtpPacket} (hq : b.Queues k (block ++ rest))
    (hne : block ≠ []) (hblock : ∀ q ∈ block, q.timestamp = ts)
    (hrest : ∀ q ∈ rest.head?, q.timestamp ≠ ts) (hsmall : k + block.length < 2 ^ 32)
    (now : ℕ → ℤ) :
    b.SameSettings (b.popEntries now).1 ∧
    if b.isVideo = true ∧ rest = [] ∧
        now 1 - b.videoWaitStart.getD (now 1) < b.maxDelay.tdiv 2 * ms then
      (b.popFrame now).2 = [] ∧ (b.popEntries now).1.Queues k (block ++ rest)
    else
      (b.popFrame now).2 = block ∧ (b.popEntries now).1.Queues (k + block.length) rest := by
  have hopen : b.firstPacket = false := by
    rw [← Bool.not_eq_true]
    exact fun hf => absurd (hq.first hf).1 (by simp [hne])
  obtain rfl := hq.next hopen
  have hscan := scanFrame_keyed hblock hrest hsmall
  rw [← hq.entries] at hscan
  have hdrop : b.sorted.entries.drop block.length =
      keyed (b.nextExtendedSeq + block.length) rest := by
    rw [hq.entries, keyed_append, List.drop_left' (length_keyed ..)]
  have htake : b.sorted.entries.take block.length = keyed b.nextExtendedSeq block := by
    rw [hq.entries, keyed_append, List.take_left' (length_keyed ..)]
  have hend : (keyed (b.nextExtendedSeq + block.length) rest).isEmpty = rest.isEmpty := by
    cases rest <;> rfl
  -- The first key is the expected one, so there is no gap.
  have hpass : b.popEntries now = b.takeFrame (now 1) ts := by
    have hpass := popEntries_pass hq.wf now
    obtain ⟨q, block', rfl⟩ := List.exists_cons_of_ne_nil hne
    rw [hq.entries, List.cons_append, keyed] at hpass
    simp only [waitGap, lt_irrefl, if_false, Bool.false_eq_true] at hpass
    rw [hpass, hblock q (List.mem_cons_self ..)]
  have hwf := hq.wf.popEntries now
  have hcases := takeFrame_cases hq.wf (now 1) ts
  simp only [hscan, hdrop, htake, hend] at hcases
  rw [hcases] at hpass
  rw [popFrame]
  rw [hpass] at hwf ⊢
  have hsame := waitVideo_same (now 1) rest.isEmpty { b with gapStart := none }
  have hsettings : b.SameSettings ({ b with gapStart := none }.waitVideo (now 1) rest.isEmpty).2 := by
    simp only [waitVideo]
    split <;> exact ⟨rfl, rfl⟩
  have hwait : ({ b with gapStart := none }.waitVideo (now 1) rest.isEmpty).1 = true ↔
      b.isVideo = true ∧ rest = [] ∧
        now 1 - b.videoWaitStart.getD (now 1) < b.maxDelay.tdiv 2 * ms := by
    simp only [waitVideo, List.isEmpty_iff]
    split
    · rename_i h
      simp [h.1, h.2]
    · rename_i h
      refine iff_of_false (by simp) fun hn => h ⟨hn.1, hn.2.1⟩
  generalize { b with gapStart := none }.waitVideo (now 1) rest.isEmpty = w at *
  split
  · rename_i hw
    rw [if_pos hw] at hwf
    rw [if_pos (hwait.1 hw)]
    refine ⟨hsettings, rfl, hwf, ?_, fun _ => hsame.next, fun hf => ?_⟩
    · rw [← hq.entries]
      exact congrArg OrdMap.entries hsame.sorted
    · exact absurd (hsame.first.symm.trans hf) (by rw [hopen]; decide)
  · rename_i hw
    rw [if_neg hw] at hwf
    rw [if_neg fun h => hw (hwait.2 h)]
    refine ⟨hsettings, map_snd_keyed .., hwf, hdrop, fun _ => rfl, fun hf => ?_⟩
    exact absurd (hsame.first.symm.trans hf) (by rw [hopen]; decide)

end JitterBuffer
end AsioRtc
