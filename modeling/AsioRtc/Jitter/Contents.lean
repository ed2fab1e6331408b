/-
# What is in a jitter buffer

A packet lies under a key that is its sequence number modulo `2^16`, and only packets that
have been pushed lie there (`JitterBuffer.Holds`, for any property `P` of packets).  Both are
kept by every call, whatever comes in and whenever it is asked for a frame.

So a frame is made of packets with the property, of one timestamp, whose numbers follow each
other (`Holds.frame`).
-/

import AsioRtc.Jitter.Unwrap

namespace AsioRtc

open Lib

/-- The extended number is the number, modulo `2^16`. -/
theorem extendSeq_mod (seq : U16) (last : ℕ) : extendSeq seq last % 2 ^ 16 = seq.toNat := by
  have hs := seq.isLt
  unfold extendSeq
  simp only []
  split <;> omega

namespace JitterBuffer

/-- The buffer is well formed; its packets have the property `P`, and lie under their numbers. -/
structure Holds (P : RtpPacket → Prop) (b : JitterBuffer) : Prop where
  wf : b.Wf
  packets : ∀ e ∈ b.sorted.entries, P e.2
  keys : ∀ e ∈ b.sorted.entries, e.1 % 2 ^ 16 = e.2.sequenceNumber.toNat

/-- The packets of a frame have the property `P`, one timestamp, and numbers that follow each
other. -/
structure FrameOf (P : RtpPacket → Prop) (pkts : List RtpPacket) : Prop where
  packets : ∀ q ∈ pkts, P q
  stamp : ∃ ts, ∀ q ∈ pkts, q.timestamp = ts
  numbers : ∀ j q q', pkts[j]? = some q → pkts[j + 1]? = some q' →
    q'.sequenceNumber = q.sequenceNumber + 1

variable {P Q : RtpPacket → Prop} {b : JitterBuffer}

namespace Holds

theorem create (P : RtpPacket → Prop) (maxDelay : ℤ) (isVideo : Bool) :
    (create maxDelay isVideo).Holds P :=
  ⟨wf_create maxDelay isVideo, fun _ h => absurd h List.not_mem_nil,
    fun _ h => absurd h List.not_mem_nil⟩

theorem mono (h : b.Holds P) (hPQ : ∀ q, P q → Q q) : b.Holds Q :=
  ⟨h.wf, fun e he => hPQ _ (h.packets e he), h.keys⟩

/-- A packet that is pushed. -/
theorem push (h : b.Holds P) {pkt : RtpPacket} (hpkt : P pkt) : (b.push pkt).Holds P := by
  have hwf := h.wf.push pkt
  rcases push_cases h.wf pkt with heq | ⟨c, -, -, hfree, heq⟩
  · rwa [heq]
  · rw [heq] at hwf ⊢
    refine ⟨hwf, fun e he => ?_, fun e he => ?_⟩ <;> rcases (OrdMap.mem_emplace hfree).1 he with
      rfl | hold
    · exact hpkt
    · exact h.packets e hold
    · exact extendSeq_mod ..
    · exact h.keys e hold

theorem popEntries (h : b.Holds P) (now : ℕ → ℤ) : (b.popEntries now).1.Holds P := by
  obtain ⟨c, n, hp⟩ := popEntries_pops h.wf now
  refine ⟨h.wf.popEntries now, fun e he => ?_, fun e he => ?_⟩ <;> rw [hp.sorted] at he
  · exact h.packets e (List.mem_of_mem_drop he)
  · exact h.keys e (List.mem_of_mem_drop he)

/-- **A frame**, at whatever time it is asked for. -/
theorem frame (h : b.Holds P) (now : ℕ → ℤ) : FrameOf P (b.popFrame now).2 := by
  obtain ⟨c, n, hp⟩ := popEntries_pops h.wf now
  obtain ⟨ts, hts⟩ := hp.stamp
  have hmem (e) (he : e ∈ (b.popEntries now).2) : e ∈ b.sorted.entries :=
    List.mem_of_mem_take (hp.frame ▸ he)
  refine ⟨fun q hq => ?_, ⟨ts, fun q hq => ?_⟩, fun j q q' hj hj' => ?_⟩
  · obtain ⟨e, he, rfl⟩ := List.mem_map.1 hq
    exact h.packets e (hmem e he)
  · obtain ⟨e, he, rfl⟩ := List.mem_map.1 hq
    exact hts e he
  · rw [popFrame, List.getElem?_map, Option.map_eq_some_iff] at hj hj'
    obtain ⟨e, he, rfl⟩ := hj
    obtain ⟨e', he', rfl⟩ := hj'
    -- The keys follow each other, and so do their residues.
    have hkey (j) (e : ℕ × RtpPacket) (he : (b.popEntries now).2[j]? = some e) : e.1 = c + j := by
      have hget : ((b.popEntries now).2.map Prod.fst)[j]? = some e.1 := by
        rw [List.getElem?_map, he, Option.map_some]
      rw [hp.keys] at hget
      rw [List.getElem?_eq_some_iff] at hget
      obtain ⟨hlt, hget⟩ := hget
      rw [List.getElem_range'] at hget
      omega
    have hseq := h.keys e (hmem e (List.mem_of_getElem? he))
    have hseq' := h.keys e' (hmem e' (List.mem_of_getElem? he'))
    rw [hkey j e he] at hseq
    rw [hkey (j + 1) e' he'] at hseq'
    apply BitVec.eq_of_toNat_eq
    rw [← hseq', BitVec.toNat_add, ← hseq, show (1 : U16).toNat = 1 from rfl]
    omega

end Holds
end JitterBuffer
end AsioRtc
