/-
# Where the packets of a compound datagram lie

What `parse_compound` takes from a datagram: its packets stand one behind the other
from offset `0` on, each as long as its own length field says, and none of them
reaches past the end (`Layout`).  `parseCompoundFrom` is given a number of turns; the
walk ends before they run out (`parseCompoundFrom_fuel`), since every packet takes at
least four bytes.

With the readers' own safety this gives `readers_in_range`: whatever bytes come in, RTP
and RTCP parsing, the walk over a compound, the parser of a NACK and a traversal of a
header extension end, and none of them reads a byte that is not there.
-/

import AsioRtc.Rtp.Extension
import AsioRtc.Rtp.Packet
import AsioRtc.Rtcp.Feedback

namespace AsioRtc

open Lib

/-- `ranges` are the places of the packets `ps` in `data`: they follow one another from the
first byte on, each has the number of bytes its length field says and is read as its packet. -/
structure Layout (data : Bytes) (ps : List RtcpPacket) (ranges : List Bytes) : Prop where
  consecutive : ranges.flatten <+: data
  packets : List.Forall₂ (fun range p =>
    (∃ length, readBig16 range 2 = .ok length ∧ range.length = 4 * (length.toNat + 1)) ∧
      RtcpPacket.parse range = .ok (some p)) ranges ps

variable {data : Bytes} {offset fuel : ℕ}

/-- A field of a slice is the field of the datagram at that place. -/
theorem readBig16_of_prefix {range : Bytes} {length : U16} {o : ℕ}
    (hfront : range <+: data.drop offset) (hfit : o + 2 ≤ range.length)
    (h : readBig16 data (offset + o) = .ok length) : readBig16 range o = .ok length := by
  obtain ⟨rest, hrest⟩ := hfront
  have hdrop := readBig16_iff_drop.1 h
  rw [← List.drop_drop, ← hrest, List.drop_append_of_le_length (by omega)] at hdrop
  refine readBig16_iff_drop.2 ?_
  have hhead : (range.drop o).take 2 = big16 length := by
    have htake := congrArg (List.take 2) hdrop
    rwa [List.take_append_of_le_length (by rw [List.length_drop]; omega),
      List.take_append_of_le_length (by rw [length_big16]),
      List.take_of_length_le (by rw [length_big16] : (big16 length).length ≤ 2)] at htake
  calc range.drop o = (range.drop o).take 2 ++ (range.drop o).drop 2 :=
        (List.take_append_drop ..).symm
    _ = big16 length ++ range.drop (o + 2) := by rw [hhead, List.drop_drop]

/-- The walk from `offset` on finds packets that stand one behind the other there. -/
theorem parseCompoundFrom_layout (data : Bytes) (fuel offset : ℕ) :
    (parseCompoundFrom data fuel offset).Yields fun ps =>
      ∃ ranges, Layout (data.drop offset) ps ranges := by
  induction fuel generalizing offset with
  | zero => exact Checked.yields_pure.2 ⟨[], List.nil_prefix, .nil⟩
  | succ fuel ih =>
    have hnone : (pure [] : Checked (List RtcpPacket)).Yields fun ps =>
        ∃ ranges, Layout (data.drop offset) ps ranges :=
      Checked.yields_pure.2 ⟨[], List.nil_prefix, .nil⟩
    rw [parseCompoundFrom]
    split
    · rename_i hfit
      obtain ⟨length, hlength⟩ : (readBig16 data (offset + 2)).Safe := readBig16_safe (by omega)
      rw [hlength, Checked.ok_bind]
      simp only
      split
      · exact hnone
      · rename_i hlen
        have hfront := List.take_prefix ((length.toNat + 1) * 4) (data.drop offset)
        have hrange : ((data.drop offset).take ((length.toNat + 1) * 4)).length =
            (length.toNat + 1) * 4 := by
          rw [List.length_take, List.length_drop]
          omega
        rw [slice_ok (Nat.le_of_not_lt hlen), Checked.ok_bind]
        obtain ⟨r, hr⟩ := RtcpPacket.parse_safe ((data.drop offset).take ((length.toNat + 1) * 4))
        rw [hr, Checked.ok_bind]
        cases r with
        | none => exact hnone
        | some p =>
          refine (ih (offset + (length.toNat + 1) * 4)).bind ?_
          rintro ps ⟨ranges, hps⟩
          refine Checked.yields_pure.2
            ⟨_ :: ranges, ?_, .cons ⟨⟨length, ?_, ?_⟩, hr⟩ hps.packets⟩
          · rw [List.flatten_cons]
            conv_rhs => rw [← List.take_append_drop ((length.toNat + 1) * 4) (data.drop offset)]
            rw [List.drop_drop]
            exact (List.prefix_append_right_inj _).2 hps.consecutive
          · exact readBig16_of_prefix hfront (by omega) hlength
          · rw [hrange, Nat.mul_comm]
    · exact hnone

/-- The turns do not run out: with as many as there are bytes left, more change nothing. -/
theorem parseCompoundFrom_fuel {fuel' : ℕ} (hfuel : data.length - offset ≤ fuel)
    (hfuel' : data.length - offset ≤ fuel') :
    parseCompoundFrom data fuel offset = parseCompoundFrom data fuel' offset := by
  induction fuel generalizing offset fuel' with
  | zero =>
    cases fuel' with
    | zero => rfl
    | succ fuel' =>
      rw [parseCompoundFrom, parseCompoundFrom, if_neg (by omega)]
  | succ fuel ih =>
    cases fuel' with
    | zero => rw [parseCompoundFrom, parseCompoundFrom, if_neg (by omega)]
    | succ fuel' =>
      rw [parseCompoundFrom, parseCompoundFrom]
      split
      · obtain ⟨length, hlength⟩ : (readBig16 data (offset + 2)).Safe := readBig16_safe (by omega)
        rw [hlength, Checked.ok_bind, Checked.ok_bind]
        simp only
        rw [show parseCompoundFrom data fuel (offset + (length.toNat + 1) * 4) =
          parseCompoundFrom data fuel' (offset + (length.toNat + 1) * 4) from
            ih (by omega) (by omega)]
      · rfl

/-- **Whatever bytes come in, the readers stay in range and end.**  No access of `parse` of an
RTP or RTCP packet, of `parse_nack`, of a traversal of a header extension or of `parse_compound`
is outside the bytes given; the walk over a compound ends by itself, and its packets lie one
behind the other from the first byte on. -/
theorem readers_in_range (data : Bytes) :
    (RtpPacket.parse data).Safe ∧ (RtcpPacket.parse data).Safe ∧ (parseNack data).Safe ∧
      (RtpExtIterator.traverse data).Safe ∧
      ((parseCompound data).Yields fun ps => ∃ ranges, Layout data ps ranges) ∧
      ∀ fuel, data.length ≤ fuel → parseCompoundFrom data fuel 0 = parseCompound data := by
  refine ⟨RtpPacket.parse_safe data, RtcpPacket.parse_safe data, parseNack_safe data,
    ⟨_, RtpExtIterator.traverse_eq data⟩, parseCompoundFrom_layout data data.length 0,
    fun fuel hfuel => ?_⟩
  exact parseCompoundFrom_fuel (by omega) (by omega)

end AsioRtc
