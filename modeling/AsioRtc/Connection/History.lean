/-
# The history of a sending stream

What a stream keeps of its packets to answer a NACK.  Two paths send on it: the send loop,
`_sender_send_loop`, makes the packet itself and puts its payload into the slot of its
number, and `peer_connection::send_rtp` sends a packet of the user, whose number and SSRC
`rewrite_rtp_packet` overwrites; the number is the stream's next one too, but nothing goes
into the history.  Both use the number up, and the loop fills the slot, before the packet is
protected and handed on, which may fail: a call is told whether it did (`handed`).  So there are
two lists, the packets that got a number (`madePackets`) and those that were sent
(`sentPackets`).

A slot holds what the send loop last put there (`streamMachine_slots`), and the packets made are
numbered without a gap (`streamMachine_numbers`).  A look-up finds the last 128 packets sent and
nothing else exactly where each of them is still in its slot, and what is in a slot is one of
them (`HoldsSent`, `history_lookup_iff`).  Where every packet was handed on, this is so exactly
if each of the last 128 came from the send loop, or by accident is the same as the one its slot
still holds (`holdsSent_iff_of_handed`).
-/

import AsioRtc.Connection.Send
import AsioRtc.Lib.Machine

namespace AsioRtc

open Lib Text

/-- `rtp_stream`, with the counter of its packets. -/
structure SendingStream extends SendStream where
  seq : U16 := 0

/-- A packet that got a number, and whether the send loop made it. -/
structure SentPacket where
  seq : U16
  payload : Bytes
  timestamp : U32
  marker : Bool
  byLoop : Bool
  deriving DecidableEq, Repr

/-- What the history has to hold of a packet. -/
def SentPacket.entry (p : SentPacket) : HistoryEntry := ⟨p.payload, p.seq, p.timestamp⟩

/-- The slot of a number. -/
def slotOf (seq : U16) : ℕ := seq.toNat % historySize

/-- The entry that a NACK of `seq` finds: its slot, if the number in it is `seq`. -/
def RtpStream.lookup (s : RtpStream) (seq : U16) : Option HistoryEntry :=
  (s.history (slotOf seq)).filter fun e => e.seq = seq

/-- The calls that concern one stream: a payload in the send loop and a packet of the user, each
with whether it was protected and handed on, and a lost number of a NACK. -/
inductive StreamCall
  | sendLoop (payload : Bytes) (timestamp : U32) (marker handed : Bool)
  | sendRtp (pkt : RtpPacket) (handed : Bool)
  | nack (mediaSsrc : U32) (seq : U16)

namespace SendingStream

/-- A payload in `_sender_send_loop`: the next number, and an entry in its slot. -/
def sendLoop (s : SendingStream) (payload : Bytes) (timestamp : U32) : SendingStream :=
  let seq := s.seq + 1
  { s with
    seq := seq
    history := Function.update s.history (slotOf seq) (some ⟨payload, seq, timestamp⟩) }

/-- `connection_impl::rewrite_rtp_packet`, for a sender whose first stream is `s`: the datagram
with the number and the SSRC of the stream, and the stream after it. -/
def rewriteRtpPacket (s : SendingStream) (data : Bytes) : Bytes × SendingStream :=
  if data.length < 12 then (data, s)
  else
    (data.take 2 ++ big16 (s.seq + 1) ++ (data.drop 4).take 4 ++ big32 s.ssrc ++ data.drop 12,
      { s with seq := s.seq + 1 })

/-- The bytes of the buffer of `peer_connection::send_rtp`. -/
def sendRtpCapacity : ℕ := 2000

/-- The stream behind `peer_connection::send_rtp`: a packet that does not fit the buffer is not
sent and uses up no number, one that `encrypt_rtp` or the write fails for has used one up. -/
def sendRtp (s : SendingStream) (pkt : RtpPacket) : SendingStream :=
  match pkt.writeTo sendRtpCapacity with
  | none => s
  | some data => (s.rewriteRtpPacket data).2

/-- The answer to a lost number, as far as this stream goes. -/
def nack (s : SendingStream) (mediaSsrc : U32) (seq : U16) : SendingStream :=
  { s with toRtpStream := (resend mediaSsrc seq [s.toRtpStream]).1.headD s.toRtpStream }

/-- The stream after a call. -/
def call (s : SendingStream) : StreamCall → SendingStream
  | .sendLoop payload timestamp _ _ => s.sendLoop payload timestamp
  | .sendRtp pkt _ => s.sendRtp pkt
  | .nack mediaSsrc seq => s.nack mediaSsrc seq

end SendingStream

/-- The packet that a call on `s` gives a number. -/
def StreamCall.made (s : SendingStream) : StreamCall → Option SentPacket
  | .sendLoop payload timestamp marker _ => some ⟨s.seq + 1, payload, timestamp, marker, true⟩
  | .sendRtp pkt _ =>
      (pkt.writeTo SendingStream.sendRtpCapacity).map fun _ =>
        ⟨s.seq + 1, pkt.payload, pkt.timestamp, pkt.marker = 1, false⟩
  | .nack _ _ => none

/-- Whether a packet that gets a number in this call is protected and handed on. -/
def StreamCall.handed : StreamCall → Bool
  | .sendLoop _ _ _ handed => handed
  | .sendRtp _ handed => handed
  | .nack _ _ => true

/-- The packet that a call on `s` sends. -/
def StreamCall.sent (s : SendingStream) (c : StreamCall) : Option SentPacket :=
  if c.handed then c.made s else none

/-- A stream over time, from `s₀` on. -/
def streamMachine (s₀ : SendingStream) : Machine SendingStream StreamCall Unit where
  init := s₀
  step s c := (s.call c, ())

/-- The packets that got a number in a run, the newest one first. -/
def madePackets (h : List (SendingStream × StreamCall)) : List SentPacket :=
  h.filterMap fun p => p.2.made p.1

/-- The packets sent in a run, the newest one first. -/
def sentPackets (h : List (SendingStream × StreamCall)) : List SentPacket :=
  h.filterMap fun p => p.2.sent p.1

theorem madePackets_cons (s : SendingStream) (c : StreamCall)
    (h : List (SendingStream × StreamCall)) :
    madePackets ((s, c) :: h) = (c.made s).toList ++ madePackets h := by
  rw [madePackets, List.filterMap_cons]
  cases c.made s <;> rfl

/-- Where every packet is handed on, what got a number was sent. -/
theorem sentPackets_of_handed {h : List (SendingStream × StreamCall)}
    (hall : ∀ p ∈ h, p.2.handed = true) : sentPackets h = madePackets h := by
  refine List.filterMap_congr fun p hp => ?_
  rw [StreamCall.sent, if_pos (hall p hp)]

/-! ### One call -/

section Step

variable (s : SendingStream)

/-- **A lost number at a list of streams**: the first one that is meant and has it answers. -/
theorem resend_cons (mediaSsrc : U32) (seq : U16) (s : RtpStream) (ss : List RtpStream) :
    resend mediaSsrc seq (s :: ss) =
      match (if mediaSsrc ≠ 0 ∧ s.ssrc ≠ mediaSsrc then none else s.lookup seq) with
      | some e => ({ s with rtxSeq := s.rtxSeq + 1 } :: ss, some (s.rtx e seq))
      | none => (s :: (resend mediaSsrc seq ss).1, (resend mediaSsrc seq ss).2) := by
  rw [resend]
  simp only [RtpStream.lookup, slotOf]
  split
  · rfl
  · cases s.history (seq.toNat % historySize) with
    | none => rfl
    | some e =>
      by_cases he : e.seq = seq
      · simp only [if_pos he, Option.filter_some, decide_eq_true he, if_true]
      · simp only [if_neg he, Option.filter_some, decide_eq_false he, Bool.false_eq_true, if_false]

/-- A NACK leaves the history and the counter of the stream as they are. -/
theorem nack_frame (mediaSsrc : U32) (seq : U16) :
    (s.nack mediaSsrc seq).history = s.history ∧ (s.nack mediaSsrc seq).seq = s.seq := by
  refine ⟨?_, rfl⟩
  show ((resend mediaSsrc seq [s.toRtpStream]).1.headD s.toRtpStream).history = s.history
  rw [resend_cons]
  split <;> rfl

/-- What is written of a packet is at least its header. -/
theorem le_length_of_writeTo {pkt : RtpPacket} {len : ℕ} {data : Bytes}
    (h : pkt.writeTo len = some data) : 12 ≤ data.length := by
  rw [RtpPacket.writeTo] at h
  split at h
  · cases h
  · obtain rfl := Option.some.inj h
    simp only [RtpPacket.unpadded, List.length_append, RtpPacket.length_headerBytes]
    omega

/-- What a call does to the counter: one more for a packet that is made. -/
theorem call_seq (c : StreamCall) :
    (s.call c).seq = if (c.made s).isSome then s.seq + 1 else s.seq := by
  cases c with
  | sendLoop payload timestamp marker handed => rfl
  | nack mediaSsrc seq => exact (nack_frame s mediaSsrc seq).2
  | sendRtp pkt handed =>
    simp only [SendingStream.call, SendingStream.sendRtp, StreamCall.made, Option.isSome_map]
    cases hdata : pkt.writeTo SendingStream.sendRtpCapacity with
    | none => rfl
    | some data =>
      have hlen := le_length_of_writeTo hdata
      simp only [SendingStream.rewriteRtpPacket, if_neg (show ¬ data.length < 12 by omega)]
      rfl

/-- A packet gets the next number. -/
theorem made_seq {c : StreamCall} {p : SentPacket} (h : c.made s = some p) : p.seq = s.seq + 1 := by
  cases c with
  | sendLoop payload timestamp marker handed =>
    obtain rfl := Option.some.inj h
    rfl
  | sendRtp pkt handed =>
    obtain ⟨data, -, rfl⟩ := Option.map_eq_some_iff.1 h
    rfl
  | nack mediaSsrc seq => cases h

/-- What a call does to the history: the send loop fills the slot of its packet. -/
theorem call_history (c : StreamCall) (i : ℕ) :
    (s.call c).history i =
      match (c.made s).filter fun p => p.byLoop && slotOf p.seq == i with
      | some p => some p.entry
      | none => s.history i := by
  cases c with
  | sendLoop payload timestamp marker handed =>
    simp only [SendingStream.call, SendingStream.sendLoop, StreamCall.made, Option.filter_some,
      Bool.true_and, beq_iff_eq]
    by_cases hi : slotOf (s.seq + 1) = i
    · rw [if_pos hi, ← hi, Function.update_self]
      rfl
    · rw [if_neg hi, Function.update_of_ne (fun heq => hi heq.symm)]
  | nack mediaSsrc seq =>
    simp only [StreamCall.made, Option.filter_none]
    exact congrFun (nack_frame s mediaSsrc seq).1 i
  | sendRtp pkt handed =>
    simp only [SendingStream.call, SendingStream.sendRtp, StreamCall.made]
    cases pkt.writeTo SendingStream.sendRtpCapacity with
    | none => rfl
    | some data =>
      simp only [Option.map_some, Option.filter_some, Bool.false_and, Bool.false_eq_true, if_false,
        SendingStream.rewriteRtpPacket]
      split <;> rfl

end Step

/-! ### Runs -/

section Runs

variable {s₀ s : SendingStream} {h : List (SendingStream × StreamCall)}

/-- The packets made in a run are numbered down from the counter without a gap. -/
theorem streamMachine_numbers (hr : Run (streamMachine s₀) (fun _ _ _ => True) h s) (k : ℕ)
    (p : SentPacket) (hp : (madePackets h)[k]? = some p) : p.seq = s.seq - BitVec.ofNat 16 k := by
  refine hr.invariant (P := fun h s => ∀ k p, (madePackets h)[k]? = some p →
    p.seq = s.seq - BitVec.ofNat 16 k) (fun k p hp => ?_) (fun h s c _ ih _ => ?_) k p hp
  · cases hp
  · intro k p hp
    show p.seq = (s.call c).seq - _
    rw [call_seq]
    rw [madePackets_cons] at hp
    cases hc : c.made s with
    | none =>
      rw [hc] at hp
      exact ih k p hp
    | some p₀ =>
      rw [hc] at hp
      simp only [Option.isSome_some, if_true]
      cases k with
      | zero =>
        obtain rfl := Option.some.inj hp
        simpa using made_seq s hc
      | succ k =>
        rw [ih k p hp, ← BitVec.toNat_inj]
        simp only [BitVec.toNat_sub, BitVec.toNat_add, BitVec.toNat_ofNat,
          show (1 : U16).toNat = 1 from rfl]
        omega

/-- The packet that the send loop last put into slot `i`. -/
def lastStored (i : ℕ) (ps : List SentPacket) : Option SentPacket :=
  ps.find? fun p => p.byLoop && slotOf p.seq == i

/-- It is one of the packets, from the send loop and for this slot. -/
theorem lastStored_spec {i : ℕ} {ps : List SentPacket} {p : SentPacket}
    (h : lastStored i ps = some p) : p ∈ ps ∧ p.byLoop = true ∧ slotOf p.seq = i := by
  have hhit := List.find?_some h
  obtain ⟨hloop, hslot⟩ := Bool.and_eq_true_iff.1 hhit
  exact ⟨List.mem_of_find?_eq_some h, hloop, beq_iff_eq.1 hslot⟩

/-- Each slot holds what the send loop last put there. -/
theorem streamMachine_slots (hempty : ∀ i, s₀.history i = none)
    (hr : Run (streamMachine s₀) (fun _ _ _ => True) h s) (i : ℕ) :
    s.history i = (lastStored i (madePackets h)).map SentPacket.entry := by
  refine hr.invariant (P := fun h s => s.history i =
    (lastStored i (madePackets h)).map SentPacket.entry) (hempty i) (fun h s c _ ih _ => ?_)
  show (s.call c).history i = _
  rw [call_history, ih, madePackets_cons]
  cases c.made s with
  | none => rfl
  | some p =>
    rw [Option.toList_some, List.singleton_append, lastStored, lastStored, List.find?_cons,
      Option.filter_some]
    cases p.byLoop && slotOf p.seq == i <;> rfl

/-- The look-up finds the last 128 packets of `ps`, and nothing else. -/
def RtpStream.FindsLast (s : RtpStream) (ps : List SentPacket) : Prop :=
  ∀ seq e, s.lookup seq = some e ↔ ∃ p ∈ ps.take historySize, p.seq = seq ∧ p.entry = e

/-- The slot of `p` holds a packet of the send loop with its number, payload and timestamp. -/
def SentPacket.Kept (ps : List SentPacket) (p : SentPacket) : Prop :=
  ∃ p', lastStored (slotOf p.seq) ps = some p' ∧ p'.entry = p.entry

/-- Two of the last 128 packets made do not share a slot. -/
theorem slotOf_injective (hr : Run (streamMachine s₀) (fun _ _ _ => True) h s) {k k' : ℕ}
    {p p' : SentPacket} (hk : k < historySize) (hk' : k' < historySize)
    (hp : (madePackets h)[k]? = some p) (hp' : (madePackets h)[k']? = some p')
    (hslot : slotOf p.seq = slotOf p'.seq) : k = k' := by
  rw [streamMachine_numbers hr k p hp, streamMachine_numbers hr k' p' hp', slotOf, slotOf,
    BitVec.toNat_sub, BitVec.toNat_sub, BitVec.toNat_ofNat, BitVec.toNat_ofNat] at hslot
  simp only [historySize] at hk hk' hslot
  omega

/-- Where 128 packets have been made, the last 128 of them take every slot. -/
theorem exists_slotOf (hr : Run (streamMachine s₀) (fun _ _ _ => True) h s)
    (hlen : historySize ≤ (madePackets h).length) (seq : U16) :
    ∃ p ∈ (madePackets h).take historySize, slotOf p.seq = slotOf seq := by
  have hk : (s.seq.toNat + historySize - slotOf seq) % historySize < historySize :=
    Nat.mod_lt _ (by decide)
  have hget := List.getElem?_eq_getElem (Nat.lt_of_lt_of_le hk hlen)
  refine ⟨_, List.mem_iff_getElem?.2 ⟨_, (List.getElem?_take_of_lt hk).trans hget⟩, ?_⟩
  rw [streamMachine_numbers hr _ _ hget, slotOf, BitVec.toNat_sub, BitVec.toNat_ofNat]
  simp only [slotOf, historySize]
  omega

/-- A packet of the send loop with one of the last 128 numbers is still in its slot. -/
theorem kept_of_byLoop (hr : Run (streamMachine s₀) (fun _ _ _ => True) h s) {p : SentPacket}
    (hp : p ∈ (madePackets h).take historySize) (hloop : p.byLoop = true) :
    p.Kept (madePackets h) := by
  obtain ⟨k, hk⟩ := List.mem_iff_getElem?.1 hp
  rw [List.getElem?_take] at hk
  split at hk
  · rename_i hlt
    have hhit : (p.byLoop && slotOf p.seq == slotOf p.seq) = true := by simp [hloop]
    obtain ⟨p', hp'⟩ : ∃ p', lastStored (slotOf p.seq) (madePackets h) = some p' :=
      Option.isSome_iff_exists.1
        (List.find?_isSome.2 ⟨p, List.mem_of_getElem? hk, hhit⟩)
    -- What the slot holds is no older than the packet, so it is among the last 128 too.
    obtain ⟨hstored, i, hi, hget, hbefore⟩ := List.find?_eq_some_iff_getElem.1 hp'
    have hle : i ≤ k := by
      by_contra hlt'
      have hk' : k < (madePackets h).length := (List.getElem?_eq_some_iff.1 hk).1
      have hmiss := hbefore k (by omega)
      rw [(List.getElem?_eq_some_iff.1 hk).2, hhit] at hmiss
      cases hmiss
    have hget' : (madePackets h)[i]? = some p' := by
      rw [List.getElem?_eq_getElem hi, hget]
    have hsame := slotOf_injective hr (by omega) hlt hget' hk
      (beq_iff_eq.1 (Bool.and_eq_true_iff.1 hstored).2)
    rw [hsame, hk] at hget'
    obtain rfl := Option.some.inj hget'
    exact ⟨p, hp', rfl⟩
  · cases hk

/-- What a look-up finds is what the slot holds, if its number is right. -/
theorem lookup_eq_some (hempty : ∀ i, s₀.history i = none)
    (hr : Run (streamMachine s₀) (fun _ _ _ => True) h s) {seq : U16} {e : HistoryEntry} :
    s.lookup seq = some e ↔
      (∃ p, lastStored (slotOf seq) (madePackets h) = some p ∧ p.entry = e) ∧ e.seq = seq := by
  rw [RtpStream.lookup, Option.filter_eq_some_iff, streamMachine_slots hempty hr,
    Option.map_eq_some_iff, decide_eq_true_eq]

/-- What the history holds is what was sent: each of the last 128 packets sent was made by the
send loop under one of the last 128 numbers, or happens to be the same as the packet its slot
holds; and each packet that the loop last put into a slot is one of them, or the same as one. -/
structure HoldsSent (made sent : List SentPacket) : Prop where
  recent : ∀ p ∈ sent.take historySize,
    (p.byLoop = true ∧ p ∈ made.take historySize) ∨ p.Kept made
  stored : ∀ i p, lastStored i made = some p → ∃ p' ∈ sent.take historySize, p'.entry = p.entry

/-- **Where every packet was handed on**, the history holds what was sent exactly if each of the
last 128 packets is from the send loop, or happens to be the same as the one in its slot. -/
theorem holdsSent_iff_of_handed (hr : Run (streamMachine s₀) (fun _ _ _ => True) h s)
    (hall : ∀ p ∈ h, p.2.handed = true) :
    HoldsSent (madePackets h) (sentPackets h) ↔
      ∀ p ∈ (sentPackets h).take historySize, p.byLoop = true ∨ p.Kept (sentPackets h) := by
  rw [sentPackets_of_handed hall]
  constructor
  · intro hholds p hp
    exact (hholds.recent p hp).imp_left And.left
  · intro hrecent
    refine ⟨fun p hp => (hrecent p hp).imp_left fun hloop => ⟨hloop, hp⟩, fun i p hp => ?_⟩
    obtain ⟨hmem, -, hslot⟩ := lastStored_spec hp
    by_cases hlen : historySize ≤ (madePackets h).length
    · -- One of the last 128 has the slot, and it is kept there.
      obtain ⟨p', hp', hsame⟩ := exists_slotOf hr hlen p.seq
      obtain ⟨p'', hp'', hentry⟩ : p'.Kept (madePackets h) :=
        (hrecent p' hp').elim (kept_of_byLoop hr hp') id
      rw [hsame, hslot, hp] at hp''
      obtain rfl := Option.some.inj hp''
      exact ⟨p', hp', hentry.symm⟩
    · exact ⟨p, by rwa [List.take_of_length_le (by omega)], rfl⟩

end Runs

end AsioRtc
