/-
# Media over a network that keeps the order

Where every datagram arrives once and in order, the media comes through as it is.  The sender has
one stream for the codec of the track, and all the library does with a frame on its way is in
play: the packetizer, `make_rtp`, `write_to`, `parse`, the routing, `depayload`, the jitter buffer
with its 32-bit numbers and its waits, and the reassembly of `recv`.

The frames that the track has given are the first of those that were sent, each whole, once and in
order (`frames_in_order`); and as soon as a packet of the frame behind it is there, the next frame
is given.  The application must not ask for a frame while the last one that has begun to arrive is
incomplete and the wait of the buffer for the rest of it is over (`InTime`).
-/

import AsioRtc.Connection.FramePath
import AsioRtc.Jitter.InOrder

namespace AsioRtc

open Lib Text

/-- The frames that have packets, oldest first. -/
def sentFrames (h : List (RtpSending × SenderCall)) : List PackedFrame :=
  (packedFrames h).filter fun f => f.payloads ≠ []

/-- The data of a frame, as a track puts it together of all its payloads. -/
def PackedFrame.assembled [NoCaseEq] (t : MediaTrack) (f : PackedFrame) : Bytes :=
  if t.format = .h264 then (f.payloads.foldl H264.Reassembly.add {}).out else f.data

/-- What the application gets shows the frame `f` of the stream with SSRC `ssrc`. -/
structure PackedFrame.Shows [NoCaseEq] (t : MediaTrack) (ssrc : U32) (f : PackedFrame)
    (frame : RecvFrame) : Prop where
  timestamp : frame.timestamp = f.timestamp
  data : frame.data = f.assembled t
  ssrc : frame.info.ssrc = ssrc
  first : frame.info.firstSequenceNumber = f.seq + 1
  marker : frame.info.marker = true

/-- A call that neither hands on a packet of the user nor sends one again: whole turns of the loop,
and its end. -/
def SenderCall.plays : SenderCall → Bool
  | .frames _ _ => true
  | .stop => true
  | _ => false

/-! ### The sender -/

section Sender

variable [NoCaseEq] {x₀ x : RtpSending} {h : List (RtpSending × SenderCall)}

/-- What has gone out is the packets `ps`, the first ones of the frames that were packed; where the
loop is still running, it is all of them. -/
structure RtpSending.SendsInOrder (x₀ : RtpSending) (s₀ : LoopStream)
    (h : List (RtpSending × SenderCall)) (x : RtpSending) (ps : List SentPacket) : Prop where
  frames : ps <+: (packedFrames h).flatMap PackedFrame.packets
  made : ps <+: madeBy 0 h
  sent : List.Forall₂ (s₀.MadeAs x₀.transceiver) ps ((senderMachine x₀).sent h)
  whole : x.running = true →
    ps = (packedFrames h).flatMap PackedFrame.packets ∧ ps = madeBy 0 h

/-- **What goes out of a sender**, in order. -/
theorem sent_in_order {s₀ : LoopStream} (hone : x₀.streams = [s₀]) (hempty : ∀ k, s₀.history k = none)
    (hr : Run (senderMachine x₀) (fun _ _ c => c.plays = true) h x) :
    ∃ ps, x₀.SendsInOrder s₀ h x ps := by
  refine hr.invariant (P := fun h x => ∃ ps, x₀.SendsInOrder s₀ h x ps)
    ⟨[], List.nil_prefix, List.nil_prefix, .nil, fun _ => ⟨rfl, rfl⟩⟩ fun h x c hr hx hc => ?_
  obtain ⟨ps, hps⟩ := hx
  have hreaches : x₀.Reaches h x := by
    refine senderMachine_reaches (by rw [hone]; exact List.cons_ne_nil _ _) (fun s hs => ?_)
      (hr.mono fun _ _ c hc pkt o he => by rw [he] at hc; cases hc)
    rw [hone] at hs
    exact List.mem_singleton.1 hs ▸ hempty
  obtain ⟨s, hs⟩ := List.length_eq_one_iff.1
    (hreaches.length.trans (by rw [hone]; rfl) : x.streams.length = 1)
  obtain ⟨s', hs', hfollows⟩ := hreaches.streams 0 s₀ (by rw [hone]; rfl)
  obtain rfl : s = s' := by
    rw [hs] at hs'
    exact Option.some.inj hs'
  -- A call that packs nothing sends nothing.
  have hnothing (hpacked : x.packed c = none) (hout : (x.call c).2 = [])
      (hrunning : (x.call c).1.running = true → x.running = true) :
      x₀.SendsInOrder s₀ ((x, c) :: h) ((senderMachine x₀).next x c) ps := by
    have hframes : packedFrames ((x, c) :: h) = packedFrames h := by
      rw [packedFrames, hpacked, Option.toList_none, List.append_nil]
    have hmade : madeBy 0 ((x, c) :: h) = madeBy 0 h := by
      rw [madeBy, hout]
      exact List.append_nil _
    have hsent : (senderMachine x₀).sent ((x, c) :: h) = (senderMachine x₀).sent h := by
      rw [Machine.sent_cons, Machine.out]
      show _ ++ (x.call c).2.filterMap SentRtp.data = _
      rw [hout]
      exact List.append_nil _
    refine ⟨?_, ?_, ?_, fun hrun => ?_⟩
    · rw [hframes]
      exact hps.frames
    · rw [hmade]
      exact hps.made
    · rw [hsent]
      exact hps.sent
    · rw [hframes, hmade]
      exact hps.whole (hrunning hrun)
  cases c with
  | sendRtp pkt o => cases hc
  | payload k payload timestamp marker o => cases hc
  | nack mediaSsrc seq => cases hc
  | stop => exact ⟨ps, hnothing rfl rfl fun hrun => by cases hrun⟩
  | frames frames o =>
    rcases RtpSending.turn_packed hs frames o with
      ⟨hpacked, hout, -, hrunning⟩ | ⟨f, hpacked, hrun, hseq, -, -, hturn⟩
    · exact ⟨ps, hnothing hpacked hout hrunning⟩
    · obtain ⟨ps', hsent, hprefix, hmedia, -, hwhole⟩ := RtpSending.sendPayloads_packets
        (x := { x with packetizer := (x.packetizer.pack f.data f.timestamp).2 }) (s := s)
        (by rw [hs]; rfl) hrun f.timestamp f.payloads (o 0)
      rw [← hturn] at hsent hprefix hmedia hwhole
      rw [← hseq] at hmedia hwhole
      obtain ⟨hall, hall'⟩ := hps.whole hrun
      refine ⟨ps ++ ps', ?_, ?_, ?_, fun hrun' => ?_⟩
      · rw [packedFrames, hpacked, List.flatMap_append, ← hall, Option.toList_some,
          List.flatMap_singleton, List.prefix_append_right_inj]
        exact hprefix.trans hmedia
      · rw [madeBy, ← hall', List.prefix_append_right_inj]
        exact hprefix
      · rw [Machine.sent_cons]
        refine List.rel_append hps.sent (hsent.imp fun p data hdata => ?_)
        exact (hreaches.transceiver ▸ hdata).congr hfollows.ssrc hfollows.rid
      · obtain ⟨heq, heq'⟩ := hwhole hrun'
        refine ⟨?_, ?_⟩
        · rw [packedFrames, hpacked, List.flatMap_append, ← hall, Option.toList_some,
            List.flatMap_singleton, heq]
          rfl
        · rw [madeBy, ← hall']
          exact congrArg _ (heq.trans heq'.symm)

end Sender

/-! ### One packet, and one frame -/

/-- The packet `q` is the packet `p` as it was sent, without the framing of its codec. -/
structure RtpPacket.ConveysWhole [NoCaseEq] (q : RtpPacket) (name : Text) (ssrc : U32)
    (p : SentPacket) : Prop extends q.Conveys name ssrc p where
  marked : q.marker = if p.marker then 1 else 0

section Frames

variable [NoCaseEq] {c₀ : Connection} {i : ℕ} {track₀ : MediaTrack} {s₀ : LoopStream}

/-- **A packet arrives** at the track that it is routed to. -/
theorem arriving_of_made {t : Option RtpTransceiver} {p : SentPacket} {data : Bytes}
    (hmade : s₀.MadeAs t p data) (hrid : s₀.rid.length < 2 ^ 16)
    (hprimary : c₀.rtxSsrcToSsrc s₀.ssrc = none) (hroute : c₀.RoutedTo data i)
    (htrack : c₀.track? i = some track₀)
    (hcallback : ∀ t, c₀.transceivers[i]? = some t → t.receiver.onRtp = none) {body : Bytes}
    (hbody : depayload track₀.rtpmap.name p.payload = .ok body) (hne : body ≠ []) :
    ∃ q, c₀.arriving data = .ok (some (i, q)) ∧
      q.ConveysWhole track₀.rtpmap.name s₀.ssrc p := by
  obtain ⟨pkt, hparse, hrestores⟩ := LoopStream.Sends.readsAs hrid (.inl hmade)
  obtain ⟨pkt', pkt'', hparse', hrewrite, hreceiver⟩ := hroute
  obtain rfl := Option.some.inj (Except.ok.inj (hparse.symm.trans hparse'))
  have hsame : c₀.rewriteRtxPacket pkt = .ok pkt :=
    c₀.rewriteRtxPacket_primary (by rw [hrestores.ssrc]; exact hprimary)
  obtain rfl := Except.ok.inj (hsame.symm.trans hrewrite)
  obtain ⟨tr, htr, htrack'⟩ := Option.bind_eq_some_iff.1 htrack
  refine ⟨{ pkt with payload := body }, ?_, ⟨hrestores.ssrc, hrestores.sequenceNumber,
    hrestores.timestamp, hbody, fun hm => ?_, hne⟩, hrestores.marker⟩
  · rw [Connection.arriving, hparse]
    simp only [Checked.ok_bind, hrewrite, hreceiver, Connection.takes, htr, RtpTransceiver.takes,
      hcallback tr htr, Option.elim_none, htrack', hrestores.payload, hbody, Bool.not_true,
      Bool.false_eq_true, if_false, if_neg hne]
    rfl
  · have hmarker := hrestores.marker.symm.trans hm
    by_contra hnot
    rw [if_neg hnot] at hmarker
    exact absurd hmarker (by decide)

omit [NoCaseEq] in
theorem map_payload_framePackets (seq : U16) (timestamp : U32) (payloads : List Bytes) :
    (framePackets seq timestamp payloads).map SentPacket.payload = payloads := by
  induction payloads generalizing seq with
  | nil => rfl
  | cons payload payloads ih => rw [framePackets, List.map_cons, ih]

variable [LawfulNoCaseEq]

/-- The data of a frame, of packets that carry all its payloads. -/
theorem PackedFrame.assemble_eq {f : PackedFrame} {p : RtpPacketizer} (hp : p.format = track₀.format)
    (hdata : f.data ≠ []) (hpayloads : f.payloads = (p.pack f.data f.timestamp).1.1)
    {qs : List RtpPacket}
    (hqs : List.Forall₂ (fun sp q => q.ConveysWhole track₀.rtpmap.name s₀.ssrc sp) f.packets qs) :
    track₀.assemble qs = f.assembled track₀ := by
  obtain ⟨bodies, hbodies, -, hflat, hunits⟩ := p.pack_bodies hp hdata f.timestamp
  rw [← hpayloads] at hbodies
  -- The payloads of the packets are the pieces, since each of both is what `depayload` leaves.
  have hmap : qs.map RtpPacket.payload = bodies := by
    have hrel : List.Forall₂ (fun payload body => depayload track₀.rtpmap.name payload = .ok body)
        f.payloads (qs.map RtpPacket.payload) := by
      rw [← map_payload_framePackets f.seq f.timestamp f.payloads, List.forall₂_map_left_iff,
        List.forall₂_map_right_iff]
      exact hqs.imp fun _ _ h => h.payload
    exact List.right_unique_forall₂' (fun _ _ _ h h' => Except.ok.inj (h.symm.trans h')) hrel hbodies
  by_cases hformat : track₀.format = .h264
  · rw [MediaTrack.assemble, if_pos hformat, assembled, if_pos hformat, hpayloads,
      ← hunits (hp.trans hformat), ← hmap, H264.packetsToAnnexB, List.foldl_map]
  · rw [MediaTrack.assemble, if_neg hformat, assembled, if_neg hformat, List.flatMap_def, hmap]
    exact hflat fun h => hformat (hp.symm.trans h)

/-- **A whole frame** is given as what was sent. -/
theorem PackedFrame.shows_of_packets {f : PackedFrame} {p : RtpPacketizer}
    (hp : p.format = track₀.format) (hdata : f.data ≠ [])
    (hpayloads : f.payloads = (p.pack f.data f.timestamp).1.1) {qs : List RtpPacket}
    (hqs : List.Forall₂ (fun sp q => q.ConveysWhole track₀.rtpmap.name s₀.ssrc sp) f.packets qs)
    {first last : RtpPacket} (hfirst : qs.head? = some first) (hlast : qs.getLast? = some last)
    (now : ℤ) : f.Shows track₀ s₀.ssrc (track₀.frameOf now qs first last) := by
  have hlen := hqs.length_eq
  rw [packets, length_framePackets] at hlen
  have hat (a : ℕ) (q : RtpPacket) (hq : qs[a]? = some q) : ∃ payload,
      q.ConveysWhole track₀.rtpmap.name s₀.ssrc ⟨f.seq + BitVec.ofNat 16 (a + 1), payload, f.timestamp,
        decide (a + 1 = f.payloads.length), true⟩ := by
    obtain ⟨ha, rfl⟩ := List.getElem?_eq_some_iff.1 hq
    have ha' : a < f.payloads.length := by omega
    have hpacket := getElem?_framePackets f.seq f.timestamp f.payloads a
    rw [List.getElem?_eq_getElem ha', Option.map_some,
      List.getElem?_eq_getElem (by rwa [length_framePackets])] at hpacket
    have hrel := hqs.get (i := a) (by rwa [packets, length_framePackets]) ha
    rw [List.get_eq_getElem, List.get_eq_getElem] at hrel
    exact ⟨_, Option.some.inj hpacket ▸ hrel⟩
  rw [List.head?_eq_getElem?] at hfirst
  rw [List.getLast?_eq_getElem?] at hlast
  obtain ⟨_, hq⟩ := hat 0 first hfirst
  obtain ⟨_, hq'⟩ := hat _ last hlast
  have hpos : 0 < qs.length := (List.getElem?_eq_some_iff.1 hfirst).1
  refine ⟨hq.timestamp, assemble_eq hp hdata hpayloads hqs, hq.ssrc, hq.sequenceNumber, ?_⟩
  show decide (last.marker ≠ 0) = true
  rw [hq'.marked, hlen, Nat.sub_add_cancel hpos]
  simp

end Frames

/-! ### The pair -/

/-- The wait for more packets at the end of the buffer is not over. -/
def JitterBuffer.StillWaits (b : JitterBuffer) (now : ℕ → ℤ) : Prop :=
  now 1 - b.videoWaitStart.getD (now 1) < b.maxDelay.tdiv 2 * JitterBuffer.ms

/-- What has arrived ends with a frame. -/
def AtBoundary (h : List (RtpSending × SenderCall))
    (h' : List (Connection × Arrival Bytes Clock ReceiverCall)) : Prop :=
  ∃ fs, fs <+: sentFrames h ∧ (arrived h').length = (fs.flatMap PackedFrame.packets).length

/-- A step at the right time: fewer than `2^15` packets wait, and not nearly `2^32` have come;
other datagrams are for other tracks; and a frame is asked for where what has arrived ends with a
frame, or where the wait for more is not over. -/
def InTime [NoCaseEq] (c₀ : Connection) (i : ℕ) (h : List (RtpSending × SenderCall))
    (h' : List (Connection × Arrival Bytes Clock ReceiverCall)) (c : Connection) :
    Arrival Bytes Clock ReceiverCall → Prop
  | .message _ _ => (arrived h').length < 2 ^ 32 - 2 ^ 17 ∧
      ∀ b, c.jitter? i = some b → b.sorted.size < 0x8000
  | .own (.datagram data _) => ∀ q, c₀.arriving data ≠ .ok (some (i, q))
  | .own (.recv j clock _) => j = i →
      AtBoundary h h' ∨ ∀ b, c.jitter? i = some b → b.StillWaits clock

/-- The frames of the sender have been given (`fs`) or are still to be given (`fs'`); of the
packets of the latter the first ones wait in the buffer, and the others have not arrived. -/
structure InStep [NoCaseEq] (s₀ : LoopStream) (c₀ : Connection) (i : ℕ) (track₀ : MediaTrack)
    (h : List (RtpSending × SenderCall))
    (h' : List (Connection × Arrival Bytes Clock ReceiverCall)) (c : Connection)
    (fs fs' : List PackedFrame) (waiting future : List SentPacket) (b : JitterBuffer)
    (qs : List RtpPacket) : Prop where
  setup : c₀.SameSetup c
  jitter : c.jitter? i = some b
  settings : track₀.jitter.SameSettings b
  queue : b.Queues ((s₀.seq + 1).toNat + (fs.flatMap PackedFrame.packets).length) qs
  frames : sentFrames h = fs ++ fs'
  packets : fs'.flatMap PackedFrame.packets = waiting ++ future
  count : (arrived h').length = (fs.flatMap PackedFrame.packets).length + waiting.length
  few : (arrived h').length ≤ 2 ^ 32 - 2 ^ 17
  waits : List.Forall₂ (fun p q => q.ConveysWhole track₀.rtpmap.name s₀.ssrc p) waiting qs
  given : List.Forall₂ (PackedFrame.Shows track₀ s₀.ssrc) fs (framesOut c₀ i h')

/-- The whole frame `f` waits, `block` in front of `rest`; the packets behind it are `more`. -/
structure WholeFrame [NoCaseEq] (name : Text) (ssrc : U32) (f : PackedFrame)
    (waiting : List SentPacket) (qs : List RtpPacket) (more : List SentPacket)
    (block rest : List RtpPacket) : Prop where
  waits : waiting = f.packets ++ more
  queue : qs = block ++ rest
  whole : List.Forall₂ (fun p q => q.ConveysWhole name ssrc p) f.packets block
  behind : List.Forall₂ (fun p q => q.ConveysWhole name ssrc p) more rest
  nonempty : block ≠ []
  stamp : ∀ q ∈ block, q.timestamp = f.timestamp
  next : ∀ q ∈ rest.head?, q.timestamp ≠ f.timestamp

section Pair

variable [NoCaseEq] {x₀ x : RtpSending} {s₀ : LoopStream} {c₀ c : Connection} {i : ℕ}
  {track₀ : MediaTrack} {h : List (RtpSending × SenderCall)}
  {h' : List (Connection × Arrival Bytes Clock ReceiverCall)} {fs fs' : List PackedFrame}
  {waiting future : List SentPacket} {p : SentPacket} {b : JitterBuffer} {qs : List RtpPacket}

omit [NoCaseEq] in
theorem sentFrames_cons (x : RtpSending) (e : SenderCall) (h : List (RtpSending × SenderCall)) :
    sentFrames ((x, e) :: h) =
      sentFrames h ++ (x.packed e).toList.filter fun f => f.payloads ≠ [] :=
  List.filter_append ..

omit [NoCaseEq] in
/-- A frame without payloads has no packets. -/
theorem flatMap_sentFrames (h : List (RtpSending × SenderCall)) :
    (sentFrames h).flatMap PackedFrame.packets = (packedFrames h).flatMap PackedFrame.packets := by
  unfold sentFrames
  induction packedFrames h with
  | nil => rfl
  | cons f fs ih =>
    rw [List.filter_cons, List.flatMap_cons]
    split
    · rw [List.flatMap_cons, ih]
    · rename_i hnil
      have hpayloads : f.payloads = [] := by simpa using hnil
      have hpackets : f.packets = [] := by
        rw [PackedFrame.packets, hpayloads]
        rfl
      rw [ih, hpackets, List.nil_append]

omit [NoCaseEq] in
theorem PackedFrame.packets_ne_nil {f : PackedFrame} (hf : f ∈ sentFrames h) : f.packets ≠ [] := by
  have hne : f.payloads ≠ [] := by simpa using (List.mem_filter.1 hf).2
  rw [packets, Ne, ← List.length_eq_zero_iff, length_framePackets, List.length_eq_zero_iff]
  exact hne

omit [NoCaseEq] in
/-- What stands for the first part stands in front. -/
theorem forall₂_append_left {α β : Type*} {R : α → β → Prop} {l₁ l₂ : List α} {m : List β}
    (hrel : List.Forall₂ R (l₁ ++ l₂) m) :
    ∃ m₁ m₂, m = m₁ ++ m₂ ∧ List.Forall₂ R l₁ m₁ ∧ List.Forall₂ R l₂ m₂ := by
  have h₁ := List.forall₂_take l₁.length hrel
  have h₂ := List.forall₂_drop l₁.length hrel
  rw [List.take_left] at h₁
  rw [List.drop_left] at h₂
  exact ⟨_, _, (List.take_append_drop l₁.length m).symm, h₁, h₂⟩

/-- **The first frame that waits**: it is there, with the packets of the frames behind it, or a part
of it is. -/
theorem InStep.first_frame (hstep : InStep s₀ c₀ i track₀ h h' c fs fs' waiting future b qs)
    (hchain : (sentFrames h).IsChain fun f g => f.timestamp ≠ g.timestamp) (hne : waiting ≠ []) :
    ∃ f fs'', fs' = f :: fs'' ∧
      ((∃ more block rest, fs''.flatMap PackedFrame.packets = more ++ future ∧
          WholeFrame track₀.rtpmap.name s₀.ssrc f waiting qs more block rest) ∨
        ∃ missing, missing ≠ [] ∧ f.packets = waiting ++ missing ∧
          ∀ q ∈ qs, q.timestamp = f.timestamp) := by
  have hrest := hstep.packets
  cases fs' with
  | nil =>
    have := List.append_eq_nil_iff.1 hrest.symm
    exact absurd this.1 hne
  | cons f fs'' =>
    have hmem : f ∈ sentFrames h := by
      rw [hstep.frames]
      exact List.mem_append_right _ (List.mem_cons_self ..)
    have hstamp {ps : List SentPacket} {rs : List RtpPacket} (hsub : ps ⊆ f.packets)
        (hrel : List.Forall₂ (fun p q => q.ConveysWhole track₀.rtpmap.name s₀.ssrc p) ps rs) :
        ∀ q ∈ rs, q.timestamp = f.timestamp := by
      intro q hq
      obtain ⟨n, hn, rfl⟩ := List.getElem_of_mem hq
      have hn' : n < ps.length := hrel.length_eq ▸ hn
      have hget := hrel.get hn' hn
      rw [List.get_eq_getElem, List.get_eq_getElem] at hget
      rw [hget.timestamp]
      exact f.timestamp_of_mem (hsub (List.getElem_mem hn'))
    refine ⟨f, fs'', rfl, ?_⟩
    rw [List.flatMap_cons, List.append_eq_append_iff] at hrest
    have hcomplete {more : List SentPacket} (hmore : waiting = f.packets ++ more)
        (hfuture : fs''.flatMap PackedFrame.packets = more ++ future) :
        ∃ more block rest, fs''.flatMap PackedFrame.packets = more ++ future ∧
          WholeFrame track₀.rtpmap.name s₀.ssrc f waiting qs more block rest := by
      obtain ⟨block, rest, hqs, hblock, hmore'⟩ := forall₂_append_left (hmore ▸ hstep.waits)
      refine ⟨more, block, rest, hfuture, hmore, hqs, hblock, hmore', ?_,
        hstamp (List.Subset.refl _) hblock, fun q hq => ?_⟩
      · rintro rfl
        exact PackedFrame.packets_ne_nil hmem (List.forall₂_nil_right_iff.1 hblock)
      · -- The packet behind the frame is the first one of the next frame.
        cases hmore' with
        | nil => cases hq
        | cons hpq _ =>
          obtain rfl := Option.some.inj hq
          cases fs'' with
          | nil => cases hfuture
          | cons g gs =>
            have hg : g ∈ sentFrames h := by
              rw [hstep.frames]
              exact List.mem_append_right _ (List.mem_cons_of_mem _ (List.mem_cons_self ..))
            obtain ⟨p', ps', hps'⟩ := List.exists_cons_of_ne_nil (PackedFrame.packets_ne_nil hg)
            rw [List.flatMap_cons, hps', List.cons_append, List.cons_append] at hfuture
            obtain ⟨rfl, -⟩ := List.cons.inj hfuture
            rw [hpq.timestamp, g.timestamp_of_mem (hps' ▸ List.mem_cons_self ..)]
            rw [hstep.frames] at hchain
            exact fun heq => (List.isChain_cons_cons.1 hchain.right_of_append).1 heq.symm
    rcases hrest with ⟨more, hmore, hfuture⟩ | ⟨missing, hmissing, hfuture⟩
    · exact .inl (hcomplete hmore hfuture)
    · cases missing with
      | nil =>
        rw [List.append_nil] at hmissing
        exact .inl (@hcomplete [] (by rw [hmissing, List.append_nil]) hfuture.symm)
      | cons p ps =>
        refine .inr ⟨p :: ps, List.cons_ne_nil _ _, hmissing, hstamp ?_ hstep.waits⟩
        rw [hmissing]
        exact List.subset_append_left ..

/-- What the sender puts out later does not matter. -/
theorem InStep.send (hstep : InStep s₀ c₀ i track₀ h h' c fs fs' waiting future b qs)
    (x : RtpSending) (e : SenderCall) : ∃ fs' future,
    InStep s₀ c₀ i track₀ ((x, e) :: h) h' c fs fs' waiting future b qs := by
  refine ⟨fs' ++ (x.packed e).toList.filter fun f => f.payloads ≠ [],
    future ++ ((x.packed e).toList.filter fun f => f.payloads ≠ []).flatMap PackedFrame.packets,
    { hstep with frames := ?_, packets := ?_ }⟩
  · rw [sentFrames_cons, hstep.frames, List.append_assoc]
  · rw [List.flatMap_append, hstep.packets, List.append_assoc]

/-- A step of the receiver that leaves the track alone. -/
theorem InStep.aside (hstep : InStep s₀ c₀ i track₀ h h' c fs fs' waiting future b qs)
    {c' : Connection} (hsame : c.SameSetup c') (hjitter : c'.jitter? i = c.jitter? i)
    {e : ReceiverCall} (he : ∀ clock now, e ≠ .recv i clock now) :
    InStep s₀ c₀ i track₀ h ((c, .own e) :: h') c' fs fs' waiting future b qs := by
  have hframes := framesOut_other (i := i) (e := .own e)
    (fun clock now heq => he clock now (Arrival.own.inj heq)) c₀ c h'
  exact { hstep with
    setup := hstep.setup.trans hsame, jitter := hjitter.trans hstep.jitter
    given := hframes ▸ hstep.given }

/-- **The next packet arrives.** -/
theorem InStep.arrive (hstep : InStep s₀ c₀ i track₀ h h' c fs fs' waiting (p :: future) b qs)
    {q : RtpPacket} {data : Bytes} {clock : Clock}
    (hdata : c₀.arriving data = .ok (some (i, q)))
    (hq : q.ConveysWhole track₀.rtpmap.name s₀.ssrc p)
    (hseq : p.seq = s₀.seq + BitVec.ofNat 16 ((arrived h').length + 1))
    (htime : InTime c₀ i h h' c (.message data clock)) :
    InStep s₀ c₀ i track₀ h ((c, .message data clock) :: h') (c.received clock data) fs fs'
      (waiting ++ [p]) future (b.push q) (qs ++ [q]) := by
  obtain ⟨q', hq', hsame, hjitter⟩ := c.received_spec clock data
  rw [Connection.arriving_congr hstep.setup, hdata] at hq'
  obtain rfl := Except.ok.inj hq'
  obtain ⟨hfew, hsize⟩ := htime
  have hlen := hstep.waits.length_eq
  have hcount := hstep.count
  have hsmall : qs.length < 0x8000 := by
    have := hsize b hstep.jitter
    rwa [OrdMap.size, hstep.queue.entries, length_keyed] at this
  refine ⟨hstep.setup.trans hsame, ?_, ?_, ?_, hstep.frames, ?_, ?_, ?_, ?_, ?_⟩
  · rw [hjitter, hstep.jitter]
    simp only [pushedTo, if_true, Option.map_some]
  · obtain ⟨hvideo, hdelay⟩ := b.push_settings q
    exact ⟨hvideo.trans hstep.settings.1, hdelay.trans hstep.settings.2⟩
  · refine hstep.queue.push ?_ hq.nonempty hsmall ?_
    · rw [hq.sequenceNumber, hseq, Nat.add_assoc, ← hlen, ← hcount]
      apply BitVec.eq_of_toNat_eq
      simp only [BitVec.toNat_add, BitVec.toNat_ofNat, show (1 : U16).toNat = 1 from rfl]
      omega
    · have := (s₀.seq + 1).isLt
      omega
  · rw [hstep.packets, List.append_assoc, List.singleton_append]
  · rw [arrived, List.length_append, List.length_singleton, List.length_append,
      List.length_singleton, hcount, Nat.add_assoc]
  · rw [arrived, List.length_append, List.length_singleton]
    omega
  · exact List.rel_append hstep.waits (.cons hq .nil)
  · rw [framesOut_other (fun _ _ h => by cases h)]
    exact hstep.given

/-- Nothing is given where the buffer gives nothing. -/
theorem InStep.recv_none (hstep : InStep s₀ c₀ i track₀ h h' c fs fs' waiting future b qs)
    {clock : ℕ → ℤ} (hpop : (b.popFrame clock).2 = []) (now : ℤ) : (c.recv i clock now).2 = none := by
  obtain ⟨track, htrack, rfl⟩ := Option.map_eq_some_iff.1
    (show (c.track? i).map MediaTrack.jitter = some b from hstep.jitter)
  rw [Connection.recv_eq htrack]
  simp only [MediaTrack.recv, hpop, List.head?_nil]

/-- The frame that is given, where the buffer gives packets. -/
theorem InStep.recv_some (hstep : InStep s₀ c₀ i track₀ h h' c fs fs' waiting future b qs)
    (htrack : c₀.track? i = some track₀) {clock : ℕ → ℤ} {block : List RtpPacket}
    (hpop : (b.popFrame clock).2 = block) (hne : block ≠ []) (now : ℤ) : ∃ first last,
      block.head? = some first ∧ block.getLast? = some last ∧
      (c.recv i clock now).2 = some (track₀.frameOf now block first last) := by
  obtain ⟨track, ht, rfl⟩ := Option.map_eq_some_iff.1
    (show (c.track? i).map MediaTrack.jitter = some b from hstep.jitter)
  obtain ⟨track', ht', hmap⟩ := hstep.setup.track? ht
  obtain rfl := Option.some.inj (htrack.symm.trans ht')
  have hfirst := List.head?_eq_some_head hne
  have hlast := List.getLast?_eq_some_getLast hne
  refine ⟨_, _, hfirst, hlast, ?_⟩
  rw [Connection.recv_eq ht, ← MediaTrack.frameOf_congr hmap]
  simp only [MediaTrack.recv, hpop, hfirst, hlast]

/-- **A frame is asked for.** -/
theorem InStep.recv [LawfulNoCaseEq]
    (hstep : InStep s₀ c₀ i track₀ h h' c fs fs' waiting future b qs)
    (htrack : c₀.track? i = some track₀)
    (hchain : (sentFrames h).IsChain fun f g => f.timestamp ≠ g.timestamp)
    (hpacked : ∀ f ∈ sentFrames h, f.data ≠ [] ∧ ∃ p : RtpPacketizer,
      p.format = track₀.format ∧ f.payloads = (p.pack f.data f.timestamp).1.1)
    (hshort : track₀.jitter.isVideo = false → ∀ f ∈ sentFrames h, f.packets.length ≤ 1)
    {clock : ℕ → ℤ} {now : ℤ} (htime : InTime c₀ i h h' c (.own (.recv i clock now))) :
    ∃ fs fs' waiting b qs, InStep s₀ c₀ i track₀ h ((c, .own (.recv i clock now)) :: h')
      (c.recv i clock now).1 fs fs' waiting future b qs := by
  obtain ⟨hsame, hjitter⟩ := c.recv_spec i clock now
  have hjitter' : (c.recv i clock now).1.jitter? i = some (b.popEntries clock).1 := by
    rw [hjitter, if_pos rfl, hstep.jitter]
    rfl
  -- Where the buffer gives nothing, everything goes on waiting.
  have hwaits (hpop : (b.popFrame clock).2 = []) (hsettings : b.SameSettings (b.popEntries clock).1)
      (hqueue : (b.popEntries clock).1.Queues
        ((s₀.seq + 1).toNat + (fs.flatMap PackedFrame.packets).length) qs) :
      InStep s₀ c₀ i track₀ h ((c, .own (.recv i clock now)) :: h') (c.recv i clock now).1 fs fs'
        waiting future (b.popEntries clock).1 qs := by
    have hframes := framesOut_recv (i := i) c₀ c clock now h'
    rw [hstep.recv_none hpop, Option.toList_none, List.append_nil] at hframes
    exact { hstep with
      setup := hstep.setup.trans hsame, jitter := hjitter'
      settings := ⟨hsettings.1.trans hstep.settings.1, hsettings.2.trans hstep.settings.2⟩
      queue := hqueue, given := hframes ▸ hstep.given }
  by_cases hnil : waiting = []
  · have hqs : qs = [] := by
      have := hstep.waits
      rw [hnil] at this
      exact List.forall₂_nil_left_iff.1 this
    have hpop := (hqs ▸ hstep.queue).pop_nil clock
    refine ⟨fs, fs', waiting, _, qs, hwaits ?_ ?_ ?_⟩
    · rw [JitterBuffer.popFrame, hpop]
      rfl
    · rw [hpop]
      exact ⟨rfl, rfl⟩
    · rw [hpop]
      exact hstep.queue
  have hlen := hstep.waits.length_eq
  have hcount := hstep.count
  have hfew := hstep.few
  have hbound := (s₀.seq + 1).isLt
  obtain ⟨f, fs'', rfl, hcases⟩ := hstep.first_frame hchain hnil
  have hmem : f ∈ sentFrames h := by
    rw [hstep.frames]
    exact List.mem_append_right _ (List.mem_cons_self ..)
  rcases hcases with ⟨more, block, rest, hfuture, hwhole⟩ | ⟨missing, hmissing, hpart, hstamp⟩
  · -- The whole frame is there.
    have hblock : block.length = f.packets.length := hwhole.whole.length_eq.symm
    have hlen' := hlen
    rw [hwhole.waits, hwhole.queue, List.length_append, List.length_append] at hlen'
    rw [hwhole.waits, List.length_append] at hcount
    obtain ⟨hsettings, hpop⟩ := (hwhole.queue ▸ hstep.queue).pop hwhole.nonempty hwhole.stamp
      hwhole.next (by omega) clock
    split at hpop
    · exact ⟨fs, f :: fs'', waiting, _, qs, hwaits hpop.1 hsettings (hwhole.queue ▸ hpop.2)⟩
    · obtain ⟨first, last, hfirst, hlast, hgiven⟩ :=
        hstep.recv_some htrack hpop.1 hwhole.nonempty now
      obtain ⟨hdata, p, hformat, hpayloads⟩ := hpacked f hmem
      have hflat : (fs ++ [f]).flatMap PackedFrame.packets =
          fs.flatMap PackedFrame.packets ++ f.packets := by
        rw [List.flatMap_append, List.flatMap_singleton]
      refine ⟨fs ++ [f], fs'', more, _, rest, hstep.setup.trans hsame, hjitter',
        ⟨hsettings.1.trans hstep.settings.1, hsettings.2.trans hstep.settings.2⟩, ?_, ?_, hfuture, ?_,
        hfew, hwhole.behind, ?_⟩
      · rw [hflat, List.length_append, ← hblock, ← Nat.add_assoc]
        exact hpop.2
      · rw [hstep.frames, List.append_assoc]
        rfl
      · rw [hflat, List.length_append]
        show (arrived h').length = _
        omega
      · rw [framesOut_recv, hgiven, Option.toList_some]
        exact List.rel_append hstep.given (.cons
          (f.shows_of_packets hformat hdata hpayloads hwhole.whole hfirst hlast now) .nil)
  · -- Only a part of it is there, and the buffer waits.
    have hne : qs ≠ [] := by
      rintro rfl
      exact hnil (List.length_eq_zero_iff.1 hlen)
    have hpos : 0 < missing.length := List.length_pos_of_ne_nil hmissing
    have hpos' : 0 < waiting.length := List.length_pos_of_ne_nil hnil
    have hsum := congrArg List.length hpart
    rw [List.length_append] at hsum
    have hvideo : b.isVideo = true := by
      rw [hstep.settings.1]
      by_contra hv
      have := hshort (Bool.eq_false_iff.2 hv) f hmem
      omega
    have hstill : b.StillWaits clock := by
      rcases htime rfl with ⟨fs₀, hfs₀, hboundary⟩ | hstill
      · exfalso
        rw [hstep.frames] at hfs₀
        -- A beginning of the frames ends before the frame or behind it.
        rcases List.prefix_or_prefix_of_prefix hfs₀
          (List.prefix_append (fs ++ [f]) fs'' |>.trans (by rw [List.append_assoc]; rfl)) with hle | hle
        · rcases List.prefix_concat_iff.1 hle with rfl | hle
          · rw [List.flatMap_append, List.flatMap_singleton, List.length_append] at hboundary
            omega
          · obtain ⟨more, rfl⟩ := hle
            rw [List.flatMap_append, List.length_append] at hcount
            omega
        · obtain ⟨more, rfl⟩ := hle
          rw [List.flatMap_append, List.flatMap_append, List.flatMap_singleton, List.length_append,
            List.length_append] at hboundary
          omega
      · exact hstill b hstep.jitter
    have hqueue : b.Queues ((s₀.seq + 1).toNat + (fs.flatMap PackedFrame.packets).length)
        (qs ++ []) := by
      rw [List.append_nil]
      exact hstep.queue
    obtain ⟨hsettings, hpop⟩ := JitterBuffer.Queues.pop hqueue hne hstamp (fun q hq => by cases hq)
      (by omega) clock
    rw [if_pos ⟨hvideo, rfl, hstill⟩, List.append_nil] at hpop
    exact ⟨fs, f :: fs'', waiting, _, qs, hwaits hpop.1 hsettings hpop.2⟩

end Pair

/-! ### Runs -/

/-- The sender has one stream, for the codec of the track, and the receiver takes the packets of
the stream to the track, which has just been made. -/
structure Paired [NoCaseEq] (x₀ : RtpSending) (s₀ : LoopStream) (c₀ : Connection) (i : ℕ)
    (track₀ : MediaTrack) : Prop where
  one : x₀.streams = [s₀]
  empty : ∀ k, s₀.history k = none
  rid : s₀.rid.length < 2 ^ 16
  codec : x₀.packetizer.format = track₀.format
  primary : c₀.rtxSsrcToSsrc s₀.ssrc = none
  route : ∀ p data, s₀.MadeAs x₀.transceiver p data → c₀.RoutedTo data i
  callback : ∀ t, c₀.transceivers[i]? = some t → t.receiver.onRtp = none
  track : c₀.track? i = some track₀
  fresh : track₀ = .create track₀.rtpmap

section Runs

variable [NoCaseEq] {x₀ x : RtpSending} {s₀ : LoopStream} {c₀ c : Connection} {i : ℕ}
  {track₀ : MediaTrack} {h : List (RtpSending × SenderCall)}
  {h' : List (Connection × Arrival Bytes Clock ReceiverCall)}

/-- What has been sent is the packets of the frames: the one behind those that have arrived. -/
theorem Paired.next_packet (hpair : Paired x₀ s₀ c₀ i track₀)
    (hr : Run (senderMachine x₀) (fun _ _ e => e.plays = true) h x) {came : List Bytes} {data : Bytes}
    (hfifo : came ++ [data] <+: (senderMachine x₀).sent h) :
    ∃ p, s₀.MadeAs x₀.transceiver p data ∧
      ((sentFrames h).flatMap PackedFrame.packets)[came.length]? = some p ∧
      p.seq = s₀.seq + BitVec.ofNat 16 (came.length + 1) := by
  have hreaches : x₀.Reaches h x := by
    refine senderMachine_reaches (by rw [hpair.one]; exact List.cons_ne_nil _ _) (fun s hs => ?_)
      (hr.mono fun _ _ c hc pkt o he => by rw [he] at hc; cases hc)
    rw [hpair.one] at hs
    exact List.mem_singleton.1 hs ▸ hpair.empty
  obtain ⟨s, -, hfollows⟩ := hreaches.streams 0 s₀ (by rw [hpair.one]; rfl)
  obtain ⟨ps, hps⟩ := sent_in_order hpair.one hpair.empty hr
  have hdata : ((senderMachine x₀).sent h)[came.length]? = some data := by
    obtain ⟨more, hmore⟩ := hfifo
    rw [← hmore, List.append_assoc, List.getElem?_append_right le_rfl, Nat.sub_self]
    rfl
  obtain ⟨hlt, rfl⟩ := List.getElem?_eq_some_iff.1 hdata
  have hlt' : came.length < ps.length := hps.sent.length_eq ▸ hlt
  have hp := List.getElem?_eq_getElem hlt'
  refine ⟨ps[came.length], hps.sent.get hlt' hlt, ?_,
    hfollows.numbers _ _ (List.prefix_iff_getElem?.1 hps.made _ hlt')⟩
  rw [flatMap_sentFrames]
  exact List.prefix_iff_getElem?.1 hps.frames _ hlt'

/-- The packets of Opus are whole frames. -/
theorem Paired.length_packets (hpair : Paired x₀ s₀ c₀ i track₀) [LawfulNoCaseEq]
    (haudio : track₀.jitter.isVideo = false) {f : PackedFrame} {p : RtpPacketizer}
    (hp : p.format = track₀.format) (hf : f.payloads = (p.pack f.data f.timestamp).1.1) :
    f.packets.length ≤ 1 := by
  have hname : nceq track₀.rtpmap.name "opus".toList = true := by
    rw [hpair.fresh] at haudio
    exact (Bool.not_eq_false_eq_eq_true _).mp haudio
  have hformat : track₀.format = .opus := by
    rw [MediaTrack.format, nceq_disjoint (by decide) hname, nceq_disjoint (by decide) hname,
      nceq_disjoint (by decide) hname, hname]
    rfl
  rw [hformat] at hp
  cases p with
  | opus =>
    rw [PackedFrame.packets, length_framePackets, hf]
    exact le_rfl
  | h264 => cases hp
  | vp8 p => cases hp
  | vp9 p => cases hp

/-- **The invariant of the pair**, as long as frames behind each other have different timestamps. -/
theorem inStep_of_run [LawfulNoCaseEq] (hpair : Paired x₀ s₀ c₀ i track₀)
    (hr : NetRun (.fifo Bytes) (senderMachine x₀) (fun _ _ e => e.plays = true)
      (receiverMachine c₀) (InTime c₀ i) h x h' c)
    (hchain : (sentFrames h).IsChain fun f g => f.timestamp ≠ g.timestamp) :
    ∃ fs fs' waiting future b qs, InStep s₀ c₀ i track₀ h h' c fs fs' waiting future b qs := by
  have hpacked {h : List (RtpSending × SenderCall)} {x : RtpSending}
      (hr : Run (senderMachine x₀) (fun _ _ e => e.plays = true) h x) :
      ∀ f ∈ sentFrames h, f.data ≠ [] ∧ ∃ p : RtpPacketizer,
        p.format = track₀.format ∧ f.payloads = (p.pack f.data f.timestamp).1.1 := by
    have hpacks := packets_of_run hpair.one hpair.empty
      (hr.mono fun _ _ e he => by cases e <;> first | rfl | exact he)
    intro f hf
    obtain ⟨hdata, p, hformat, hpayloads⟩ := hpacks.frames f (List.mem_filter.1 hf).1
    exact ⟨hdata, p, hformat.trans hpair.codec, hpayloads⟩
  revert hchain
  refine hr.invariant (P := fun h _ h' c =>
    ((sentFrames h).IsChain fun f g => f.timestamp ≠ g.timestamp) →
      ∃ fs fs' waiting future b qs, InStep s₀ c₀ i track₀ h h' c fs fs' waiting future b qs) ?_ ?_ ?_ ?_
  · intro _
    refine ⟨[], [], [], [], track₀.jitter, [], .refl c₀, ?_, ⟨rfl, rfl⟩, ?_, rfl, rfl, rfl,
      Nat.zero_le _, .nil, .nil⟩
    · rw [Connection.jitter?, ← Connection.track?,
        show (receiverMachine c₀).init.track? i = some track₀ from hpair.track]
      rfl
    · rw [hpair.fresh]
      exact .create 500 _ (s₀.seq + 1).isLt
  · intro h x h' c e _ ih _ hchain
    rw [sentFrames_cons] at hchain
    obtain ⟨fs, fs', waiting, future, b, qs, hstep⟩ := ih hchain.left_of_append
    obtain ⟨fs', future, hstep⟩ := hstep.send x e
    exact ⟨fs, fs', waiting, future, b, qs, hstep⟩
  · intro h x h' c data clock hr ih hfifo htime hchain
    obtain ⟨fs, fs', waiting, future, b, qs, hstep⟩ := ih hchain
    obtain ⟨p, hmade, hp, hseq⟩ := hpair.next_packet hr.sender hfifo
    -- It is the first packet that has not arrived.
    have hnext : future[0]? = some p := by
      rw [hstep.frames, List.flatMap_append, hstep.packets, hstep.count,
        List.getElem?_append_right (by omega), List.getElem?_append_right (by omega)] at hp
      rwa [show (fs.flatMap PackedFrame.packets).length + waiting.length -
        (fs.flatMap PackedFrame.packets).length - waiting.length = 0 by omega] at hp
    cases future with
    | nil => cases hnext
    | cons p' future =>
      obtain rfl := Option.some.inj hnext
      obtain ⟨f, hf, hpf⟩ := List.mem_flatMap.1 (List.mem_of_getElem? hp)
      obtain ⟨hdata, pk, hformat, hpayloads⟩ := hpacked hr.sender f hf
      obtain ⟨bodies, hbodies, hne, -⟩ := pk.pack_bodies hformat hdata f.timestamp
      rw [← hpayloads] at hbodies
      have hmem : p'.payload ∈ f.payloads := by
        rw [← map_payload_framePackets f.seq f.timestamp f.payloads]
        exact List.mem_map_of_mem hpf
      obtain ⟨a, ha, heq⟩ := List.getElem_of_mem hmem
      have ha' : a < bodies.length := hbodies.length_eq ▸ ha
      have hbody := hbodies.get ha ha'
      rw [List.get_eq_getElem, List.get_eq_getElem, heq] at hbody
      obtain ⟨q, hq, hwhole⟩ := arriving_of_made hmade hpair.rid hpair.primary
        (hpair.route _ _ hmade) hpair.track hpair.callback hbody (hne _ (List.getElem_mem ha'))
      exact ⟨fs, fs', _, future, _, _, hstep.arrive hq hwhole hseq htime⟩
  · intro h x h' c e hr ih htime hchain
    obtain ⟨fs, fs', waiting, future, b, qs, hstep⟩ := ih hchain
    cases e with
    | datagram data clock =>
      obtain ⟨q, hq, hsame, hjitter⟩ := c.received_spec clock data
      rw [Connection.arriving_congr hstep.setup] at hq
      refine ⟨fs, fs', waiting, future, b, qs, hstep.aside hsame ?_ fun _ _ he => by cases he⟩
      rw [hjitter]
      cases q with
      | none => rfl
      | some q =>
        obtain ⟨j, q⟩ := q
        refine if_neg fun hj => htime q ?_
        rw [hq, hj]
    | recv j clock now =>
      by_cases hj : j = i
      · subst hj
        obtain ⟨fs, fs', waiting, b, qs, hstep⟩ := hstep.recv hpair.track hchain (hpacked hr.sender)
          (fun haudio f hf => by
            obtain ⟨-, p, hformat, hpayloads⟩ := hpacked hr.sender f hf
            exact hpair.length_packets haudio hformat hpayloads) htime
        exact ⟨fs, fs', waiting, future, b, qs, hstep⟩
      · obtain ⟨hsame, hjitter⟩ := c.recv_spec j clock now
        refine ⟨fs, fs', waiting, future, b, qs, hstep.aside hsame ?_ fun _ _ he => ?_⟩
        · rw [hjitter, if_neg fun h => hj h.symm]
        · cases he
          exact hj rfl

/-- **The frames come out as they went in**, over a network that keeps the order: those that the
track has given are the first of those that were sent, each whole, with its own timestamp, SSRC and
numbers, once and in order, for every codec; and where a packet behind the next frame has arrived,
the track gives that frame when it is asked.  Other datagrams, and calls at other tracks, may come
in between. -/
theorem frames_in_order [LawfulNoCaseEq] (x₀ : RtpSending) (s₀ : LoopStream) (c₀ : Connection) (i : ℕ)
    (track₀ : MediaTrack) (hpair : Paired x₀ s₀ c₀ i track₀) (h : List (RtpSending × SenderCall))
    (x : RtpSending) (h' : List (Connection × Arrival Bytes Clock ReceiverCall)) (c : Connection)
    (hr : NetRun (.fifo Bytes) (senderMachine x₀) (fun _ _ e => e.plays = true)
      (receiverMachine c₀) (InTime c₀ i) h x h' c)
    (hchain : (sentFrames h).IsChain fun f g => f.timestamp ≠ g.timestamp) :
    List.Forall₂ (PackedFrame.Shows track₀ s₀.ssrc)
        ((sentFrames h).take (framesOut c₀ i h').length) (framesOut c₀ i h') ∧
      ((((sentFrames h).take ((framesOut c₀ i h').length + 1)).flatMap PackedFrame.packets).length <
          (arrived h').length → ∀ clock now, (c.recv i clock now).2 ≠ none) := by
  obtain ⟨fs, fs', waiting, future, b, qs, hstep⟩ := inStep_of_run hpair hr hchain
  have hlen := hstep.given.length_eq
  refine ⟨?_, fun hbehind clock now hnone => ?_⟩
  · rw [hstep.frames, ← hlen, List.take_left]
    exact hstep.given
  have hcount := hstep.count
  rw [hstep.frames, ← hlen, List.take_append, List.take_of_length_le (Nat.le_succ _),
    Nat.add_sub_cancel_left, List.flatMap_append, List.length_append] at hbehind
  have hne : waiting ≠ [] := by
    rintro rfl
    rw [List.length_nil] at hcount
    omega
  obtain ⟨f, fs'', rfl, hcases⟩ := hstep.first_frame hchain hne
  rw [List.take_succ_cons, List.take_zero, List.flatMap_singleton] at hbehind
  rcases hcases with ⟨more, block, rest, -, hwhole⟩ | ⟨missing, -, hpart, -⟩
  · rw [hwhole.waits, List.length_append] at hcount
    have hrest : rest ≠ [] := by
      rintro rfl
      have := hwhole.behind.length_eq
      rw [List.length_nil] at this
      omega
    have hbound := (s₀.seq + 1).isLt
    have hfew := hstep.few
    have hblock := hwhole.whole.length_eq
    obtain ⟨-, hpop⟩ := (hwhole.queue ▸ hstep.queue).pop hwhole.nonempty hwhole.stamp
      hwhole.next (by omega) clock
    rw [if_neg fun hwait => hrest hwait.2.1] at hpop
    obtain ⟨first, last, -, -, hgiven⟩ := hstep.recv_some hpair.track hpop.1 hwhole.nonempty now
    rw [hgiven] at hnone
    cases hnone
  · rw [hpart, List.length_append] at hbehind
    omega

end Runs

/-- The connection takes the stream to its track. -/
theorem video_paired : @Paired asciiNoCase videoSender { ssrc := 7, rtxSsrc := 8, rtxPt := 97 }
    videoReceiver 0
    (@MediaTrack.create asciiNoCase { name := "vp8".toList, clockRate := 90000 }) := by
  refine @Paired.mk asciiNoCase _ _ _ _ _ rfl (fun _ => rfl) (by decide) (by decide) rfl
    (fun p data hmade => ?_) (fun t ht => ?_) rfl rfl
  · obtain ⟨pkt, hparse, hrestores⟩ := @LoopStream.Sends.readsAs asciiNoCase _ _ _ _ (by decide)
      (.inl hmade)
    have hknown : videoReceiver.rtxSsrcToSsrc pkt.ssrc = none := by
      rw [hrestores.ssrc]
      rfl
    refine ⟨pkt, pkt, hparse, Connection.rewriteRtxPacket_primary hknown, ?_⟩
    show (videoReceiver.ssrcSet pkt.ssrc).map SsrcEntry.receiver = some 0
    rw [hrestores.ssrc]
    rfl
  · obtain ⟨hi, rfl⟩ := List.getElem?_eq_some_iff.1 ht
    rfl

/-- Two frames go out, of two packets and of one. -/
def orderedSent : List (RtpSending × SenderCall) :=
  (@senderMachine asciiNoCase videoSender).trace [] videoSender
    [.frames [(bigFrame, 10)] fun _ _ => {}, .frames [([9], 20)] fun _ _ => {}]

/-- Their datagrams. -/
def orderedDatagrams : List Bytes := (@senderMachine asciiNoCase videoSender).sent orderedSent

/-- Everything arrives.  The first frame is there when it is asked for; the second one is at the end
of the buffer, where a video frame is waited for, and is there 300 ms later. -/
def orderedArrivals : List (Arrival Bytes Clock ReceiverCall) :=
  ([0, 1, 2].map fun k => .message (orderedDatagrams.getD k []) ⟨fun _ => 0, fun _ => 0⟩) ++
    [0, 0, 300000000].map fun t => .own (.recv 0 (fun _ => t) t)

/-- The history of the receiver. -/
def orderedHistory : List (Connection × Arrival Bytes Clock ReceiverCall) :=
  (@receiverMachine asciiNoCase videoReceiver).trace [] videoReceiver orderedArrivals

/-- Both frames come out whole and in order. -/
theorem frames_in_order_two :
    (@framesOut asciiNoCase videoReceiver 0 orderedHistory).map (fun frame => frame.data) =
        [bigFrame, [9]] ∧
      ∃ track, List.Forall₂ (@PackedFrame.Shows asciiNoCase track 7)
        ((sentFrames orderedSent).take
          (@framesOut asciiNoCase videoReceiver 0 orderedHistory).length)
        (@framesOut asciiNoCase videoReceiver 0 orderedHistory) := by
  have hinit : NetRun (.fifo Bytes) (@senderMachine asciiNoCase videoSender)
      (fun _ _ e => e.plays = true) (@receiverMachine asciiNoCase videoReceiver)
      (@InTime asciiNoCase videoReceiver 0) [] videoSender [] videoReceiver := .init
  have hsent := (hinit.send (e := .frames [(bigFrame, 10)] fun _ _ => {}) rfl).send
    (e := .frames [([9], 20)] fun _ _ => {}) rfl
  let came (k : ℕ) : Bytes := orderedDatagrams.getD k []
  have hfifo : [came 0] <+: orderedDatagrams ∧ [came 0, came 1] <+: orderedDatagrams ∧
      [came 0, came 1, came 2] <+: orderedDatagrams := by decide +kernel
  obtain ⟨hone, htwo, hall⟩ := hfifo
  have hfew (c : Connection)
      (h : (c.jitter? 0).all (fun b => decide (b.sorted.size < 0x8000)) = true) :
      ∀ b, c.jitter? 0 = some b → b.sorted.size < 0x8000 := by
    intro b hb
    rw [hb] at h
    exact of_decide_eq_true h
  have hfirst := hsent.arrive (m := came 0) (c := ⟨fun _ => 0, fun _ => 0⟩) hone
    ⟨by decide, hfew _ (by decide +kernel)⟩
  have hsecond := hfirst.arrive (m := came 1) (c := ⟨fun _ => 0, fun _ => 0⟩) htwo
    ⟨by decide, hfew _ (by decide +kernel)⟩
  have hthird := hsecond.arrive (m := came 2) (c := ⟨fun _ => 0, fun _ => 0⟩) hall
    ⟨by decide, hfew _ (by decide +kernel)⟩
  have hr := ((hthird.own (b := .recv 0 (fun _ => 0) 0)
      fun _ => .inl ⟨sentFrames orderedSent, List.prefix_rfl, by decide +kernel⟩).own
    (b := .recv 0 (fun _ => 0) 0)
      fun _ => .inl ⟨sentFrames orderedSent, List.prefix_rfl, by decide +kernel⟩).own
    (b := .recv 0 (fun _ => 300000000) 300000000)
      fun _ => .inl ⟨sentFrames orderedSent, List.prefix_rfl, by decide +kernel⟩
  exact ⟨by decide +kernel, _, (@frames_in_order asciiNoCase asciiNoCase_lawful _ _ _ _ _
    video_paired orderedSent _ orderedHistory _ hr (by decide +kernel)).1⟩

end AsioRtc
