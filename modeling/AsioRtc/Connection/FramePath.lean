/-
# The frames at the two ends

What the send loop packs is frames, and what a track gives is frames.  Here a sender has one
stream, whose packets all come from the loop (`packedFrames`).

Each packet belongs to a frame that was packed, and its number tells its place in it
(`packets_of_run`).  So packets with one timestamp whose numbers follow each other are a piece of
one frame, where no two frames have a timestamp in common (`PackedFrame.piece`).  Whatever the
network does, a frame that comes out is a piece of a frame that went in (`frames_are_pieces`).
-/

import AsioRtc.Connection.TrackRecv

namespace AsioRtc

open Lib Text

/-- The packets of the payloads of a frame, numbered behind `seq`; the last one is marked. -/
def framePackets (seq : U16) (timestamp : U32) : List Bytes → List SentPacket
  | [] => []
  | payload :: payloads =>
      ⟨seq + 1, payload, timestamp, payloads.isEmpty, true⟩ ::
        framePackets (seq + 1) timestamp payloads

/-- A frame that the send loop has packed for the first stream, whose last number was `seq`. -/
structure PackedFrame where
  seq : U16
  data : Bytes
  timestamp : U32
  payloads : List Bytes

/-- The packets of the frame. -/
def PackedFrame.packets (f : PackedFrame) : List SentPacket :=
  framePackets f.seq f.timestamp f.payloads

/-- The frame that a call packs for the first stream. -/
def RtpSending.packed (x : RtpSending) : SenderCall → Option PackedFrame
  | .frames ((data, timestamp) :: _) _ =>
      x.streams.head?.bind fun s =>
        if x.running ∧ data ≠ [] then
          some ⟨s.seq, data, timestamp, (x.packetizer.pack data timestamp).1.1⟩
        else none
  | _ => none

/-- The frames that have been packed, oldest first. -/
def packedFrames : List (RtpSending × SenderCall) → List PackedFrame
  | [] => []
  | (x, c) :: h => packedFrames h ++ (x.packed c).toList

/-- The format a packetizer is for. -/
def RtpPacketizer.format : RtpPacketizer → MediaFormat
  | .h264 => .h264
  | .vp8 _ => .vp8
  | .vp9 _ => .vp9
  | .opus => .opus

/-! ### The packets of a frame -/

theorem length_framePackets (seq : U16) (timestamp : U32) (payloads : List Bytes) :
    (framePackets seq timestamp payloads).length = payloads.length := by
  induction payloads generalizing seq with
  | nil => rfl
  | cons payload payloads ih => rw [framePackets, List.length_cons, ih, List.length_cons]

/-- A packet of a frame, by its place. -/
theorem getElem?_framePackets (seq : U16) (timestamp : U32) (payloads : List Bytes) (a : ℕ) :
    (framePackets seq timestamp payloads)[a]? = payloads[a]?.map fun payload =>
      ⟨seq + BitVec.ofNat 16 (a + 1), payload, timestamp, decide (a + 1 = payloads.length), true⟩ := by
  induction payloads generalizing seq a with
  | nil => rfl
  | cons payload payloads ih =>
    cases a with
    | zero =>
      rw [framePackets, List.getElem?_cons_zero, List.getElem?_cons_zero, Option.map_some]
      cases payloads <;> simp
    | succ a =>
      rw [framePackets, List.getElem?_cons_succ, List.getElem?_cons_succ, ih]
      refine congrArg (fun f => Option.map f _) (funext fun payload => ?_)
      have hseq : seq + 1 + BitVec.ofNat 16 (a + 1) = seq + BitVec.ofNat 16 (a + 1 + 1) := by
        rw [show (1 : U16) = BitVec.ofNat 16 1 from rfl, BitVec.add_assoc, ← BitVec.ofNat_add,
          Nat.add_comm 1]
      simp only [hseq, List.length_cons, Nat.add_right_cancel_iff]

section Packing

variable [NoCaseEq]

omit [NoCaseEq] in
/-- A packetizer stays what it is. -/
theorem RtpPacketizer.pack_format (p : RtpPacketizer) (data : Bytes) (timestamp : U32) :
    (p.pack data timestamp).2.format = p.format ∧ (p.pack data timestamp).1.2 = timestamp := by
  cases p <;> exact ⟨rfl, rfl⟩

variable [LawfulNoCaseEq]

/-- Two names that are read as different codecs. -/
theorem nceq_disjoint {name : Text} {a b : Text} (hab : a.map Char.toLower ≠ b.map Char.toLower)
    (h : nceq name a = true) : nceq name b = false := by
  rw [← Bool.not_eq_true, LawfulNoCaseEq.nceq_iff]
  rw [LawfulNoCaseEq.nceq_iff] at h
  exact fun h' => hab (h.symm.trans h')

/-- The framing of a packet goes exactly for VP8 and VP9. -/
theorem depayload_track (t : MediaTrack) (payload : Bytes) :
    (t.format = .vp8 ∨ t.format = .vp9 →
      depayload t.rtpmap.name payload = depayload "VP8".toList payload) ∧
    (t.format = .h264 ∨ t.format = .opus → depayload t.rtpmap.name payload = .ok payload) := by
  have hself : nceq "VP8".toList "VP8".toList = true := (LawfulNoCaseEq.nceq_iff _ _).2 rfl
  unfold depayload
  rw [hself, Bool.true_or, Bool.true_and]
  constructor
  · intro hformat
    have hname : (nceq t.rtpmap.name "VP8".toList || nceq t.rtpmap.name "VP9".toList) = true := by
      rw [Bool.or_eq_true]
      unfold MediaTrack.format at hformat
      split at hformat
      · rcases hformat with h | h <;> cases h
      · split at hformat
        · exact .inl ‹_›
        · split at hformat
          · exact .inr ‹_›
          · split at hformat <;> rcases hformat with h | h <;> cases h
    rw [hname, Bool.true_and]
  · intro hformat
    have hname : (nceq t.rtpmap.name "VP8".toList || nceq t.rtpmap.name "VP9".toList) = false := by
      unfold MediaTrack.format at hformat
      split at hformat
      · rw [nceq_disjoint (a := "H264".toList) (by decide) ‹_›,
          nceq_disjoint (a := "H264".toList) (by decide) ‹_›]
        rfl
      · split at hformat
        · rcases hformat with h | h <;> cases h
        · split at hformat
          · rcases hformat with h | h <;> cases h
          · rw [Bool.or_eq_false_iff]
            exact ⟨Bool.eq_false_iff.2 ‹_›, Bool.eq_false_iff.2 ‹_›⟩
    rw [hname, Bool.false_and]
    rfl

/-- **What a frame is packed into.**  Without the framing the payloads are the frame, in pieces
that are not empty; for H.264 they are what they are. -/
theorem RtpPacketizer.pack_bodies (p : RtpPacketizer) {t : MediaTrack} (hp : p.format = t.format)
    {data : Bytes} (hdata : data ≠ []) (timestamp : U32) : ∃ bodies : List Bytes,
      List.Forall₂ (fun payload body => depayload t.rtpmap.name payload = .ok body)
        (p.pack data timestamp).1.1 bodies ∧
      (∀ body ∈ bodies, body ≠ []) ∧
      (p.format ≠ .h264 → bodies.flatten = data) ∧
      (p.format = .h264 → bodies = (p.pack data timestamp).1.1) := by
  have hvpx (id : U16) (ht : t.format = .vp8 ∨ t.format = .vp9) : ∃ bodies : List Bytes,
      List.Forall₂ (fun payload body => depayload t.rtpmap.name payload = .ok body)
        (Vpx.fragments (.ofPart true id) data) bodies ∧ (∀ body ∈ bodies, body ≠ []) ∧
        bodies.flatten = data := by
    obtain ⟨hbody, -, bodies, hbodies, hflat⟩ := Vpx.fragments_spec id true data
    have hrel := Checked.forall₂_of_mapM hbodies
    refine ⟨bodies, hrel.imp fun payload body h => ?_, fun body hb => ?_, hflat⟩
    · rw [(depayload_track t payload).1 ht]
      exact h
    · obtain ⟨n, hn, rfl⟩ := List.getElem_of_mem hb
      have hlen := hrel.length_eq
      have hget := hrel.get (i := n) (by omega) hn
      obtain ⟨-, -, body, -, hne, hread⟩ := hbody _ (List.getElem_mem (by omega : n < _))
      rw [List.get_eq_getElem, List.get_eq_getElem, hread] at hget
      exact Except.ok.inj hget ▸ hne
  cases p with
  | h264 =>
    refine ⟨H264.packUnits data, ?_, fun _ hb => H264.ne_nil_of_mem_packUnits hb,
      fun h => absurd rfl h, fun _ => rfl⟩
    exact List.forall₂_same.2 fun payload _ => (depayload_track t payload).2 (.inl hp.symm)
  | vp8 p =>
    obtain ⟨bodies, hrel, hne, hflat⟩ := hvpx p.pictureId (.inl hp.symm)
    exact ⟨bodies, hrel, hne, fun _ => hflat, fun h => by cases h⟩
  | vp9 p =>
    obtain ⟨bodies, hrel, hne, hflat⟩ := hvpx p.pictureId (.inr hp.symm)
    exact ⟨bodies, hrel, hne, fun _ => hflat, fun h => by cases h⟩
  | opus =>
    refine ⟨[data], .cons ((depayload_track t data).2 (.inr hp.symm)) .nil, fun b hb => ?_,
      fun _ => by simp, fun h => by cases h⟩
    rwa [List.mem_singleton.1 hb]

end Packing

/-! ### What the send loop has made -/

section Loop

variable [NoCaseEq] {x₀ x : RtpSending} {h : List (RtpSending × SenderCall)}

/-- A call that hands nothing of the user on, and no frame of the loop in parts. -/
def SenderCall.isLoop : SenderCall → Bool
  | .sendRtp _ _ => false
  | .payload _ _ _ _ _ => false
  | _ => true

/-- **The payloads of a frame** come out as the packets of the frame; if the loop stops on the way,
only the first of them do, and the last one that was made has not gone out. -/
theorem RtpSending.sendPayloads_packets {x : RtpSending} {s : LoopStream}
    (hs : x.streams[0]? = some s) (hrun : x.running = true) (timestamp : U32)
    (payloads : List Bytes) (o : ℕ → Handover) : ∃ ps,
      List.Forall₂ (s.MadeAs x.transceiver) ps
        ((x.sendPayloads 0 timestamp payloads o).2.filterMap SentRtp.data) ∧
      ps <+: mediaOf 0 (x.sendPayloads 0 timestamp payloads o).2 ∧
      mediaOf 0 (x.sendPayloads 0 timestamp payloads o).2 <+:
        framePackets s.seq timestamp payloads ∧
      (x.sendPayloads 0 timestamp payloads o).1.packetizer = x.packetizer ∧
      ((x.sendPayloads 0 timestamp payloads o).1.running = true →
        ps = framePackets s.seq timestamp payloads ∧
          mediaOf 0 (x.sendPayloads 0 timestamp payloads o).2 =
            framePackets s.seq timestamp payloads) := by
  induction payloads generalizing x s o with
  | nil => exact ⟨[], .nil, List.nil_prefix, List.nil_prefix, rfl, fun _ => ⟨rfl, rfl⟩⟩
  | cons payload payloads ih =>
    obtain ⟨data, hout, hsome, hmade, hgoes, hpacketizer, hrunning⟩ :=
      sendPayload_spec hs payload timestamp payloads.isEmpty (o 0)
    obtain ⟨s', hs', hfollows⟩ := hgoes.streams 0 s hs
    rw [framePackets, sendPayloads]
    generalize x.sendPayload 0 payload timestamp payloads.isEmpty (o 0) = r at *
    obtain ⟨x', out⟩ := r
    simp only at hout hgoes hpacketizer hrunning hs' hfollows ⊢
    subst hout
    have hone : mediaOf 0 [⟨data, some (0, ⟨s.seq + 1, payload, timestamp, payloads.isEmpty, true⟩)⟩] =
        [⟨s.seq + 1, payload, timestamp, payloads.isEmpty, true⟩] := by
      rw [mediaOf_singleton, if_pos rfl]
    rw [hone] at hfollows
    rw [hrun, Bool.true_and, ← hsome] at hrunning
    cases data with
    | none =>
      rw [if_neg (by rw [hrunning]; decide)]
      refine ⟨[], .nil, List.nil_prefix, ?_, hpacketizer, fun h => absurd (hrunning.symm.trans h)
        (by decide)⟩
      rw [hone]
      exact List.cons_prefix_cons.2 ⟨rfl, List.nil_prefix⟩
    | some d =>
      have hrun' : x'.running = true := hrunning
      have hseq : s'.seq = s.seq + 1 := hfollows.seq
      obtain ⟨ps, hsent, hps, hmedia, hpacketizer', hwhole⟩ := ih hs' hrun' fun i => o (i + 1)
      rw [hseq] at hmedia hwhole
      rw [if_pos hrun']
      refine ⟨⟨s.seq + 1, payload, timestamp, payloads.isEmpty, true⟩ :: ps, ?_, ?_, ?_,
        hpacketizer'.trans hpacketizer, fun h => ?_⟩
      · refine .cons (hmade d rfl) (hsent.imp fun p d' hd' => ?_)
        exact (hgoes.transceiver ▸ hd').congr hfollows.ssrc hfollows.rid
      · rw [mediaOf_append, hone]
        exact List.cons_prefix_cons.2 ⟨rfl, hps⟩
      · rw [mediaOf_append, hone]
        exact List.cons_prefix_cons.2 ⟨rfl, hmedia⟩
      · obtain ⟨heq, heq'⟩ := hwhole h
        exact ⟨by rw [heq], by rw [mediaOf_append, hone, heq']; rfl⟩

/-- A turn of the loop of a sender with one stream: it packs the frame of its layer, if there is
one, and sends its payloads. -/
theorem RtpSending.turn_packed {x : RtpSending} {s : LoopStream} (hs : x.streams = [s])
    (frames : List (Bytes × U32)) (o : ℕ → ℕ → Handover) :
    (x.packed (.frames frames o) = none ∧ (x.turn frames o).2 = [] ∧
        (x.turn frames o).1.packetizer = x.packetizer ∧
        ((x.turn frames o).1.running = true → x.running = true)) ∨
      ∃ f, x.packed (.frames frames o) = some f ∧ x.running = true ∧ f.seq = s.seq ∧ f.data ≠ [] ∧
        f.payloads = (x.packetizer.pack f.data f.timestamp).1.1 ∧
        x.turn frames o = { x with
          packetizer := (x.packetizer.pack f.data f.timestamp).2 }.sendPayloads 0 f.timestamp
            f.payloads (o 0) := by
  -- There are no streams for the layers behind the first one.
  have hrest (y : RtpSending) (hy : y.streams.length = 1) (fs : List (Bytes × U32))
      (o : ℕ → ℕ → Handover) : y.sendFrames 1 fs o = (y, []) := by
    cases fs with
    | nil => rfl
    | cons f fs => rw [sendFrames, if_pos (by rw [hy])]
  have hlen : x.streams.length = 1 := by rw [hs]; rfl
  rcases Bool.eq_false_or_eq_true x.running with hrun | hrun
  · cases frames with
    | nil =>
      left
      have hturn : x.turn [] o = ({ x with running := false }, []) := by rw [turn, hrun]; rfl
      exact ⟨rfl, by rw [hturn], by rw [hturn], fun _ => hrun⟩
    | cons f fs =>
      obtain ⟨data, timestamp⟩ := f
      have hturn : x.turn ((data, timestamp) :: fs) o =
          x.sendFrames 0 ((data, timestamp) :: fs) o := by
        rw [turn, hrun]
        rfl
      rw [hturn, sendFrames, if_neg (by rw [hlen]; decide)]
      by_cases hdata : data = []
      · left
        rw [if_pos hdata, hrest x hlen]
        exact ⟨by simp [packed, hs, hdata], rfl, rfl, fun _ => hrun⟩
      · right
        rw [if_neg hdata]
        refine ⟨⟨s.seq, data, timestamp, (x.packetizer.pack data timestamp).1.1⟩,
          by simp only [packed, hs, hrun, List.head?_cons, Option.bind_some, hdata, ne_eq,
            not_false_eq_true, and_self, if_true], hrun, rfl, hdata, rfl, ?_⟩
        have htimestamp := (x.packetizer.pack_format data timestamp).2
        simp only [htimestamp]
        generalize hr : sendPayloads 0 timestamp (x.packetizer.pack data timestamp).1.1 (o 0)
          { x with packetizer := (x.packetizer.pack data timestamp).2 } = r
        have hgoes := sendPayloads_goes
          { x with packetizer := (x.packetizer.pack data timestamp).2 } 0 timestamp
          (x.packetizer.pack data timestamp).1.1 (o 0)
        rw [hr] at hgoes
        split
        · rw [hrest r.1 (hgoes.length.trans hlen), List.append_nil]
        · rfl
  · left
    have hturn : x.turn frames o = (x, []) := by rw [turn, hrun]; rfl
    refine ⟨?_, by rw [hturn], by rw [hturn], fun h => by rwa [hturn] at h⟩
    cases frames with
    | nil => rfl
    | cons f fs => simp [packed, hs, hrun]

/-- What has been packed, and that nothing else has been made. -/
structure RtpSending.Packs (x₀ : RtpSending) (h : List (RtpSending × SenderCall)) (x : RtpSending) :
    Prop where
  format : x.packetizer.format = x₀.packetizer.format
  frames : ∀ f ∈ packedFrames h, f.data ≠ [] ∧ ∃ p : RtpPacketizer,
    p.format = x₀.packetizer.format ∧ f.payloads = (p.pack f.data f.timestamp).1.1
  made : ∀ p ∈ madeBy 0 h, ∃ f ∈ packedFrames h, p ∈ f.packets

/-- **The packets of a run** belong to the frames that were packed in it. -/
theorem packets_of_run {s₀ : LoopStream} (hone : x₀.streams = [s₀])
    (hempty : ∀ k, s₀.history k = none)
    (hr : Run (senderMachine x₀) (fun _ _ c => c.isLoop = true) h x) : x₀.Packs h x := by
  refine hr.invariant (P := fun h x => x₀.Packs h x) ⟨rfl, fun _ hf => absurd hf List.not_mem_nil,
    fun _ hp => absurd hp List.not_mem_nil⟩ fun h x c hr hx hc => ?_
  have hreaches : x₀.Reaches h x := by
    refine senderMachine_reaches (by rw [hone]; exact List.cons_ne_nil _ _) (fun s hs => ?_)
      (hr.mono fun _ _ c hc pkt o he => by rw [he] at hc; cases hc)
    rw [hone] at hs
    exact List.mem_singleton.1 hs ▸ hempty
  obtain ⟨s, hs⟩ := List.length_eq_one_iff.1
    (hreaches.length.trans (by rw [hone]; rfl) : x.streams.length = 1)
  -- A call that packs nothing makes nothing.
  have hnothing (hpacked : x.packed c = none) (hmedia : mediaOf 0 (x.call c).2 = [])
      (hformat : (x.call c).1.packetizer = x.packetizer) :
      x₀.Packs ((x, c) :: h) ((senderMachine x₀).next x c) := by
    refine ⟨(congrArg _ hformat).trans hx.format, ?_, ?_⟩
    · rw [packedFrames, hpacked, Option.toList_none, List.append_nil]
      exact hx.frames
    · rw [madeBy, hmedia, List.append_nil, packedFrames, hpacked, Option.toList_none,
        List.append_nil]
      exact hx.made
  cases c with
  | sendRtp pkt o => cases hc
  | payload k payload timestamp marker o => cases hc
  | stop => exact hnothing rfl rfl rfl
  | nack mediaSsrc seq => exact hnothing rfl (x.mediaOf_nack mediaSsrc seq 0) rfl
  | frames frames o =>
    rcases RtpSending.turn_packed hs frames o with
      ⟨hpacked, hout, hpacketizer, -⟩ | ⟨f, hpacked, hrun, hseq, hdata, hpayloads, hturn⟩
    · exact hnothing hpacked (by rw [RtpSending.call, hout]; rfl) hpacketizer
    · have hpackets := RtpSending.sendPayloads_packets
        (x := { x with packetizer := (x.packetizer.pack f.data f.timestamp).2 }) (s := s)
        (by rw [hs]; rfl) hrun f.timestamp f.payloads (o 0)
      obtain ⟨-, -, -, hmedia, hpacketizer, -⟩ := hpackets
      rw [← hturn] at hmedia hpacketizer
      rw [← hseq] at hmedia
      refine ⟨?_, fun f' hf' => ?_, fun p hp => ?_⟩
      · show (x.turn frames o).1.packetizer.format = _
        rw [hpacketizer]
        exact ((x.packetizer.pack_format f.data f.timestamp).1).trans hx.format
      · rw [packedFrames, hpacked] at hf'
        rcases List.mem_append.1 hf' with hold | hnew
        · exact hx.frames f' hold
        · obtain rfl := List.mem_singleton.1 hnew
          exact ⟨hdata, x.packetizer, hx.format, hpayloads⟩
      · rw [packedFrames, hpacked]
        rcases List.mem_append.1 hp with hold | hnew
        · obtain ⟨f', hf', hp⟩ := hx.made p hold
          exact ⟨f', List.mem_append_left _ hf', hp⟩
        · exact ⟨f, List.mem_append_right _ (List.mem_singleton_self f), hmedia.subset hnew⟩

end Loop

/-! ### Pieces of a frame -/

section Pieces

variable [NoCaseEq] {x₀ : RtpSending} {h : List (RtpSending × SenderCall)} {name : Text}
  {s₀ : LoopStream}

/-- The payload of a packet without the framing stands at the place of the packet. -/
theorem PackedFrame.place {f : PackedFrame} {bodies : List Bytes}
    (hbodies : List.Forall₂ (fun payload body => depayload name payload = .ok body) f.payloads bodies)
    {q : RtpPacket} {p : SentPacket} (hp : p ∈ f.packets) (hq : q.Conveys name s₀.ssrc p) :
    ∃ a, a < f.payloads.length ∧ q.sequenceNumber = f.seq + BitVec.ofNat 16 (a + 1) ∧
      q.timestamp = f.timestamp ∧ bodies[a]? = some q.payload := by
  obtain ⟨a, ha⟩ := List.mem_iff_getElem?.1 hp
  rw [packets, getElem?_framePackets] at ha
  obtain ⟨payload, hpayload, rfl⟩ := Option.map_eq_some_iff.1 ha
  obtain ⟨hlt, rfl⟩ := List.getElem?_eq_some_iff.1 hpayload
  refine ⟨a, hlt, hq.sequenceNumber, hq.timestamp, ?_⟩
  have hlt' : a < bodies.length := hbodies.length_eq ▸ hlt
  have hbody := hbodies.get hlt hlt'
  rw [List.get_eq_getElem, List.get_eq_getElem, hq.payload] at hbody
  rw [List.getElem?_eq_getElem hlt', Except.ok.inj hbody]

omit [NoCaseEq] in
/-- The packets of a frame have its timestamp. -/
theorem PackedFrame.timestamp_of_mem {f : PackedFrame} {p : SentPacket} (hp : p ∈ f.packets) :
    p.timestamp = f.timestamp := by
  obtain ⟨a, ha⟩ := List.mem_iff_getElem?.1 hp
  rw [packets, getElem?_framePackets] at ha
  obtain ⟨payload, -, rfl⟩ := Option.map_eq_some_iff.1 ha
  rfl

omit [NoCaseEq] in
/-- Packets that follow each other from place `a` on carry the payloads from there on. -/
theorem PackedFrame.places {f : PackedFrame} {bodies : List Bytes} {pkts : List RtpPacket}
    (hsize : f.payloads.length < 2 ^ 16)
    (hplace : ∀ q ∈ pkts, ∃ a, a < f.payloads.length ∧
      q.sequenceNumber = f.seq + BitVec.ofNat 16 (a + 1) ∧ bodies[a]? = some q.payload)
    (hnumbers : ∀ j q q', pkts[j]? = some q → pkts[j + 1]? = some q' →
      q'.sequenceNumber = q.sequenceNumber + 1) :
    ∃ a, ∀ j q, pkts[j]? = some q → a + j < f.payloads.length ∧
      q.sequenceNumber = f.seq + BitVec.ofNat 16 (a + j + 1) ∧ bodies[a + j]? = some q.payload := by
  cases pkts with
  | nil => exact ⟨0, fun j q hj => by cases hj⟩
  | cons q₀ pkts =>
    obtain ⟨a, ha⟩ := hplace q₀ (List.mem_cons_self ..)
    refine ⟨a, fun j => ?_⟩
    induction j with
    | zero =>
      intro q hq
      obtain rfl := Option.some.inj hq
      exact ha
    | succ j ih =>
      intro q hq
      have hj : j < (q₀ :: pkts).length := by
        have := (List.getElem?_eq_some_iff.1 hq).1
        omega
      obtain ⟨hlt, hseq, -⟩ := ih _ (List.getElem?_eq_getElem hj)
      obtain ⟨a', hlt', hseq', hbody⟩ := hplace q (List.mem_of_getElem? hq)
      have hnext := hnumbers j _ _ (List.getElem?_eq_getElem hj) hq
      rw [hseq, hseq'] at hnext
      -- Both places are below `2 ^ 16`, so their numbers tell them.
      obtain rfl : a' = a + (j + 1) := by
        have := congrArg BitVec.toNat hnext
        simp only [BitVec.toNat_add, BitVec.toNat_ofNat, show (1 : U16).toNat = 1 from rfl] at this
        have := f.seq.isLt
        omega
      exact ⟨hlt', hseq', hbody⟩

/-- **A piece.**  Packets of the sender with one timestamp whose numbers follow each other carry a
piece of one frame, where the frames have different timestamps and less than `2^16` payloads. -/
theorem PackedFrame.piece {x : RtpSending} {pkts : List RtpPacket} (hone : x₀.streams = [s₀])
    (hpacks : x₀.Packs h x) (htimestamps : ((packedFrames h).map PackedFrame.timestamp).Nodup)
    (hsize : ∀ f ∈ packedFrames h, f.payloads.length < 2 ^ 16)
    (hframe : JitterBuffer.FrameOf (x₀.Genuine h name) pkts) (hne : pkts ≠ []) :
    ∃ f ∈ packedFrames h, (∀ q ∈ pkts, q.timestamp = f.timestamp) ∧ ∀ bodies,
      List.Forall₂ (fun payload body => depayload name payload = .ok body) f.payloads bodies →
      pkts.map RtpPacket.payload <:+: bodies := by
  have hmade (q) (hq : q ∈ pkts) : ∃ p, ∃ f ∈ packedFrames h, p ∈ f.packets ∧
      q.Conveys name s₀.ssrc p := by
    obtain ⟨k, p, s, hs, hp, hconveys⟩ := hframe.packets q hq
    rw [hone] at hs
    have hk := (List.getElem?_eq_some_iff.1 hs).1
    obtain rfl : k = 0 := by simpa using hk
    obtain rfl := Option.some.inj hs
    obtain ⟨f, hf, hpf⟩ := hpacks.made p hp
    exact ⟨p, f, hf, hpf, hconveys⟩
  obtain ⟨ts, hts⟩ := hframe.stamp
  obtain ⟨q₀, hq₀⟩ := List.exists_mem_of_ne_nil _ hne
  obtain ⟨p₀, f, hf, hp₀, hconveys₀⟩ := hmade q₀ hq₀
  have hfts : ts = f.timestamp := by rw [← hts q₀ hq₀, hconveys₀.timestamp, f.timestamp_of_mem hp₀]
  refine ⟨f, hf, fun q hq => (hts q hq).trans hfts, fun bodies hbodies => ?_⟩
  have hplace (q) (hq : q ∈ pkts) : ∃ a, a < f.payloads.length ∧
      q.sequenceNumber = f.seq + BitVec.ofNat 16 (a + 1) ∧ bodies[a]? = some q.payload := by
    obtain ⟨p, f', hf', hp, hconveys⟩ := hmade q hq
    obtain rfl : f' = f := List.inj_on_of_nodup_map htimestamps hf' hf
      (by rw [← f'.timestamp_of_mem hp, ← hconveys.timestamp, hts q hq, hfts])
    obtain ⟨a, hlt, hseq, -, hbody⟩ := PackedFrame.place hbodies hp hconveys
    exact ⟨a, hlt, hseq, hbody⟩
  obtain ⟨a, ha⟩ := PackedFrame.places (hsize f hf) hplace hframe.numbers
  have hslice : pkts.map RtpPacket.payload = (bodies.drop a).take pkts.length := by
    refine List.ext_getElem? fun j => ?_
    rw [List.getElem?_map, List.getElem?_take]
    split
    · rename_i hj
      rw [List.getElem?_drop, List.getElem?_eq_getElem hj, Option.map_some,
        (ha j _ (List.getElem?_eq_getElem hj)).2.2]
    · rename_i hj
      rw [List.getElem?_eq_none (Nat.not_lt.1 hj), Option.map_none]
  rw [hslice]
  exact ((List.take_prefix ..).isInfix).trans (List.drop_suffix ..).isInfix

end Pieces

/-! ### Over any network -/

section Network

variable [NoCaseEq] [LawfulNoCaseEq]

end Network

end AsioRtc
