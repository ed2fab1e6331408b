/-
# The frames of a stream that comes in chunks

How `any_stream_track::impl_t::read_frame` of `src/any_stream_track.cpp` uses the demuxer: it
calls `parse` with a chunk until the call that consumes it, and takes a frame from each call
(`MpegtsDemuxer.feed`); the frames that are still queued come out of the calls with the next
chunk.  At the end of the stream it is called with no data until it returns none (`drain`).

Which frames come out, and in which order, depends on the packets that end in each chunk
(`ChunkCut.groups`) and on nothing else of the cut: of the frames these complete, the queue keeps
the last 64, and of those that `flush` makes at the end as well (`deliver_eq`).  So two cuts
give the same frames where no chunk completes more than 64 (`deliver_chunks`).
-/

import AsioRtc.Mpegts.Sync
import Mathlib.Data.List.DropRight

namespace AsioRtc

open Lib

/-! ### Calls with a chunk -/

namespace MpegtsDemuxer

/-- A turn of the loop over the buffer in `read_frame`, with the bytes consumed so far and the
frames. -/
def feedTurn (chunk : Bytes) (s : MpegtsDemuxer × ℕ × List MediaFrame) :
    Checked (Turn (MpegtsDemuxer × ℕ × List MediaFrame) (MpegtsDemuxer × List MediaFrame)) := do
  let (d, frame, consumed) ← s.1.parse (chunk.drop s.2.1) 0
  let total := s.2.1 + consumed
  match frame with
  | none => pure (.done (d, s.2.2))
  | some f =>
      if total = chunk.length then pure (.done (d, s.2.2 ++ [f]))
      else pure (.next (d, total, s.2.2 ++ [f]))

/-- The calls with a chunk: each takes a queued frame, and the last one consumes the chunk. -/
def feed (chunk : Bytes) (d : MpegtsDemuxer) : Checked (MpegtsDemuxer × List MediaFrame) :=
  Checked.loop (feedTurn chunk) (d.frameQueue.length + 1) (d, 0, [])

/-- A call with no data. -/
def drainTurn (s : MpegtsDemuxer × List MediaFrame) :
    Checked (Turn (MpegtsDemuxer × List MediaFrame) (List MediaFrame)) := do
  let (d, frame, _) ← s.1.parse [] 0
  match frame with
  | none => pure (.done s.2)
  | some f => pure (.next (d, s.2 ++ [f]))

/-- The calls with no data, until one returns no frame: they take the queued frames, those of a
flush, and none. -/
def drain (d : MpegtsDemuxer) : Checked (List MediaFrame) :=
  Checked.loop drainTurn (d.frameQueue.length + maxFrameQueue + 1) (d, [])

/-- The frames of a stream that comes in chunks. -/
def deliver : List Bytes → MpegtsDemuxer → Checked (List MediaFrame)
  | [], d => d.drain
  | chunk :: chunks, d => do
      let (d, frames) ← d.feed chunk
      let rest ← deliver chunks d
      pure (frames ++ rest)

end MpegtsDemuxer

/-! ### The queue -/

/-- The frames that a queue keeps. -/
def lastFrames (frames : List MediaFrame) : List MediaFrame := frames.rtake maxFrameQueue

theorem length_lastFrames_le (frames : List MediaFrame) :
    (lastFrames frames).length ≤ maxFrameQueue := by
  rw [lastFrames, List.rtake, List.length_drop]
  omega

theorem lastFrames_of_le {frames : List MediaFrame} (h : frames.length ≤ maxFrameQueue) :
    lastFrames frames = frames := by
  rw [lastFrames, List.rtake, Nat.sub_eq_zero_of_le h, List.drop_zero]

/-- One more behind the last `n + 1`, where the first of them goes if there are as many. -/
theorem rtake_push {α : Type*} (l : List α) (a : α) (n : ℕ) :
    (l.rtake (n + 1)).drop ((l.rtake (n + 1)).length + 1 - (n + 1)) ++ [a] =
      (l ++ [a]).rtake (n + 1) := by
  rw [List.rtake_concat_succ, List.rtake, List.drop_drop, List.rtake, List.length_drop]
  congr 2
  omega

theorem pushFrame_lastFrames (frames : List MediaFrame) (f : MediaFrame) :
    pushFrame (lastFrames frames) f = lastFrames (frames ++ [f]) :=
  rtake_push frames f 63

/-- **The queue keeps the last of the frames that are pushed.** -/
theorem foldl_pushFrame (frames : List MediaFrame) :
    frames.foldl pushFrame [] = lastFrames frames := by
  have hfold : ∀ frames before : List MediaFrame,
      frames.foldl pushFrame (lastFrames before) = lastFrames (before ++ frames) := by
    intro frames
    induction frames with
    | nil => exact fun before => by rw [List.append_nil]; rfl
    | cons f frames ih =>
      intro before
      rw [List.foldl_cons, pushFrame_lastFrames, ih, List.append_assoc]
      rfl
  exact hfold frames []

/-- Packets that are handled with their frames queued. -/
theorem foldlM_queuePacket (packets : List Bytes) (t : MpegtsTables) (queue : List MediaFrame) :
    packets.foldlM (fun s packet => queuePacket packet s) (t, queue) =
      handlePackets packets t >>= fun r => pure (r.1, r.2.foldl pushFrame queue) := by
  induction packets generalizing t queue with
  | nil => rfl
  | cons packet packets ih =>
    rw [List.foldlM_cons, handlePackets, queuePacket]
    cases handleTsPacket packet t with
    | error e => rfl
    | ok r =>
      simp only [Checked.ok_bind, pure_bind, ih, bind_assoc, List.foldl_append]

/-! ### What comes out of a chunk -/

namespace MpegtsDemuxer

variable {d : MpegtsDemuxer} {chunk : Bytes}

/-- The demuxer behind a chunk whose packets end in `r`, once the first of its frames has been
taken. -/
def behind (d : MpegtsDemuxer) (chunk : Bytes) (r : MpegtsTables × List MediaFrame) :
    MpegtsDemuxer where
  buffer := ⟨(resync (d.buffer.append chunk).rest).2, 0⟩
  tables := r.1
  frameQueue := (lastFrames r.2).tail

/-- A call while frames are queued. -/
theorem parse_queued {f : MediaFrame} {queue : List MediaFrame} (h : d.frameQueue = f :: queue)
    (data : Bytes) (consumed : ℕ) :
    d.parse data consumed = .ok ({ d with frameQueue := queue }, some f, consumed) := by
  rw [parse, if_pos (by rw [h]; exact List.cons_ne_nil _ _), popFrame, h]
  rfl

/-- The call that consumes a chunk. -/
theorem parse_chunk (hqueue : d.frameQueue = []) (hchunk : chunk ≠ []) (consumed : ℕ) :
    d.parse chunk consumed =
      handlePackets (resync (d.buffer.append chunk).rest).1 d.tables >>= fun r =>
        pure (d.behind chunk r, (lastFrames r.2).head?, chunk.length) := by
  rw [parse_eq hqueue hchunk, handledPackets_eq, Checked.ok_bind, foldlM_queuePacket]
  simp only [foldl_pushFrame, bind_assoc, pure_bind]
  rfl

/-- **The frames out of the calls with a chunk**: those that were queued, and the first of the
chunk if there is one. -/
theorem feed_eq (hchunk : chunk ≠ []) (d : MpegtsDemuxer) :
    d.feed chunk =
      handlePackets (resync (d.buffer.append chunk).rest).1 d.tables >>= fun r =>
        pure (d.behind chunk r, d.frameQueue ++ (lastFrames r.2).head?.toList) := by
  have hpos := List.length_pos_iff.2 hchunk
  have hloop : ∀ (queue frames : List MediaFrame) (d : MpegtsDemuxer), d.frameQueue = queue →
      Checked.loop (feedTurn chunk) (queue.length + 1) (d, 0, frames) =
        handlePackets (resync (d.buffer.append chunk).rest).1 d.tables >>= fun r =>
          pure (d.behind chunk r, frames ++ queue ++ (lastFrames r.2).head?.toList) := by
    intro queue
    induction queue with
    | nil =>
      intro frames d hqueue
      rw [Checked.loop, feedTurn, List.drop_zero, parse_chunk hqueue hchunk]
      simp only [bind_assoc, pure_bind]
      refine bind_congr fun r => ?_
      cases (lastFrames r.2).head? with
      | none => simp
      | some f => simp
    | cons f queue ih =>
      intro frames d hqueue
      have hnext : feedTurn chunk (d, 0, frames) =
          .ok (.next ({ d with frameQueue := queue }, 0, frames ++ [f])) := by
        rw [feedTurn, List.drop_zero, parse_queued hqueue, Checked.ok_bind]
        exact if_neg hpos.ne
      rw [List.length_cons, Checked.loop_next _ hnext, ih _ _ rfl]
      simp only [List.append_assoc]
      rfl
  rw [feed, hloop d.frameQueue [] d rfl]
  rfl

/-- A flush leaves no bytes behind. -/
theorem pendingFrames_flush (t : MpegtsTables) : t.flush.1.pendingFrames = [] := by
  refine List.filterMap_eq_nil_iff.2 fun e he => ?_
  obtain ⟨e', -, rfl⟩ := List.mem_map.1 he
  rfl

/-- A call with no data when no frame is queued. -/
theorem parse_empty (hqueue : d.frameQueue = []) (consumed : ℕ) :
    d.parse [] consumed =
      .ok ({ d with tables := d.tables.flush.1
                    frameQueue := (lastFrames d.tables.flush.2).tail },
        (lastFrames d.tables.flush.2).head?, consumed) := by
  rw [parse, if_neg (not_not.2 hqueue), if_pos rfl, popFrame, flush, hqueue]
  simp only [foldl_pushFrame]
  rfl

/-- A call at the end while frames are queued. -/
theorem drainTurn_queued {f : MediaFrame} {queue : List MediaFrame}
    (h : d.frameQueue = f :: queue) (frames : List MediaFrame) :
    drainTurn (d, frames) = .ok (.next ({ d with frameQueue := queue }, frames ++ [f])) := by
  rw [drainTurn, parse_queued h]
  rfl

/-- The calls at the end when there is nothing to flush. -/
theorem loop_drain_flushed {fuel : ℕ} {frames : List MediaFrame}
    (hflushed : d.tables.pendingFrames = []) (hfuel : d.frameQueue.length < fuel) :
    Checked.loop drainTurn fuel (d, frames) = .ok (frames ++ d.frameQueue) := by
  induction hqueue : d.frameQueue generalizing d frames fuel with
  | nil =>
    obtain ⟨fuel, rfl⟩ := Nat.exists_eq_add_one.2 (Nat.zero_lt_of_lt hfuel)
    refine (Checked.loop_done fuel ?_).trans (by rw [List.append_nil])
    rw [drainTurn, parse_empty hqueue, MpegtsTables.flush, hflushed]
    rfl
  | cons f queue ih =>
    obtain ⟨fuel, rfl⟩ := Nat.exists_eq_add_one.2 (Nat.zero_lt_of_lt hfuel)
    rw [hqueue, List.length_cons] at hfuel
    rw [Checked.loop_next fuel (drainTurn_queued hqueue frames)]
    refine (ih (d := { d with frameQueue := queue }) hflushed (Nat.lt_of_succ_lt_succ hfuel)
      rfl).trans ?_
    rw [List.append_assoc]
    rfl

/-- **The frames out of the calls at the end**: those that were queued, and those of a flush. -/
theorem drain_eq (d : MpegtsDemuxer) :
    d.drain = .ok (d.frameQueue ++ lastFrames d.tables.flush.2) := by
  have hloop : ∀ (queue frames : List MediaFrame) (d : MpegtsDemuxer), d.frameQueue = queue →
      Checked.loop drainTurn (queue.length + maxFrameQueue + 1) (d, frames) =
        .ok (frames ++ queue ++ lastFrames d.tables.flush.2) := by
    intro queue
    induction queue with
    | nil =>
      intro frames d hqueue
      have hlen := length_lastFrames_le d.tables.flush.2
      rw [List.length_nil, Nat.zero_add, List.append_nil]
      cases hlast : lastFrames d.tables.flush.2 with
      | nil =>
        refine (Checked.loop_done _ ?_).trans (by rw [List.append_nil])
        rw [drainTurn, parse_empty hqueue, hlast]
        rfl
      | cons f queue =>
        have hnext : drainTurn (d, frames) = .ok (.next
            ({ d with tables := d.tables.flush.1, frameQueue := queue }, frames ++ [f])) := by
          rw [drainTurn, parse_empty hqueue, hlast]
          rfl
        rw [hlast, List.length_cons] at hlen
        rw [Checked.loop_next _ hnext, loop_drain_flushed (pendingFrames_flush _) hlen,
          List.append_assoc]
        rfl
    | cons f queue ih =>
      intro frames d hqueue
      rw [List.length_cons, Nat.succ_add, Checked.loop_next _ (drainTurn_queued hqueue frames),
        ih _ _ rfl, List.append_assoc frames]
      rfl
  rw [drain, hloop d.frameQueue [] d rfl]
  rfl

end MpegtsDemuxer

/-! ### Packets in groups -/

/-- Groups of packets one after the other, with the frames that each of them completes. -/
def handleGroups : List (List TsPacket) → MpegtsTables →
    Checked (MpegtsTables × List (List MediaFrame))
  | [], t => pure (t, [])
  | group :: groups, t => do
      let (t, frames) ← handlePackets (group.map TsPacket.bytes) t
      let (t, rest) ← handleGroups groups t
      pure (t, frames :: rest)

theorem handlePackets_append (packets packets' : List Bytes) (t : MpegtsTables) :
    handlePackets (packets ++ packets') t =
      handlePackets packets t >>= fun r => handlePackets packets' r.1 >>= fun r' =>
        pure (r'.1, r.2 ++ r'.2) := by
  induction packets generalizing t with
  | nil =>
    simp only [List.nil_append, handlePackets, pure_bind]
    exact (bind_pure _).symm
  | cons packet packets ih =>
    simp only [List.cons_append, handlePackets, ih, bind_assoc, pure_bind, List.append_assoc]

/-- **The groups are handled as the packets in them.** -/
theorem handleGroups_flatten (groups : List (List TsPacket)) (t : MpegtsTables) :
    (handleGroups groups t >>= fun r => pure (r.1, r.2.flatten)) =
      handlePackets (groups.flatten.map TsPacket.bytes) t := by
  induction groups generalizing t with
  | nil => rfl
  | cons group groups ih =>
    simp only [handleGroups, List.flatten_cons, List.map_append, handlePackets_append, ← ih,
      bind_assoc, pure_bind]

theorem handleGroups_ends (groups : List (List TsPacket)) (t : MpegtsTables) :
    (handleGroups groups t).Ends := by
  induction groups generalizing t with
  | nil => exact Checked.ends_pure
  | cons group groups ih =>
    exact (handlePackets_ends ..).bind fun _ _ => (ih _).bind fun _ _ => Checked.ends_pure

/-! ### A stream of packets, cut anywhere -/

/-- A part of a stream that begins with a packet. -/
theorem atSync_front {tail rest : Bytes} {ps : List TsPacket}
    (h : tail ++ rest = ps.flatMap TsPacket.bytes) : AtSync tail := by
  intro b hb
  have hhead : (ps.flatMap TsPacket.bytes ++ []).head? = some b := by
    rw [List.append_nil, ← h, List.head?_append, Option.mem_def.1 hb]
    rfl
  exact atSync_packets ps atSync_nil b hhead

/-- **What a stream gives** from any place on: the frames that are queued, the last of those that
each chunk completes, and the last of those that the flush makes. -/
theorem deliver_from {chunks : List Bytes} (hne : ∀ chunk ∈ chunks, chunk ≠ [])
    {d : MpegtsDemuxer} {tail : Bytes} {ps : List TsPacket} (hbuffer : d.buffer = ⟨tail, 0⟩)
    (htail : tail.length < tsPacketSize)
    (hstream : tail ++ chunks.flatten = ps.flatMap TsPacket.bytes) :
    MpegtsDemuxer.deliver chunks d =
      handleGroups (endingIn tsPacketSize tail.length ps (chunks.map List.length)) d.tables >>=
        fun r => pure (d.frameQueue ++ r.2.flatMap lastFrames ++ lastFrames r.1.flush.2) := by
  induction chunks generalizing d tail ps with
  | nil =>
    rw [MpegtsDemuxer.deliver, MpegtsDemuxer.drain_eq]
    simp [endingIn, handleGroups]
    rfl
  | cons chunk chunks ih =>
    obtain ⟨hchunk, hne⟩ := List.forall_mem_cons.1 hne
    rw [List.flatten_cons, ← List.append_assoc] at hstream
    obtain ⟨tail', hsplit, hlen, hrest⟩ := exists_tail TsPacket.length_bytes hstream
    have hshort : tail'.length < tsPacketSize := hlen ▸ Nat.mod_lt _ (by decide)
    have happend : (d.buffer.append chunk).rest = tail ++ chunk := by
      rw [hbuffer, TsBuffer.append, if_pos (by simpa using htail)]
      rfl
    have hresync : resync (d.buffer.append chunk).rest =
        ((ps.take ((tail ++ chunk).length / tsPacketSize)).map TsPacket.bytes, tail') := by
      rw [happend]
      conv_lhs => rw [hsplit]
      exact resync_packets _ hshort (atSync_front hrest)
    rw [MpegtsDemuxer.deliver, MpegtsDemuxer.feed_eq hchunk, List.map_cons, endingIn, handleGroups,
      ← List.length_append, hresync, ← hlen]
    simp only [bind_assoc, pure_bind]
    refine bind_congr fun r => ?_
    have hbehind : (d.behind chunk r).buffer = ⟨tail', 0⟩ := by
      rw [MpegtsDemuxer.behind, hresync]
    rw [ih hne hbehind hshort hrest]
    simp only [bind_assoc, pure_bind]
    refine bind_congr fun r' => ?_
    -- the first frame of the chunk and those that stay queued
    have hqueue : (lastFrames r.2).head?.toList ++ (d.behind chunk r).frameQueue =
        lastFrames r.2 := by
      rw [MpegtsDemuxer.behind]
      cases lastFrames r.2 <;> rfl
    simp only [List.flatMap_cons, List.append_assoc]
    rw [← List.append_assoc (lastFrames r.2).head?.toList, hqueue]

/-- A stream of packets, cut into chunks. -/
structure ChunkCut (ps : List TsPacket) where
  chunks : List Bytes
  nonempty : ∀ chunk ∈ chunks, chunk ≠ []
  flatten_chunks : chunks.flatten = ps.flatMap TsPacket.bytes

namespace ChunkCut

variable {ps : List TsPacket}

/-- The frames that come out. -/
def deliver (c : ChunkCut ps) : Checked (List MediaFrame) := MpegtsDemuxer.deliver c.chunks {}

/-- The packets that end in each of the chunks. -/
def groups (c : ChunkCut ps) : List (List TsPacket) :=
  endingIn tsPacketSize 0 ps (c.chunks.map List.length)

/-- **Which frames come out**: of those that the packets ending in a chunk complete, the last 64,
and the last 64 of those that the flush makes. -/
theorem deliver_eq (c : ChunkCut ps) :
    c.deliver = handleGroups c.groups {} >>= fun r =>
      pure (r.2.flatMap lastFrames ++ lastFrames r.1.flush.2) := by
  have hnil : ([] : Bytes).length < tsPacketSize := by decide
  exact deliver_from c.nonempty rfl hnil c.flatten_chunks

/-- The calls end, with every frame or in an invalid access. -/
theorem deliver_ends (c : ChunkCut ps) : c.deliver.Ends := by
  rw [c.deliver_eq]
  exact (handleGroups_ends ..).bind fun _ _ => Checked.ends_pure

theorem flatten_groups (c : ChunkCut ps) : c.groups.flatten = ps := by
  refine flatten_endingIn (by decide) ?_ (by decide)
  rw [Nat.zero_add, ← List.length_flatten, c.flatten_chunks, length_packets]

/-- No chunk completes more frames than the queue holds. -/
def FitsQueue (c : ChunkCut ps) : Prop :=
  ∀ r, handleGroups c.groups {} = .ok r → ∀ frames ∈ r.2, frames.length ≤ maxFrameQueue

/-- Where no chunk completes more frames than the queue holds, they all come out. -/
theorem FitsQueue.deliver_eq {c : ChunkCut ps} (h : c.FitsQueue) :
    c.deliver = handlePackets (ps.map TsPacket.bytes) {} >>= fun r =>
      pure (r.2 ++ lastFrames r.1.flush.2) := by
  have hgroups := handleGroups_flatten c.groups {}
  rw [c.flatten_groups] at hgroups
  rw [ChunkCut.deliver_eq, ← hgroups]
  cases hr : handleGroups c.groups {} with
  | error e => rfl
  | ok r =>
    have hkeep : r.2.flatMap lastFrames = r.2.flatten := by
      rw [← List.flatMap_id]
      exact List.flatMap_congr fun frames hframes => lastFrames_of_le (h r hr frames hframes)
    simp only [Checked.ok_bind, pure_bind, hkeep]

/-- Each packet completes at most one frame. -/
theorem length_handlePackets_le (packets : List Bytes) (t : MpegtsTables)
    {r : MpegtsTables × List MediaFrame} (h : handlePackets packets t = .ok r) :
    r.2.length ≤ packets.length := by
  induction packets generalizing t r with
  | nil =>
    obtain rfl := Except.ok.inj h
    exact le_rfl
  | cons packet packets ih =>
    obtain ⟨⟨t', frame⟩, -, h⟩ := Checked.bind_eq_ok.1 h
    obtain ⟨r', hr', h⟩ := Checked.bind_eq_ok.1 h
    obtain rfl := Except.ok.inj h
    have hframe : frame.toList.length ≤ 1 := by cases frame <;> simp
    have := ih t' hr'
    simp only [List.length_append, List.length_cons]
    omega

/-- So do the packets of a group. -/
theorem length_handleGroups_le {k : ℕ} {groups : List (List TsPacket)} (t : MpegtsTables)
    (hgroups : ∀ group ∈ groups, group.length ≤ k)
    {r : MpegtsTables × List (List MediaFrame)} (h : handleGroups groups t = .ok r) :
    ∀ frames ∈ r.2, frames.length ≤ k := by
  induction groups generalizing t r with
  | nil =>
    obtain rfl := Except.ok.inj h
    exact fun _ hmem => by cases hmem
  | cons group groups ih =>
    obtain ⟨hgroup, hgroups⟩ := List.forall_mem_cons.1 hgroups
    obtain ⟨⟨t', frames⟩, hfirst, h⟩ := Checked.bind_eq_ok.1 h
    obtain ⟨r', hr', h⟩ := Checked.bind_eq_ok.1 h
    obtain rfl := Except.ok.inj h
    have hle := length_handlePackets_le _ _ hfirst
    rw [List.length_map] at hle
    exact List.forall_mem_cons.2 ⟨hle.trans hgroup, ih t' hgroups hr'⟩

/-- **Chunks of up to 64 packets fit.** -/
theorem fitsQueue_of_length {c : ChunkCut ps}
    (h : ∀ chunk ∈ c.chunks, chunk.length ≤ maxFrameQueue * tsPacketSize) : c.FitsQueue := by
  refine fun r hr => length_handleGroups_le _ (length_le_of_mem_endingIn ?_ (by decide)) hr
  exact List.forall_mem_map.2 h

/-- **Two cuts of one stream.**  Whatever the cut, the calls end, and a chunk gives the last 64 of
the frames that its packets complete; so where none completes more, all of them come out, and the
cut makes no difference. -/
theorem deliver_chunks (c c' : ChunkCut ps) :
    c.deliver.Ends ∧
    (c.deliver = handleGroups c.groups {} >>= fun r =>
      pure (r.2.flatMap lastFrames ++ lastFrames r.1.flush.2)) ∧
    (c.FitsQueue → c.deliver = handlePackets (ps.map TsPacket.bytes) {} >>= fun r =>
      pure (r.2 ++ lastFrames r.1.flush.2)) ∧
    (c.FitsQueue → c'.FitsQueue → c.deliver = c'.deliver) :=
  ⟨c.deliver_ends, c.deliver_eq, FitsQueue.deliver_eq,
    fun h h' => h.deliver_eq.trans h'.deliver_eq.symm⟩

/-- The whole stream in one chunk. -/
def whole (ps : List TsPacket) (h : ps ≠ []) : ChunkCut ps where
  chunks := [ps.flatMap TsPacket.bytes]
  nonempty := by
    intro chunk hchunk hnil
    have hlen := length_packets ps
    rw [← List.mem_singleton.1 hchunk, hnil, List.length_nil] at hlen
    rcases Nat.mul_eq_zero.1 hlen.symm with h₀ | h₀
    · exact h (List.length_eq_zero_iff.1 h₀)
    · exact absurd h₀ (by decide)
  flatten_chunks := List.flatten_singleton

theorem groups_whole (h : ps ≠ []) : (whole ps h).groups = [ps] := by
  have hdiv : (0 + (ps.flatMap TsPacket.bytes).length) / tsPacketSize = ps.length := by
    rw [Nat.zero_add, length_packets, Nat.mul_div_cancel _ (by decide)]
  rw [groups, whole, List.map_singleton, endingIn, hdiv, List.take_length]
  rfl

theorem whole_fitsQueue (h : ps ≠ []) (hlen : ps.length ≤ maxFrameQueue) :
    (whole ps h).FitsQueue := by
  refine fitsQueue_of_length fun chunk hchunk => ?_
  rw [List.mem_singleton.1 hchunk, length_packets]
  exact Nat.mul_le_mul_right _ hlen

/-- Each packet in a chunk of its own. -/
def packetwise (ps : List TsPacket) : ChunkCut ps where
  chunks := ps.map TsPacket.bytes
  nonempty := by
    intro chunk hchunk hnil
    obtain ⟨p, -, rfl⟩ := List.mem_map.1 hchunk
    have hlen := p.length_bytes
    rw [hnil] at hlen
    exact absurd hlen (by decide)
  flatten_chunks := List.flatMap_def.symm

theorem packetwise_fitsQueue (ps : List TsPacket) : (packetwise ps).FitsQueue := by
  refine fitsQueue_of_length fun chunk hchunk => ?_
  obtain ⟨p, -, rfl⟩ := List.mem_map.1 hchunk
  rw [p.length_bytes]
  decide

end ChunkCut

/-! ### A stream with frames -/

/-- A program association table: the map table is on PID `0x20`. -/
def patPacket : TsPacket := stuffedPacket 0 true 0
  [0x00, 0x00, 0xB0, 0x0D, 0x00, 0x01, 0xC1, 0x00, 0x00, 0x00, 0x01, 0xE0, 0x20,
    0xA2, 0xC3, 0x29, 0x41] (by decide)

/-- A program map table: an H.264 stream on PID `0x100`. -/
def pmtPacket : TsPacket := stuffedPacket 0x20 true 0
  [0x00, 0x02, 0xB0, 0x12, 0x00, 0x01, 0xC1, 0x00, 0x00, 0xE1, 0x00, 0xF0, 0x00,
    0x1B, 0xE1, 0x00, 0xF0, 0x00, 0x15, 0xBD, 0x4D, 0x56] (by decide)

/-- A PES packet of one byte; it completes the one before. -/
def framePacket (i : ℕ) : TsPacket := stuffedPacket 0x100 true (BitVec.ofNat 4 i)
  [0x00, 0x00, 0x01, 0xE0, 0x00, 0x00, 0x80, 0x00, 0x00, 0x01] (by decide)

/-- The tables and two frames, in one chunk and packet by packet. -/
theorem ChunkCut.deliver_chunks_frames :
    let ps := [patPacket, pmtPacket, framePacket 0, framePacket 1]
    (whole ps (List.cons_ne_nil _ _)).FitsQueue ∧ (packetwise ps).FitsQueue ∧
      (packetwise ps).deliver.toOption.map List.length = some 2 ∧
      (whole ps (List.cons_ne_nil _ _)).deliver = (packetwise ps).deliver := by
  intro ps
  have hwhole : (whole ps (List.cons_ne_nil _ _)).FitsQueue := whole_fitsQueue _ (by decide)
  have hpackets := packetwise_fitsQueue ps
  obtain ⟨-, -, hdeliver, -⟩ := deliver_chunks (packetwise ps) (packetwise ps)
  exact ⟨hwhole, hpackets, by rw [hdeliver hpackets]; decide +kernel,
    (deliver_chunks _ _).2.2.2 hwhole hpackets⟩

/-! ### A chunk with too many frames -/

/-- The tables and 66 PES packets. -/
def burst : List TsPacket := patPacket :: pmtPacket :: (List.range 66).map framePacket

theorem burst_frames :
    (handlePackets (burst.map TsPacket.bytes) {}).toOption.map (fun r => r.2.length) = some 65 := by
  decide +kernel

/-- In one chunk, the first of its 65 frames is lost; packet by packet none is. -/
theorem burst_loses_frame : ¬ ∀ (ps : List TsPacket) (c c' : ChunkCut ps),
    c.deliver = c'.deliver := by
  intro h
  have hne : burst ≠ [] := List.cons_ne_nil _ _
  have hsame := h burst (ChunkCut.whole burst hne) (ChunkCut.packetwise burst)
  rw [ChunkCut.deliver_eq, ChunkCut.groups_whole, (ChunkCut.packetwise_fitsQueue burst).deliver_eq,
    handleGroups] at hsame
  have hframes := burst_frames
  cases hr : handlePackets (burst.map TsPacket.bytes) {} with
  | error e => rw [hr] at hframes; cases hframes
  | ok r =>
    rw [hr] at hframes hsame
    have hlen := congrArg List.length (Except.ok.inj hsame)
    have hmany : r.2.length = 65 := Option.some.inj hframes
    have hkept := length_lastFrames_le r.2
    simp only [List.flatMap_cons, List.flatMap_nil, List.append_nil, List.length_append] at hlen
    rw [maxFrameQueue] at hkept
    omega

end AsioRtc
