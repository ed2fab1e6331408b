/-
# A demuxer for transport streams

`MPEGTSDemuxer` of `src/mpegts_demuxer.hpp`.  `parse` is handed a chunk of the stream and
returns a frame if there is one: while frames are queued it takes the first of them and leaves
the chunk alone, otherwise it puts the chunk behind its buffer (`consumed`) and handles the
packets that are in there.

* `findSync` is the search for the next packet.  A `0x47` is taken for its first byte where a
  packet length behind it there is another one, or the end of the buffer.
* `handleTsPacket` gives the payload of a packet to `parsePsi` or `parsePes`; a packet
  completes at most one frame.
* `pushFrame` keeps 64 frames and lets the oldest go.
* `flush` makes frames of all bytes that have been collected.

What a packet does depends on the tables alone, not on the buffer or the queue, so
`processTsPackets` is the loop over the packets for any way of handling one.
-/

import AsioRtc.Mpegts.Pes

namespace AsioRtc

open Lib

/-- `TS_PACKET_SIZE`. -/
def tsPacketSize : ℕ := 188

/-- `MAX_FRAME_QUEUE`. -/
def maxFrameQueue : ℕ := 64

/-- `MAX_PSI_SECTION`. -/
def maxPsiSection : ℕ := 4096

/-! ### The tables -/

namespace MpegtsTables

/-- `is_pmt_pid`: a program has its table there. -/
def isPmtPid (t : MpegtsTables) (pid : ℕ) : Bool := t.programs.any fun p => p.pmtPid = pid

/-- `streams_[pid] = st`. -/
def setStream (t : MpegtsTables) (pid : ℕ) (st : StreamState) : MpegtsTables :=
  { t with streams := t.streams.update pid fun _ => st }

/-- `streams_.erase(pid)`. -/
def eraseStream (t : MpegtsTables) (pid : ℕ) : MpegtsTables :=
  { t with streams := t.streams.erase pid }

/-- `streams_[pid].psi_section`. -/
def psiSection (t : MpegtsTables) (pid : ℕ) : Bytes := ((t.streams.find? pid).getD {}).psiSection

/-- `streams_[pid].psi_section = bytes`. -/
def setPsiSection (t : MpegtsTables) (pid : ℕ) (bytes : Bytes) : MpegtsTables :=
  { t with streams := t.streams.update pid fun st => { st.getD {} with psiSection := bytes } }

end MpegtsTables

/-- A turn of `process_psi_sections`. -/
def psiSectionTurn (pid : ℕ) (t : MpegtsTables) : Checked (Turn MpegtsTables MpegtsTables) :=
  let buf := t.psiSection pid
  if buf.length < 3 then pure (.done t)
  else do
    let tableId ← byteAt buf 0
    if tableId = 0xFF then pure (.done (t.eraseStream pid))
    else do
      let sectionLen ← maskedBig16 buf 0x0F 1
      if 1021 < sectionLen then pure (.done (t.eraseStream pid))
      else if buf.length < 3 + sectionLen then pure (.done t)
      else do
        let t ← handlePsiSection buf (3 + sectionLen) t
        pure (.next (t.setPsiSection pid (buf.drop (3 + sectionLen))))

/-- `process_psi_sections`; every turn takes at least three bytes off the section, so its length
bounds the turns. -/
def processPsiSections (pid : ℕ) (t : MpegtsTables) : Checked MpegtsTables :=
  Checked.loop (psiSectionTurn pid) ((t.psiSection pid).length + 1) t

/-- `parse_psi`: a payload that starts a section begins behind its pointer, another one continues
what is kept. -/
def parsePsi (data : Bytes) (start : Bool) (pid : ℕ) (t : MpegtsTables) : Checked MpegtsTables :=
  if start then do
    let pointerField ← byteAt data 0
    let tableStart := 1 + pointerField.toNat
    if tableStart < data.length then
      if maxPsiSection < (t.psiSection pid).length + data.length - tableStart then
        pure (t.eraseStream pid)
      else processPsiSections pid (t.setPsiSection pid (data.drop tableStart))
    else pure (t.eraseStream pid)
  else
    match t.streams.find? pid with
    | none => pure t
    | some st =>
        if st.psiSection = [] then pure (t.eraseStream pid)
        else if maxPsiSection < st.psiSection.length + data.length then pure (t.eraseStream pid)
        else processPsiSections pid (t.setPsiSection pid (st.psiSection ++ data))

/-! ### Packets -/

/-- What `TSHeader` reads of the first four bytes. -/
structure TsHeader where
  error : Bool
  payloadUnitStartIndicator : Bool
  pid : ℕ
  adaptationFieldControl : U8
  continuityCounter : U8
  deriving DecidableEq, Repr

/-- `TSHeader`; the bits are those of the first four bytes. -/
def TsHeader.read (packet : Bytes) : Checked TsHeader := do
  let b₁ ← byteAt packet 1
  let pid ← maskedBig16 packet 0x1F 1
  let b₃ ← byteAt packet 3
  pure
    { error := b₁ &&& 0x80 ≠ 0
      payloadUnitStartIndicator := b₁ &&& 0x40 ≠ 0
      pid
      adaptationFieldControl := (b₃ >>> 4) &&& 0x03
      continuityCounter := b₃ &&& 0x0F }

namespace StreamState

/-- A packet with the counter of the one before. -/
def isDuplicate (st : StreamState) (cc : U8) : Bool := !st.firstCc && cc = st.continuityCounter

/-- A counter that is not the next one is logged, and taken. -/
def count (st : StreamState) (cc : U8) : StreamState :=
  { st with continuityCounter := cc, firstCc := false }

end StreamState

/-- `offset`: where the payload starts, behind the adaptation field if there is one. -/
def payloadOffset (packet : Bytes) (afc : U8) : Checked ℕ :=
  if afc = 0x02 ∨ afc = 0x03 then do
    let afLen ← byteAt packet 4
    pure (4 + (1 + afLen.toNat))
  else pure 4

/-- The payload is given to the parser that its PID is for. -/
def handlePayload (header : TsHeader) (payload : Bytes) (t : MpegtsTables) :
    Checked (MpegtsTables × Option MediaFrame) :=
  let start := header.payloadUnitStartIndicator
  if header.pid = 0 then do
    pure (← parsePsi payload start 0 t, none)
  else if t.isPmtPid header.pid then do
    pure (← parsePsi payload start header.pid t, none)
  else
    match t.streams.find? header.pid with
    | none => pure (t, none)
    | some st => do
        let (st, frame) ← parsePes payload start st
        pure (t.setStream header.pid st, frame)

/-- `handle_ts_packet`, with the frame it pushes. -/
def handleTsPacket (packet : Bytes) (t : MpegtsTables) :
    Checked (MpegtsTables × Option MediaFrame) := do
  let header ← TsHeader.read packet
  if header.error then pure (t, none)
  else
    let si := t.streams.find? header.pid
    if si.any (·.isDuplicate header.continuityCounter) then pure (t, none)
    else do
      let t := match si with
        | none => t
        | some st => t.setStream header.pid (st.count header.continuityCounter)
      let offset ← payloadOffset packet header.adaptationFieldControl
      if tsPacketSize ≤ offset then pure (t, none)
      else if header.adaptationFieldControl = 0x02 then pure (t, none)
      else handlePayload header (packet.drop offset) t

namespace MpegtsTables

/-- The frames made of the bytes that have been collected, with the PIDs of their streams. -/
def pendingFrames (t : MpegtsTables) : List (ℕ × MediaFrame) :=
  t.streams.entries.filterMap fun e => e.2.pendingFrame.map (Prod.mk e.1)

/-- What `flush` leaves of the streams, and the frames it pushes, in the order of their PIDs. -/
def flush (t : MpegtsTables) : MpegtsTables × List MediaFrame :=
  ({ t with streams := t.streams.mapValues fun st => { st with pesBuffer := [] } },
    t.pendingFrames.map Prod.snd)

end MpegtsTables

/-- Packets one after the other, with the frames they push. -/
def handlePackets : List Bytes → MpegtsTables → Checked (MpegtsTables × List MediaFrame)
  | [], t => pure (t, [])
  | packet :: packets, t => do
      let (t, frame) ← handleTsPacket packet t
      let (t, frames) ← handlePackets packets t
      pure (t, frame.toList ++ frames)

/-! ### Every loop over a packet ends -/

/-- A masked read ends. -/
theorem maskedBig16_ends (data : Bytes) (mask : U8) (o : ℕ) : (maskedBig16 data mask o).Ends := by
  refine (byteAt_ends ..).bind fun _ _ => ?_
  exact (byteAt_ends ..).bind fun _ _ => Checked.ends_pure

/-- The check of the sum ends. -/
theorem crcMatches_ends (data : Bytes) (len : ℕ) : (crcMatches data len).Ends := by
  refine Checked.Ends.bind ?_ fun _ _ => ?_
  · exact (slice_ends ..).bind fun _ _ => Checked.ends_pure
  · exact (readBig32_ends ..).bind fun _ _ => Checked.ends_pure

/-- A turn over a program ends. -/
theorem patTurn_ends (data : Bytes) (loopEnd : ℕ) (s : ℕ × List ProgramInfo) :
    (patTurn data loopEnd s).Ends := by
  refine Checked.Ends.ite (fun _ => ?_) fun _ => Checked.ends_pure
  refine (maskedBig16_ends ..).bind fun _ _ => ?_
  exact (maskedBig16_ends ..).bind fun _ _ => Checked.ends_pure

/-- Reading the table of the programs ends: every turn goes four bytes on. -/
theorem parsePat_ends (data : Bytes) (len : ℕ) (t : MpegtsTables) : (parsePat data len t).Ends := by
  refine Checked.Ends.bind ?_ fun _ _ => Checked.ends_pure
  refine Checked.loop_ends (fun s => len - 4 - s.1) (patTurn_ends _ _) (fun s s' h => ?_)
    (by simp only; omega)
  rw [patTurn] at h
  split at h
  · obtain ⟨prog, -, h⟩ := Checked.bind_eq_ok.1 h
    obtain ⟨pid, -, h⟩ := Checked.bind_eq_ok.1 h
    cases h
    simp only
    omega
  · cases h

/-- Reading a descriptor ends. -/
theorem descriptorMedia_ends (data : Bytes) (tag dlen : U8) (body : ℕ)
    (m : MediaFormat × MediaKind) : (descriptorMedia data tag dlen body m).Ends := by
  refine Checked.Ends.ite (fun _ => Checked.ends_pure) fun _ => ?_
  refine Checked.Ends.ite (fun _ => Checked.ends_pure) fun _ => ?_
  refine Checked.Ends.ite (fun _ => ?_) fun _ => Checked.ends_pure
  exact (slice_ends ..).bind fun _ _ => Checked.ends_pure

/-- A turn over a descriptor ends. -/
theorem descriptorTurn_ends (data : Bytes) (base infoLen : ℕ)
    (s : ℕ × MediaFormat × MediaKind) : (descriptorTurn data base infoLen s).Ends := by
  refine Checked.Ends.ite (fun _ => ?_) fun _ => Checked.ends_pure
  refine (byteAt_ends ..).bind fun _ _ => ?_
  refine (byteAt_ends ..).bind fun _ _ => ?_
  refine Checked.Ends.ite (fun _ => Checked.ends_pure) fun _ => ?_
  exact (descriptorMedia_ends ..).bind fun _ _ => Checked.ends_pure

/-- Reading the descriptors of a stream ends: every turn goes at least two bytes on. -/
theorem descriptorLoop_ends (data : Bytes) (base infoLen : ℕ) (m : MediaFormat × MediaKind) :
    (descriptorLoop data base infoLen m).Ends := by
  refine Checked.loop_ends (fun s => infoLen - s.1) (descriptorTurn_ends _ _ _) (fun s s' h => ?_)
    (by simp only; omega)
  rw [descriptorTurn] at h
  split at h
  · obtain ⟨tag, -, h⟩ := Checked.bind_eq_ok.1 h
    obtain ⟨dlen, -, h⟩ := Checked.bind_eq_ok.1 h
    split at h
    · cases h
    · obtain ⟨m, -, h⟩ := Checked.bind_eq_ok.1 h
      cases h
      simp only
      omega
  · cases h

/-- A turn over a stream of a program ends. -/
theorem entryTurn_ends (data : Bytes) (loopEnd : ℕ) (s : ℕ × OrdMap ℕ StreamState) :
    (entryTurn data loopEnd s).Ends := by
  refine Checked.Ends.ite (fun _ => ?_) fun _ => Checked.ends_pure
  refine (byteAt_ends ..).bind fun _ _ => ?_
  refine (maskedBig16_ends ..).bind fun _ _ => ?_
  refine (maskedBig16_ends ..).bind fun _ _ => ?_
  exact (descriptorLoop_ends ..).bind fun _ _ => Checked.ends_pure

/-- Reading the table of a program ends: every turn goes at least five bytes on. -/
theorem parsePmt_ends (data : Bytes) (len : ℕ) (t : MpegtsTables) : (parsePmt data len t).Ends := by
  refine Checked.Ends.ite (fun _ => Checked.ends_pure) fun _ => ?_
  refine (maskedBig16_ends ..).bind fun piLen _ => ?_
  refine Checked.Ends.ite (fun _ => Checked.ends_pure) fun _ => ?_
  refine Checked.Ends.bind ?_ fun _ _ => Checked.ends_pure
  refine Checked.loop_ends (fun s => len - 4 - s.1) (entryTurn_ends _ _) (fun s s' h => ?_)
    (by simp only; omega)
  rw [entryTurn] at h
  split at h
  · obtain ⟨streamType, -, h⟩ := Checked.bind_eq_ok.1 h
    obtain ⟨esPid, -, h⟩ := Checked.bind_eq_ok.1 h
    obtain ⟨infoLen, -, h⟩ := Checked.bind_eq_ok.1 h
    obtain ⟨m, -, h⟩ := Checked.bind_eq_ok.1 h
    cases h
    simp only
    omega
  · cases h

/-- Reading a section ends. -/
theorem handlePsiSection_ends (data : Bytes) (len : ℕ) (t : MpegtsTables) :
    (handlePsiSection data len t).Ends := by
  refine Checked.Ends.ite (fun _ => Checked.ends_pure) fun _ => ?_
  refine (crcMatches_ends ..).bind fun crc _ => ?_
  refine Checked.Ends.ite (fun _ => ?_) fun _ => Checked.ends_pure
  refine (byteAt_ends ..).bind fun tableId _ => ?_
  refine Checked.Ends.ite (fun _ => parsePat_ends ..) fun _ => ?_
  exact Checked.Ends.ite (fun _ => parsePmt_ends ..) fun _ => Checked.ends_pure

/-- The section that is set is the one that is kept. -/
theorem psiSection_setPsiSection (t : MpegtsTables) (pid : ℕ) (bytes : Bytes) :
    (t.setPsiSection pid bytes).psiSection pid = bytes := by
  rw [MpegtsTables.psiSection, MpegtsTables.setPsiSection, OrdMap.find?_update_self]
  rfl

/-- A turn over a section ends. -/
theorem psiSectionTurn_ends (pid : ℕ) (t : MpegtsTables) : (psiSectionTurn pid t).Ends := by
  refine Checked.Ends.ite (fun _ => Checked.ends_pure) fun _ => ?_
  refine (byteAt_ends ..).bind fun tableId _ => ?_
  refine Checked.Ends.ite (fun _ => Checked.ends_pure) fun _ => ?_
  refine (maskedBig16_ends ..).bind fun sectionLen _ => ?_
  refine Checked.Ends.ite (fun _ => Checked.ends_pure) fun _ => ?_
  refine Checked.Ends.ite (fun _ => Checked.ends_pure) fun _ => ?_
  exact (handlePsiSection_ends ..).bind fun _ _ => Checked.ends_pure

/-- Each section takes at least its first three bytes from those that are left. -/
theorem processPsiSections_ends (pid : ℕ) (t : MpegtsTables) : (processPsiSections pid t).Ends := by
  refine Checked.loop_ends (fun t => (t.psiSection pid).length) (psiSectionTurn_ends pid)
    (fun t t' h => ?_) (Nat.lt_succ_self _)
  rw [psiSectionTurn] at h
  split at h
  · cases h
  obtain ⟨tableId, -, h⟩ := Checked.bind_eq_ok.1 h
  split at h
  · cases h
  obtain ⟨sectionLen, -, h⟩ := Checked.bind_eq_ok.1 h
  split at h
  · cases h
  split at h
  · cases h
  obtain ⟨t₁, -, h⟩ := Checked.bind_eq_ok.1 h
  cases h
  rw [psiSection_setPsiSection, List.length_drop]
  omega

/-- Reading the sections of a payload ends. -/
theorem parsePsi_ends (data : Bytes) (start : Bool) (pid : ℕ) (t : MpegtsTables) :
    (parsePsi data start pid t).Ends := by
  refine Checked.Ends.ite (fun _ => ?_) fun _ => ?_
  · refine (byteAt_ends ..).bind fun _ _ => ?_
    refine Checked.Ends.ite (fun _ => ?_) fun _ => Checked.ends_pure
    exact Checked.Ends.ite (fun _ => Checked.ends_pure) fun _ => processPsiSections_ends ..
  · split
    · exact Checked.ends_pure
    · refine Checked.Ends.ite (fun _ => Checked.ends_pure) fun _ => ?_
      exact Checked.Ends.ite (fun _ => Checked.ends_pure) fun _ => processPsiSections_ends ..

/-- Reading a header ends. -/
theorem TsHeader.read_ends (packet : Bytes) : (TsHeader.read packet).Ends := by
  refine (byteAt_ends ..).bind fun _ _ => ?_
  refine (maskedBig16_ends ..).bind fun _ _ => ?_
  exact (byteAt_ends ..).bind fun _ _ => Checked.ends_pure

/-- Finding the payload ends. -/
theorem payloadOffset_ends (packet : Bytes) (afc : U8) : (payloadOffset packet afc).Ends := by
  refine Checked.Ends.ite (fun _ => ?_) fun _ => Checked.ends_pure
  exact (byteAt_ends ..).bind fun _ _ => Checked.ends_pure

/-- A payload is handled to its end. -/
theorem handlePayload_ends (header : TsHeader) (payload : Bytes) (t : MpegtsTables) :
    (handlePayload header payload t).Ends := by
  refine Checked.Ends.ite (fun _ => ?_) fun _ => Checked.Ends.ite (fun _ => ?_) fun _ => ?_
  · exact (parsePsi_ends ..).bind fun _ _ => Checked.ends_pure
  · exact (parsePsi_ends ..).bind fun _ _ => Checked.ends_pure
  · split
    · exact Checked.ends_pure
    · exact (parsePes_pushed ..).safe.ends.bind fun _ _ => Checked.ends_pure

/-- **Every packet is handled to its end**, or makes an invalid access. -/
theorem handleTsPacket_ends (packet : Bytes) (t : MpegtsTables) :
    (handleTsPacket packet t).Ends := by
  refine (TsHeader.read_ends packet).bind fun header _ => ?_
  refine Checked.Ends.ite (fun _ => Checked.ends_pure) fun _ => ?_
  refine Checked.Ends.ite (fun _ => Checked.ends_pure) fun _ => ?_
  refine (payloadOffset_ends ..).bind fun offset _ => ?_
  refine Checked.Ends.ite (fun _ => Checked.ends_pure) fun _ => ?_
  exact Checked.Ends.ite (fun _ => Checked.ends_pure) fun _ => handlePayload_ends ..

/-- Packets are handled to their end, one after the other. -/
theorem handlePackets_ends (packets : List Bytes) (t : MpegtsTables) :
    (handlePackets packets t).Ends := by
  induction packets generalizing t with
  | nil => exact Checked.ends_pure
  | cons packet packets ih =>
    refine (handleTsPacket_ends packet t).bind fun _ _ => ?_
    exact (ih _).bind fun _ _ => Checked.ends_pure

/-! ### The buffer -/

/-- `buffer_` and `read_offset_`. -/
structure TsBuffer where
  buffer : Bytes := []
  readOffset : ℕ := 0
  deriving DecidableEq, Repr

namespace TsBuffer

/-- Where `std::find` from `read_offset_` on finds a sync byte; the end where it finds none. -/
def nextSync (b : TsBuffer) : ℕ := b.readOffset + (b.buffer.drop b.readOffset).idxOf 0x47

/-- The next packet is looked for from where the reader stands. -/
theorem readOffset_le_nextSync (b : TsBuffer) : b.readOffset ≤ b.nextSync := Nat.le_add_right ..

/-- The place of the next packet and the buffer with `read_offset_` there; `none` is `npos`. -/
def findSync (b : TsBuffer) : TsBuffer × Option ℕ :=
  if b.readOffset + tsPacketSize ≤ b.buffer.length then
    let sync := b.nextSync
    let n := b.buffer.length - sync
    if sync = b.buffer.length then (⟨[], 0⟩, none)
    else if n < tsPacketSize then (⟨b.buffer.drop sync, 0⟩, none)
    else if tsPacketSize < n then
      if b.buffer[sync + tsPacketSize]? = some 0x47 then (⟨b.buffer, sync⟩, some sync)
      else findSync ⟨b.buffer, sync + tsPacketSize + 1⟩
    else (⟨b.buffer, sync⟩, some sync)
  else (⟨b.buffer.drop b.readOffset, 0⟩, none)
termination_by b.buffer.length - b.readOffset
decreasing_by
  have := b.readOffset_le_nextSync
  simp only [tsPacketSize] at *
  omega

/-- A turn of the loop of `process_ts_packets`. -/
def processTurn {σ : Type} (handle : Bytes → σ → Checked σ) (s : σ × TsBuffer) :
    Checked (Turn (σ × TsBuffer) (σ × TsBuffer)) :=
  match s.2.findSync with
  | (b, none) => pure (.done (s.1, b))
  | (b, some _) => do
      let s ← handle ((b.buffer.drop b.readOffset).take tsPacketSize) s.1
      pure (.next (s, ⟨b.buffer, b.readOffset + tsPacketSize⟩))

/-- `process_ts_packets`, with `handle` for `handle_ts_packet`. -/
def processTsPackets {σ : Type} (handle : Bytes → σ → Checked σ) (s : σ) (b : TsBuffer) :
    Checked (σ × TsBuffer) :=
  Checked.loop (processTurn handle) (b.buffer.length + 1) (s, b)

/-- More bytes behind the buffer, whose front goes where it is nearly used up. -/
def append (b : TsBuffer) (data : Bytes) : TsBuffer :=
  let b := if b.buffer.length - b.readOffset < tsPacketSize then ⟨b.buffer.drop b.readOffset, 0⟩
    else b
  ⟨b.buffer ++ data, b.readOffset⟩

end TsBuffer

/-! ### The demuxer -/

/-- `MPEGTSDemuxer`. -/
structure MpegtsDemuxer where
  buffer : TsBuffer := {}
  tables : MpegtsTables := {}
  frameQueue : List MediaFrame := []

/-- The oldest frames go where there are too many. -/
def pushFrame (queue : List MediaFrame) (f : MediaFrame) : List MediaFrame :=
  queue.drop (queue.length + 1 - maxFrameQueue) ++ [f]

/-- A packet is handled, and the frame it completes goes into the queue. -/
def queuePacket (packet : Bytes) (s : MpegtsTables × List MediaFrame) :
    Checked (MpegtsTables × List MediaFrame) := do
  let (t, frame) ← handleTsPacket packet s.1
  pure (t, frame.toList.foldl pushFrame s.2)

namespace MpegtsDemuxer

/-- `flush`: what is put together of the streams becomes frames. -/
def flush (d : MpegtsDemuxer) : MpegtsDemuxer :=
  { d with
    tables := d.tables.flush.1
    frameQueue := d.tables.flush.2.foldl pushFrame d.frameQueue }

/-- The front of the queue, if there is one. -/
def popFrame (d : MpegtsDemuxer) : MpegtsDemuxer × Option MediaFrame :=
  ({ d with frameQueue := d.frameQueue.tail }, d.frameQueue.head?)

/-- `parse`: the frame it returns, and `consumed` as it leaves it. -/
def parse (d : MpegtsDemuxer) (data : Bytes) (consumed : ℕ) :
    Checked (MpegtsDemuxer × Option MediaFrame × ℕ) :=
  if d.frameQueue ≠ [] then pure (d.popFrame.1, d.popFrame.2, consumed)
  else if data = [] then pure (d.flush.popFrame.1, d.flush.popFrame.2, consumed)
  else do
    let ((tables, frameQueue), buffer) ←
      (d.buffer.append data).processTsPackets queuePacket (d.tables, d.frameQueue)
    let d : MpegtsDemuxer := { buffer, tables, frameQueue }
    pure (d.popFrame.1, d.popFrame.2, data.length)

end MpegtsDemuxer

end AsioRtc
