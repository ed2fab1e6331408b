/-
# A PES packet put together again

The data of a PES packet (`PesPacket`) are split over the payloads of packets of one PID.
`parse_pes` starts with the first fragment and carries on with the others, until the next PES
packet of the PID starts or a flush comes (`Completion`); then it pushes a frame.

Whether a PES packet is under way it sees from the bytes it has collected: where the first
fragment ends with the header there are none, and the fragments behind it are dropped.  And a
next first fragment that is too short for a header completes nothing.  In all other cases the
frame has just the data (`Transfer.emits_iff`).
-/

import AsioRtc.Mpegts.Sync

namespace AsioRtc

open Lib

/-! ### PES packets and the packets that carry them -/

/-- A PES packet: the fixed fields of its header, the `header_data_length` bytes behind them, and
its payload. -/
structure PesPacket where
  streamId : U8
  packetLength : U16
  flags : U16
  headerData : Bytes
  data : Bytes
  headerData_le : headerData.length ≤ 255

namespace PesPacket

/-- The header, up to the first byte of the data. -/
def header (p : PesPacket) : Bytes :=
  [0x00, 0x00, 0x01, p.streamId] ++ big16 p.packetLength ++ big16 p.flags ++
    [BitVec.ofNat 8 p.headerData.length] ++ p.headerData

/-- The packet. -/
def bytes (p : PesPacket) : Bytes := p.header ++ p.data

/-- The fixed part of a header is nine bytes. -/
theorem length_header (p : PesPacket) : p.header.length = 9 + p.headerData.length := by
  simp only [header, List.length_append, length_big16, List.length_cons, List.length_nil]

end PesPacket

/-- A packet of PID `pid` with a payload. -/
structure Carries (packet : TsPacket) (pid : ℕ) (start : Bool) (cc : U8) (payload : Bytes) :
    Prop where
  exists_header : ∃ afc off, TsHeader.read packet.bytes = .ok
      { error := false, payloadUnitStartIndicator := start, pid, adaptationFieldControl := afc,
        continuityCounter := cc } ∧
    afc ≠ 0x02 ∧ payloadOffset packet.bytes afc = .ok off ∧ off < tsPacketSize ∧
    packet.bytes.drop off = payload

/-- The counter of the packet behind. -/
def nextCc (cc : U8) : U8 := (cc + 1) &&& 0x0F

/-- The next counter is another one. -/
theorem nextCc_ne : ∀ cc : U8, nextCc cc ≠ cc := by decide

/-- Packets of PID `pid` that follow one another behind the one with counter `cc`, none of them the
start of a PES packet, up to the counter `last`. -/
inductive CarriesAll (pid : ℕ) : U8 → List TsPacket → List Bytes → U8 → Prop
  | nil {cc : U8} : CarriesAll pid cc [] [] cc
  | cons {cc last : U8} {packet : TsPacket} {payload : Bytes} {packets : List TsPacket}
      {payloads : List Bytes} (h : Carries packet pid false (nextCc cc) payload)
      (hs : CarriesAll pid (nextCc cc) packets payloads last) :
      CarriesAll pid cc (packet :: packets) (payload :: payloads) last

/-- The PID is that of an elementary stream, whose state is `st`. -/
structure MpegtsTables.Media (t : MpegtsTables) (pid : ℕ) (st : StreamState) : Prop where
  ne_zero : pid ≠ 0
  not_pmt : t.isPmtPid pid = false
  known : t.streams.find? pid = some st

namespace StreamState

variable {st : StreamState}

/-- The stream has had a packet, with the counter `cc`. -/
def CountedTo (st : StreamState) (cc : U8) : Prop :=
  st.firstCc = false ∧ st.continuityCounter = cc

/-- The packet behind is no duplicate. -/
theorem CountedTo.isDuplicate {cc : U8} (h : st.CountedTo cc) :
    st.isDuplicate (nextCc cc) = false := by
  rw [StreamState.isDuplicate, h.2, decide_eq_false (nextCc_ne cc), Bool.and_false]

/-- Collecting bytes leaves the counter alone. -/
theorem CountedTo.appendPes {cc : U8} (h : st.CountedTo cc) (bytes : Bytes) :
    (st.appendPes bytes).CountedTo cc := by
  unfold StreamState.appendPes
  split <;> exact h

/-- A new header leaves the counter alone. -/
theorem CountedTo.openPes {cc : U8} (h : st.CountedTo cc) (streamId : U8) (pts : Option U64) :
    (st.openPes streamId pts).CountedTo cc := by
  cases pts <;> exact h

/-- So does the fragment with it. -/
theorem CountedTo.startPes {cc : U8} (h : st.CountedTo cc) (data : Bytes) (streamId hdrLen : U8)
    (pts : Option U64) : (st.startPes data streamId hdrLen pts).CountedTo cc := by
  unfold StreamState.startPes
  split
  · exact (h.openPes streamId pts).appendPes _
  · exact h.openPes streamId pts

/-- What is collected of a first fragment. -/
theorem startPes_pesBuffer {data : Bytes} {hdrLen : U8} {start : ℕ}
    (hstart : pesOffset data + 9 + hdrLen.toNat = start)
    (hfit : (data.drop start).length ≤ maxPesBuffer) (streamId : U8) (pts : Option U64) :
    (st.startPes data streamId hdrLen pts).pesBuffer = data.drop start := by
  have hnil : (st.openPes streamId pts).pesBuffer = [] := setPts_pesBuffer ..
  unfold StreamState.startPes
  rw [hstart]
  split
  · rw [appendPes_of_le (by rw [hnil]; simpa using hfit), hnil]
    rfl
  · rw [hnil, List.drop_of_length_le (by omega)]

end StreamState

section Packets

variable {t : MpegtsTables} {pid : ℕ} {st : StreamState} {packet : TsPacket} {payload : Bytes}
  {start : Bool} {cc : U8}

/-- The frames pending of one PID: those of its stream. -/
theorem pendingFrames_of_find? (h : t.streams.find? pid = some st) :
    (t.pendingFrames.filter (·.1 = pid)).map Prod.snd = st.pendingFrame.toList := by
  have hfilter : t.pendingFrames.filter (·.1 = pid) =
      (t.streams.entries.filter (·.1 = pid)).filterMap fun e =>
        e.2.pendingFrame.map (Prod.mk e.1) := by
    rw [MpegtsTables.pendingFrames, List.filter_filterMap, List.filterMap_filter]
    congr 1
    funext e
    by_cases hpid : e.1 = pid <;> cases e.2.pendingFrame <;> simp [hpid]
  rw [hfilter, OrdMap.filter_entries, h, Option.toList_some, List.map_singleton]
  cases hframe : st.pendingFrame <;> simp [hframe]

/-- An elementary stream stays one, with its new state. -/
theorem MpegtsTables.Media.setStream (h : t.Media pid st) (st' : StreamState) :
    (t.setStream pid st').Media pid st' :=
  ⟨h.ne_zero, h.not_pmt, OrdMap.find?_update_self ..⟩

/-- **A packet with a payload** gives it to its stream. -/
theorem handleTsPacket_carries (hp : Carries packet pid start cc payload) (ht : t.Media pid st)
    (hdup : st.isDuplicate cc = false) {st' : StreamState} {frame : Option MediaFrame}
    (hparse : parsePes payload start (st.count cc) = .ok (st', frame)) :
    (handleTsPacket packet.bytes t).Yields fun r => r.1.Media pid st' ∧ r.2 = frame := by
  obtain ⟨afc, off, hread, hafc, hoff, hlt, rfl⟩ := hp.exists_header
  have ht' := ht.setStream (st.count cc)
  rw [handleTsPacket, hread, Checked.ok_bind]
  simp only [Bool.false_eq_true, if_false, ht.known, Option.any_some, hdup]
  rw [hoff, Checked.ok_bind, if_neg (by omega), if_neg hafc, handlePayload]
  simp only
  rw [if_neg ht'.ne_zero, if_neg (by rw [ht'.not_pmt]; exact Bool.false_ne_true), ht'.known]
  simp only
  rw [hparse, Checked.ok_bind, Checked.yields_pure]
  exact ⟨ht'.setStream st', rfl⟩

/-- What the fragments behind the first one make of the bytes that have been collected. -/
def collect (pes payload : Bytes) : Bytes := if pes = [] then [] else pes ++ payload

/-- Fragments one after the other are collected as one. -/
theorem collect_collect (pes a b : Bytes) : collect (collect pes a) b = collect pes (a ++ b) := by
  unfold collect
  by_cases h : pes = []
  · simp [h]
  · simp [h]

/-- No more bytes are collected than came. -/
theorem length_collect_le (pes payload : Bytes) :
    (collect pes payload).length ≤ pes.length + payload.length := by
  unfold collect
  split
  · exact Nat.zero_le _
  · rw [List.length_append]

/-- A fragment behind the first one. -/
theorem parsePes_collect (hcc : st.CountedTo cc)
    (hfit : st.pesBuffer.length + payload.length ≤ maxPesBuffer) :
    ∃ st', parsePes payload false st = .ok (st', none) ∧ st'.CountedTo cc ∧
      st'.pesBuffer = collect st.pesBuffer payload := by
  refine ⟨_, parsePes_continuation payload st, ?_, ?_⟩
  · split
    · exact hcc
    · exact hcc.appendPes payload
  · unfold collect
    split
    · assumption
    · rw [StreamState.appendPes_of_le hfit]

/-- **The packets behind the first one** push nothing, and their payloads are collected. -/
theorem handlePackets_carriesAll {packets : List TsPacket} {payloads : List Bytes} {last : U8}
    (hs : CarriesAll pid cc packets payloads last) (ht : t.Media pid st) (hcc : st.CountedTo cc)
    (hfit : st.pesBuffer.length + payloads.flatten.length ≤ maxPesBuffer) :
    (handlePackets (packets.map TsPacket.bytes) t).Yields fun r =>
      r.2 = [] ∧ ∃ st', r.1.Media pid st' ∧ st'.CountedTo last ∧
        st'.pesBuffer = collect st.pesBuffer payloads.flatten := by
  induction hs generalizing t st with
  | nil =>
    refine Checked.yields_pure.2 ⟨rfl, st, ht, hcc, ?_⟩
    rw [List.flatten_nil, collect, List.append_nil]
    split
    · assumption
    · rfl
  | @cons cc last packet payload packets payloads h hs ih =>
    rw [List.flatten_cons, List.length_append] at hfit
    have hcount : (st.count (nextCc cc)).CountedTo (nextCc cc) := ⟨rfl, rfl⟩
    obtain ⟨st₁, hparse, hcc₁, hbuffer⟩ := parsePes_collect hcount
      (show st.pesBuffer.length + payload.length ≤ maxPesBuffer by omega)
    have hlen := hbuffer ▸ length_collect_le st.pesBuffer payload
    rw [List.map_cons, handlePackets]
    refine (handleTsPacket_carries h ht hcc.isDuplicate hparse).bind fun r hr => ?_
    refine (ih hr.1 hcc₁ (by omega)).bind fun r' hr' => ?_
    obtain ⟨hnone, st', ht', hcc', hbuffer'⟩ := hr'
    refine Checked.yields_pure.2 ⟨by rw [hr.2, hnone]; rfl, st', ht', hcc', ?_⟩
    rw [hbuffer', hbuffer]
    exact (collect_collect ..).trans (by rw [List.flatten_cons]; rfl)

/-- The bytes that the header starts with. -/
theorem PesPacket.header_append (p : PesPacket) (tail : Bytes) :
    pesOffset (p.header ++ tail) = 0 ∧ byteAt (p.header ++ tail) 3 = .ok p.streamId ∧
      byteAt (p.header ++ tail) 8 = .ok (BitVec.ofNat 8 p.headerData.length) :=
  ⟨rfl, rfl, rfl⟩

/-- **The first fragment**, where it has the whole header: it pushes what has been collected, and
the bytes behind the header are collected. -/
theorem parsePes_first (p : PesPacket) {front : Bytes} (hcc : st.CountedTo cc)
    (hfit : front.length ≤ maxPesBuffer) :
    ∃ st', parsePes (p.header ++ front) true st =
        .ok (st', { st with kind := streamIdKind p.streamId st.kind }.pendingFrame) ∧
      st'.CountedTo cc ∧ st'.pesBuffer = front := by
  obtain ⟨hoff, hid, hhdr⟩ := p.header_append front
  have hlen : (p.header ++ front).length = 9 + p.headerData.length + front.length := by
    rw [List.length_append, p.length_header]
  have hroom : pesOffset (p.header ++ front) + 9 ≤ (p.header ++ front).length := by omega
  obtain ⟨streamId, hdrLen, flags, pts, hid', -, hhdr', -, hparse⟩ := parsePes_start st hroom
  rw [hoff, Nat.zero_add] at hid' hhdr'
  obtain rfl := Except.ok.inj (hid.symm.trans hid')
  obtain rfl := Except.ok.inj (hhdr.symm.trans hhdr')
  have hnum : (BitVec.ofNat 8 p.headerData.length).toNat = p.headerData.length :=
    Nat.mod_eq_of_lt (Nat.lt_succ_of_le p.headerData_le)
  have hstart : pesOffset (p.header ++ front) + 9 + (BitVec.ofNat 8 p.headerData.length).toNat =
      9 + p.headerData.length := by rw [hoff, hnum, Nat.zero_add]
  have hdrop : (p.header ++ front).drop (9 + p.headerData.length) = front :=
    List.drop_left' p.length_header
  refine ⟨_, hparse, hcc.startPes .., ?_⟩
  rw [StreamState.startPes_pesBuffer hstart (by rw [hdrop]; exact hfit), hdrop]

/-- **A next first fragment** pushes what has been collected if it has room for a header. -/
theorem parsePes_next (p : PesPacket) (st : StreamState) {fragment : Bytes}
    (hfront : fragment <+: p.bytes) :
    ∃ st' kind, parsePes fragment true st = .ok (st',
      if 9 ≤ fragment.length then { st with kind }.pendingFrame else none) := by
  by_cases hroom : 9 ≤ fragment.length
  · obtain ⟨rest, hrest⟩ := hfront
    have hoff : pesOffset fragment = 0 := by
      have htake := congrArg (List.take 3) hrest
      rw [List.take_append_of_le_length (by omega)] at htake
      exact if_pos htake
    have hheader : pesOffset fragment + 9 ≤ fragment.length := by omega
    obtain ⟨streamId, hdrLen, flags, pts, -, -, -, -, hparse⟩ := parsePes_start st hheader
    exact ⟨_, _, by rw [if_pos hroom]; exact hparse⟩
  · exact ⟨st, st.kind, by rw [if_neg hroom]; exact parsePes_short st (by omega)⟩

end Packets

/-! ### A PES packet from start to end -/

/-- What comes behind the last fragment: a flush, or the packet with the first fragment of the next
PES packet. -/
inductive Completion (pid : ℕ) (last : U8)
  | flush
  | start (packet : TsPacket) (next : PesPacket) (fragment : Bytes)
      (carries : Carries packet pid true (nextCc last) fragment) (front : fragment <+: next.bytes)

/-- There is room for the header of the next PES packet in its first fragment. -/
def Completion.HasRoom {pid : ℕ} {last : U8} : Completion pid last → Prop
  | .flush => True
  | .start _ _ fragment _ _ => 9 ≤ fragment.length

/-- **A PES packet split over the payloads of packets of one PID**, the first of which has its
header, and what comes behind them. -/
structure Transfer (t : MpegtsTables) where
  pid : ℕ
  st : StreamState
  media : t.Media pid st
  pes : PesPacket
  data_le : pes.data.length ≤ maxPesBuffer
  cc : U8
  fresh : st.isDuplicate cc = false
  first : TsPacket
  fragment : Bytes
  carriesFirst : Carries first pid true cc fragment
  rest : List TsPacket
  fragments : List Bytes
  last : U8
  carriesRest : CarriesAll pid cc rest fragments last
  split : fragment ++ fragments.flatten = pes.bytes
  header_le : 9 + pes.headerData.length ≤ fragment.length
  completion : Completion pid last

namespace Transfer

variable {t : MpegtsTables}

/-- The packets of the transfer. -/
def packets (x : Transfer t) : List Bytes := (x.first :: x.rest).map TsPacket.bytes

/-- **The packet comes out as one frame with just its data**, if it has any: its own packets push
no more than the frame that was pending before, and then the flush makes one frame of the stream,
or the next packet pushes one. -/
def Emits (x : Transfer t) : Prop :=
  x.pes.data ≠ [] →
    (handlePackets x.packets t).Yields fun r =>
      r.2 = { x.st with kind := streamIdKind x.pes.streamId x.st.kind }.pendingFrame.toList ∧
        match x.completion with
        | .flush => ∃ f, (r.1.pendingFrames.filter (·.1 = x.pid)).map Prod.snd = [f] ∧
            f.data = x.pes.data
        | .start packet _ _ _ _ => (handleTsPacket packet.bytes r.1).Yields fun r' =>
            ∃ f, r'.2 = some f ∧ f.data = x.pes.data

/-- The data in the first fragment. -/
theorem exists_front (x : Transfer t) :
    ∃ front, x.fragment = x.pes.header ++ front ∧ front ++ x.fragments.flatten = x.pes.data := by
  have hheader := x.pes.length_header
  have hle := x.header_le
  rcases List.append_eq_append_iff.1 x.split with ⟨mid, hmid, hflat⟩ | ⟨front, hfront, hdata⟩
  · have hlen := congrArg List.length hmid
    rw [List.length_append] at hlen
    obtain rfl : mid = [] := List.length_eq_zero_iff.1 (by omega)
    rw [List.append_nil] at hmid
    exact ⟨[], by rw [List.append_nil, hmid], by rw [hflat]; rfl⟩
  · exact ⟨front, hfront, hdata.symm⟩

/-- **Behind the packets of the PES packet** its data have been collected, unless the first of them
had none of it. -/
theorem handlePackets_packets (x : Transfer t) :
    (handlePackets x.packets t).Yields fun r =>
      r.2 = { x.st with kind := streamIdKind x.pes.streamId x.st.kind }.pendingFrame.toList ∧
        ∃ st', r.1.Media x.pid st' ∧ st'.CountedTo x.last ∧
          st'.pesBuffer =
            if 9 + x.pes.headerData.length < x.fragment.length then x.pes.data else [] := by
  obtain ⟨front, hfragment, hdata⟩ := x.exists_front
  have hlen := x.data_le
  rw [← hdata, List.length_append] at hlen
  have hcount : (x.st.count x.cc).CountedTo x.cc := ⟨rfl, rfl⟩
  obtain ⟨st₁, hparse, hcc₁, hfront⟩ := parsePes_first x.pes hcount
    (show front.length ≤ maxPesBuffer by omega)
  rw [← hfragment] at hparse
  rw [packets, List.map_cons, handlePackets]
  refine (handleTsPacket_carries x.carriesFirst x.media x.fresh hparse).bind fun r hr => ?_
  refine (handlePackets_carriesAll x.carriesRest hr.1 hcc₁ (by rw [hfront]; omega)).bind
    fun r' hr' => ?_
  obtain ⟨hnone, st', ht', hcc', hbuffer⟩ := hr'
  refine Checked.yields_pure.2 ⟨?_, st', ht', hcc', ?_⟩
  · rw [hr.2, hnone, List.append_nil]
    rfl
  · rw [hbuffer, hfront, collect, hdata, hfragment, List.length_append, x.pes.length_header]
    by_cases hnil : front = []
    · rw [if_pos hnil, if_neg (by rw [hnil, List.length_nil]; omega)]
    · have := List.length_pos_iff.2 hnil
      rw [if_neg hnil, if_pos (by omega)]

/-- The frame of a stream that has collected `data`, and of no other one. -/
theorem exists_pendingFrame {st : StreamState} {data : Bytes} (hdata : data ≠ []) :
    (∃ f, st.pendingFrame = some f ∧ f.data = data) ↔ st.pesBuffer = data := by
  unfold StreamState.pendingFrame
  constructor
  · rintro ⟨f, hf, rfl⟩
    split at hf
    · cases hf
    · obtain rfl := Option.some.inj hf
      rfl
  · rintro rfl
    exact ⟨_, if_neg hdata, rfl⟩

/-- **When a PES packet comes out as one frame with just its data**: where a part of the data is in
the first fragment, and the next PES packet, if it is that what completes this one, has room for
its header there. -/
theorem emits_iff (x : Transfer t) :
    x.Emits ↔ x.pes.data = [] ∨
      (9 + x.pes.headerData.length < x.fragment.length ∧ x.completion.HasRoom) := by
  obtain ⟨r, hr, hpending, st', ht', hcc', hbuffer⟩ := x.handlePackets_packets
  rw [Emits, hr, Checked.yields_ok]
  by_cases hdata : x.pes.data = []
  · exact iff_of_true (fun h => absurd hdata h) (.inl hdata)
  have hcollected : st'.pesBuffer = x.pes.data ↔
      9 + x.pes.headerData.length < x.fragment.length := by
    rw [hbuffer]
    split
    · exact iff_of_true rfl ‹_›
    · exact iff_of_false (Ne.symm hdata) ‹_›
  rw [or_iff_right hdata, ← hcollected]
  refine ((forall_prop_of_true hdata).trans (and_iff_right hpending)).trans ?_
  cases x.completion with
  | flush =>
    have hflush : (r.1.pendingFrames.filter (·.1 = x.pid)).map Prod.snd =
        st'.pendingFrame.toList := pendingFrames_of_find? ht'.known
    simp only [hflush, Option.toList_eq_singleton_iff]
    rw [exists_pendingFrame hdata]
    exact (and_iff_left trivial).symm
  | start packet next fragment hcarries hfront =>
    obtain ⟨st'', kind, hparse⟩ := parsePes_next next (st'.count (nextCc x.last)) hfront
    obtain ⟨r', hr', -, hframe⟩ := handleTsPacket_carries hcarries ht' hcc'.isDuplicate hparse
    simp only [hr', Checked.yields_ok, hframe, Completion.HasRoom]
    split
    · rw [exists_pendingFrame hdata]
      exact (and_iff_left ‹_›).symm
    · exact iff_of_false (by simp) fun h => absurd h.2 ‹_›

end Transfer

/-! ### A header alone in its fragment -/

/-- A stuffed packet carries its payload. -/
theorem carries_stuffedPacket {pid : BitVec 13} {start : Bool} {cc : BitVec 4} {payload : Bytes}
    (h : payload.length ≤ 182) (hne : payload ≠ []) :
    Carries (stuffedPacket pid start cc payload h) pid.toNat start (cc.setWidth 8) payload := by
  have hpos := List.length_pos_iff.2 hne
  have hcc : ∀ cc : BitVec 4, ((0x3#4 ++ cc : U8) &&& 0x0F) = cc.setWidth 8 ∧
      ((0x3#4 ++ cc : U8) >>> 4) &&& 0x03 = 0x03 := by decide
  have hflags : ∀ (start : Bool) (high : BitVec 5),
      (0#1 ++ BitVec.ofBool start ++ 0#1 ++ high : U8) &&& 0x80 = 0 ∧
      decide ((0#1 ++ BitVec.ofBool start ++ 0#1 ++ high : U8) &&& 0x40 ≠ 0) = start ∧
      (0#1 ++ BitVec.ofBool start ++ 0#1 ++ high : U8) &&& 0x1F = high.setWidth 8 := by decide
  obtain ⟨herror, hstart, hhigh⟩ := hflags start (pid.extractLsb' 8 5)
  have hpid : ((pid.extractLsb' 8 5).setWidth 8).toNat * 256 + (pid.extractLsb' 0 8).toNat =
      pid.toNat := by
    rw [BitVec.toNat_setWidth, BitVec.extractLsb'_toNat, BitVec.extractLsb'_toNat,
      Nat.shiftRight_eq_div_pow, Nat.shiftRight_eq_div_pow]
    omega
  have hlen : (BitVec.ofNat 8 (183 - payload.length)).toNat = 183 - payload.length :=
    Nat.mod_eq_of_lt (by omega)
  refine ⟨0x03, 188 - payload.length, ?_, by decide, ?_, by rw [tsPacketSize]; omega, ?_⟩
  · rw [← (hcc cc).1, ← (hcc cc).2, ← hpid, ← hhigh]
    change Except.ok (TsHeader.mk _ _ _ _ _) = _
    rw [hstart, herror]
    rfl
  · rw [payloadOffset, if_pos (by decide)]
    change Except.ok (4 + (1 + (BitVec.ofNat 8 (183 - payload.length)).toNat)) = _
    rw [hlen]
    congr 1
    omega
  · refine List.drop_left' ?_
    simp only [List.length_append, List.length_cons, List.length_nil, List.length_replicate]
    omega

/-- A PES packet of one byte, without times. -/
def oneBytePes : PesPacket where
  streamId := 0xE0
  packetLength := 0
  flags := 0x8000
  headerData := []
  data := [0x01]
  headerData_le := by decide

/-- Its header fills the payload of the first packet, and its byte comes in the second. -/
def headerAlone : Transfer (({} : MpegtsTables).setStream 0x100 {}) where
  pid := 0x100
  st := {}
  media := ⟨by decide, rfl, rfl⟩
  pes := oneBytePes
  data_le := by decide
  cc := 0
  fresh := rfl
  first := stuffedPacket 0x100 true 0 oneBytePes.header (by decide)
  fragment := oneBytePes.header
  carriesFirst := carries_stuffedPacket (by decide) (by decide)
  rest := [stuffedPacket 0x100 false 1 oneBytePes.data (by decide)]
  fragments := [oneBytePes.data]
  last := 1
  carriesRest := .cons (carries_stuffedPacket (by decide) (by decide)) .nil
  split := rfl
  header_le := by decide
  completion := .flush

/-- **Not every PES packet comes out**: the one whose header fills its first packet does not. -/
theorem headerAlone_not_emits : ¬ ∀ (t : MpegtsTables) (x : Transfer t), x.Emits := by
  intro h
  obtain ⟨r, hr, -, f, hf, -⟩ := h _ headerAlone (by decide)
  obtain ⟨r', hr', -, st', ht', -, hbuffer⟩ := headerAlone.handlePackets_packets
  cases hr.symm.trans hr'
  have hnone := StreamState.pendingFrame_of_nil (hbuffer.trans (if_neg (by decide)))
  rw [pendingFrames_of_find? ht'.known, hnone] at hf
  cases hf

end AsioRtc
