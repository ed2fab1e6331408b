/-
# The loops that send RTCP

A turn of `_sender_rtcp_loop`, of `_receiver_rtcp_loop` and of `_nack_loop` in
`src/connection_impl.cpp`: what each reads of the streams and the contexts, what it hands on, and
what it leaves behind.  The timers are outside, and so is `_ssrc_set` as a container: a turn is told
the SSRCs in the order in which the set has them (`Connection.Lists`).

The compounds of the two report loops are read back packet by packet: a sender report has one
packet for each stream (`RtpSending.reportTurn_read`), and a receiver report one for each context of
the receiver that has got a packet; a report interval ends just for those (`report_turns`).
-/

import AsioRtc.Connection.Receive
import AsioRtc.Connection.SendLoop
import AsioRtc.Ssrc.Lost

namespace AsioRtc

open Lib Text

/-! ### The turns -/

/-- What `_sender_rtcp_loop` reads of a stream. -/
def LoopStream.info (s : LoopStream) : SenderInfo where
  ssrc := s.ssrc
  ntpTimestamp := s.ntpTimestamp
  rtpTimestamp := s.rtpTimestamp
  packetCount := s.packetCount
  octetCount := s.octetCount

/-- A turn of `_sender_rtcp_loop`. -/
def RtpSending.reportTurn (x : RtpSending) : RtcpMessage :=
  .senderReports (x.streams.map LoopStream.info)

namespace SsrcContext

/-- The time since the last sender report in units of 1/65536 seconds, where there has been one and
it fits.  The source computes it as a `double`, whose rounding is too small to change the whole
number of units: the exact quotient is a multiple of 1/15625. -/
def dlsr (c : SsrcContext) (now : ℤ) : U32 :=
  let elapsed := (now - c.lsrTime).tdiv 1000
  if c.lsr ≠ 0 ∧ 0 < elapsed ∧ elapsed < 65536 * 1000000 then
    BitVec.ofNat 32 (elapsed.toNat * 65536 / 1000000)
  else 0

end SsrcContext

/-- The block of a context in `_receiver_rtcp_loop`. -/
def SsrcEntry.report (e : SsrcEntry) (now : ℤ) : ReportBlock :=
  e.ctx.reportBlock (e.ctx.dlsr now)

/-- The number of lost packets has 24 bits. -/
theorem SsrcEntry.cumulativeLost_report (e : SsrcEntry) (now : ℤ) :
    (e.report now).cumulativeLost.toNat < 2 ^ 24 := by
  obtain ⟨hlow, hhigh⟩ := e.ctx.cumulativeLost_range
  change (BitVec.ofInt 32 e.ctx.cumulativeLost).toNat < 2 ^ 24
  rw [BitVec.toNat_ofInt]
  omega

namespace Connection

/-- The SSRCs of `_ssrc_set`, in order. -/
structure Lists (c : Connection) (ssrcs : List U32) : Prop where
  sorted : ssrcs.Pairwise (· < ·)
  mem_iff : ∀ ssrc, ssrc ∈ ssrcs ↔ (c.ssrcSet ssrc).isSome = true

/-- A context of receiver `i` that has got a packet. -/
def Reports (i : ℕ) (e : SsrcEntry) : Prop := e.receiver = i ∧ e.ctx.packetsReceived ≠ 0

instance (i : ℕ) (e : SsrcEntry) : Decidable (Reports i e) :=
  inferInstanceAs (Decidable (_ ∧ _))

/-- The blocks of `_receiver_rtcp_loop`, with the clock as it is at each of them. -/
def reportBlocks (i : ℕ) (now : U32 → ℤ) :
    List U32 → Connection → Connection × List ReportBlock
  | [], c => (c, [])
  | ssrc :: ssrcs, c =>
      match c.ssrcSet ssrc with
      | none => reportBlocks i now ssrcs c
      | some e =>
          if Reports i e then
            let (c, bs) := reportBlocks i now ssrcs (c.setCtx ssrc e e.ctx.advancePrior)
            (c, e.report (now ssrc) :: bs)
          else reportBlocks i now ssrcs c

/-- A turn of `_receiver_rtcp_loop` for the receiver of transceiver `i`. -/
def receiverTurn (c : Connection) (i : ℕ) (now : U32 → ℤ) (ssrcs : List U32) :
    Connection × Option RtcpMessage :=
  match c.reportBlocks i now ssrcs with
  | (c, []) => (c, none)
  | (c, b :: bs) => (c, some (.receiverReports b bs))

/-- `rtcp_ssrc` of the receiver of transceiver `i`: the SSRC of its first stream. -/
def rtcpSsrc (c : Connection) (i : ℕ) : U32 :=
  ((c.transceivers[i]?.bind fun t => t.sender.streams.head?).map RtpStream.ssrc).getD 0

/-- The messages of `_nack_loop` about lost packets. -/
def nacks (nowMs : ℤ) : List U32 → Connection → Connection × List RtcpMessage
  | [], c => (c, [])
  | ssrc :: ssrcs, c =>
      match c.ssrcSet ssrc with
      | none => nacks nowMs ssrcs c
      | some e =>
          let (g, lost) := e.ctx.nackGen.getNacks nowMs
          let (c', ms) := nacks nowMs ssrcs (c.setCtx ssrc e { e.ctx with nackGen := g })
          (c', if lost = [] then ms else .nack (c.rtcpSsrc e.receiver) ssrc lost :: ms)

/-- The transport-cc feedback of `_nack_loop`, in the name of the first stream of the first
transceiver. -/
def twccTurn (c : Connection) : Connection × Bytes :=
  let twcc := (c.transceivers.head?.bind fun t => t.sender.streams.head?).elim c.twcc
    fun s => { c.twcc with senderSsrc := s.ssrc }
  ({ c with twcc := twcc.report.1 }, twcc.report.2)

/-- A turn of `_nack_loop`, with what it hands to `sync_send_rtcp`. -/
def nackTurn (c : Connection) (nowMs : ℤ) (ssrcs : List U32) : Connection × List Bytes :=
  let (c, ms) := c.nacks nowMs ssrcs
  let (c, feedback) := c.twccTurn
  (c, ms.map RtcpMessage.bytes ++ if feedback = [] then [] else [feedback])

end Connection

/-! ### The reports are read back -/

/-- The SDES packet at the end of a compound. -/
def reportSdesPacket : RtcpPacket where
  reportCount := 1
  type := PacketType.SDES
  payload := reportSdes.drop 4

theorem reportSdesPacket_wellFormed : reportSdesPacket.WellFormed := by
  refine ⟨by decide, by decide, by decide, by decide, by decide, by decide, by decide, rfl,
    by decide, by decide⟩

theorem reportSdes_eq : reportSdes = reportSdesPacket.bytes := by
  decide

theorem SenderInfo.report_wellFormed (s : SenderInfo) : s.report.WellFormed where
  version := show (2 : U8).toNat < 4 by decide
  type := .inl rfl
  reportCount := show (0 : U8).toNat < 32 by decide
  report _ := rfl
  noReport h := absurd (.inl rfl) h
  cumulativeLost _ h := absurd h List.not_mem_nil
  noSenderInfo h := absurd rfl h
  mediaSsrc := rfl
  padding := .inr ⟨rfl, Nat.dvd_zero 4⟩
  size := show 28 ≤ 65536 * 4 by decide

/-- A compound of reports with the SDES packet behind them. -/
theorem parseCompound_reports (ps : List RtcpPacket) (hps : ∀ p ∈ ps, p.WellFormed) :
    parseCompound (ps.flatMap RtcpPacket.bytes ++ reportSdes) = .ok (ps ++ [reportSdesPacket]) := by
  have hall : ∀ p ∈ ps ++ [reportSdesPacket], p.WellFormed := by
    refine List.forall_mem_append.2 ⟨hps, fun p hp => ?_⟩
    exact List.mem_singleton.1 hp ▸ reportSdesPacket_wellFormed
  rw [← parseCompound_written _ hall, List.flatMap_append, List.flatMap_singleton, reportSdes_eq]

namespace Connection

/-- What `_receiver_rtcp_loop` says of an SSRC. -/
def blockOf (c : Connection) (i : ℕ) (now : U32 → ℤ) (ssrc : U32) : Option ReportBlock :=
  (c.ssrcSet ssrc).bind fun e =>
    if Reports i e then some (e.report (now ssrc)) else none

/-- A context behind a turn of `_receiver_rtcp_loop`. -/
def endInterval (i : ℕ) (e : SsrcEntry) : SsrcEntry :=
  if Reports i e then { e with ctx := e.ctx.advancePrior } else e

/-- The connection with other contexts. -/
def withSet (c : Connection) (set : U32 → Option SsrcEntry) : Connection :=
  { c with ssrcSet := set }

@[simp] theorem withSet_ssrcSet (c : Connection) (set : U32 → Option SsrcEntry) :
    (c.withSet set).ssrcSet = set := rfl

@[simp] theorem withSet_withSet (c : Connection) (set set' : U32 → Option SsrcEntry) :
    (c.withSet set).withSet set' = c.withSet set' := rfl

theorem setCtx_eq (c : Connection) (ssrc : U32) (e : SsrcEntry) (ctx : SsrcContext) :
    c.setCtx ssrc e ctx =
      c.withSet (Function.update c.ssrcSet ssrc (some { e with ctx := ctx })) := rfl

variable {c : Connection} {i : ℕ} {now : U32 → ℤ} {ssrcs : List U32}

/-- **The blocks of a turn.**  Each context is reported as it was before the turn. -/
theorem reportBlocks_eq (h : ssrcs.Nodup) : c.reportBlocks i now ssrcs =
    (c.withSet fun ssrc =>
        if ssrc ∈ ssrcs then (c.ssrcSet ssrc).map (endInterval i) else c.ssrcSet ssrc,
      ssrcs.filterMap (c.blockOf i now)) := by
  induction ssrcs generalizing c with
  | nil => rfl
  | cons ssrc ssrcs ih =>
    obtain ⟨hnew, h⟩ := List.nodup_cons.1 h
    have hset {set : U32 → Option SsrcEntry}
        (hself : set ssrc = (c.ssrcSet ssrc).map (endInterval i))
        (hothers : ∀ s ≠ ssrc, set s = c.ssrcSet s) :
        (fun s => if s ∈ ssrcs then (set s).map (endInterval i) else set s) = fun s =>
          if s ∈ ssrc :: ssrcs then (c.ssrcSet s).map (endInterval i) else c.ssrcSet s := by
      funext s
      by_cases hs : s = ssrc
      · rw [hs, if_neg hnew, if_pos (List.mem_cons_self ..), hself]
      · simp only [List.mem_cons, hs, false_or, hothers s hs]
    cases he : c.ssrcSet ssrc with
    | none =>
      have hblock : c.blockOf i now ssrc = none := by rw [blockOf, he, Option.bind_none]
      simp only [reportBlocks, he]
      rw [ih h, List.filterMap_cons_none hblock, hset (by rw [he]; rfl) fun _ _ => rfl]
    | some e =>
      by_cases hr : Reports i e
      · -- The context has changed, and is not looked at again.
        have hblock : c.blockOf i now ssrc = some (e.report (now ssrc)) := by
          rw [blockOf, he, Option.bind_some, if_pos hr]
        have hothers : ssrcs.filterMap
            ((c.setCtx ssrc e e.ctx.advancePrior).blockOf i now) =
              ssrcs.filterMap (c.blockOf i now) := by
          refine List.filterMap_congr fun s hs => ?_
          have hne : s ≠ ssrc := fun heq => hnew (heq ▸ hs)
          rw [blockOf, blockOf, setCtx_eq, withSet_ssrcSet, Function.update_of_ne hne]
        simp only [reportBlocks, he, if_pos hr]
        rw [ih h, hothers, List.filterMap_cons_some hblock, setCtx_eq, withSet_ssrcSet,
          withSet_withSet, hset ?_ fun s hs => Function.update_of_ne hs _ _]
        rw [Function.update_self, he, Option.map_some, endInterval, if_pos hr]
      · have hblock : c.blockOf i now ssrc = none := by
          rw [blockOf, he, Option.bind_some, if_neg hr]
        simp only [reportBlocks, he, if_neg hr]
        rw [ih h, List.filterMap_cons_none hblock, hset ?_ fun _ _ => rfl]
        rw [he, Option.map_some, endInterval, if_neg hr]

theorem Lists.nodup (h : c.Lists ssrcs) : ssrcs.Nodup :=
  h.sorted.imp fun hlt => BitVec.ne_of_lt hlt

/-- The blocks of a turn over all contexts. -/
theorem Lists.reportBlocks_eq (h : c.Lists ssrcs) : c.reportBlocks i now ssrcs =
    (c.withSet fun ssrc => (c.ssrcSet ssrc).map (endInterval i),
      ssrcs.filterMap (c.blockOf i now)) := by
  rw [Connection.reportBlocks_eq h.nodup]
  congr 2
  funext s
  by_cases hs : s ∈ ssrcs
  · rw [if_pos hs]
  · have hnone : c.ssrcSet s = none := by
      rw [h.mem_iff] at hs
      exact Option.not_isSome_iff_eq_none.1 hs
    rw [if_neg hs, hnone, Option.map_none]

/-- **A turn of `_receiver_rtcp_loop`**: one block for each context of the receiver that has got a
packet, in the order of the SSRCs, and the end of its interval. -/
theorem Lists.receiverTurn_eq (h : c.Lists ssrcs) : c.receiverTurn i now ssrcs =
    (c.withSet fun ssrc => (c.ssrcSet ssrc).map (endInterval i),
      match ssrcs.filterMap (c.blockOf i now) with
      | [] => none
      | b :: bs => some (.receiverReports b bs)) := by
  rw [receiverTurn, h.reportBlocks_eq]
  cases ssrcs.filterMap (c.blockOf i now) with
  | nil => rfl
  | cons b bs => rfl

/-- Nothing is sent where no context of the receiver has got a packet. -/
theorem Lists.blocks_eq_nil_iff (h : c.Lists ssrcs) : ssrcs.filterMap (c.blockOf i now) = [] ↔
    ∀ ssrc e, c.ssrcSet ssrc = some e → ¬ Reports i e := by
  rw [List.filterMap_eq_nil_iff]
  constructor
  · intro hnone ssrc e he hr
    have hmem : ssrc ∈ ssrcs := (h.mem_iff ssrc).2 (by rw [he]; rfl)
    have hblock := hnone ssrc hmem
    rw [blockOf, he, Option.bind_some, if_pos hr] at hblock
    cases hblock
  · intro hnone ssrc _
    cases he : c.ssrcSet ssrc with
    | none => rw [blockOf, he, Option.bind_none]
    | some e => rw [blockOf, he, Option.bind_some, if_neg (hnone ssrc e he)]

/-- The blocks have 24 bits for the lost packets. -/
theorem cumulativeLost_of_mem_blocks {b : ReportBlock} (h : b ∈ ssrcs.filterMap (c.blockOf i now)) :
    b.cumulativeLost.toNat < 2 ^ 24 := by
  obtain ⟨ssrc, -, hb⟩ := List.mem_filterMap.1 h
  obtain ⟨e, -, hb⟩ := Option.bind_eq_some_iff.1 hb
  split at hb
  · exact Option.some.inj hb ▸ e.cumulativeLost_report (now ssrc)
  · cases hb

/-- **A receiver report is read back**, packet by packet, with the SDES packet behind. -/
theorem Lists.receiverTurn_read (h : c.Lists ssrcs) {m : RtcpMessage}
    (hm : (c.receiverTurn i now ssrcs).2 = some m) : parseCompound m.bytes =
      .ok ((ssrcs.filterMap (c.blockOf i now)).map ReportBlock.report ++ [reportSdesPacket]) := by
  rw [h.receiverTurn_eq] at hm
  cases hblocks : ssrcs.filterMap (c.blockOf i now) with
  | nil =>
    rw [hblocks] at hm
    cases hm
  | cons b bs =>
    rw [hblocks] at hm
    obtain rfl := Option.some.inj hm
    have hread := parseCompound_reports ((b :: bs).map ReportBlock.report) fun p hp => by
      obtain ⟨b', hb', rfl⟩ := List.mem_map.1 hp
      exact SsrcContext.report_wellFormed (cumulativeLost_of_mem_blocks (hblocks ▸ hb'))
    rw [List.flatMap_map] at hread
    exact hread

end Connection

/-- **A sender report is read back**: one packet for each stream, and the SDES packet. -/
theorem RtpSending.reportTurn_read (x : RtpSending) : parseCompound x.reportTurn.bytes =
    .ok (x.streams.map (fun s => s.info.report) ++ [reportSdesPacket]) := by
  have hread := parseCompound_reports (x.streams.map fun s => s.info.report) fun p hp => by
    obtain ⟨s, -, rfl⟩ := List.mem_map.1 hp
    exact s.info.report_wellFormed
  rw [List.flatMap_map] at hread
  rw [← hread, reportTurn, RtcpMessage.bytes, senderCompound, List.flatMap_map]

/-- **A turn of each report loop.**  The peer reads the sender report as one packet for each stream
of the sender, and the receiver report as one for each context of the receiver that has got a
packet, in the order of the SSRCs and as it was before the turn; an SDES packet is behind them.
Where there is no such context, nothing is sent.  The report interval of those contexts is over, and
nothing else has changed. -/
theorem report_turns (x : RtpSending) (c : Connection) (i : ℕ) (now : U32 → ℤ) (ssrcs : List U32)
    (h : c.Lists ssrcs) :
    parseCompound x.reportTurn.bytes =
      .ok (x.streams.map (fun s => s.info.report) ++ [reportSdesPacket]) ∧
    (∀ m, (c.receiverTurn i now ssrcs).2 = some m → parseCompound m.bytes =
      .ok ((ssrcs.filterMap (c.blockOf i now)).map ReportBlock.report ++ [reportSdesPacket])) ∧
    ((c.receiverTurn i now ssrcs).2 = none ↔
      ∀ ssrc e, c.ssrcSet ssrc = some e → ¬ Connection.Reports i e) ∧
    (c.receiverTurn i now ssrcs).1 =
      c.withSet fun ssrc => (c.ssrcSet ssrc).map (Connection.endInterval i) := by
  refine ⟨x.reportTurn_read, fun m hm => h.receiverTurn_read hm, ?_, ?_⟩
  · have hnil : ssrcs.filterMap (c.blockOf i now) = [] ↔ _ := h.blocks_eq_nil_iff
    rw [← hnil, h.receiverTurn_eq]
    cases ssrcs.filterMap (c.blockOf i now) with
    | nil => exact ⟨fun _ => rfl, fun _ => rfl⟩
    | cons b bs => exact ⟨fun hnone => (by cases hnone), fun hnil => (by cases hnil)⟩
  · rw [h.receiverTurn_eq]

/-- A connection with one context, of the first receiver, that has got a packet. -/
def oneContext : Connection :=
  Connection.withSet {} (Function.update (fun _ => none) 7
    (some ⟨0, (({ ssrc := 7 } : SsrcContext).trackPacket 5 0 0)⟩))

/-- The report on one context, read back. -/
theorem report_turns_one :
    (oneContext.receiverTurn 0 (fun _ => 0) [7]).2 = some (.receiverReports
      { ssrc := 7, fractionLost := 0, cumulativeLost := 0, extHighestSeq := 5, jitter := 0
        lsr := 0, dlsr := 0 } []) ∧
    ∀ m, (oneContext.receiverTurn 0 (fun _ => 0) [7]).2 = some m → parseCompound m.bytes =
      .ok (([7].filterMap (oneContext.blockOf 0 fun _ => 0)).map ReportBlock.report ++
        [reportSdesPacket]) := by
  have hlists : oneContext.Lists [7] := by
    refine ⟨List.pairwise_singleton _ _, fun ssrc => ?_⟩
    by_cases hs : ssrc = 7
    · rw [hs]
      exact ⟨fun _ => rfl, fun _ => List.mem_singleton.2 rfl⟩
    · have hnone : oneContext.ssrcSet ssrc = none := by
        rw [oneContext, Connection.withSet_ssrcSet, Function.update_of_ne hs]
      rw [hnone]
      exact ⟨fun h => absurd (List.mem_singleton.1 h) hs, fun h => (by cases h)⟩
  exact ⟨by rfl, (report_turns {} oneContext 0 (fun _ => 0) [7] hlists).2.1⟩

end AsioRtc
