/-
# What a feedback tells of the arrivals

`transport_cc::report` writes the arrival of each received packet as a receive delta:
the time since the packet before it, cut down to whole ticks of 250 µs.  The sender
adds the deltas up.  `reported` are the entries a report takes out of its queue,
`told` the times its reader comes to, and `Tells` is how near a time must come.

Two things go wrong on the way.  Each delta counts from the exact arrival of the packet
before it, not from what the reader knows of that, so what is cut off at each packet adds
up (`lags`).  And a delta of −128 to −1 ticks is taken for a small one, which has no
sign: the reader makes 256 ticks more of it (`wireTicks`).  `tells_iff` is one packet,
`report_keepsTime_iff` a report: it keeps the time exactly when neither happens.
-/

import AsioRtc.Rtcp.FeedbackDecode
import AsioRtc.Twcc.Tiling

namespace AsioRtc

open Lib

/-! ### Ticks -/

/-- A time in nanoseconds in whole ticks of 250 µs, as `report` computes it. -/
def ticks (d : ℤ) : ℤ := (d.tdiv 1000).tdiv 250

theorem ticks_eq (d : ℤ) : ticks d = d.tdiv 250000 := by
  have hpos : ∀ x : ℤ, 0 ≤ x → (x.tdiv 1000).tdiv 250 = x.tdiv 250000 := by
    intro x hx
    rw [Int.tdiv_eq_ediv_of_nonneg (b := 1000) hx, Int.tdiv_eq_ediv_of_nonneg (by omega),
      Int.tdiv_eq_ediv_of_nonneg hx]
    omega
  rcases le_total 0 d with h | h
  · exact hpos d h
  · have := hpos (-d) (by omega)
    rw [Int.neg_tdiv, Int.neg_tdiv, Int.neg_tdiv] at this
    rw [ticks]
    omega

/-- The ticks and what they cut off. -/
theorem ticks_rest (d : ℤ) :
    d = 250000 * ticks d + d.tmod 250000 ∧ -250000 < d.tmod 250000 ∧ d.tmod 250000 < 250000 := by
  rw [ticks_eq]
  exact ⟨(Int.mul_tdiv_add_tmod d 250000).symm, Int.lt_tmod_of_pos d (by decide),
    Int.tmod_lt_of_pos d (by decide)⟩

/-- The ticks a reader makes of a delta: a small one has no sign. -/
def wireTicks (delta : ℤ) : ℤ := if -128 ≤ delta ∧ delta < 0 then delta + 256 else delta

/-- A time that lies back by at least one tick and less than 129. -/
def SlightlyBack (d : ℤ) : Prop := -32250000 < d ∧ d ≤ -250000

instance (d : ℤ) : Decidable (SlightlyBack d) := inferInstanceAs (Decidable (_ ∧ _))

theorem slightlyBack_iff (d : ℤ) : SlightlyBack d ↔ -128 ≤ ticks d ∧ ticks d < 0 := by
  unfold SlightlyBack
  rcases le_total 0 d with h | h
  · rw [ticks_eq, Int.tdiv_eq_ediv_of_nonneg h]
    omega
  · obtain ⟨x, rfl⟩ : ∃ x, d = -x := ⟨-d, by omega⟩
    rw [ticks_eq, Int.neg_tdiv, Int.tdiv_eq_ediv_of_nonneg (show 0 ≤ x by omega)]
    omega

theorem wireTicks_of_not_back {d : ℤ} (h : ¬ SlightlyBack d) : wireTicks (ticks d) = ticks d :=
  if_neg fun hneg => h ((slightlyBack_iff d).2 hneg)

/-- The time `time` (in µs) tells the arrival `ts` (in ns) to less than 250 µs, modulo the
2²⁴ · 64 ms after which the reference time wraps. -/
def Tells (time ts : ℤ) : Prop := ∃ k : ℤ, |ts - 1000 * (time + k * (2 ^ 24 * 64000))| < 250000

/-- **One packet.**  Behind a time that is `lag` ns behind, with less than a tick of lag, the
next arrival is told exactly when it does not lie slightly back, and what is cut off of it
does not make a tick of the lag. -/
theorem tells_iff {time last lag k : ℤ} (ts : ℤ)
    (htime : last - 1000 * (time + k * (2 ^ 24 * 64000)) = lag)
    (hlag : |lag| < 250000) :
    Tells (time + wireTicks (ticks (ts - last)) * 250) ts ↔
      ¬ SlightlyBack (ts - last) ∧ |lag + (ts - last).tmod 250000| < 250000 := by
  obtain ⟨heq, hlow, hhigh⟩ := ticks_rest (ts - last)
  rw [slightlyBack_iff]
  rw [abs_lt] at hlag ⊢
  generalize (ts - last).tmod 250000 = rest at *
  generalize ticks (ts - last) = delta at *
  unfold Tells wireTicks
  by_cases hback : -128 ≤ delta ∧ delta < 0
  · -- The reader is 64 ms ahead, which no lag and no wrap make up for.
    rw [if_pos hback]
    refine iff_of_false ?_ fun h => h.1 hback
    rintro ⟨j, hj⟩
    rw [abs_lt] at hj
    omega
  · rw [if_neg hback]
    constructor
    · rintro ⟨j, hj⟩
      rw [abs_lt] at hj
      refine ⟨hback, ?_⟩
      omega
    · rintro ⟨-, hnew⟩
      refine ⟨k, ?_⟩
      rw [abs_lt]
      omega

/-- The arrivals that the deltas of a report tell, from `time` on; `last` is the exact
arrival that the first delta counts from. -/
def told : ℤ → ℤ → List TccEntry → List (U16 × ℤ)
  | _, _, [] => []
  | time, last, e :: es =>
      let next := time + wireTicks (ticks (e.ts - last)) * 250
      (e.seq, next) :: told next e.ts es

/-- What has been cut off up to each entry, in nanoseconds. -/
def lags : ℤ → ℤ → List TccEntry → List ℤ
  | _, _, [] => []
  | lag, last, e :: es =>
      let next := lag + (e.ts - last).tmod 250000
      next :: lags next e.ts es

/-- The entry and what the reader makes of it. -/
def ToldRight (e : TccEntry) (a : U16 × ℤ) : Prop := a.1 = e.seq ∧ Tells a.2 e.ts

/-- **A run of packets** behind one whose time is less than a tick behind. -/
theorem told_right_iff {es : List TccEntry} {time last lag k : ℤ}
    (htime : last - 1000 * (time + k * (2 ^ 24 * 64000)) = lag) (hlag : |lag| < 250000) :
    List.Forall₂ ToldRight es (told time last es) ↔
      (last :: es.map TccEntry.ts).IsChain (fun x y => ¬ SlightlyBack (y - x)) ∧
        ∀ d ∈ lags lag last es, |d| < 250000 := by
  induction es generalizing time last lag with
  | nil => simp [told, lags]
  | cons e es ih =>
    have hone := tells_iff e.ts htime hlag
    obtain ⟨heq, -, -⟩ := ticks_rest (e.ts - last)
    simp only [told, lags, List.forall₂_cons, ToldRight, hone, List.map_cons,
      List.isChain_cons_cons, List.forall_mem_cons, true_and]
    constructor
    · rintro ⟨⟨hback, hnew⟩, hrest⟩
      have hticks := wireTicks_of_not_back hback
      obtain ⟨hchain, hall⟩ := (ih (by rw [hticks]; omega) hnew).1 hrest
      exact ⟨⟨hback, hchain⟩, hnew, hall⟩
    · rintro ⟨⟨hback, hchain⟩, hnew, hall⟩
      have hticks := wireTicks_of_not_back hback
      exact ⟨⟨hback, hnew⟩, (ih (by rw [hticks]; omega) hnew).2 ⟨hchain, hall⟩⟩

namespace TransportCc

/-! ### The entries of a report -/

/-- The entries the walk meets: each lies no further ahead of the cursor than there is room
for statuses. -/
def metBy : U16 → ℕ → List TccEntry → List TccEntry
  | _, _, [] => []
  | next, room, e :: es =>
      if 0 < room ∧ ahead next e.seq ≤ room then
        e :: metBy (e.seq + 1) (room - (ahead next e.seq + 1)) es
      else []

/-- The entries a report speaks of as received. -/
def reported (t : TransportCc) : List TccEntry := metBy t.base maxTccCount t.recv

end TransportCc

/-- Losses do not move the time. -/
theorem arrivals_lost (seq : U16) (time : ℤ) (m : ℕ) (ds : List (Option ℤ)) :
    arrivals seq time (List.replicate m none ++ ds) = arrivals (seq + BitVec.ofNat 16 m) time ds := by
  induction m generalizing seq with
  | zero => simp
  | succ m ih =>
    rw [List.replicate_succ, List.cons_append, arrivals, ih, BitVec.ofNat_add, BitVec.add_assoc,
      BitVec.add_comm (1 : U16)]
    rfl

/-- The delta of a received packet, as its reader has it. -/
theorem deltaRead_info (w : TccWalk) (e : TccEntry)
    (h : (w.info e).status ≠ .receivedWithoutDelta) :
    (w.info e).deltaRead = some (wireTicks (ticks (e.ts - w.lastTs))) := by
  unfold TccWalk.info at h ⊢
  unfold TccPacketInfo.deltaRead wireTicks ticks
  dsimp only at h ⊢
  generalize ((e.ts - w.lastTs).tdiv 1000).tdiv 250 = delta at h ⊢
  unfold deltaStatus at h ⊢
  by_cases hlarge : delta < -128 ∨ 127 < delta
  · by_cases hout : delta < -32768 ∨ 32767 < delta
    · simp [hlarge, hout] at h
    · -- Two bytes, with their sign.
      rw [if_pos hlarge, if_neg hout, if_neg (by omega)]
      dsimp only
      rw [BitVec.toInt_ofInt, Int.bmod_def]
      congr 1
      split <;> omega
  · -- One byte, without a sign.
    rw [if_neg hlarge]
    dsimp only
    rw [BitVec.toNat_setWidth, BitVec.toNat_ofInt]
    congr 1
    split <;> omega

/-- Where the walk stands behind an entry it has met. -/
theorem meet_next_eq (w : TccWalk) (e : TccEntry) :
    ((w.loseMany (ahead w.next e.seq)).receive e).next = e.seq + 1 := by
  rw [TransportCc.meet_next, BitVec.ofNat_add, ← BitVec.add_assoc, add_ahead]
  rfl

/-- And the room that is left. -/
theorem meet_room (w : TccWalk) (e : TccEntry) :
    maxTccCount - ((w.loseMany (ahead w.next e.seq)).receive e).packets.length =
      maxTccCount - w.packets.length - (ahead w.next e.seq + 1) := by
  rw [TransportCc.meet_packets]
  simp
  omega

/-- The statuses of an entry the walk has met, with the losses in front of it, tell its
number and its time. -/
theorem arrivals_meet {w : TccWalk} {e : TccEntry} {added : List TccPacketInfo} (time : ℤ)
    (h : ((w.loseMany (ahead w.next e.seq)).info e).status ≠ .receivedWithoutDelta) :
    let next := time + wireTicks (ticks (e.ts - w.lastTs)) * 250
    arrivals w.next time ((List.replicate (ahead w.next e.seq) (⟨.notReceived, 0⟩ : TccPacketInfo) ++
        (w.loseMany (ahead w.next e.seq)).info e :: added).map TccPacketInfo.deltaRead) =
      (e.seq, next) :: arrivals (e.seq + 1) next (added.map TccPacketInfo.deltaRead) := by
  rw [List.map_append, List.map_cons, deltaRead_info _ _ h, List.map_replicate]
  refine (arrivals_lost _ _ _ _).trans ?_
  rw [add_ahead, arrivals]
  rfl

/-- **The walk over the queue** takes out the entries it meets, and what it says of them is
read as the times `told`. -/
theorem run_told :
    ∀ (es : List TccEntry) (w : TccWalk), ∃ added : List TccPacketInfo,
      (TccWalk.run es w).2.packets = w.packets ++ added ∧
      es = TransportCc.metBy w.next (maxTccCount - w.packets.length) es ++ (TccWalk.run es w).1 ∧
      ∀ time, (∀ p ∈ added, p.status ≠ .receivedWithoutDelta) →
        arrivals w.next time (added.map TccPacketInfo.deltaRead) =
          told time w.lastTs (TransportCc.metBy w.next (maxTccCount - w.packets.length) es)
  | [], w => ⟨[], by simp [TccWalk.run], by simp [TccWalk.run, TransportCc.metBy],
      fun _ _ => by simp [arrivals, TransportCc.metBy, told]⟩
  | e :: es, w => by
    rw [TccWalk.run, TransportCc.metBy]
    by_cases hfull : maxTccCount ≤ w.packets.length
    · rw [if_pos hfull, if_neg (by omega)]
      exact ⟨[], by simp, by simp, fun _ _ => by simp [arrivals, told]⟩
    rw [if_neg hfull, TccWalk.skipTo_eq]
    by_cases hroom : ahead w.next e.seq ≤ maxTccCount - w.packets.length
    · rw [if_pos hroom, if_pos ⟨by omega, hroom⟩]
      obtain ⟨added, hpackets, hsplit, hread⟩ :=
        run_told es ((w.loseMany (ahead w.next e.seq)).receive e)
      rw [meet_next_eq, meet_room] at hsplit hread
      refine ⟨List.replicate (ahead w.next e.seq) ⟨.notReceived, 0⟩ ++
        (w.loseMany (ahead w.next e.seq)).info e :: added, ?_, ?_, fun time hall => ?_⟩
      · rw [TransportCc.meet_packets] at hpackets
        rw [hpackets]
        simp
      · rw [List.cons_append, ← hsplit]
      · rw [List.forall_mem_append, List.forall_mem_cons] at hall
        obtain ⟨-, hinfo, hadded⟩ := hall
        rw [arrivals_meet time hinfo, told]
        exact congrArg _ (hread _ hadded)
    · rw [if_neg hroom, if_neg fun h => hroom h.2]
      refine ⟨List.replicate (maxTccCount - w.packets.length) ⟨.notReceived, 0⟩, rfl, by simp,
        fun time _ => ?_⟩
      rw [List.map_replicate, ← List.append_nil (List.replicate _ _)]
      exact arrivals_lost _ _ _ []

namespace TransportCc

/-! ### One report -/

/-- A report keeps the time: for each entry it takes out of its queue, its reader comes to
the number and, to less than a tick, to the arrival. -/
def KeepsTime (t : TransportCc) : Prop :=
  ∃ taken, t.recv = taken ++ t.report.1.recv ∧
    (t.recv ≠ [] → ∃ l, decodeTransportCc t.report.2 = some l ∧ List.Forall₂ ToldRight taken l)

/-- When a report keeps the time: no entry it speaks of arrived slightly before the one in
front of it, what is cut off never makes up a tick, and the clock is not before its epoch. -/
structure Steady (es : List TccEntry) : Prop where
  epoch : ∀ e ∈ es.head?, -1000 < e.ts
  chain : (es.map TccEntry.ts).IsChain fun x y => ¬ SlightlyBack (y - x)
  lag : ∀ d ∈ lags 0 0 es, |d| < 250000

/-- Microseconds are cut towards the epoch. -/
theorem tdiv_micro (x : ℤ) :
    x = 1000 * x.tdiv 1000 + x.tmod 1000 ∧ -1000 < x.tmod 1000 ∧ x.tmod 1000 < 1000 ∧
      (0 ≤ x → 0 ≤ x.tmod 1000) ∧ (x ≤ 0 → x.tmod 1000 ≤ 0) := by
  refine ⟨(Int.mul_tdiv_add_tmod x 1000).symm, Int.lt_tmod_of_pos x (by decide),
    Int.tmod_lt_of_pos x (by decide), Int.tmod_nonneg 1000, fun h => ?_⟩
  have := Int.tmod_nonneg 1000 (show 0 ≤ -x by omega)
  rw [Int.neg_tmod] at this
  omega

/-- The microseconds a report takes for the first arrival: off by 2⁶⁴ before the epoch. -/
theorem baseUs_eq {e : TccEntry} (hclock : -2 ^ 63 ≤ e.ts ∧ e.ts < 2 ^ 63) :
    (baseUs e : ℤ) = if -1000 < e.ts then e.ts.tdiv 1000 else 2 ^ 64 + e.ts.tdiv 1000 := by
  rw [baseUs, BitVec.toNat_ofInt, Int.toNat_of_nonneg (by omega)]
  have hmicro := tdiv_micro e.ts
  split <;> omega

/-- The first delta is the microseconds since the reference time, in ticks. -/
theorem told_first (e : TccEntry) (es : List TccEntry) :
    told ((ref64ms e / 64000 % 2 ^ 24 : ℕ) * 64000)
        (e.ts - ((baseUs e - ref64ms e : ℕ) : ℤ) * 1000) (e :: es) =
      let next := (((baseUs e / 64000 % 2 ^ 24 : ℕ) * 64000 : ℤ) +
        ((baseUs e % 64000 / 250 : ℕ) : ℤ) * 250)
      (e.seq, next) :: told next e.ts es := by
  have hticks : ticks (e.ts - (e.ts - ((baseUs e - ref64ms e : ℕ) : ℤ) * 1000)) =
      ((baseUs e % 64000 / 250 : ℕ) : ℤ) := by
    rw [ticks_eq, ref64ms, Int.tdiv_eq_ediv_of_nonneg (by omega)]
    omega
  have hwire : wireTicks ((baseUs e % 64000 / 250 : ℕ) : ℤ) = ((baseUs e % 64000 / 250 : ℕ) : ℤ) :=
    if_neg (by omega)
  rw [told, hticks, hwire, ref64ms, Nat.mul_div_cancel _ (by decide)]

/-- Behind the epoch, the first time that is told lacks what was cut off of the arrival. -/
theorem first_lag {e : TccEntry} (hclock : -2 ^ 63 ≤ e.ts ∧ e.ts < 2 ^ 63)
    (hepoch : -1000 < e.ts) :
    e.ts - 1000 * (((baseUs e / 64000 % 2 ^ 24 : ℕ) : ℤ) * 64000 +
      ((baseUs e % 64000 / 250 : ℕ) : ℤ) * 250 +
      ((baseUs e / 64000 / 2 ^ 24 : ℕ) : ℤ) * (2 ^ 24 * 64000)) = e.ts.tmod 250000 := by
  have hbase := baseUs_eq hclock
  rw [if_pos hepoch] at hbase
  have hwrap := Nat.div_add_mod (baseUs e / 64000) (2 ^ 24)
  have hmicro := tdiv_micro e.ts
  rcases le_total 0 e.ts with hpos | hneg
  · rw [Int.tmod_eq_emod_of_nonneg hpos]
    omega
  · have hself : e.ts.tmod 250000 = e.ts := by
      have := Int.tmod_eq_of_lt (show 0 ≤ -e.ts by omega) (show -e.ts < 250000 by omega)
      rw [Int.neg_tmod] at this
      omega
    rw [hself]
    omega

/-- Before the epoch no time that is told is the arrival: 2⁶⁴ µs are no multiple of
2²⁴ · 64 ms. -/
theorem not_tells_before_epoch {e : TccEntry} (hclock : -2 ^ 63 ≤ e.ts ∧ e.ts < 2 ^ 63)
    (hepoch : ¬ -1000 < e.ts) :
    ¬ Tells (((baseUs e / 64000 % 2 ^ 24 : ℕ) : ℤ) * 64000 +
      ((baseUs e % 64000 / 250 : ℕ) : ℤ) * 250) e.ts := by
  have hbase := baseUs_eq hclock
  rw [if_neg hepoch] at hbase
  have hwrap := Nat.div_add_mod (baseUs e / 64000) (2 ^ 24)
  have hmicro := tdiv_micro e.ts
  rintro ⟨k, hk⟩
  rw [abs_lt] at hk
  omega

/-- The entry a report starts its clock with. -/
theorem first_told_iff {e : TccEntry} {es : List TccEntry} (hclock : -2 ^ 63 ≤ e.ts ∧ e.ts < 2 ^ 63) :
    List.Forall₂ ToldRight (e :: es)
        (told ((ref64ms e / 64000 % 2 ^ 24 : ℕ) * 64000)
          (e.ts - ((baseUs e - ref64ms e : ℕ) : ℤ) * 1000) (e :: es)) ↔
      Steady (e :: es) := by
  rw [told_first, List.forall₂_cons]
  by_cases hepoch : -1000 < e.ts
  · have hlag := first_lag hclock hepoch
    have hsmall : |e.ts.tmod 250000| < 250000 := by
      rw [abs_lt]
      exact ⟨Int.lt_tmod_of_pos _ (by decide), Int.tmod_lt_of_pos _ (by decide)⟩
    rw [told_right_iff hlag hsmall]
    constructor
    · rintro ⟨-, hchain, hall⟩
      refine ⟨fun x hx => ?_, hchain, ?_⟩
      · obtain rfl := Option.some.inj hx
        exact hepoch
      · simpa [lags, hsmall] using hall
    · rintro ⟨-, hchain, hall⟩
      refine ⟨⟨rfl, _, hlag ▸ hsmall⟩, hchain, ?_⟩
      simpa [lags, hsmall] using hall
  · refine iff_of_false ?_ fun h => hepoch (h.epoch e rfl)
    rintro ⟨⟨-, htells⟩, -⟩
    exact not_tells_before_epoch hclock hepoch htells

theorem referenceTime_toNat (n : ℕ) :
    (BitVec.ofNat 32 n &&& 0xFFFFFF).toNat = n % 2 ^ 24 := by
  rw [toNat_and_mask 24 rfl, BitVec.toNat_ofNat]
  omega

/-- **What the reader of a report comes to**, where no packet goes without its delta. -/
theorem decode_report {t : TransportCc} {e : TccEntry} {es : List TccEntry} (h : t.recv = e :: es)
    (hdelta : ∀ p ∈ t.statuses, p.status ≠ .receivedWithoutDelta) :
    t.recv = t.reported ++ t.report.1.recv ∧
      decodeTransportCc t.report.2 =
        some (told ((ref64ms e / 64000 % 2 ^ 24 : ℕ) * 64000)
          (e.ts - ((baseUs e - ref64ms e : ℕ) : ℤ) * 1000) t.reported) := by
  obtain ⟨added, hpackets, hsplit, hread⟩ := run_told t.recv
    ⟨[], t.base, e.ts - ((baseUs e - ref64ms e : ℕ) : ℤ) * 1000⟩
  have hstatuses : (t.collect e).2.packets = added := hpackets
  have hlen := (t.collect_counts e).1
  have hqueue : t.report.1.recv = (t.collect e).1 := by rw [report, h]
  have hreport : t.report.2 = buildTransportCc
      { senderSsrc := t.senderSsrc
        mediaSsrc := t.mediaSsrc
        baseSeq := t.base
        statusCount := BitVec.ofNat 16 (t.collect e).2.packets.length
        referenceTime := BitVec.ofNat 32 (ref64ms e / 64000) &&& 0xFFFFFF
        feedbackPacketCount := t.fbCount + 1
        packetChunks := tccBuildPacketStatus (t.collect e).2.packets } := by rw [report, h]
  rw [hqueue, hreport, decodeTransportCc_written _ (t.collect e).2.packets rfl
    (by rw [BitVec.toNat_ofNat]; exact Nat.mod_eq_of_lt (by omega))
    (by rw [referenceTime_toNat]; exact Nat.mod_lt _ (by decide))]
  refine ⟨hsplit, congrArg some ?_⟩
  rw [statuses_of_cons h, hstatuses] at hdelta
  rw [hstatuses, referenceTime_toNat]
  exact_mod_cast hread _ hdelta

/-- **When a report keeps the time.**  In every state whose received packets all get a delta,
the reader of the report knows each of their arrivals to less than 250 µs exactly when the
packets are `Steady`. -/
theorem report_keepsTime_iff (t : TransportCc)
    (hclock : ∀ e ∈ t.recv, -2 ^ 63 ≤ e.ts ∧ e.ts < 2 ^ 63)
    (hdelta : ∀ p ∈ t.statuses, p.status ≠ .receivedWithoutDelta) :
    t.KeepsTime ↔ Steady t.reported := by
  cases hr : t.recv with
  | nil =>
    have hnone : t.reported = [] := by rw [reported, hr, metBy]
    rw [hnone]
    refine iff_of_true ⟨[], ?_, fun hq => absurd hr hq⟩ ⟨by simp, by simp, by simp [lags]⟩
    rw [report_of_nil hr, List.nil_append]
  | cons e es =>
    obtain ⟨hsplit, hdecode⟩ := decode_report hr hdelta
    have hkeeps : t.KeepsTime ↔ List.Forall₂ ToldRight t.reported
        (told ((ref64ms e / 64000 % 2 ^ 24 : ℕ) * 64000)
          (e.ts - ((baseUs e - ref64ms e : ℕ) : ℤ) * 1000) t.reported) := by
      constructor
      · rintro ⟨taken, htaken, htold⟩
        obtain rfl := List.append_cancel_right (htaken.symm.trans hsplit)
        obtain ⟨l, hl, htold⟩ := htold (by rw [hr]; exact List.cons_ne_nil _ _)
        rw [hdecode] at hl
        exact Option.some.inj hl ▸ htold
      · exact fun htold => ⟨_, hsplit, fun _ => ⟨_, hdecode, htold⟩⟩
    rw [hkeeps]
    cases hmet : t.reported with
    | nil => exact iff_of_true (by simp [told]) ⟨by simp, by simp, by simp [lags]⟩
    | cons e' es' =>
      obtain rfl : e = e' := by
        rw [hr, hmet, List.cons_append] at hsplit
        exact (List.cons.inj hsplit).1
      exact first_told_iff (hclock e (by rw [hr]; exact List.mem_cons_self ..))

/-- Three packets, 300 ms and 1 ms apart. -/
theorem report_keepsTime_three :
    ((create 0 0).arrive 7 1000000 |>.arrive 9 301000000 |>.arrive 10 302000000).KeepsTime :=
  (report_keepsTime_iff _ (by decide) (by decide)).2 ⟨by decide, by decide, by decide⟩

/-- **The cut-off parts add up.**  Three packets, each 249 µs behind the one before: every
delta is zero, and the third arrival is told half a millisecond early. -/
theorem report_drifts :
    let t := (create 0 0).arrive 0 0 |>.arrive 1 249000 |>.arrive 2 498000
    (∀ p ∈ t.statuses, p.status ≠ .receivedWithoutDelta) ∧ ¬ t.KeepsTime := by
  intro t
  refine ⟨by decide, ?_⟩
  rintro ⟨taken, htaken, htold⟩
  have hqueue : t.recv = [⟨0, 0⟩, ⟨1, 249000⟩, ⟨2, 498000⟩] := by decide
  have hrest : t.report.1.recv = [] := by decide
  have hdecode : decodeTransportCc t.report.2 = some [(0, 0), (1, 0), (2, 0)] := by decide
  rw [hrest, List.append_nil] at htaken
  obtain ⟨l, hl, htold⟩ := htold (by rw [hqueue]; exact List.cons_ne_nil _ _)
  obtain rfl := Option.some.inj (hdecode.symm.trans hl)
  rw [← htaken, hqueue] at htold
  simp only [List.forall₂_cons, ToldRight, Tells] at htold
  obtain ⟨-, -, ⟨-, k, hk⟩, -⟩ := htold
  rw [abs_lt] at hk
  omega

end TransportCc
end AsioRtc
