/-
# The time of sending

`connection_impl::update_send_stats` of `src/connection_impl.cpp` keeps the time of the last
packet in `ntp_timestamp`.  A sender report takes it as it is, and RFC 3550 reads the two words
there as 32.32 fixed-point seconds (`ntpSeconds`); `make_rtp` shifts it to the 6.18 fixed-point
seconds of the abs-send-time element, as if it were one.

What is stored is neither.  It has sixteen bits of fraction, so a second counts as a 65536th of
one, and the product is taken modulo `2^64`, so the clock starts afresh every `2^48` µs, less than
nine years (`toNat_ntpOf`).  `apart_iff` is what this makes of two times, and
`send_times_iff` says when both fields are right.
-/

import AsioRtc.Connection.Send
import AsioRtc.Rtcp.Compound
import AsioRtc.Rtcp.FeedbackDecode
import Mathlib.Data.Rat.Floor
import Mathlib.Tactic.FieldSimp
import Mathlib.Tactic.Linarith

namespace AsioRtc

open Lib Text

/-- `rtp_stream`, with the fields of a sender report. -/
structure SentStream extends SendStream where
  packetCount : U32 := 0
  octetCount : U32 := 0
  rtpTimestamp : U32 := 0

/-- An entry of `_twcc_sent`. -/
structure TwccSentEntry where
  transportSeq : U16
  ssrc : U32
  size : ℕ
  sendTime : ℤ
  deriving DecidableEq, Repr

/-- What `connection_impl` counts of the packets it sends. -/
structure SendStats where
  txPackets : U64 := 0
  txBytes : U64 := 0
  twccSent : ℕ → Option TwccSentEntry := fun _ => none

/-- `TWCC_SENT_SIZE`. -/
def twccSentSize : ℕ := 256

/-- The `ntp_timestamp` of a packet that is sent at `us`, in microseconds since the epoch of
the clock. -/
def ntpOf (us : ℤ) : U64 := BitVec.ofInt 64 us * 65536 / 1000000

/-- `connection_impl::update_send_stats`; `now` is the reading of the steady clock, in
nanoseconds. -/
def updateSendStats (c : SendStats) (s : SentStream) (payload : Bytes) (rtpBufSize : ℕ)
    (twccSeq : U16) (timestamp : U32) (now us : ℤ) : SendStats × SentStream :=
  ({ txPackets := c.txPackets + 1
     txBytes := c.txBytes + BitVec.ofNat 64 rtpBufSize
     twccSent :=
       if twccSeq ≠ 0 then
         Function.update c.twccSent (twccSeq.toNat % twccSentSize)
           (some ⟨twccSeq, s.ssrc, rtpBufSize, now⟩)
       else c.twccSent },
    { s with
      octetCount := s.octetCount + BitVec.ofNat 32 payload.length
      packetCount := s.packetCount + 1
      ntpTimestamp := ntpOf us
      rtpTimestamp := timestamp })

/-- What a sender report takes from the stream. -/
def SentStream.info (s : SentStream) : SenderInfo :=
  { ssrc := s.ssrc
    ntpTimestamp := s.ntpTimestamp
    rtpTimestamp := s.rtpTimestamp
    packetCount := s.packetCount
    octetCount := s.octetCount }

/-! ### The fields as their readers have them -/

/-- The NTP timestamp of a sender report, in seconds. -/
def ntpSeconds (report : Bytes) : Checked ℚ := do
  let seconds ← readBig32 report 8
  let fraction ← readBig32 report 12
  pure (seconds.toNat + fraction.toNat / 2 ^ 32)

/-- The number in an abs-send-time element. -/
def absSendTime : Bytes → ℕ
  | [_, b₂, b₁, b₀] => b₂.toNat * 65536 + b₁.toNat * 256 + b₀.toNat
  | _ => 0

/-- The timestamp of a written sender report. -/
theorem ntpSeconds_report (s : SenderInfo) :
    ntpSeconds s.report.bytes = .ok (s.ntpTimestamp.toNat / 2 ^ 32) := by
  have hbytes : s.report.bytes.drop 8 = big32 (BitVec.ofNat 32 (s.ntpTimestamp.toNat / 2 ^ 32)) ++
      (big32 (BitVec.ofNat 32 s.ntpTimestamp.toNat) ++ s.report.bytes.drop 16) := by
    rfl
  obtain ⟨hseconds, hrest⟩ := readBig32_written hbytes
  obtain ⟨hfraction, -⟩ := readBig32_written hrest
  rw [ntpSeconds, hseconds, Checked.ok_bind, hfraction, Checked.ok_bind]
  refine congrArg Except.ok ?_
  have hwords := Nat.div_add_mod s.ntpTimestamp.toNat (2 ^ 32)
  have hhigh : s.ntpTimestamp.toNat / 2 ^ 32 < 2 ^ 32 := by
    have := s.ntpTimestamp.isLt
    omega
  rw [BitVec.toNat_ofNat, BitVec.toNat_ofNat, Nat.mod_eq_of_lt hhigh]
  rw [← congrArg (Nat.cast (R := ℚ)) hwords]
  push_cast
  rw [add_div, mul_comm, mul_div_assoc]
  norm_num

/-- The number of a written abs-send-time element. -/
theorem absSendTime_element [NoCaseEq] {t : RtpTransceiver} (hvideo : t.kind = .video)
    (hid : usableId (extId t.receiver.headerExtensions RtpTransceiver.absSendTimeUri) = true)
    (s : SendStream) (ss : List SendStream) :
    ∃ e, absElement t (s :: ss) = .ok e ∧
      absSendTime e = s.ntpTimestamp.toNat / 2 ^ 14 % 2 ^ 24 := by
  refine ⟨_, by simp only [absElement]; rw [if_pos ⟨hvideo, hid⟩]; rfl, ?_⟩
  have hshift : (if s.ntpTimestamp ≠ 0 then (s.ntpTimestamp >>> 14 &&& 0xFFFFFF).setWidth 32
      else 0 : U32).toNat = s.ntpTimestamp.toNat / 2 ^ 14 % 2 ^ 24 := by
    split
    · rw [BitVec.toNat_setWidth, toNat_and_mask 24 rfl, toNat_shiftRight]
      omega
    · rename_i h
      rw [not_not.1 h]
      rfl
  generalize (if s.ntpTimestamp ≠ 0 then (s.ntpTimestamp >>> 14 &&& 0xFFFFFF).setWidth 32
      else 0 : U32) = abs at hshift ⊢
  have h₂ := toNat_lowByte (by decide) (abs >>> 16)
  have h₁ := toNat_lowByte (by decide) (abs >>> 8)
  have h₀ := toNat_lowByte (by decide) abs
  rw [toNat_shiftRight] at h₂ h₁
  rw [absSendTime, h₂, h₁, h₀, hshift]
  omega

/-! ### What is stored -/

/-- **What is stored**: a time in 65536ths of a second, modulo `2^48` µs. -/
theorem toNat_ntpOf (t : ℕ) : (ntpOf t).toNat = t % 2 ^ 48 * 65536 / 1000000 := by
  rw [ntpOf, BitVec.toNat_udiv, BitVec.toNat_mul, BitVec.ofInt_natCast, BitVec.toNat_ofNat,
    show (65536 : U64).toNat = 65536 from rfl, show (1000000 : U64).toNat = 1000000 from rfl]
  congr 1
  omega

/-- In units of `2^-32 / 1000000` s, what is stored of the same stretch of `2^48` µs moves 65536
times too slowly, and goes back between two of them. -/
theorem stored_apart_iff {t₁ t₂ : ℕ} (h : t₁ ≤ t₂) :
    |((ntpOf t₂).toNat - (ntpOf t₁).toNat : ℤ) * 1000000 - (t₂ - t₁) * 2 ^ 32| ≤ 2 ^ 16 * 1000000 ↔
      t₂ - t₁ ≤ 15 ∧ t₁ / 2 ^ 48 = t₂ / 2 ^ 48 := by
  have hstored : ∀ t : ℕ, (ntpOf t).toNat * 1000000 ≤ t % 2 ^ 48 * 65536 ∧
      t % 2 ^ 48 * 65536 < (ntpOf t).toNat * 1000000 + 1000000 := by
    intro t
    rw [toNat_ntpOf]
    omega
  obtain ⟨hlow₁, hhigh₁⟩ := hstored t₁
  obtain ⟨hlow₂, hhigh₂⟩ := hstored t₂
  generalize (ntpOf t₁).toNat = v₁ at *
  generalize (ntpOf t₂).toNat = v₂ at *
  have hle : t₁ / 2 ^ 48 ≤ t₂ / 2 ^ 48 := Nat.div_le_div_right h
  rw [abs_le]
  rcases Nat.eq_or_lt_of_le hle with hsame | hwrap
  · rw [and_iff_left hsame]
    omega
  · refine iff_of_false (fun hdiff => ?_) fun hcond => hwrap.ne hcond.2
    omega

/-- **Two times** that are stored, read as seconds, are as far apart as they are. -/
theorem apart_iff {t₁ t₂ : ℕ} (h : t₁ ≤ t₂) :
    |((ntpOf t₂).toNat / 2 ^ 32 - (ntpOf t₁).toNat / 2 ^ 32 - (t₂ - t₁) / 1000000 : ℚ)| ≤
        1 / 2 ^ 16 ↔
      t₂ - t₁ ≤ 15 ∧ t₁ / 2 ^ 48 = t₂ / 2 ^ 48 := by
  have hscale : |((ntpOf t₂).toNat / 2 ^ 32 - (ntpOf t₁).toNat / 2 ^ 32 -
        (t₂ - t₁) / 1000000 : ℚ)| ≤ 1 / 2 ^ 16 ↔
      |((ntpOf t₂).toNat - (ntpOf t₁).toNat : ℤ) * 1000000 - (t₂ - t₁) * 2 ^ 32| ≤
        2 ^ 16 * 1000000 := by
    rw [← Int.cast_le (R := ℚ), Int.cast_abs, abs_le, abs_le]
    push_cast
    constructor
    · rintro ⟨hl, hr⟩
      constructor <;> linarith
    · rintro ⟨hl, hr⟩
      constructor <;> linarith
  rw [hscale, stored_apart_iff h]

/-- The whole quarters of a second in `t` µs, modulo `2^48` µs, are as many as the whole
`2^-18`ths of a second in it, modulo `2^24`. -/
def QuartersFit (t : ℕ) : Prop := t % 2 ^ 48 * 4 / 1000000 % 2 ^ 24 = t * 2 ^ 18 / 1000000 % 2 ^ 24

instance (t : ℕ) : Decidable (QuartersFit t) := inferInstanceAs (Decidable (_ = _))

/-- What `make_rtp` makes of the time that is stored: whole quarters of a second. -/
theorem shift_ntpOf (t : ℕ) : (ntpOf t).toNat / 2 ^ 14 = t % 2 ^ 48 * 4 / 1000000 := by
  rw [toNat_ntpOf, Nat.div_div_eq_div_mul]
  omega

/-! ### Two packets -/

/-- What `update_send_stats` gets besides the time. -/
structure Sending where
  stats : SendStats := {}
  stream : SentStream := {}
  payload : Bytes := []
  rtpBufSize : ℕ := 0
  twccSeq : U16 := 0
  timestamp : U32 := 0
  now : ℤ := 0

/-- The stream after a packet is sent at `us`. -/
def Sending.streamAt (x : Sending) (us : ℤ) : SentStream :=
  (updateSendStats x.stats x.stream x.payload x.rtpBufSize x.twccSeq x.timestamp x.now us).2

/-- The sender reports behind two packets tell times that are `t₂ - t₁` apart, to `2^-16` s, and
the abs-send-time behind each is its time in 6.18 fixed-point seconds, modulo 64 s. -/
structure SendTimesTold [NoCaseEq] (tr : RtpTransceiver) (s₁ s₂ : SentStream) (t₁ t₂ : ℕ) :
    Prop where
  apart : ∃ x₁ x₂, ntpSeconds s₁.info.report.bytes = .ok x₁ ∧
    ntpSeconds s₂.info.report.bytes = .ok x₂ ∧
      |x₂ - x₁ - (t₂ - t₁ : ℚ) / 1000000| ≤ 1 / 2 ^ 16
  first : ∀ ss, ∃ e, absElement tr (s₁.toSendStream :: ss) = .ok e ∧
    absSendTime e = t₁ * 2 ^ 18 / 1000000 % 2 ^ 24
  second : ∀ ss, ∃ e, absElement tr (s₂.toSendStream :: ss) = .ok e ∧
    absSendTime e = t₂ * 2 ^ 18 / 1000000 % 2 ^ 24

section Two

variable [NoCaseEq] {tr : RtpTransceiver}

/-- The abs-send-time behind a packet that was sent at `t`. -/
theorem absSendTime_iff (hvideo : tr.kind = .video)
    (hid : usableId (extId tr.receiver.headerExtensions RtpTransceiver.absSendTimeUri) = true)
    (x : Sending) (t : ℕ) :
    (∀ ss, ∃ e, absElement tr ((x.streamAt t).toSendStream :: ss) = .ok e ∧
      absSendTime e = t * 2 ^ 18 / 1000000 % 2 ^ 24) ↔ QuartersFit t := by
  have hvalue (ss : List SendStream) := absSendTime_element hvideo hid (x.streamAt t).toSendStream ss
  have hntp : (x.streamAt t).toSendStream.ntpTimestamp = ntpOf t := rfl
  rw [hntp, shift_ntpOf] at hvalue
  constructor
  · intro h
    obtain ⟨e, he, htime⟩ := h []
    obtain ⟨e', he', htime'⟩ := hvalue []
    obtain rfl := Except.ok.inj (he.symm.trans he')
    exact htime'.symm.trans htime
  · intro h ss
    obtain ⟨e, he, htime⟩ := hvalue ss
    exact ⟨e, he, htime.trans h⟩

/-- **When the times are told.**  For every two packets, sent at `t₁ ≤ t₂`, the sender reports and
the abs-send-time tell the times exactly if they lie within 15 µs and in the same stretch of
`2^48` µs, and quarters of a second happen to be as good as `2^-18`ths for each. -/
theorem send_times_iff (hvideo : tr.kind = .video)
    (hid : usableId (extId tr.receiver.headerExtensions RtpTransceiver.absSendTimeUri) = true)
    (x₁ x₂ : Sending) {t₁ t₂ : ℕ} (h : t₁ ≤ t₂) :
    SendTimesTold tr (x₁.streamAt t₁) (x₂.streamAt t₂) t₁ t₂ ↔
      (t₂ - t₁ ≤ 15 ∧ t₁ / 2 ^ 48 = t₂ / 2 ^ 48) ∧ QuartersFit t₁ ∧ QuartersFit t₂ := by
  have hreport (x : Sending) (t : ℕ) := ntpSeconds_report (x.streamAt t).info
  have hapart : (∃ y₁ y₂, ntpSeconds (x₁.streamAt t₁).info.report.bytes = .ok y₁ ∧
      ntpSeconds (x₂.streamAt t₂).info.report.bytes = .ok y₂ ∧
        |y₂ - y₁ - (t₂ - t₁ : ℚ) / 1000000| ≤ 1 / 2 ^ 16) ↔
      t₂ - t₁ ≤ 15 ∧ t₁ / 2 ^ 48 = t₂ / 2 ^ 48 := by
    rw [← apart_iff h, hreport, hreport]
    constructor
    · rintro ⟨y₁, y₂, hy₁, hy₂, hle⟩
      obtain rfl := Except.ok.inj hy₁
      obtain rfl := Except.ok.inj hy₂
      exact hle
    · exact fun hle => ⟨_, _, rfl, rfl, hle⟩
  rw [← hapart, ← absSendTime_iff hvideo hid x₁ t₁, ← absSendTime_iff hvideo hid x₂ t₂]
  exact ⟨fun h => ⟨h.apart, h.first, h.second⟩, fun h => ⟨h.1, h.2.1, h.2.2⟩⟩

end Two

/-- A transceiver for video with the abs-send-time extension. -/
def absTransceiver : RtpTransceiver where
  codec := { name := "VP8".toList }
  receiver := { headerExtensions := [{ id := 3, uri := RtpTransceiver.absSendTimeUri }] }

/-- Two packets in the first microseconds of the clock. -/
theorem send_times_iff_start : @SendTimesTold asciiNoCase absTransceiver
    (({} : Sending).streamAt (0 : ℕ)) (({} : Sending).streamAt (3 : ℕ)) 0 3 :=
  (@send_times_iff asciiNoCase absTransceiver (by decide) (by decide) {} {} 0 3 (by decide)).2
    (by decide)

/-- **Two packets of September 2025, one second apart.** -/
theorem second_not_told : ¬ @SendTimesTold asciiNoCase absTransceiver
    (({} : Sending).streamAt (1757000000000000 : ℕ))
    (({} : Sending).streamAt (1757000001000000 : ℕ)) 1757000000000000 1757000001000000 := by
  rintro ⟨⟨x₁, x₂, hx₁, hx₂, hle⟩, -, -⟩
  rw [ntpSeconds_report] at hx₁ hx₂
  obtain rfl := Except.ok.inj hx₁
  obtain rfl := Except.ok.inj hx₂
  exact absurd ((apart_iff (by decide)).1 hle).1 (by decide)

end AsioRtc
