/-
# The SRTP transport, receiving side

`src/srtp_transport.hpp` and `src/srtp_transport.cpp`.  `datagram_received` sorts
what arrives on the shared socket: a datagram whose second byte is one of the
packet types 200 to 204 is unprotected as SRTCP, anything else of version 2 as
SRTP, if its SSRC is known or accepted as new.  libsrtp is a parameter (`LibSrtp`),
and what a call does outside the object is the list of its `SrtpEvent`s.

The types 200 to 204 are those of reports, SDES, BYE and APP.  Feedback messages
have 205 and 206, so a NACK, a PLI or a transport-cc feedback that arrives as its
own datagram is taken for SRTP: `srtcp_path_iff_report` says so for every message
this side sends.
-/

import Mathlib.Data.Finset.Card
import AsioRtc.Rtcp.Messages
import AsioRtc.Rtp.Packet

namespace AsioRtc

open Lib

/-- The four libsrtp calls on a session: the session after it, and the bytes written to an
output of `cap` bytes, or `none` where it fails. -/
structure LibSrtp (σ : Type) where
  protectRtp : σ → Bytes → ℕ → σ × Option Bytes
  unprotectRtp : σ → Bytes → ℕ → σ × Option Bytes
  protectRtcp : σ → Bytes → ℕ → σ × Option Bytes
  unprotectRtcp : σ → Bytes → ℕ → σ × Option Bytes

/-- `srtp_transport_base`: the receiving session, the SSRCs in use, and the callbacks. -/
structure SrtpTransport (σ : Type) where
  recvSession : Option σ := none
  activeSsrcs : Finset U32 := ∅
  onNewSsrc : Option (U32 → Bytes → Bool) := none
  onRtpRtcpPacket : Bool := false

/-- `MAX_ACTIVE_SSRCS`. -/
def maxActiveSsrcs : ℕ := 32

/-- What `datagram_received` calls. -/
inductive SrtpEvent where
  | unprotectRtp (data : Bytes)
  | unprotectRtcp (data : Bytes)
  | newSsrc (ssrc : U32) (data : Bytes)
  | packet (data : Bytes)
  deriving DecidableEq, Repr

/-- The transport after `datagram_received`, its result, and what it called. -/
structure Received (σ : Type) where
  transport : SrtpTransport σ
  handled : Bool
  events : List SrtpEvent := []

namespace SrtpTransport

variable {σ : Type}

/-- `srtp_transport_base::is_rtcp_packet`. -/
def isRtcpPacket (packet : Bytes) : Checked Bool :=
  if packet.length < 8 then pure false
  else do
    let payloadType ← byteAt packet 1
    pure (200 ≤ payloadType.toNat && payloadType.toNat ≤ 204)

/-- The callback for a decrypted packet, if there is one. -/
def deliver (t : SrtpTransport σ) (data : Bytes) : List SrtpEvent :=
  if t.onRtpRtcpPacket then [.packet data] else []

/-- The SRTCP path of `datagram_received`. -/
def rtcpReceived (lib : LibSrtp σ) (t : SrtpTransport σ) (session : σ) (data : Bytes) :
    Received σ :=
  match lib.unprotectRtcp session data data.length with
  | (s, none) => ⟨{ t with recvSession := some s }, true, [.unprotectRtcp data]⟩
  | (s, some result) =>
      ⟨{ t with recvSession := some s }, true, .unprotectRtcp data :: t.deliver result⟩

/-- The SRTP path of `datagram_received`.  A new SSRC stays in use only where its first packet
is unprotected. -/
def rtpReceived (lib : LibSrtp σ) (t : SrtpTransport σ) (session : σ) (ssrc : U32)
    (data : Bytes) : Received σ :=
  let active := decide (ssrc ∈ t.activeSsrcs)
  if !active && decide (maxActiveSsrcs ≤ t.activeSsrcs.card) then ⟨t, false, []⟩
  else
    let asked := if !active && t.onNewSsrc.isSome then [SrtpEvent.newSsrc ssrc data] else []
    if !active && !t.onNewSsrc.any (fun accept => accept ssrc data) then ⟨t, false, asked⟩
    else
      match lib.unprotectRtp session data data.length with
      | (s, none) => ⟨{ t with recvSession := some s }, true, asked ++ [.unprotectRtp data]⟩
      | (s, some result) =>
          ⟨{ t with recvSession := some s, activeSsrcs := insert ssrc t.activeSsrcs }, true,
            asked ++ .unprotectRtp data :: t.deliver result⟩

/-- `srtp_transport_base::datagram_received`. -/
def datagramReceived (lib : LibSrtp σ) (t : SrtpTransport σ) (buffer : Bytes) :
    Checked (Received σ) :=
  if buffer.length < 8 then pure ⟨t, false, []⟩
  else do
    let firstByte ← byteAt buffer 0
    if firstByte.toNat < 128 ∨ 191 < firstByte.toNat then pure ⟨t, false, []⟩
    else
      match t.recvSession with
      | none => pure ⟨t, true, []⟩
      | some session => do
          if ← isRtcpPacket buffer then pure (t.rtcpReceived lib session buffer)
          else if buffer.length < 12 then pure ⟨t, false, []⟩
          else if firstByte &&& 0xC0 ≠ 0x80 then pure ⟨t, false, []⟩
          else do
            let ssrc ← RtpPacket.getSsrc buffer
            pure (t.rtpReceived lib session ssrc buffer)

/-- The datagram is unprotected as SRTCP, and nothing is unprotected as SRTP. -/
def TakesSrtcpPath (lib : LibSrtp σ) (t : SrtpTransport σ) (data : Bytes) : Prop :=
  ∃ r, t.datagramReceived lib data = .ok r ∧ .unprotectRtcp data ∈ r.events ∧
    ∀ d, .unprotectRtp d ∉ r.events

variable {lib : LibSrtp σ} {t : SrtpTransport σ} {data : Bytes}

/-- The SRTP path calls no SRTCP. -/
theorem not_unprotectRtcp_rtpReceived (session : σ) (ssrc : U32) (d : Bytes) :
    .unprotectRtcp d ∉ (t.rtpReceived lib session ssrc data).events := by
  simp only [rtpReceived]
  split
  · simp
  · have hasked : .unprotectRtcp d ∉ (if !decide (ssrc ∈ t.activeSsrcs) && t.onNewSsrc.isSome then
        [SrtpEvent.newSsrc ssrc data] else []) := by
      split <;> simp
    split
    · exact hasked
    · have hdel : ∀ x, .unprotectRtcp d ∉ t.deliver x := fun x => by
        unfold deliver
        split <;> simp
      split
      · simp
      · simp [hdel]

/-- The SRTCP path calls no SRTP. -/
theorem rtcpReceived_events (session : σ) :
    .unprotectRtcp data ∈ (t.rtcpReceived lib session data).events ∧
      ∀ d, .unprotectRtp d ∉ (t.rtcpReceived lib session data).events := by
  have hdel : ∀ d x, .unprotectRtp d ∉ t.deliver x := fun d x => by
    unfold deliver
    split <;> simp
  simp only [rtcpReceived]
  split <;> simp [hdel]

/-- **How a datagram is sorted.**  One of version 2 and at least eight bytes is taken as SRTCP
exactly where its second byte is 200 to 204. -/
theorem takesSrtcpPath_iff {session : σ} (hs : t.recvSession = some session) {a b : U8}
    {rest : Bytes} (hlen : 6 ≤ rest.length) (h128 : 128 ≤ a.toNat) (h191 : a.toNat ≤ 191) :
    t.TakesSrtcpPath lib (a :: b :: rest) ↔ 200 ≤ b.toNat ∧ b.toNat ≤ 204 := by
  have hshort : ¬ (a :: b :: rest).length < 8 := by simp; omega
  have hrange : ¬ (a.toNat < 128 ∨ 191 < a.toNat) := by omega
  have hrtcp : isRtcpPacket (a :: b :: rest) =
      .ok (200 ≤ b.toNat && b.toNat ≤ 204) := by
    rw [isRtcpPacket, if_neg hshort]
    rfl
  have hrecv : t.datagramReceived lib (a :: b :: rest) =
      if 200 ≤ b.toNat && b.toNat ≤ 204 then
        .ok (t.rtcpReceived lib session (a :: b :: rest))
      else if (a :: b :: rest).length < 12 then .ok ⟨t, false, []⟩
      else if a &&& 0xC0 ≠ 0x80 then .ok ⟨t, false, []⟩
      else RtpPacket.getSsrc (a :: b :: rest) >>= fun ssrc =>
        .ok (t.rtpReceived lib session ssrc (a :: b :: rest)) := by
    rw [datagramReceived, if_neg hshort]
    simp only [byteAt, List.getElem?_cons_zero, bind, Except.bind, if_neg hrange, hs, hrtcp]
    rfl
  constructor
  · rintro ⟨r, hr, hin, -⟩
    rw [hrecv] at hr
    split at hr
    · rename_i hb
      simpa using hb
    · exfalso
      split at hr
      · obtain rfl := Except.ok.inj hr
        exact absurd hin (by simp)
      · split at hr
        · obtain rfl := Except.ok.inj hr
          exact absurd hin (by simp)
        · obtain ⟨ssrc, -, hr⟩ := Checked.bind_eq_ok.1 hr
          obtain rfl := Except.ok.inj hr
          exact not_unprotectRtcp_rtpReceived session ssrc _ hin
  · rintro ⟨hlo, hhi⟩
    have hevents : .unprotectRtcp (a :: b :: rest) ∈
          (t.rtcpReceived lib session (a :: b :: rest)).events ∧
        ∀ d, .unprotectRtp d ∉ (t.rtcpReceived lib session (a :: b :: rest)).events :=
      rtcpReceived_events session
    obtain ⟨hin, hout⟩ := hevents
    exact ⟨_, hrecv.trans (if_pos (by simp [hlo, hhi])), hin, hout⟩

end SrtpTransport

open SrtpTransport in
/-- **Which messages reach the peer's SRTCP.**  Where libsrtp leaves the first eight bytes of a
protected RTCP packet in clear, a peer with a receiving session takes the SRTCP path for the
report compounds, and for no other message this side sends. -/
theorem srtcp_path_iff_report {σ : Type} (lib : LibSrtp σ)
    (hclear : ∀ s d cap s' out, lib.protectRtcp s d cap = (s', some out) → out.take 8 = d.take 8)
    (sender : σ) (cap : ℕ) (sender' : σ) (m : RtcpMessage) (out : Bytes)
    (hsent : lib.protectRtcp sender m.bytes cap = (sender', some out))
    (t : SrtpTransport σ) (session : σ) (hs : t.recvSession = some session) :
    t.TakesSrtcpPath lib out ↔ m.isReport = true := by
  obtain ⟨b₀, rest, hm, hlen, h128, h191⟩ := m.head
  have h8 := hclear _ _ _ _ _ hsent
  obtain ⟨rest', hout, hlen'⟩ : ∃ rest', out = b₀ :: m.firstType :: rest' ∧ 6 ≤ rest'.length := by
    have hl := congrArg List.length h8
    rw [hm] at h8 hl
    match out with
    | [] => simp at h8
    | [a] => simp at h8
    | a :: b :: rest' =>
      simp only [List.take_succ_cons, List.cons.injEq] at h8
      simp only [List.length_take, List.length_cons] at hl
      exact ⟨rest', by rw [h8.1, h8.2.1], by omega⟩
  rw [hout, takesSrtcpPath_iff hs hlen' h128 h191, m.isReport_iff]

/-- A session that masks all but the first eight bytes, and adds a trailer of 14. -/
def maskSrtp : LibSrtp Unit where
  protectRtp _ _ _ := ((), none)
  unprotectRtp _ _ _ := ((), none)
  protectRtcp _ d cap :=
    if 8 ≤ d.length ∧ d.length + 14 ≤ cap then
      ((), some (d.take 8 ++ ((d.drop 8).map (· ^^^ 0x5A) ++ List.replicate 14 0)))
    else ((), none)
  unprotectRtcp _ d _ :=
    if 22 ≤ d.length then
      ((), some (d.take 8 ++ ((d.take (d.length - 14)).drop 8).map (· ^^^ 0x5A)))
    else ((), none)

theorem maskSrtp_clear (s : Unit) (d : Bytes) (cap : ℕ) (s' : Unit) (out : Bytes)
    (h : maskSrtp.protectRtcp s d cap = (s', some out)) : out.take 8 = d.take 8 := by
  simp only [maskSrtp] at h
  split at h
  · rename_i hd
    obtain rfl := Option.some.inj (Prod.mk.inj h).2
    rw [List.take_append_of_le_length (by rw [List.length_take]; omega), List.take_take]
    rfl
  · exact absurd (Prod.mk.inj h).2 (by simp)

/-- A sender report and its SDES chunk. -/
theorem srtcp_path_iff_report_sr :
    ∃ out, (maskSrtp.protectRtcp () (RtcpMessage.senderReports [{ ssrc := 7 }]).bytes 1200).2 =
        some out ∧
      (SrtpTransport.TakesSrtcpPath maskSrtp { recvSession := some () } out ↔
        (RtcpMessage.senderReports [{ ssrc := 7 }]).isReport = true) :=
  ⟨_, rfl, srtcp_path_iff_report maskSrtp maskSrtp_clear () 1200 () _ _ rfl
    { recvSession := some () } () rfl⟩

/-- **A NACK is not taken for SRTCP.**  It asks for packet 7 of stream 2. -/
theorem nack_not_srtcp :
    ∃ out, (maskSrtp.protectRtcp () (RtcpMessage.nack 1 2 [7]).bytes 1200).2 = some out ∧
      ¬ SrtpTransport.TakesSrtcpPath maskSrtp { recvSession := some () } out := by
  refine ⟨_, rfl, fun h => ?_⟩
  have htype := (SrtpTransport.takesSrtcpPath_iff (a := 0x81) (b := PacketType.RTPFB) rfl
    (by decide) (by decide) (by decide)).1 h
  exact absurd htype (by decide)

end AsioRtc
