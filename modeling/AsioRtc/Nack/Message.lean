/-
# The NACK message and the buffer it has to fit

`_nack_loop` and `sync_send_rtcp` of `src/connection_impl.cpp`.  Every 20 ms the loop
takes what `get_nacks` of a stream puts out, makes one message of it, and has it
protected into a buffer of 1200 bytes.  The generator counts a number as asked for when
it puts it out; whether the message leaves is only logged.

A message spends four bytes on each number behind the twelve of its header, and
`get_nacks` puts out all numbers of the window that are due (`getNacks_eq_due`), so the
message is too long from some 290 of them on (`nack_fits_iff`).  A gap of 298 packets
reaches that (`burst_not_sent`): libsrtp refuses, nothing is sent, and the first of the
retries is spent.
-/

import AsioRtc.Nack.Skipped
import AsioRtc.Rtcp.FeedbackReadBack
import AsioRtc.Srtp.Transport

namespace AsioRtc

open Lib

/-- `connection_impl::sync_send_rtcp`: the session after it, and what it writes into
`_send_buf`. -/
def syncSendRtcp {σ : Type} (lib : LibSrtp σ) (transport : Option σ) (data : Bytes) :
    Option σ × Option Bytes :=
  match transport with
  | none => (none, none)
  | some session =>
      let (session, enc) := lib.protectRtcp session data 1200
      (some session, enc.filter fun enc => enc ≠ [])

namespace NackGenerator

/-- A pass of `_nack_loop` over one stream: the generator and the session after it, and what
goes into `_send_buf`. -/
def nackPass {σ : Type} (lib : LibSrtp σ) (transport : Option σ) (senderSsrc mediaSsrc : U32)
    (g : NackGenerator) (now : ℤ) : NackGenerator × Option σ × Option Bytes :=
  let (g, nacks) := g.getNacks now
  if nacks ≠ [] then
    (g, syncSendRtcp lib transport (RtcpMessage.nack senderSsrc mediaSsrc nacks).bytes)
  else (g, transport, none)

/-- What a pass owes the numbers it counts as asked for: the message that carries them fits the
buffer of `sync_send_rtcp`, with the SRTCP trailer. -/
def NackFits (trailer : ℕ) (senderSsrc mediaSsrc : U32) (g : NackGenerator) (now : ℤ) : Prop :=
  (g.getNacks now).2 ≠ [] →
    (RtcpMessage.nack senderSsrc mediaSsrc (g.getNacks now).2).bytes.length + trailer ≤ 1200

/-- Number `s` is due: it has not arrived, has a retry left, and has never been asked for or
not within the backoff time. -/
def Due (g : NackGenerator) (now : ℤ) (s : U16) : Prop :=
  let info := g.buffer (g.getIndex s)
  info.received = false ∧ info.retryCount < g.maxRetries ∧
    (info.nacked = false ∨ g.rttMs + 20 ≤ now - info.lastNackTime)

instance (g : NackGenerator) (now : ℤ) (s : U16) : Decidable (g.Due now s) :=
  inferInstanceAs (Decidable (_ ∧ _ ∧ _))

/-- The numbers strictly inside the window that are due; before the first packet there are none. -/
def due (g : NackGenerator) (now : ℤ) : List U16 :=
  if g.initialized then g.scanned.filter fun s => g.Due now s else []

variable {g : NackGenerator} {h : List (NackGenerator × Call)} {t : U16}

/-- A visit puts out a number that is due. -/
theorem visit_iff_due {now : ℤ} {s : U16} :
    ((g.buffer (g.getIndex s)).visit g.maxRetries now (g.rttMs + 20)).2 = true ↔ g.Due now s := by
  unfold NackInfo.visit Due
  split
  · rename_i hr
    exact iff_of_false (by simp) fun hd => by simp [hr] at hd
  rename_i hr
  split
  · rename_i hmax
    exact iff_of_false (by simp) fun hd => BitVec.not_le.2 hd.2.1 hmax
  rename_i hmax
  have hr' := Bool.not_eq_true _ ▸ hr
  split
  · rename_i hn
    exact iff_of_true rfl ⟨hr', BitVec.not_le.1 hmax, .inl (by simpa using hn)⟩
  rename_i hn
  split
  · rename_i hlate
    exact iff_of_true rfl ⟨hr', BitVec.not_le.1 hmax, .inr hlate⟩
  · rename_i hlate
    exact iff_of_false (by simp) fun hd => hd.2.2.elim (fun hn' => hn (by simp [hn'])) hlate

/-- **`get_nacks` puts out all that is due.** -/
theorem getNacks_eq_due (hg : g.historySize = 1024) (hw : ahead g.lowestSeq g.highestSeq < 1024)
    (now : ℤ) : (g.getNacks now).2 = g.due now := by
  unfold due
  split
  · rename_i hi
    rw [getNacks_snd hg hw hi]
    exact List.filter_congr fun s _ => Bool.eq_iff_iff.2 (visit_iff_due.trans (by simp))
  · rename_i hi
    simp [getNacks, hi]

/-- The length of a message. -/
theorem length_nack (senderSsrc mediaSsrc : U32) (lost : List U16) :
    (RtcpMessage.nack senderSsrc mediaSsrc lost).bytes.length = 12 + 4 * lost.length := by
  simp only [RtcpMessage.bytes, RtcpRtpfb.bytes, List.length_append, length_lostEntries,
    List.length_cons, List.length_nil, length_big16, length_big32]
  omega

/-- **The message fits up to a number of losses.**  For every reachable generator: the message
of a pass fits with a trailer of `trailer` bytes exactly where no number is due, or as few of
them are due as leave room for it.  Where it does not fit, a libsrtp that refuses an output
with no room for packet and trailer lets nothing be sent. -/
theorem nack_fits_iff {σ : Type} (lib : LibSrtp σ) (trailer : ℕ)
    (hroom : ∀ s d cap, cap < d.length + trailer → (lib.protectRtcp s d cap).2 = none)
    (maxRetries : U8) (rttMs nackDelayMs : ℤ) (h : List (NackGenerator × Call))
    (g : NackGenerator) (hr : Run (machine maxRetries rttMs nackDelayMs) (fun _ _ _ => True) h g)
    (senderSsrc mediaSsrc : U32) (now : ℤ) :
    (NackFits trailer senderSsrc mediaSsrc g now ↔
      (g.due now).length = 0 ∨ 12 + 4 * (g.due now).length + trailer ≤ 1200) ∧
    ∀ transport, ¬ NackFits trailer senderSsrc mediaSsrc g now →
      (g.nackPass lib transport senderSsrc mediaSsrc now).2.2 = none := by
  have ht := tracks_of_run hr
  have hdue := getNacks_eq_due ht.size ht.window now
  constructor
  · rw [NackFits, length_nack, hdue, List.length_eq_zero_iff]
    exact imp_iff_not_or.trans (or_congr_left not_not)
  · intro transport hnot
    obtain ⟨hne, hlong⟩ := Classical.not_imp.1 hnot
    simp only [nackPass, hne, ne_eq, not_false_eq_true, if_true, syncSendRtcp]
    cases transport with
    | none => rfl
    | some session =>
      have hnone := hroom session _ 1200 (not_le.1 hlong)
      simp only [hnone]
      rfl

/-- Number 1 is missing in a stream of 0 and 2, and the message for it fits. -/
theorem nack_fits_iff_one :
    let g := (machine 10 100 10).exec (machine 10 100 10).init [.receivePacket 0, .receivePacket 2]
    (g.due 0).length = 1 ∧ NackFits 14 1 2 g 0 := by
  have hfits := (nack_fits_iff maskSrtp 14 (fun s d cap hcap => by
      rw [maskSrtp]
      simp only
      rw [if_neg (by omega)]) 10 100 10 _ _
    ((machine 10 100 10).run_play [.receivePacket 0, .receivePacket 2] .init) 1 2 0).1
  exact ⟨by decide, hfits.2 (.inr (by decide))⟩

/-- **A burst is counted and not sent.**  With 0 and 299 received, 298 numbers are due, and
whatever the trailer is their message does not fit. -/
theorem burst_not_sent : ∃ h g, Run (machine 10 100 10) (fun _ _ _ => True) h g ∧
    ∀ trailer, ¬ NackFits trailer 1 2 g 0 := by
  have hr := (machine 10 100 10).run_play [.receivePacket 0, .receivePacket 299] .init
  refine ⟨_, _, hr, fun trailer hfits => ?_⟩
  have hlen : 298 ≤ (((machine 10 100 10).exec (machine 10 100 10).init
      [.receivePacket 0, .receivePacket 299]).getNacks 0).2.length :=
    le_length_getNacks (g := (machine 10 100 10).exec (machine 10 100 10).init [.receivePacket 0])
      (t := 299) rfl (by decide) (by decide) (by decide) (by decide) 0
  have hfit := hfits (List.ne_nil_of_length_pos (by omega))
  rw [length_nack] at hfit
  omega

end NackGenerator
end AsioRtc
