/-
# Attributes are read back

The lines that `session_description::to_string` writes for a field take the parser from
a state that does not have the field yet to the one that has it (`Written`).  Here are
the lines themselves, trimmed and taken apart, and the fields of a section, one by one.

A codec comes with its parameters and its feedback (`WellFormed.written_codecs`).  So
what a section is read back as is not quite the section (`SdpMedia.reread`): feedback
comes in the order of the codecs, and what belongs to none of them is left out.
-/

import AsioRtc.Sdp.Accepted
import Mathlib.Data.List.Pairwise

namespace AsioRtc

open Lib Text

/-! ### Lines that are written -/

section Lines

variable {v name value line : Text} {ls : List Text}

/-- Printed lines are the lines of the text. -/
theorem lines_unlines (h : ∀ l ∈ ls, '\n' ∉ l) : lines (unlines ls) = ls := by
  have hsplit : (unlines ls).splitOn '\n' = ls.map (· ++ ['\r']) ++ [[]] := by
    induction ls with
    | nil => rfl
    | cons l ls ih =>
      obtain ⟨hl, h⟩ := List.forall_mem_cons.1 h
      have hcons : unlines (l :: ls) = (l ++ ['\r']) ++ '\n' :: unlines ls := by
        simp [unlines]
      rw [hcons, List.splitOn_append_cons_self_of_not_mem (by simp [hl]), ih h]
      rfl
  have hchomp : ∀ l : Text, chomp (l ++ ['\r']) = l := fun l => by simp [chomp]
  have hmap : ((unlines ls).splitOn '\n').map chomp = ls ++ [[]] := by
    rw [hsplit, List.map_append, List.map_map]
    congr 1
    exact (List.map_congr_left fun l _ => hchomp l).trans (List.map_id ls)
  simp only [lines, hmap, List.getLast?_concat, if_true, List.dropLast_concat]

/-- Nothing is trimmed from a line that ends clean, whatever its type. -/
theorem strip_line {t : Char} (ht : isSpace t = false) (hv : EndsClean v) :
    strip (t :: '=' :: v) = t :: '=' :: v := by
  refine strip_eq_self (startsClean_cons.2 ht) ?_
  by_cases hne : v = []
  · rw [hne]
    exact (endsClean_append_cons (s := [t]) (t := [])).2 (endsClean_singleton.2 (by decide))
  · rw [endsClean_cons (by simp), endsClean_cons hne]
    exact hv

/-- An attribute with a value is taken apart at its colon. -/
theorem attrParts_append (hc : ':' ∉ name) : attrParts (name ++ ':' :: value) = (name, value) := by
  rw [attrParts, cutOff_append hc]
  rfl

/-- An attribute without a colon is its name. -/
theorem attrParts_of_not_mem (hc : ':' ∉ name) : attrParts name = (name, []) := by
  rw [attrParts, cutOff_none hc]
  rfl

/-- An attribute with a value, as a line. -/
theorem strip_attrLine (hv : Value value) :
    strip (attrLine name value) = 'a' :: '=' :: (name ++ ':' :: value) := by
  refine strip_line (by decide) (endsClean_append_cons.2 ?_)
  by_cases hne : value = []
  · rw [hne]
    decide
  · exact (endsClean_cons hne).2 hv.ends

end Lines

/-! ### Writing a state -/

variable [NoCaseEq]

/-- Lines that take the parser from one state to another one; `e` is the way the state is in the
parser. -/
def Written {σ : Type} (e : σ → ParseState) (a : σ) (ls : List Text) (b : σ) : Prop :=
  LineRun (e a) ls (e b)

namespace Written

variable {σ α : Type} {e : σ → ParseState} {a b c : σ} {ls ls' : List Text} {line : Text}

/-- Without lines, the state stays as it is. -/
theorem nil (a : σ) : Written e a [] a := LineRun.nil _

/-- Lines one after the other. -/
theorem append (h : Written e a ls b) (h' : Written e b ls' c) : Written e a (ls ++ ls') c :=
  LineRun.append h h'

/-- A line under a condition; without it, nothing changes. -/
theorem lineIf {p : Prop} [Decidable p] (h : p → Written e a [line] b) (h0 : ¬ p → b = a) :
    Written e a (lineIf p line) b := by
  unfold AsioRtc.lineIf
  split
  · exact h ‹_›
  · rw [h0 ‹_›]
    exact .nil a

/-- A line for each element of a list. -/
theorem list {line : α → Text} {f : List α → σ} {xs : List α}
    (h : ∀ ys, ∀ x ∈ xs, Written e (f ys) [line x] (f (ys ++ [x]))) :
    Written e (f []) (xs.map line) (f xs) := by
  have hfrom : ∀ zs ys, (∀ x ∈ zs, x ∈ xs) → Written e (f ys) (zs.map line) (f (ys ++ zs)) := by
    intro zs
    induction zs with
    | nil =>
      intro ys _
      rw [List.append_nil]
      exact .nil _
    | cons z zs ih =>
      intro ys hz
      obtain ⟨hz, hzs⟩ := List.forall_mem_cons.1 hz
      have := (h ys z hz).append (ih (ys ++ [z]) hzs)
      rwa [List.append_assoc] at this
  exact hfrom xs [] fun x hx => hx

/-- A line for a value that is there. -/
theorem option {line : α → Text} {o : Option α} (h : ∀ x, o = some x → Written e a [line x] b)
    (h0 : o = none → b = a) : Written e a (o.toList.map line) b := by
  cases o with
  | none =>
    rw [h0 rfl]
    exact .nil a
  | some x => exact h x rfl

end Written

/-- The state of a section. -/
def inSection (s : SessionDescription) (ms : List SdpMedia) (m : SdpMedia) : ParseState :=
  ⟨{ s with medias := ms ++ [m] }, true⟩

/-- The state of the session part. -/
def inFront (s : SessionDescription) : ParseState := ⟨s, false⟩

section Attributes

variable {s s' : SessionDescription} {ms : List SdpMedia} {b b' : SdpMedia} {name value : Text}

/-- A step of the parser on an attribute of a section is a line of it. -/
theorem MediaAttr.written_line {line v : Text} (hl : strip line = 'a' :: '=' :: v)
    (h : MediaAttr b (attrParts v).2 (attrParts v).1 b') :
    Written (inSection s ms) b [line] b' :=
  LineRun.single (@LineStep.attr _ (inSection s ms b) _ _ _ _ _ hl rfl rfl h)

/-- An attribute of a section with a value. -/
theorem MediaAttr.written (h : MediaAttr b value name b') (hc : ':' ∉ name) (hv : Value value) :
    Written (inSection s ms) b [attrLine name value] b' := by
  refine MediaAttr.written_line (strip_attrLine hv) ?_
  rw [attrParts_append hc]
  exact h

/-- An attribute of a section without a value. -/
theorem MediaAttr.written_flag (h : MediaAttr b [] name b') (hc : ':' ∉ name)
    (he : EndsClean name) : Written (inSection s ms) b [flagLine name] b' := by
  refine MediaAttr.written_line (strip_line (by decide) he) ?_
  rw [attrParts_of_not_mem hc]
  exact h

/-- A step of the parser on a line of the session part is a line of it. -/
theorem SessionLine.written {t : Char} (ht : isSpace t = false) (hm : t ≠ 'm') (hv : Value value)
    (h : SessionLine s value t s') : Written inFront s [t :: '=' :: value] s' :=
  LineRun.single (@LineStep.session _ (inFront s) _ _ _ _ (strip_line ht hv.ends) hm rfl h)

/-- A step of the parser on an attribute of the session part is a line of it. -/
theorem SessionAttr.written_line {line v : Text} (hl : strip line = 'a' :: '=' :: v)
    (h : SessionAttr s (attrParts v).2 (attrParts v).1 s') : Written inFront s [line] s' :=
  LineRun.single (@LineStep.session _ (inFront s) _ _ _ _ hl (by decide) rfl (.attr h))

/-- An attribute of the session part with a value. -/
theorem SessionAttr.written (h : SessionAttr s value name s') (hc : ':' ∉ name)
    (hv : Value value) : Written inFront s [attrLine name value] s' := by
  refine SessionAttr.written_line (strip_attrLine hv) ?_
  rw [attrParts_append hc]
  exact h

/-- An attribute of the session part without a value. -/
theorem SessionAttr.written_flag (h : SessionAttr s [] name s') (hc : ':' ∉ name)
    (he : EndsClean name) : Written inFront s [flagLine name] s' := by
  refine SessionAttr.written_line (strip_line (by decide) he) ?_
  rw [attrParts_of_not_mem hc]
  exact h

end Attributes

/-! ### The fields of a section

One after the other, each one on a section that does not have it yet. -/

section Fields

variable {s : SessionDescription} {ms : List SdpMedia} {b : SdpMedia} {name : Text}

/-- An attribute for each element of a list. -/
theorem written_list {α : Type} {text : α → Text} {f : List α → SdpMedia} {xs : List α}
    (h0 : f [] = b) (hc : ':' ∉ name)
    (h : ∀ ys, ∀ x ∈ xs, Value (text x) ∧ MediaAttr (f ys) (text x) name (f (ys ++ [x]))) :
    Written (inSection s ms) b (xs.map fun x => attrLine name (text x)) (f xs) :=
  h0 ▸ .list fun ys x hx => (h ys x hx).2.written hc (h ys x hx).1

/-- An attribute for a value that is there. -/
theorem written_option {α : Type} {text : α → Text} {f : Option α → SdpMedia} {o : Option α}
    (h0 : f none = b) (hc : ':' ∉ name)
    (h : ∀ x ∈ o, Value (text x) ∧ MediaAttr b (text x) name (f (some x))) :
    Written (inSection s ms) b (o.toList.map fun x => attrLine name (text x)) (f o) := by
  cases o with
  | none => exact h0 ▸ .nil _
  | some x => exact (h x rfl).2.written hc (h x rfl).1

/-- A trimmed text. -/
theorem written_text {f : Text → SdpMedia} {v : Text} (h0 : f [] = b) (hc : ':' ∉ name)
    (hv : Trimmed v)
    (h : strip v ≠ [] → MediaAttr b v name (f (strip v))) :
    Written (inSection s ms) b (lineIf (v ≠ []) (attrLine name v)) (f v) := by
  rw [hv.strip_eq] at h
  refine .lineIf (fun hne => (h hne).written hc hv.toValue) fun hnil => ?_
  rw [← h0, not_not.1 hnil]

/-- A flag. -/
theorem written_flag {f : Bool → SdpMedia} {p : Bool} (h0 : f false = b) (hc : ':' ∉ name)
    (he : EndsClean name) (h : MediaAttr b [] name (f true)) :
    Written (inSection s ms) b (lineIf (p = true) (flagLine name)) (f p) := by
  cases p with
  | false => exact h0 ▸ .nil _
  | true => exact h.written_flag hc he

/-- The mid. -/
theorem written_mid {v : Text} (h0 : b.mid = []) (hv : Trimmed v) :
    Written (inSection s ms) b (lineIf (v ≠ []) (attrLine "mid".toList v)) { b with mid := v } :=
  written_text (f := fun v => { b with mid := v }) (by rw [← h0]) (by decide) hv .mid

/-- The name of the ICE user. -/
theorem written_iceUfrag {v : Text} (h0 : b.iceUfrag = []) (hv : Trimmed v) :
    Written (inSection s ms) b (lineIf (v ≠ []) (attrLine "ice-ufrag".toList v))
      { b with iceUfrag := v } :=
  written_text (f := fun v => { b with iceUfrag := v }) (by rw [← h0]) (by decide) hv
    .iceUfrag

/-- The password of ICE. -/
theorem written_icePwd {v : Text} (h0 : b.icePwd = []) (hv : Trimmed v) :
    Written (inSection s ms) b (lineIf (v ≠ []) (attrLine "ice-pwd".toList v))
      { b with icePwd := v } :=
  written_text (f := fun v => { b with icePwd := v }) (by rw [← h0]) (by decide) hv
    .icePwd

/-- The options of ICE, which stand on one line. -/
theorem written_iceOptions {ws : List Text} (h0 : b.iceOptions = []) (hw : OptionWords ws) :
    Written (inSection s ms) b (lineIf (ws ≠ []) (iceOptionsLine ws))
      { b with iceOptions := ws } := by
  refine .lineIf (fun hne => ?_) fun hnil => by rw [not_not.1 hnil, ← h0]
  obtain ⟨w, ws, rfl⟩ := List.exists_cons_of_ne_nil hne
  have heq := intercalate_cons_eq (c := ' ') w ws
  have hv : Trimmed ([' '].intercalate (w :: ws)) := by
    rw [heq]
    exact ⟨hw.words.value_append_spaced,
      (hw.starts w rfl).append (hw.words.word w (List.mem_cons_self ..)).1⟩
  have hread : words (strip ([' '].intercalate (w :: ws))) = w :: ws := by
    rw [hv.strip_eq, heq]
    exact hw.words.words_append_spaced
  have h : MediaAttr b ([' '].intercalate (w :: ws)) "ice-options".toList _ :=
    .iceOptions fun h => by rw [h] at hread; cases hread
  rw [hread, h0, List.nil_append] at h
  exact h.written (by decide) hv.toValue

/-- The candidates, each of them as its own line has it. -/
theorem written_candidates {cs : List Text} (h0 : b.candidates = [])
    (h : ∀ c ∈ cs, CandidateText c) :
    Written (inSection s ms) b (cs.map flagLine) { b with candidates := cs } := by
  have h0 : { b with candidates := [] } = b := by rw [← h0]
  refine h0 ▸ .list (f := fun cs => { b with candidates := cs }) fun ys c hc => ?_
  obtain ⟨v, rfl, hv⟩ := h c hc
  exact MediaAttr.candidate.written (by decide) hv

/-- The streams and their tracks. -/
theorem written_msids {xs : List SdpMsid} (h0 : b.msids = []) (h : ∀ a ∈ xs, a.WellFormed) :
    Written (inSection s ms) b (xs.map fun a => attrLine "msid".toList a.text)
      { b with msids := xs } :=
  written_list (f := fun xs => { b with msids := xs }) (by rw [← h0]) (by decide)
    fun _ a ha => ⟨(h a ha).value_text, .msid (h a ha).parse_text⟩

/-- The fingerprints of the certificate. -/
theorem written_fingerprints {xs : List SdpFingerprint} (h0 : b.fingerprints = [])
    (h : ∀ a ∈ xs, a.WellFormed) :
    Written (inSection s ms) b (xs.map fun a => attrLine "fingerprint".toList a.text)
      { b with fingerprints := xs } :=
  written_list (f := fun xs => { b with fingerprints := xs }) (by rw [← h0]) (by decide)
    fun _ a ha => ⟨(h a ha).value_text, .fingerprint (h a ha).parse_text⟩

/-- The port of the feedback. -/
theorem written_rtcp {o : Option SdpRtcp} (h0 : b.rtcp = none) (h : ∀ a ∈ o, a.WellFormed) :
    Written (inSection s ms) b (o.toList.map fun a => attrLine "rtcp".toList a.text)
      { b with rtcp := o } :=
  written_option (f := fun o => { b with rtcp := o }) (by rw [← h0]) (by decide)
    fun a ha => ⟨(h a ha).value_text, .rtcp (h a ha).parse_text⟩

/-- The flag for one-byte and two-byte extensions in one stream. -/
theorem written_extmapAllowMixed {p : Bool} (h0 : b.extmapAllowMixed = false) :
    Written (inSection s ms) b (lineIf (p = true) (flagLine "extmap-allow-mixed".toList))
      { b with extmapAllowMixed := p } :=
  written_flag (f := fun p => { b with extmapAllowMixed := p }) (by rw [← h0]) (by decide)
    (by decide) .extmapAllowMixed

/-- The flag for RTP and RTCP on one port. -/
theorem written_rtcpMux {p : Bool} (h0 : b.rtcpMux = false) :
    Written (inSection s ms) b (lineIf (p = true) (flagLine "rtcp-mux".toList))
      { b with rtcpMux := p } :=
  written_flag (f := fun p => { b with rtcpMux := p }) (by rw [← h0]) (by decide)
    (by decide) .rtcpMux

/-- The flag for nothing but one port. -/
theorem written_rtcpMuxOnly {p : Bool} (h0 : b.rtcpMuxOnly = false) :
    Written (inSection s ms) b (lineIf (p = true) (flagLine "rtcp-mux-only".toList))
      { b with rtcpMuxOnly := p } :=
  written_flag (f := fun p => { b with rtcpMuxOnly := p }) (by rw [← h0]) (by decide)
    (by decide) .rtcpMuxOnly

/-- The flag for RTCP of reduced size. -/
theorem written_rtcpRsize {p : Bool} (h0 : b.rtcpRsize = false) :
    Written (inSection s ms) b (lineIf (p = true) (flagLine "rtcp-rsize".toList))
      { b with rtcpRsize := p } :=
  written_flag (f := fun p => { b with rtcpRsize := p }) (by rw [← h0]) (by decide)
    (by decide) .rtcpRsize

/-- The flag that no candidate is to come. -/
theorem written_endOfCandidates {p : Bool} (h0 : b.endOfCandidates = false) :
    Written (inSection s ms) b (lineIf (p = true) (flagLine "end-of-candidates".toList))
      { b with endOfCandidates := p } :=
  written_flag (f := fun p => { b with endOfCandidates := p }) (by rw [← h0]) (by decide)
    (by decide) .endOfCandidates

/-- The sources; only a clean one is read back. -/
theorem written_ssrcs {xs : List SdpSsrc} (h0 : b.ssrcs = [])
    (h : ∀ a ∈ xs, a.WellFormed ∧ a.Clean) :
    Written (inSection s ms) b (xs.map fun a => attrLine "ssrc".toList a.text)
      { b with ssrcs := xs } :=
  written_list (f := fun xs => { b with ssrcs := xs }) (by rw [← h0]) (by decide)
    fun _ a ha => ⟨(h a ha).1.value_text (h a ha).2, .ssrc (h a ha).1.parse_text⟩

/-- The groups of sources. -/
theorem written_ssrcGroups {xs : List SdpSsrcGroup} (h0 : b.ssrcGroups = [])
    (h : ∀ a ∈ xs, a.WellFormed) :
    Written (inSection s ms) b (xs.map fun a => attrLine "ssrc-group".toList a.text)
      { b with ssrcGroups := xs } :=
  written_list (f := fun xs => { b with ssrcGroups := xs }) (by rw [← h0]) (by decide)
    fun _ a ha => ⟨(h a ha).value_text, .ssrcGroup (h a ha).parse_text⟩

/-- The keys of SRTP. -/
theorem written_cryptos {xs : List SdpCrypto} (h0 : b.cryptos = [])
    (h : ∀ a ∈ xs, a.WellFormed) :
    Written (inSection s ms) b (xs.map fun a => attrLine "crypto".toList a.text)
      { b with cryptos := xs } :=
  written_list (f := fun xs => { b with cryptos := xs }) (by rw [← h0]) (by decide)
    fun _ a ha => ⟨(h a ha).value_text, .crypto (h a ha).parse_text⟩

/-- The port of SCTP. -/
theorem written_sctpPort {o : Option U16} (h0 : b.sctpPort = none) :
    Written (inSection s ms) b
      (o.toList.map fun port => attrLine "sctp-port".toList (toText port.toNat))
      { b with sctpPort := o } :=
  written_option (f := fun o => { b with sctpPort := o }) (by rw [← h0]) (by decide)
    fun port _ => ⟨(token_toText _).trimmed.toValue, .sctpPort (parseUint_toText port)⟩

/-- The size of the largest message. -/
theorem written_maxMessageSize {o : Option U32} (h0 : b.maxMessageSize = none) :
    Written (inSection s ms) b
      (o.toList.map fun size => attrLine "max-message-size".toList (toText size.toNat))
      { b with maxMessageSize := o } :=
  written_option (f := fun o => { b with maxMessageSize := o }) (by rw [← h0]) (by decide)
    fun size _ => ⟨(token_toText _).trimmed.toValue, .maxMessageSize (parseUint_toText size)⟩

/-- The layers; the line is there where one of the two lists is. -/
theorem written_simulcast {a : SdpSimulcast} (h0 : b.simulcast = {}) (h : a.WellFormed) :
    Written (inSection s ms) b
      (lineIf (a.sendLayers ≠ [] ∨ a.recvLayers ≠ []) (attrLine "simulcast".toList a.text))
      { b with simulcast := a } := by
  refine .lineIf (fun hne => ?_) fun hnil => ?_
  · exact (MediaAttr.simulcast (h.parse_text hne)).written (by decide)
      (h.value_text hne)
  · obtain ⟨hs, hr⟩ := not_or.1 hnil
    have ha : a = {} := congrArg₂ SdpSimulcast.mk (not_not.1 hs) (not_not.1 hr)
    rw [ha, ← h0]

/-- The restrictions of the layers. -/
theorem written_rids {xs : List SdpRid} (h0 : b.rids = []) (h : ∀ a ∈ xs, a.WellFormed) :
    Written (inSection s ms) b (xs.map fun a => attrLine "rid".toList a.text)
      { b with rids := xs } :=
  written_list (f := fun xs => { b with rids := xs }) (by rw [← h0]) (by decide)
    fun _ a ha => ⟨(h a ha).value_text, .rid (h a ha).parse_text⟩

/-- The attributes that the parser does not know, with a value or without one. -/
theorem written_attributes {xs : List (Text × Text)} (h0 : b.attributes = [])
    (h : ∀ a ∈ xs, OtherAttr mediaAttrNames a) (hc : ∀ a ∈ xs, a.2 = [] → EndsClean a.1) :
    Written (inSection s ms) b (xs.map attributeLine) { b with attributes := xs } := by
  have h0 : { b with attributes := [] } = b := by rw [← h0]
  refine h0 ▸ .list (f := fun xs => { b with attributes := xs }) fun ys a ha => ?_
  obtain ⟨name, value⟩ := a
  have hattr := h _ ha
  by_cases hv : value = []
  · subst hv
    rw [attributeLine, optPart, if_pos rfl, List.append_nil]
    exact (MediaAttr.other hattr.unknown hattr.direction).written_flag hattr.colon
      (hc _ ha rfl)
  · rw [attributeLine, optPart_of_ne _ hv]
    exact (MediaAttr.other hattr.unknown hattr.direction).written hattr.colon hattr.value

variable [LawfulNoCaseEq]

/-- The DTLS role. -/
theorem written_setup {o : Option SdpSetupRole} (h0 : b.setup = none) :
    Written (inSection s ms) b (o.toList.map fun role => attrLine "setup".toList role.toString)
      { b with setup := o } :=
  written_option (f := fun o => { b with setup := o }) (by rw [← h0]) (by decide)
    fun role _ => ⟨role.token.trimmed.toValue, .setup (parseSetupRole_toString role)⟩

/-- The header extensions. -/
theorem written_extmaps {xs : List SdpExtmap} (h0 : b.extmaps = []) (h : ∀ a ∈ xs, a.WellFormed) :
    Written (inSection s ms) b (xs.map fun a => attrLine "extmap".toList a.text)
      { b with extmaps := xs } :=
  written_list (f := fun xs => { b with extmaps := xs }) (by rw [← h0]) (by decide)
    fun _ a ha => ⟨(h a ha).value_text, .extmap (h a ha).parse_text⟩

/-- The direction, whose word is the name of the attribute. -/
theorem written_direction (d : SdpDirection) :
    Written (inSection s ms) b [flagLine d.toString] { b with direction := d } := by
  refine (MediaAttr.direction ?_ (parseSdpDirection_toString d)).written_flag ?_
    d.token.trimmed.ends
  · cases d <;> decide
  · cases d <;> decide

end Fields

/-! ### Codecs -/

section Codecs

variable {s : SessionDescription} {ms : List SdpMedia} {b m : SdpMedia}

omit [NoCaseEq] in
/-- Feedback is the same where its type and its subtype are. -/
theorem sameFeedback_iff {f g : SdpRtcpFb} :
    SdpMedia.sameFeedback f g = true ↔ f.type = g.type ∧ f.subtype = g.subtype := by
  simp [SdpMedia.sameFeedback]

/-- Which of the two comes first does not matter to being apart. -/
instance : Std.Symm Apart where
  symm f g h hsame := by
    obtain ⟨htype, hsubtype⟩ := sameFeedback_iff.1 hsame
    obtain ⟨hf, hg, hne⟩ := h (sameFeedback_iff.2 ⟨htype.symm, hsubtype.symm⟩)
    exact ⟨hg, hf, hne.symm⟩

omit [NoCaseEq] in
/-- Feedback that is apart from what is there goes behind it. -/
theorem addFeedback_eq {fb : SdpRtcpFb} (hne : fb.type ≠ []) (h : ∀ f ∈ b.rtcpFbs, Apart f fb) :
    b.addFeedback fb = { b with rtcpFbs := b.rtcpFbs ++ [fb] } := by
  rw [SdpMedia.addFeedback, if_neg hne]
  split
  · rename_i pt hpt
    refine if_neg fun hany => ?_
    obtain ⟨f, hf, hsame⟩ := List.any_eq_true.1 hany
    obtain ⟨hsame, hall⟩ := Bool.and_eq_true_iff.1 hsame
    obtain ⟨hf0, -, hne⟩ := h f hf hsame
    obtain ⟨p, hp⟩ := Option.ne_none_iff_exists'.1 hf0
    rw [hp] at hall hne
    rw [hpt] at hne
    exact hne (congrArg some (by simpa using hall))
  · rename_i hpt
    have hkeep : b.rtcpFbs.filter (fun f => !SdpMedia.sameFeedback f fb) = b.rtcpFbs := by
      refine List.filter_eq_self.2 fun f hf => ?_
      by_contra hsame
      exact (h f hf (by simpa using hsame)).2.1 hpt
    rw [hkeep]

/-- Feedback that is apart is written line by line; each line goes behind what is there. -/
theorem written_feedback {fbs : List SdpRtcpFb} (hp : (b.rtcpFbs ++ fbs).Pairwise Apart)
    (h : ∀ fb ∈ fbs, fb.WellFormed) :
    Written (inSection s ms) b (fbs.map fun fb => attrLine "rtcp-fb".toList fb.text)
      { b with rtcpFbs := b.rtcpFbs ++ fbs } := by
  induction fbs generalizing b with
  | nil =>
    rw [List.append_nil]
    exact .nil b
  | cons fb fbs ih =>
    obtain ⟨hfb, hfbs⟩ := List.forall_mem_cons.1 h
    have hadd := addFeedback_eq hfb.type_ne fun f hf =>
      (List.pairwise_append.1 hp).2.2 f hf fb (List.mem_cons_self ..)
    have hline : Written (inSection s ms) b [attrLine "rtcp-fb".toList fb.text] (b.addFeedback fb) :=
      (MediaAttr.rtcpFb hfb.parse_text).written (by decide) hfb.value_text
    rw [hadd] at hline
    rw [List.append_cons] at hp ⊢
    exact hline.append (ih (b := { b with rtcpFbs := b.rtcpFbs ++ [fb] }) hp hfbs)

namespace SdpMedia

/-- The feedback that is written with a codec. -/
def feedbackFor (m : SdpMedia) (pt : U8) : List SdpRtcpFb :=
  m.rtcpFbs.filter fun fb => fb.payloadType = some pt

/-- The feedback that is written for all codecs. -/
def feedbackForAll (m : SdpMedia) : List SdpRtcpFb :=
  m.rtcpFbs.filter fun fb => fb.payloadType = none

/-- The feedback that is written with some codecs. -/
def feedbackOf (m : SdpMedia) (codecs : List SdpRtpmap) : List SdpRtcpFb :=
  codecs.flatMap fun c => m.feedbackFor c.payloadType

omit [NoCaseEq] in
/-- The feedback that is written with a codec. -/
theorem mem_feedbackFor {pt : U8} {fb : SdpRtcpFb} :
    fb ∈ m.feedbackFor pt ↔ fb ∈ m.rtcpFbs ∧ fb.payloadType = some pt := by simp [feedbackFor]

omit [NoCaseEq] in
/-- The feedback that is written for all codecs. -/
theorem mem_feedbackForAll {fb : SdpRtcpFb} :
    fb ∈ m.feedbackForAll ↔ fb ∈ m.rtcpFbs ∧ fb.payloadType = none := by simp [feedbackForAll]

/-- **What a section is read back as**: its feedback comes in the order of the codecs, and what
belongs to none of them is not there any more. -/
def reread (m : SdpMedia) : SdpMedia :=
  { m with rtcpFbs := m.feedbackOf m.rtpmaps ++ m.feedbackForAll }

/-- A section behind its first line. -/
def opened (m : SdpMedia) : SdpMedia :=
  { mediaType := m.mediaType, port := m.port, proto := m.proto
    formats :=
      if m.mediaType = .application ∧ m.formatTexts ≠ [] then .strings m.formatTexts else .none }

/-- A section in front of its transport. -/
def described (m : SdpMedia) : SdpMedia :=
  { m.opened with direction := m.direction, mid := m.mid, msids := m.msids }

/-- A section in front of its extensions. -/
def connected (m : SdpMedia) : SdpMedia :=
  { m.described with
    iceUfrag := m.iceUfrag, icePwd := m.icePwd, iceOptions := m.iceOptions
    candidates := m.candidates, fingerprints := m.fingerprints, setup := m.setup
    extmapAllowMixed := m.extmapAllowMixed, rtcpMux := m.rtcpMux, rtcpMuxOnly := m.rtcpMuxOnly
    rtcpRsize := m.rtcpRsize, rtcp := m.rtcp }

/-- A section behind some of its codecs. -/
def coded (m : SdpMedia) (codecs : List SdpRtpmap) : SdpMedia :=
  { m.connected with
    extmaps := m.extmaps, rtpmaps := codecs
    formats :=
      if codecs = [] then m.opened.formats
      else .payloadTypes (codecs.map SdpRtpmap.payloadType)
    rtcpFbs := m.feedbackOf codecs }

variable {codecs pre : List SdpRtpmap} {c : SdpRtpmap}

omit [NoCaseEq] in
/-- The payload types of a section behind some of its codecs are theirs. -/
theorem coded_payloadTypes (m : SdpMedia) (codecs : List SdpRtpmap) :
    (m.coded codecs).payloadTypes = codecs.map SdpRtpmap.payloadType := by
  unfold payloadTypes
  by_cases hnil : codecs = []
  · have hformats : (m.coded codecs).formats = m.opened.formats := if_pos hnil
    rw [hformats, hnil, opened]
    by_cases h : m.mediaType = .application ∧ m.formatTexts ≠ []
    · rw [if_pos h]
      rfl
    · rw [if_neg h]
      rfl
  · rw [show (m.coded codecs).formats = _ from if_neg hnil]

/-- Feedback keeps apart in the order of the codecs. -/
theorem WellFormed.feedbackOf_apart (hm : m.WellFormed)
    (h : (codecs.map SdpRtpmap.payloadType).Nodup) : (m.feedbackOf codecs).Pairwise Apart := by
  refine List.pairwise_flatMap.2 ⟨fun c _ => hm.feedback.filter _, ?_⟩
  refine (List.pairwise_map.1 h).imp fun hne f hf g hg _ => ?_
  rw [(mem_feedbackFor.1 hf).2, (mem_feedbackFor.1 hg).2]
  exact ⟨by simp, by simp, fun h => hne (Option.some.inj h)⟩

/-- The feedback for all codecs is apart from it. -/
theorem WellFormed.reread_apart (hm : m.WellFormed) : m.reread.rtcpFbs.Pairwise Apart := by
  refine List.pairwise_append.2 ⟨hm.feedbackOf_apart hm.payloads, hm.feedback.filter _,
    fun f hf g hg => ?_⟩
  obtain ⟨c, -, hf⟩ := List.mem_flatMap.1 hf
  obtain ⟨hf, hpt⟩ := mem_feedbackFor.1 hf
  obtain ⟨hg, hnone⟩ := mem_feedbackForAll.1 hg
  exact hm.feedback.forall hf hg fun heq => by rw [← heq, hpt] at hnone; cases hnone

omit [NoCaseEq] in
/-- A new codec goes behind those that are there, and its payload type with it. -/
theorem coded_addRtpmap (h : ((codecs ++ [c]).map SdpRtpmap.payloadType).Nodup) :
    (m.coded codecs).addRtpmap { c with params := [] } =
      { m.coded codecs with
        rtpmaps := codecs ++ [{ c with params := [] }]
        formats := .payloadTypes ((codecs ++ [c]).map SdpRtpmap.payloadType) } := by
  have hnew : (m.coded codecs).findRtpmap c.payloadType = none := by
    rw [List.map_append, List.nodup_append] at h
    refine List.find?_eq_none.2 fun d hd => ?_
    simpa using h.2.2 _ (List.mem_map_of_mem hd) _ (by simp)
  have hfind : ¬ ((m.coded codecs).findRtpmap c.payloadType).isSome = true := by simp [hnew]
  rw [addRtpmap, if_neg hfind, coded_payloadTypes, List.map_append]
  rfl

omit [NoCaseEq] in
/-- Where payload types are not given twice, a codec is found under its own. -/
theorem findRtpmap_of_mem (h : (m.rtpmaps.map SdpRtpmap.payloadType).Nodup) (hc : c ∈ m.rtpmaps) :
    m.findRtpmap c.payloadType = some c := by
  obtain ⟨pre, post, hsplit⟩ := List.append_of_mem hc
  rw [hsplit, List.map_append, List.nodup_append] at h
  have hpre : ∀ d ∈ pre, d.payloadType ≠ c.payloadType := fun d hd =>
    h.2.2 _ (List.mem_map_of_mem hd) _ (by simp)
  rw [findRtpmap, hsplit, List.find?_append, List.find?_eq_none.2 (by simpa using hpre)]
  simp

/-- The parameters of the codec that is added last. -/
theorem written_fmtp {params : Text} (h : b.rtpmaps = codecs ++ [{ c with params := [] }])
    (hnew : ∀ d ∈ codecs, d.payloadType ≠ c.payloadType) (hp : Trimmed params) :
    Written (inSection s ms) b
      (lineIf (params ≠ [])
        (attrLine "fmtp".toList (toText c.payloadType.toNat ++ ' ' :: params)))
      { b with rtpmaps := codecs ++ [{ c with params := params }] } := by
  have hset : b.setParams c.payloadType params =
      { b with rtpmaps := codecs ++ [{ c with params := params }] } :=
    setParams_eq (c := { c with params := [] }) params h hnew
  rw [← hset]
  refine .lineIf (fun hne => ?_) fun hnil => ?_
  · have hblank : ' ' ∉ toText c.payloadType.toNat := not_mem_toText (by decide) _
    have hfind : (b.findRtpmap c.payloadType).isSome = true := by
      rw [findRtpmap, h, List.find?_append, List.find?_eq_none.2 (by simpa using hnew)]
      simp
    have hattr := MediaAttr.fmtp (cutOff_append (b := params) hblank)
      (parseUint_toText c.payloadType) hfind
    rw [hp.strip_eq] at hattr
    exact hattr.written (by decide)
      (.append_cons (not_mem_toText (by decide) _) (by decide) hp.toValue hne)
  · rw [hset, not_not.1 hnil, ← h]

/-- **A codec**, with its parameters and its feedback. -/
theorem WellFormed.written_codec (hm : m.WellFormed) (hc : c ∈ m.rtpmaps)
    (hp : ((codecs ++ [c]).map SdpRtpmap.payloadType).Nodup) :
    Written (inSection s ms) (m.coded codecs) (m.codecLines c.payloadType)
      (m.coded (codecs ++ [c])) := by
  have hcodec := hm.rtpmaps c hc
  have hnew : ∀ d ∈ codecs, d.payloadType ≠ c.payloadType := by
    rw [List.map_append, List.nodup_append] at hp
    exact fun d hd => hp.2.2 _ (List.mem_map_of_mem hd) _ (by simp)
  have hadd := coded_addRtpmap (m := m) hp
  have happ : m.feedbackOf (codecs ++ [c]) = m.feedbackOf codecs ++ m.feedbackFor c.payloadType := by
    simp [feedbackOf]
  have hap := hm.feedbackOf_apart hp
  rw [happ] at hap
  rw [codecLines, findRtpmap_of_mem hm.payloads hc]
  have hrtpmap : Written (inSection s ms) (m.coded codecs) [attrLine "rtpmap".toList c.text]
      ((m.coded codecs).addRtpmap { c with params := [] }) :=
    (MediaAttr.rtpmap hcodec.parse_text).written (by decide) hcodec.value_text
  have hfmtp := hrtpmap.append
    (written_fmtp (congrArg SdpMedia.rtpmaps hadd) hnew hcodec.params)
  have hfeedback : Written (inSection s ms)
      { m.coded (codecs ++ [c]) with rtcpFbs := m.feedbackOf codecs }
      ((m.feedbackFor c.payloadType).map fun fb => attrLine "rtcp-fb".toList fb.text)
      { m.coded (codecs ++ [c]) with
        rtcpFbs := m.feedbackOf codecs ++ m.feedbackFor c.payloadType } :=
    written_feedback hap fun fb hfb => hm.rtcpFbs fb (mem_feedbackFor.1 hfb).1
  have hcoded : { m.coded (codecs ++ [c]) with
      rtcpFbs := m.feedbackOf codecs ++ m.feedbackFor c.payloadType } = m.coded (codecs ++ [c]) := by
    rw [← happ]
    rfl
  rw [hadd] at hfmtp
  rw [hcoded] at hfeedback
  refine .append (b := { m.coded (codecs ++ [c]) with rtcpFbs := m.feedbackOf codecs }) ?_ hfeedback
  convert hfmtp using 1
  simp [coded]

/-- **The codecs.** -/
theorem WellFormed.written_codecs (hm : m.WellFormed) :
    Written (inSection s ms) (m.coded []) (m.payloadTypes.flatMap m.codecLines)
      (m.coded m.rtpmaps) := by
  have hfrom : ∀ cs codecs, m.rtpmaps = codecs ++ cs →
      Written (inSection s ms) (m.coded codecs) (cs.flatMap fun c => m.codecLines c.payloadType)
        (m.coded (codecs ++ cs)) := by
    intro cs
    induction cs with
    | nil =>
      intro codecs _
      rw [List.append_nil]
      exact .nil _
    | cons c cs ih =>
      intro codecs hsplit
      have hp := hm.payloads
      rw [hsplit, List.append_cons, List.map_append] at hp
      rw [List.append_cons] at hsplit ⊢
      exact (hm.written_codec (by simp [hsplit]) (List.nodup_append.1 hp).1).append (ih _ hsplit)
  rw [hm.formats.payloadTypes_eq, List.flatMap_map]
  exact hfrom m.rtpmaps [] rfl

end SdpMedia

end Codecs

end AsioRtc
