/-
# What a line can do

The parser of `Sdp.Parse` as a relation, one constructor for each branch of
`apply_media_attr`, `apply_session_attr` and the `switch` of `do_parse`: `MediaAttr`,
`SessionAttr` and `SessionLine` say which attribute or line takes which state to which
one, and `applyMediaAttr_iff` and its siblings that the functions accept with just
that.  An invariant of the parser is a case analysis over them.

`parseLine_iff` puts them together for a line of the text (`LineStep`), and `LineRun` is a
run over several lines.
-/

import AsioRtc.Sdp.Parse
import AsioRtc.Sdp.Simulcast

namespace AsioRtc

open Lib Text

/-- The names that `apply_media_attr` knows. -/
def mediaAttrNames : List Text :=
  ["rtpmap", "fmtp", "rtcp-fb", "extmap", "ssrc", "ssrc-group", "rtcp", "mid", "msid",
    "ice-ufrag", "ice-pwd", "ice-options", "candidate", "end-of-candidates", "fingerprint",
    "setup", "crypto", "rtcp-mux", "rtcp-mux-only", "rtcp-rsize", "extmap-allow-mixed",
    "sctp-port", "max-message-size", "simulcast", "rid"].map String.toList

/-- The names that `apply_session_attr` knows. -/
def sessionAttrNames : List Text :=
  ["group", "ice-ufrag", "ice-pwd", "ice-options", "ice-lite", "candidate", "fingerprint",
    "setup", "extmap-allow-mixed", "msid-semantic"].map String.toList

variable [NoCaseEq]

/-- An attribute of a section. -/
inductive MediaAttr (m : SdpMedia) (value : Text) : Text → SdpMedia → Prop
  | rtpmap {c : SdpRtpmap} (h : parseRtpmap value = .ok (some c)) :
      MediaAttr m value "rtpmap".toList (m.addRtpmap c)
  | fmtp {ptText params : Text} {pt : U8} (hcut : cutOff value ' ' = some (ptText, params))
      (hpt : parseUint 8 ptText = some pt) (h : (m.findRtpmap pt).isSome = true) :
      MediaAttr m value "fmtp".toList (m.setParams pt (strip params))
  | rtcpFb {fb : SdpRtcpFb} (h : parseRtcpfb value = .ok (some fb)) :
      MediaAttr m value "rtcp-fb".toList (m.addFeedback fb)
  | extmap {e : SdpExtmap} (h : parseExtmap value = .ok (some e)) :
      MediaAttr m value "extmap".toList { m with extmaps := m.extmaps ++ [e] }
  | ssrc {s : SdpSsrc} (h : parseSsrc value = .ok (some s)) :
      MediaAttr m value "ssrc".toList { m with ssrcs := m.ssrcs ++ [s] }
  | ssrcGroup {g : SdpSsrcGroup} (h : parseSsrcGroup value = .ok (some g)) :
      MediaAttr m value "ssrc-group".toList { m with ssrcGroups := m.ssrcGroups ++ [g] }
  | rtcp {r : SdpRtcp} (h : parseRtcp value = some r) :
      MediaAttr m value "rtcp".toList { m with rtcp := some r }
  | mid (h : strip value ≠ []) : MediaAttr m value "mid".toList { m with mid := strip value }
  | msid {a : SdpMsid} (h : parseMsid value = .ok a) :
      MediaAttr m value "msid".toList { m with msids := m.msids ++ [a] }
  | iceUfrag (h : strip value ≠ []) :
      MediaAttr m value "ice-ufrag".toList { m with iceUfrag := strip value }
  | icePwd (h : strip value ≠ []) :
      MediaAttr m value "ice-pwd".toList { m with icePwd := strip value }
  | iceOptions (h : strip value ≠ []) :
      MediaAttr m value "ice-options".toList
        { m with iceOptions := m.iceOptions ++ words (strip value) }
  | candidate : MediaAttr m value "candidate".toList
      { m with candidates := m.candidates ++ ["candidate:".toList ++ value] }
  | endOfCandidates :
      MediaAttr m value "end-of-candidates".toList { m with endOfCandidates := true }
  | fingerprint {fp : SdpFingerprint} (h : parseFingerprint value = .ok (some fp)) :
      MediaAttr m value "fingerprint".toList { m with fingerprints := m.fingerprints ++ [fp] }
  | setup {role : SdpSetupRole} (h : parseSetupRole value = some role) :
      MediaAttr m value "setup".toList { m with setup := some role }
  | crypto {c : SdpCrypto} (h : parseCrypto value = some c) :
      MediaAttr m value "crypto".toList { m with cryptos := m.cryptos ++ [c] }
  | rtcpMux : MediaAttr m value "rtcp-mux".toList { m with rtcpMux := true }
  | rtcpMuxOnly : MediaAttr m value "rtcp-mux-only".toList { m with rtcpMuxOnly := true }
  | rtcpRsize : MediaAttr m value "rtcp-rsize".toList { m with rtcpRsize := true }
  | extmapAllowMixed :
      MediaAttr m value "extmap-allow-mixed".toList { m with extmapAllowMixed := true }
  | sctpPort {port : U16} (h : parseUint 16 value = some port) :
      MediaAttr m value "sctp-port".toList { m with sctpPort := some port }
  | maxMessageSize {size : U32} (h : parseUint 32 value = some size) :
      MediaAttr m value "max-message-size".toList { m with maxMessageSize := some size }
  | simulcast {s : SdpSimulcast} (h : parseSimulcast value = .ok s) :
      MediaAttr m value "simulcast".toList { m with simulcast := s }
  | rid {r : SdpRid} (h : parseRid value = .ok (some r)) :
      MediaAttr m value "rid".toList { m with rids := m.rids ++ [r] }
  | direction {name : Text} {d : SdpDirection} (hn : name ∉ mediaAttrNames)
      (h : parseSdpDirection name = some d) : MediaAttr m value name { m with direction := d }
  | other {name : Text} (hn : name ∉ mediaAttrNames) (h : parseSdpDirection name = none) :
      MediaAttr m value name { m with attributes := m.attributes ++ [(name, value)] }

/-- An attribute of the session part. -/
inductive SessionAttr (s : SessionDescription) (value : Text) : Text → SessionDescription → Prop
  | group {g : SdpGroup} (h : parseGroup value = .ok (some g)) :
      SessionAttr s value "group".toList { s with groups := s.groups ++ [g] }
  | iceUfrag : SessionAttr s value "ice-ufrag".toList { s with iceUfrag := strip value }
  | icePwd : SessionAttr s value "ice-pwd".toList { s with icePwd := strip value }
  | iceOptions : SessionAttr s value "ice-options".toList
      { s with iceOptions := s.iceOptions ++ words value }
  | iceLite : SessionAttr s value "ice-lite".toList { s with iceLite := true }
  | candidate : SessionAttr s value "candidate".toList
      { s with candidates := s.candidates ++ ["candidate:".toList ++ value] }
  | fingerprint {fp : SdpFingerprint} (h : parseFingerprint value = .ok (some fp)) :
      SessionAttr s value "fingerprint".toList { s with fingerprints := s.fingerprints ++ [fp] }
  | setup {role : SdpSetupRole} (h : parseSetupRole value = some role) :
      SessionAttr s value "setup".toList { s with setup := some role }
  | extmapAllowMixed :
      SessionAttr s value "extmap-allow-mixed".toList { s with extmapAllowMixed := true }
  | msidSemantic {ms : SdpMsidSemantic} (h : parseMsidSemantic value = .ok ms) :
      SessionAttr s value "msid-semantic".toList { s with msidSemantic := ms }
  | direction {name : Text} {d : SdpDirection} (hn : name ∉ sessionAttrNames)
      (h : parseSdpDirection name = some d) : SessionAttr s value name { s with direction := some d }
  | other {name : Text} (hn : name ∉ sessionAttrNames) (h : parseSdpDirection name = none) :
      SessionAttr s value name { s with attributes := s.attributes ++ [(name, value)] }

/-- A line of the session part, by its type. -/
inductive SessionLine (s : SessionDescription) (v : Text) : Char → SessionDescription → Prop
  | version : SessionLine s v 'v' { s with version := (parseUint 8 v).getD s.version }
  | origin : SessionLine s v 'o' { s with origin := parseOrigin v }
  | sessionName : SessionLine s v 's' { s with sessionName := v }
  | uri : SessionLine s v 'u' { s with uri := v }
  | email : SessionLine s v 'e' { s with email := v }
  | phoneNumber : SessionLine s v 'p' { s with phoneNumber := v }
  | bandwidth {b : SdpBandwidth} (h : parseBandwidth v = .ok (some b)) :
      SessionLine s v 'b' { s with bandwidths := s.bandwidths ++ [b] }
  | attr {s' : SessionDescription} (h : SessionAttr s (attrParts v).2 (attrParts v).1 s') :
      SessionLine s v 'a' s'
  | other {t : Char} (ht : t ∉ "vosuepba".toList) : SessionLine s v t s

section Functions

variable {m m' : SdpMedia} {s s' : SessionDescription} {name value : Text}

omit [NoCaseEq] in
theorem ok_map_iff {α β : Type} {x : Checked (Option α)} {f : α → β} {b : β} :
    (x >>= fun r => pure (r.map f)) = .ok (some b) ↔ ∃ a, x = .ok (some a) ∧ f a = b := by
  constructor
  · intro h
    obtain ⟨r, hr, h⟩ := Checked.bind_eq_ok.1 h
    obtain ⟨a, rfl, ha⟩ := Option.map_eq_some_iff.1 (Except.ok.inj h)
    exact ⟨a, hr, ha⟩
  · rintro ⟨a, rfl, rfl⟩
    rfl

omit [NoCaseEq] in
theorem pure_map_iff {α β : Type} {o : Option α} {f : α → β} {b : β} :
    (pure (o.map f) : Checked (Option β)) = .ok (some b) ↔ ∃ a, o = some a ∧ f a = b := by
  constructor
  · exact fun h => Option.map_eq_some_iff.1 (Except.ok.inj h)
  · rintro ⟨a, rfl, rfl⟩
    rfl

omit [NoCaseEq] in
theorem trim_ok_iff {β : Type} {f : Text → β} {b : β} :
    (trim value >>= fun t => pure (if t ≠ [] then some (f t) else none)) = .ok (some b) ↔
      strip value ≠ [] ∧ f (strip value) = b := by
  rw [trim_eq, Checked.ok_bind]
  split
  · rename_i h
    exact ⟨fun h' => ⟨h, Option.some.inj (Except.ok.inj h')⟩, fun h' => h'.2 ▸ rfl⟩
  · rename_i h
    exact ⟨fun h' => absurd (Except.ok.inj h') (by simp), fun h' => absurd h'.1 h⟩

theorem MediaAttr.apply (h : MediaAttr m value name m') :
    applyMediaAttr m name value = .ok (some m') := by
  cases h with
  | rtpmap h => exact ok_map_iff.2 ⟨_, h, rfl⟩
  | @fmtp ptText params pt hcut hpt h =>
    have hf : applyFmtp m value = .ok (some (m.setParams pt (strip params))) := by
      rw [applyFmtp, cut_eq, hcut]
      simp only [Checked.ok_bind, hpt, h, if_pos, trim_eq]
      rfl
    exact hf
  | rtcpFb h => exact ok_map_iff.2 ⟨_, h, rfl⟩
  | extmap h => exact ok_map_iff.2 ⟨_, h, rfl⟩
  | ssrc h => exact ok_map_iff.2 ⟨_, h, rfl⟩
  | ssrcGroup h => exact ok_map_iff.2 ⟨_, h, rfl⟩
  | rtcp h => exact pure_map_iff.2 ⟨_, h, rfl⟩
  | mid h => exact trim_ok_iff.2 ⟨h, rfl⟩
  | msid h => exact Checked.bind_eq_ok.2 ⟨_, h, rfl⟩
  | iceUfrag h => exact trim_ok_iff.2 ⟨h, rfl⟩
  | icePwd h => exact trim_ok_iff.2 ⟨h, rfl⟩
  | iceOptions h =>
    have happly : applyMediaAttr m "ice-options".toList value = (trim value >>= fun opts =>
        if opts = [] then pure none
        else splitWhitespace opts >>= fun parts =>
          pure (some { m with iceOptions := m.iceOptions ++ parts })) := rfl
    rw [happly, trim_eq, Checked.ok_bind, if_neg h, splitWhitespace_eq]
    rfl
  | candidate => rfl
  | endOfCandidates => rfl
  | fingerprint h => exact ok_map_iff.2 ⟨_, h, rfl⟩
  | setup h => exact pure_map_iff.2 ⟨_, h, rfl⟩
  | crypto h => exact pure_map_iff.2 ⟨_, h, rfl⟩
  | rtcpMux => rfl
  | rtcpMuxOnly => rfl
  | rtcpRsize => rfl
  | extmapAllowMixed => rfl
  | sctpPort h => exact pure_map_iff.2 ⟨_, h, rfl⟩
  | maxMessageSize h => exact pure_map_iff.2 ⟨_, h, rfl⟩
  | simulcast h => exact Checked.bind_eq_ok.2 ⟨_, h, rfl⟩
  | rid h => exact ok_map_iff.2 ⟨_, h, rfl⟩
  | direction hn h =>
    simp only [mediaAttrNames, List.map_cons, List.map_nil, List.mem_cons, List.not_mem_nil,
      not_or, not_false_eq_true, and_true] at hn
    simp only [applyMediaAttr, hn, if_false, h]
    rfl
  | other hn h =>
    simp only [mediaAttrNames, List.map_cons, List.map_nil, List.mem_cons, List.not_mem_nil,
      not_or, not_false_eq_true, and_true] at hn
    simp only [applyMediaAttr, hn, if_false, h]
    rfl

/-- The `fmtp` branch. -/
theorem applyFmtp_ok (h : applyFmtp m value = .ok (some m')) :
    MediaAttr m value "fmtp".toList m' := by
  rw [applyFmtp, cut_eq, Checked.ok_bind] at h
  split at h
  · cases h
  rename_i ptText params hcut
  simp only [trim_eq, Checked.ok_bind] at h
  split at h
  · cases h
  rename_i pt hpt
  split at h
  · rename_i hfind
    obtain rfl := Option.some.inj (Except.ok.inj h)
    exact .fmtp hcut hpt hfind
  · cases h

/-- **What `apply_media_attr` accepts.** -/
theorem applyMediaAttr_iff :
    applyMediaAttr m name value = .ok (some m') ↔ MediaAttr m value name m' := by
  refine ⟨fun h => ?_, MediaAttr.apply⟩
  by_cases hn : name ∈ mediaAttrNames
  · simp only [mediaAttrNames, List.map_cons, List.map_nil, List.mem_cons, List.not_mem_nil,
      or_false] at hn
    rcases hn with rfl | rfl | rfl | rfl | rfl | rfl | rfl | rfl | rfl | rfl | rfl | rfl | rfl |
      rfl | rfl | rfl | rfl | rfl | rfl | rfl | rfl | rfl | rfl | rfl | rfl
    · obtain ⟨_, ha, rfl⟩ := ok_map_iff.1 h
      exact .rtpmap ha
    · exact applyFmtp_ok h
    · obtain ⟨_, ha, rfl⟩ := ok_map_iff.1 h
      exact .rtcpFb ha
    · obtain ⟨_, ha, rfl⟩ := ok_map_iff.1 h
      exact .extmap ha
    · obtain ⟨_, ha, rfl⟩ := ok_map_iff.1 h
      exact .ssrc ha
    · obtain ⟨_, ha, rfl⟩ := ok_map_iff.1 h
      exact .ssrcGroup ha
    · obtain ⟨_, ha, rfl⟩ := pure_map_iff.1 h
      exact .rtcp ha
    · obtain ⟨ha, rfl⟩ := trim_ok_iff.1 h
      exact .mid ha
    · obtain ⟨_, ha, h⟩ := Checked.bind_eq_ok.1 h
      obtain rfl := Option.some.inj (Except.ok.inj h)
      exact .msid ha
    · obtain ⟨ha, rfl⟩ := trim_ok_iff.1 h
      exact .iceUfrag ha
    · obtain ⟨ha, rfl⟩ := trim_ok_iff.1 h
      exact .icePwd ha
    · obtain ⟨opts, ht, h⟩ := Checked.bind_eq_ok.1 h
      obtain rfl := Except.ok.inj ((trim_eq value).symm.trans ht)
      split at h
      · cases h
      · rename_i hne
        rw [splitWhitespace_eq] at h
        obtain rfl := Option.some.inj (Except.ok.inj h)
        exact .iceOptions hne
    · obtain rfl := Option.some.inj (Except.ok.inj h)
      exact .candidate
    · obtain rfl := Option.some.inj (Except.ok.inj h)
      exact .endOfCandidates
    · obtain ⟨_, ha, rfl⟩ := ok_map_iff.1 h
      exact .fingerprint ha
    · obtain ⟨_, ha, rfl⟩ := pure_map_iff.1 h
      exact .setup ha
    · obtain ⟨_, ha, rfl⟩ := pure_map_iff.1 h
      exact .crypto ha
    · obtain rfl := Option.some.inj (Except.ok.inj h)
      exact .rtcpMux
    · obtain rfl := Option.some.inj (Except.ok.inj h)
      exact .rtcpMuxOnly
    · obtain rfl := Option.some.inj (Except.ok.inj h)
      exact .rtcpRsize
    · obtain rfl := Option.some.inj (Except.ok.inj h)
      exact .extmapAllowMixed
    · obtain ⟨_, ha, rfl⟩ := pure_map_iff.1 h
      exact .sctpPort ha
    · obtain ⟨_, ha, rfl⟩ := pure_map_iff.1 h
      exact .maxMessageSize ha
    · obtain ⟨_, ha, h⟩ := Checked.bind_eq_ok.1 h
      obtain rfl := Option.some.inj (Except.ok.inj h)
      exact .simulcast ha
    · obtain ⟨_, ha, rfl⟩ := ok_map_iff.1 h
      exact .rid ha
  · cases hd : parseSdpDirection name with
    | none =>
      obtain rfl := Option.some.inj (Except.ok.inj ((MediaAttr.other hn hd).apply.symm.trans h))
      exact .other hn hd
    | some d =>
      obtain rfl := Option.some.inj (Except.ok.inj ((MediaAttr.direction hn hd).apply.symm.trans h))
      exact .direction hn hd

theorem SessionAttr.apply (h : SessionAttr s value name s') :
    applySessionAttr s name value = .ok (some s') := by
  have trimmed {f : Text → SessionDescription} :
      (trim value >>= fun t => pure (some (f t))) = .ok (some (f (strip value))) := by
    rw [trim_eq]
    rfl
  cases h with
  | group h => exact ok_map_iff.2 ⟨_, h, rfl⟩
  | iceUfrag => exact trimmed
  | icePwd => exact trimmed
  | iceOptions => exact Checked.bind_eq_ok.2 ⟨_, splitWhitespace_eq value, rfl⟩
  | iceLite => rfl
  | candidate => rfl
  | fingerprint h => exact ok_map_iff.2 ⟨_, h, rfl⟩
  | setup h => exact pure_map_iff.2 ⟨_, h, rfl⟩
  | extmapAllowMixed => rfl
  | msidSemantic h => exact Checked.bind_eq_ok.2 ⟨_, h, rfl⟩
  | direction hn h =>
    simp only [sessionAttrNames, List.map_cons, List.map_nil, List.mem_cons, List.not_mem_nil,
      not_or, not_false_eq_true, and_true] at hn
    simp only [applySessionAttr, hn, if_false, h]
    rfl
  | other hn h =>
    simp only [sessionAttrNames, List.map_cons, List.map_nil, List.mem_cons, List.not_mem_nil,
      not_or, not_false_eq_true, and_true] at hn
    simp only [applySessionAttr, hn, if_false, h]
    rfl

/-- **What `apply_session_attr` accepts.** -/
theorem applySessionAttr_iff :
    applySessionAttr s name value = .ok (some s') ↔ SessionAttr s value name s' := by
  refine ⟨fun h => ?_, SessionAttr.apply⟩
  by_cases hn : name ∈ sessionAttrNames
  · simp only [sessionAttrNames, List.map_cons, List.map_nil, List.mem_cons, List.not_mem_nil,
      or_false] at hn
    rcases hn with rfl | rfl | rfl | rfl | rfl | rfl | rfl | rfl | rfl | rfl
    · obtain ⟨_, ha, rfl⟩ := ok_map_iff.1 h
      exact .group ha
    · obtain ⟨_, ha, h⟩ := Checked.bind_eq_ok.1 h
      obtain rfl := Except.ok.inj ((trim_eq value).symm.trans ha)
      obtain rfl := Option.some.inj (Except.ok.inj h)
      exact .iceUfrag
    · obtain ⟨_, ha, h⟩ := Checked.bind_eq_ok.1 h
      obtain rfl := Except.ok.inj ((trim_eq value).symm.trans ha)
      obtain rfl := Option.some.inj (Except.ok.inj h)
      exact .icePwd
    · obtain ⟨_, ha, h⟩ := Checked.bind_eq_ok.1 h
      obtain rfl := Except.ok.inj ((splitWhitespace_eq value).symm.trans ha)
      obtain rfl := Option.some.inj (Except.ok.inj h)
      exact .iceOptions
    · obtain rfl := Option.some.inj (Except.ok.inj h)
      exact .iceLite
    · obtain rfl := Option.some.inj (Except.ok.inj h)
      exact .candidate
    · obtain ⟨_, ha, rfl⟩ := ok_map_iff.1 h
      exact .fingerprint ha
    · obtain ⟨_, ha, rfl⟩ := pure_map_iff.1 h
      exact .setup ha
    · obtain rfl := Option.some.inj (Except.ok.inj h)
      exact .extmapAllowMixed
    · obtain ⟨_, ha, h⟩ := Checked.bind_eq_ok.1 h
      obtain rfl := Option.some.inj (Except.ok.inj h)
      exact .msidSemantic ha
  · cases hd : parseSdpDirection name with
    | none =>
      obtain rfl := Option.some.inj (Except.ok.inj ((SessionAttr.other hn hd).apply.symm.trans h))
      exact .other hn hd
    | some d =>
      obtain rfl := Option.some.inj
        (Except.ok.inj ((SessionAttr.direction hn hd).apply.symm.trans h))
      exact .direction hn hd

theorem parseInSession_other {t : Char} {v : Text} (ht : t ∉ "vosuepba".toList) :
    parseInSession s t v = .ok (some s) := by
  have hne : t ≠ 'v' ∧ t ≠ 'o' ∧ t ≠ 's' ∧ t ≠ 'u' ∧ t ≠ 'e' ∧ t ≠ 'p' ∧ t ≠ 'b' ∧ t ≠ 'a' := by
    simpa using ht
  simp only [parseInSession, hne, if_false]
  rfl

/-- **What a line of the session part does.** -/
theorem parseInSession_iff {t : Char} {v : Text} :
    parseInSession s t v = .ok (some s') ↔ SessionLine s v t s' := by
  constructor
  · intro h
    by_cases ht : t ∈ "vosuepba".toList
    · have ht : t = 'v' ∨ t = 'o' ∨ t = 's' ∨ t = 'u' ∨ t = 'e' ∨ t = 'p' ∨ t = 'b' ∨ t = 'a' := by
        simpa using ht
      rcases ht with rfl | rfl | rfl | rfl | rfl | rfl | rfl | rfl
      · obtain rfl := Option.some.inj (Except.ok.inj h)
        exact .version
      · obtain rfl := Option.some.inj (Except.ok.inj h)
        exact .origin
      · obtain rfl := Option.some.inj (Except.ok.inj h)
        exact .sessionName
      · obtain rfl := Option.some.inj (Except.ok.inj h)
        exact .uri
      · obtain rfl := Option.some.inj (Except.ok.inj h)
        exact .email
      · obtain rfl := Option.some.inj (Except.ok.inj h)
        exact .phoneNumber
      · obtain ⟨_, ha, rfl⟩ := ok_map_iff.1 h
        exact .bandwidth ha
      · have happly : parseInSession s 'a' v =
            splitAttr v >>= fun p => applySessionAttr s p.1 p.2 := rfl
        rw [happly, splitAttr_eq] at h
        exact .attr (applySessionAttr_iff.1 h)
    · obtain rfl := Option.some.inj (Except.ok.inj ((parseInSession_other ht).symm.trans h))
      exact .other ht
  · intro h
    cases h with
    | version => rfl
    | origin => rfl
    | sessionName => rfl
    | uri => rfl
    | email => rfl
    | phoneNumber => rfl
    | bandwidth h => exact ok_map_iff.2 ⟨_, h, rfl⟩
    | attr h =>
      have happly : parseInSession s 'a' v =
          splitAttr v >>= fun p => applySessionAttr s p.1 p.2 := rfl
      rw [happly, splitAttr_eq]
      exact h.apply
    | other ht => exact parseInSession_other ht

end Functions

/-! ### Lines -/

/-- A line of the text. -/
inductive LineStep (st : ParseState) (line : Text) : ParseState → Prop
  | blank (h : strip line = []) : LineStep st line st
  | media {v : Text} {m : SdpMedia} (hl : strip line = 'm' :: '=' :: v)
      (hcheck : ∀ last ∈ st.session.medias.getLast?, checkMsid last = true)
      (h : parseMediaLine v = .ok (some m)) :
      LineStep st line ⟨{ st.session with medias := st.session.medias ++ [m] }, true⟩
  | attr {v : Text} {ms : List SdpMedia} {m m' : SdpMedia} (hl : strip line = 'a' :: '=' :: v)
      (hin : st.inMedia = true) (hm : st.session.medias = ms ++ [m])
      (h : MediaAttr m (attrParts v).2 (attrParts v).1 m') :
      LineStep st line { st with session.medias := ms ++ [m'] }
  | ignored {t : Char} {v : Text} (hl : strip line = t :: '=' :: v) (ht : t ≠ 'm') (ha : t ≠ 'a')
      (hin : st.inMedia = true) (hm : st.session.medias ≠ []) : LineStep st line st
  | session {t : Char} {v : Text} {s' : SessionDescription} (hl : strip line = t :: '=' :: v)
      (ht : t ≠ 'm') (hin : st.inMedia = false) (h : SessionLine st.session v t s') :
      LineStep st line { st with session := s' }

variable {st st' st'' : ParseState} {line : Text} {ls ls' : List Text}

/-- A line is trimmed and taken apart. -/
theorem parseLine_eq {t : Char} {v : Text} (hl : strip line = t :: '=' :: v) :
    parseLine st line =
      if t = 'm' then parseMediaSection st v
      else if st.inMedia then parseInMedia st t v
      else parseInSession st.session t v >>= fun session =>
        pure (session.map fun session => { st with session := session }) := by
  rw [parseLine, trim_eq, Checked.ok_bind, hl, if_neg (by simp), parseLineTypeValue_eq, if_pos rfl]
  rfl

omit [NoCaseEq] in
theorem checked_iff {o : Option SdpMedia} :
    ¬ (o.any fun m => !checkMsid m) = true ↔ ∀ m ∈ o, checkMsid m = true := by
  cases o <;> simp

/-- **What a line does.** -/
theorem parseLine_iff : parseLine st line = .ok (some st') ↔ LineStep st line st' := by
  constructor
  · intro h
    match hl : strip line with
    | [] =>
      rw [parseLine, trim_eq, Checked.ok_bind, hl] at h
      obtain rfl := Option.some.inj (Except.ok.inj h)
      exact .blank hl
    | [t] =>
      rw [parseLine, trim_eq, Checked.ok_bind, hl] at h
      cases h
    | t :: e :: v =>
      by_cases he : e = '='
      · subst he
        rw [parseLine_eq hl] at h
        split at h
        · rename_i ht
          subst ht
          unfold parseMediaSection at h
          split at h
          · cases h
          · rename_i hcheck
            obtain ⟨m, hm, rfl⟩ := ok_map_iff.1 h
            exact .media hl (checked_iff.1 hcheck) hm
        rename_i ht
        split at h
        · rename_i hin
          unfold parseInMedia at h
          split at h
          · cases h
          rename_i m hlast
          have hms : st.session.medias = st.session.medias.dropLast ++ [m] :=
            (List.dropLast_append_getLast? m hlast).symm
          split at h
          · rename_i ha
            subst ha
            rw [splitAttr_eq, Checked.ok_bind] at h
            obtain ⟨m', hm', rfl⟩ := ok_map_iff.1 h
            exact .attr hl hin hms (applyMediaAttr_iff.1 hm')
          · rename_i ha
            obtain rfl := Option.some.inj (Except.ok.inj h)
            exact .ignored hl ht ha hin (by rw [hms]; simp)
        · rename_i hin
          obtain ⟨s', hs, rfl⟩ := ok_map_iff.1 h
          exact .session hl ht (by simpa using hin) (parseInSession_iff.1 hs)
      · rw [parseLine, trim_eq, Checked.ok_bind, hl, if_neg (by simp), parseLineTypeValue_eq,
          if_neg he] at h
        cases h
  · intro h
    cases h with
    | blank h => rw [parseLine, trim_eq, Checked.ok_bind, h]; rfl
    | media hl hcheck h =>
      rw [parseLine_eq hl, if_pos rfl, parseMediaSection, if_neg (checked_iff.2 hcheck)]
      exact ok_map_iff.2 ⟨_, h, rfl⟩
    | attr hl hin hm h =>
      rw [parseLine_eq hl, if_neg (by decide), if_pos hin, parseInMedia, hm]
      simp only [List.getLast?_concat, if_true, splitAttr_eq, Checked.ok_bind]
      exact ok_map_iff.2 ⟨_, h.apply, by simp⟩
    | ignored hl ht ha hin hm =>
      rw [parseLine_eq hl, if_neg ht, if_pos hin, parseInMedia, List.getLast?_eq_some_getLast hm]
      exact if_neg ha
    | session hl ht hin h =>
      rw [parseLine_eq hl, if_neg ht, if_neg (by simp [hin])]
      exact ok_map_iff.2 ⟨_, parseInSession_iff.2 h, rfl⟩

/-- A run over several lines. -/
inductive LineRun : ParseState → List Text → ParseState → Prop
  | nil (st : ParseState) : LineRun st [] st
  | cons {st st' st'' : ParseState} {line : Text} {ls : List Text} (h : LineStep st line st')
      (hr : LineRun st' ls st'') : LineRun st (line :: ls) st''

namespace LineRun

theorem single (h : LineStep st line st') : LineRun st [line] st' := .cons h (.nil _)

theorem append (h : LineRun st ls st') (h' : LineRun st' ls' st'') :
    LineRun st (ls ++ ls') st'' := by
  induction h with
  | nil => exact h'
  | cons h _ ih => exact .cons h (ih h')

/-- A run over two parts goes through a state between them. -/
theorem of_append (h : LineRun st (ls ++ ls') st'') :
    ∃ st', LineRun st ls st' ∧ LineRun st' ls' st'' := by
  induction ls generalizing st with
  | nil => exact ⟨st, .nil st, h⟩
  | cons line ls ih =>
    cases h with
    | cons h hr =>
      obtain ⟨st', h₁, h₂⟩ := ih hr
      exact ⟨st', .cons h h₁, h₂⟩

/-- **What every line keeps is kept by a run.** -/
theorem invariant {P : ParseState → Prop} (h : LineRun st ls st')
    (hstep : ∀ {a b : ParseState} {line : Text}, line ∈ ls → LineStep a line b → P a → P b)
    (hst : P st) : P st' := by
  induction h with
  | nil => exact hst
  | cons h _ ih =>
    exact ih (fun hm => hstep (List.mem_cons_of_mem _ hm)) (hstep (List.mem_cons_self ..) h hst)

end LineRun

/-- **What the loop of `do_parse` accepts.** -/
theorem parseLines_iff {d : SessionDescription} :
    parseLines st ls = .ok (some d) ↔ ∃ st', LineRun st ls st' ∧ st'.session = d := by
  induction ls generalizing st with
  | nil =>
    constructor
    · exact fun h => ⟨st, .nil st, Option.some.inj (Except.ok.inj h)⟩
    · rintro ⟨st', h, rfl⟩
      cases h
      rfl
  | cons line ls ih =>
    constructor
    · intro h
      obtain ⟨r, hr, h⟩ := Checked.bind_eq_ok.1 h
      cases r with
      | none => cases h
      | some st₁ =>
        obtain ⟨st', hrun, hd⟩ := ih.1 h
        exact ⟨st', .cons (parseLine_iff.1 hr) hrun, hd⟩
    · rintro ⟨st', h, hd⟩
      cases h with
      | cons h hr => exact Checked.bind_eq_ok.2 ⟨_, parseLine_iff.2 h, ih.2 ⟨st', hr, hd⟩⟩

/-- **What `parse_sdp` accepts.** -/
theorem parseSdp_iff {sdp type : Text} {d : SessionDescription} :
    parseSdp sdp type = .ok (some d) ↔
      lines sdp ≠ [] ∧ ∃ st, LineRun ⟨{ sdpType := type }, false⟩ (lines sdp) st ∧ st.session = d := by
  rw [parseSdp, splitLines_eq, Checked.ok_bind]
  split
  · rename_i h
    exact ⟨fun h' => (by cases h'), fun h' => absurd h h'.1⟩
  · rename_i h
    rw [parseLines_iff]
    exact ⟨fun h' => ⟨h, h'⟩, fun h' => h'.2⟩

end AsioRtc
