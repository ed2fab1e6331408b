/-
# Where the parameters of the transport come from

The name and the password for ICE, the fingerprint of the other side and its setup role can
stand at the session level of a description or in its sections (`TransportLevel`).
`apply_descriptions` and `do_connect` have a function for each of the four, and each of these
takes the session level where that carries the attribute, and the first section otherwise
(`installed_eq_install`).

So what the session carries is installed for every description, and where the first section is
accepted the rest is taken from the first accepted section (`installed_levels`).  All four are from
one place where the session carries all of them or none; a description that carries one of
them at both levels can mix the two (`not_fromOnePlace`).
-/

import AsioRtc.Connection.Session

namespace AsioRtc

open Lib Text

/-- What one level of a description carries for the transport. -/
structure TransportLevel where
  iceUfrag : Text := []
  icePwd : Text := []
  fingerprint : Option SdpFingerprint := none
  setup : Option SdpSetupRole := none
  deriving DecidableEq

/-- What the agent and the DTLS transport are set to: `none` is what is not set. -/
structure Installed (F : Type*) where
  username : Option Text
  password : Option Text
  fingerprint : Option F
  setup : SdpSetupRole
  deriving DecidableEq

/-- The text that a fingerprint is read from. -/
def SdpFingerprint.inSdp (fp : SdpFingerprint) : Text := fp.algorithm ++ ' ' :: fp.value

namespace TransportLevel

/-- The level carries all four. -/
structure CarriesAll (l : TransportLevel) : Prop where
  iceUfrag : l.iceUfrag ≠ []
  icePwd : l.icePwd ≠ []
  fingerprint : l.fingerprint.isSome = true
  setup : l.setup.isSome = true

instance (l : TransportLevel) : Decidable l.CarriesAll :=
  decidable_of_iff
    (l.iceUfrag ≠ [] ∧ l.icePwd ≠ [] ∧ l.fingerprint.isSome = true ∧ l.setup.isSome = true)
    ⟨fun ⟨h₁, h₂, h₃, h₄⟩ => ⟨h₁, h₂, h₃, h₄⟩, fun ⟨h₁, h₂, h₃, h₄⟩ => ⟨h₁, h₂, h₃, h₄⟩⟩

/-- Each attribute of `a`, and of `b` where `a` does not carry it. -/
def orElse (a b : TransportLevel) : TransportLevel where
  iceUfrag := if a.iceUfrag ≠ [] then a.iceUfrag else b.iceUfrag
  icePwd := if a.icePwd ≠ [] then a.icePwd else b.icePwd
  fingerprint := a.fingerprint.orElse fun _ => b.fingerprint
  setup := a.setup.orElse fun _ => b.setup

/-- What is installed from one level.  `fromSdp` is `asioice::ssl::fingerprint::from_sdp`, which is
given an empty text where there is no fingerprint; without a role the other side is passive. -/
def install {F : Type*} (fromSdp : Text → Option F) (l : TransportLevel) : Installed F where
  username := nonEmpty l.iceUfrag
  password := nonEmpty l.icePwd
  fingerprint := fromSdp (l.fingerprint.elim [] SdpFingerprint.inSdp)
  setup := l.setup.getD .passive

/-- What the level carries is what is installed. -/
structure Given {F : Type*} (fromSdp : Text → Option F) (l : TransportLevel)
    (i : Installed F) : Prop where
  username : l.iceUfrag ≠ [] → i.username = some l.iceUfrag
  password : l.icePwd ≠ [] → i.password = some l.icePwd
  fingerprint : ∀ fp, l.fingerprint = some fp → i.fingerprint = fromSdp fp.inSdp
  setup : ∀ role, l.setup = some role → i.setup = role

variable {F : Type*} {fromSdp : Text → Option F} {a b : TransportLevel}

/-- A level that carries all needs no other. -/
theorem CarriesAll.orElse_eq (h : a.CarriesAll) (b : TransportLevel) : a.orElse b = a := by
  obtain ⟨fp, hfp⟩ := Option.isSome_iff_exists.1 h.fingerprint
  obtain ⟨role, hrole⟩ := Option.isSome_iff_exists.1 h.setup
  rw [orElse, if_pos h.iceUfrag, if_pos h.icePwd, hfp, hrole, Option.orElse_some, Option.orElse_some,
    ← hfp, ← hrole]

/-- A level that carries nothing leaves all to the other. -/
theorem empty_orElse (b : TransportLevel) : ({} : TransportLevel).orElse b = b := rfl

theorem not_carriesAll_empty : ¬ ({} : TransportLevel).CarriesAll := fun h => h.iceUfrag rfl

theorem given_install (l : TransportLevel) : l.Given fromSdp (l.install fromSdp) where
  username h := if_pos h
  password h := if_pos h
  fingerprint fp h := by rw [install, h, Option.elim_some]
  setup role h := by rw [install, h, Option.getD_some]

/-- What is carried by the first of two levels is installed from both. -/
theorem given_install_orElse (a b : TransportLevel) :
    a.Given fromSdp ((a.orElse b).install fromSdp) where
  username h := by
    have hboth : (a.orElse b).iceUfrag = a.iceUfrag := if_pos h
    rw [(given_install (a.orElse b)).username (hboth ▸ h), hboth]
  password h := by
    have hboth : (a.orElse b).icePwd = a.icePwd := if_pos h
    rw [(given_install (a.orElse b)).password (hboth ▸ h), hboth]
  fingerprint fp h := (given_install (a.orElse b)).fingerprint fp (by rw [orElse, h]; rfl)
  setup role h := (given_install (a.orElse b)).setup role (by rw [orElse, h]; rfl)

end TransportLevel

namespace SdpMedia

/-- What a section carries. -/
def transportLevel (m : SdpMedia) : TransportLevel :=
  ⟨m.iceUfrag, m.icePwd, m.fingerprints.head?, m.setup⟩

end SdpMedia

namespace SessionDescription

/-- What the session carries. -/
def transportLevel (d : SessionDescription) : TransportLevel :=
  ⟨d.iceUfrag, d.icePwd, d.fingerprints.head?, d.setup⟩

/-- What the first section carries that is not rejected. -/
def acceptedLevel (d : SessionDescription) : TransportLevel :=
  (d.medias.find? fun m => m.port ≠ 0).elim {} SdpMedia.transportLevel

/-- The session, if it carries all, and the first section otherwise that is not rejected. -/
def place (d : SessionDescription) : TransportLevel :=
  if d.transportLevel.CarriesAll then d.transportLevel else d.acceptedLevel

/-- The first section, if it is needed, is not rejected. -/
def FirstAccepted (d : SessionDescription) : Prop :=
  d.transportLevel.CarriesAll ∨ ∀ m, d.medias.head? = some m → m.port ≠ 0

/-- A first section that is not rejected is the first of these. -/
theorem head?_of_accepted {d : SessionDescription}
    (h : ∀ m, d.medias.head? = some m → m.port ≠ 0) :
    d.medias.head?.elim {} SdpMedia.transportLevel = d.acceptedLevel := by
  unfold acceptedLevel
  cases hm : d.medias with
  | nil => rfl
  | cons m ms =>
    have hport : m.port ≠ 0 := h m (by rw [hm]; rfl)
    rw [List.find?_cons_of_pos (by simpa using hport)]
    rfl

end SessionDescription

/-- What `apply_descriptions` installs from a remote description, with the role of the other side
that `do_connect` goes by. -/
def installed {F : Type*} (fromSdp : Text → Option F) (remote : SessionDescription) :
    Installed F where
  username := (RemoteParameters.of remote).username
  password := (RemoteParameters.of remote).password
  fingerprint := fromSdp (RemoteParameters.of remote).fingerprint
  setup := Connection.setupFrom remote

variable {F : Type*} {fromSdp : Text → Option F} {remote : SessionDescription}

/-- **The four functions together.**  The session level, and for what it does not carry the first
section. -/
theorem installed_eq_install :
    installed fromSdp remote = (remote.transportLevel.orElse
      (remote.medias.head?.elim {} SdpMedia.transportLevel)).install fromSdp := by
  unfold installed TransportLevel.install TransportLevel.orElse RemoteParameters.of iceUfragFrom
    icePwdFrom sessionOrFirst fingerprintFrom Connection.setupFrom
  cases remote.medias.head? with
  | none => rfl
  | some m => rfl

/-- All four are taken from one place, the session or the first section that is not rejected. -/
def FromOnePlace (fromSdp : Text → Option F) (remote : SessionDescription) : Prop :=
  installed fromSdp remote = remote.place.install fromSdp

/-- What the two levels have to do with what is installed where no rejected section is read. -/
structure FromLevels (fromSdp : Text → Option F) (remote : SessionDescription) : Prop where
  levels : installed fromSdp remote =
    (remote.transportLevel.orElse remote.acceptedLevel).install fromSdp
  onePlace : remote.transportLevel.CarriesAll ∨ remote.transportLevel = {} →
    FromOnePlace fromSdp remote
  fingerprint : ∀ fp, (remote.transportLevel.orElse remote.acceptedLevel).fingerprint = some fp →
    (installed fromSdp remote).fingerprint = fromSdp fp.inSdp

theorem fromLevels_of_eq (h : installed fromSdp remote =
    (remote.transportLevel.orElse remote.acceptedLevel).install fromSdp) :
    FromLevels fromSdp remote where
  levels := h
  onePlace := by
    rintro (hall | hnone)
    · rw [FromOnePlace, h, SessionDescription.place, if_pos hall, hall.orElse_eq]
    · have hnot : ¬ remote.transportLevel.CarriesAll := by
        rw [hnone]
        exact TransportLevel.not_carriesAll_empty
      rw [FromOnePlace, h, SessionDescription.place, if_neg hnot, hnone, TransportLevel.empty_orElse]
  fingerprint fp hfp := by
    rw [h]
    exact (TransportLevel.given_install _).fingerprint fp hfp

/-- **Where the parameters of the transport come from.**  What the session carries is installed.
Where the first section is not rejected, or not needed, each attribute is that of the session, or
of the first accepted section where the session does not carry it. -/
theorem installed_levels (fromSdp : Text → Option F) (remote : SessionDescription) :
    remote.transportLevel.Given fromSdp (installed fromSdp remote) ∧
      (remote.FirstAccepted → FromLevels fromSdp remote) := by
  refine ⟨?_, ?_⟩
  · rw [installed_eq_install]
    exact TransportLevel.given_install_orElse _ _
  · rintro (hall | hport)
    · refine fromLevels_of_eq ?_
      rw [installed_eq_install, hall.orElse_eq, hall.orElse_eq]
    · refine fromLevels_of_eq ?_
      rw [installed_eq_install, SessionDescription.head?_of_accepted hport]

/-- The name, the password and the role are those of the section, and the fingerprint is that of
the session. -/
def sessionFingerprint : SessionDescription where
  fingerprints := [⟨"sha-256".toList, "AA".toList⟩]
  medias := [{
    mediaType := .audio
    port := 9
    iceUfrag := "u".toList
    icePwd := "p".toList
    fingerprints := [⟨"sha-256".toList, "BB".toList⟩]
    setup := some .actpass }]

/-- The session does not carry all four and the first section does, but the fingerprint that is
installed is that of the session. -/
theorem not_fromOnePlace : ¬ FromOnePlace some sessionFingerprint := by
  intro h
  have hfp : some "sha-256 AA".toList = some "sha-256 BB".toList :=
    congrArg Installed.fingerprint h
  exact absurd hfp (by decide)

/-- All the same each of the four is that of its level. -/
theorem installed_levels_sessionFingerprint :
    FromLevels some sessionFingerprint ∧
      installed some sessionFingerprint =
        ⟨some "u".toList, some "p".toList, some "sha-256 AA".toList, .actpass⟩ := by
  have hport : ∀ m, sessionFingerprint.medias.head? = some m → m.port ≠ 0 := by
    intro m hm
    rw [← Option.some.inj hm]
    decide
  exact ⟨(installed_levels some sessionFingerprint).2 (Or.inr hport), rfl⟩

/-! ### The stored description -/

namespace Session

variable {s : Session}

/-- What the end of a setter hands to the agent is read from the stored remote description. -/
theorem finish_applied {tracks : List OnTrack} {gathers agentThrows : Bool} {p : RemoteParameters}
    (h : .applied p ∈ (finish s tracks gathers agentThrows).2.effects) :
    ∃ d, s.conn.remoteDesc = some d ∧ p = RemoteParameters.of d := by
  have happlied : .applied p ∈ s.applyDescriptions.2 := by
    unfold finish at h
    simp only [] at h
    split at h
    · exact h
    · simp only [List.mem_append] at h
      rcases h with (h | h) | h
      · exact h
      · split at h <;> simp at h
      · unfold startConnecting at h
        split at h <;> simp at h
  unfold applyDescriptions at happlied
  split at happlied
  · exact absurd happlied List.not_mem_nil
  · split at happlied
    · rename_i remote _ hremote
      exact ⟨_, hremote, (SessionEffect.applied.inj (List.mem_singleton.1 happlied))⟩
    · exact absurd happlied List.not_mem_nil

/-- **What a call installs** is read from the remote description that is stored behind it. -/
theorem signal_applied [NoCaseEq] {e : SignalingCall} {p : RemoteParameters}
    (h : .applied p ∈ (s.signal e).2.effects) :
    ∃ d, (s.signal e).1.conn.remoteDesc = some d ∧ p = RemoteParameters.of d := by
  cases e with
  | setLocal desc b =>
    change .applied p ∈ (s.setLocal desc b).2.effects at h
    change ∃ d, (s.setLocal desc b).1.conn.remoteDesc = some d ∧ _
    unfold setLocal at h ⊢
    simp only [] at h ⊢
    split at h
    · exact absurd h List.not_mem_nil
    · rw [finish_conn]
      exact finish_applied h
  | setRemote desc b =>
    change .applied p ∈ (s.setRemote desc b).2.effects at h
    change ∃ d, (s.setRemote desc b).1.conn.remoteDesc = some d ∧ _
    unfold setRemote at h ⊢
    simp only [] at h ⊢
    split at h
    · exact absurd h List.not_mem_nil
    · rw [finish_conn]
      exact finish_applied h
  | createOffer =>
    simp only [signal] at h
    split at h <;> exact absurd h List.not_mem_nil
  | createAnswer => exact absurd h List.not_mem_nil

end Session
end AsioRtc
