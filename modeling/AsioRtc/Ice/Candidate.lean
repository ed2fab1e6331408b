/-
# Candidates of the two libraries

`to_ice` and `from_ice` of `src/candidate.cpp`, between `asiortc::candidate` and
`asioice::candidate`.  An address is the text of an IP address or the name of an mDNS
host; the second struct has a text for a name, and an endpoint with the port beside it,
whose address is unspecified where there is a name.

The two are inverse but for the port of a related mDNS host: `from_ice` takes the port
of the candidate itself for it, and not the related one (`fromIce_toIce`).  So a
candidate comes back just where it has no such host, or the two ports are the same
(`fromIce_toIce_iff`).
-/

import AsioRtc.Text

namespace AsioRtc

open Lib Text

/-- The addresses of the network library, with their texts: `make_address`, which gives a message
where there is no address, and `address::to_string`. -/
class IpText where
  Address : Type
  unspecified : Address
  makeAddress : Text → Except Text Address
  addressText : Address → Text

export IpText (makeAddress addressText)

/-- `asiortc::candidate_type`. -/
inductive CandidateType
  | host
  | srflx
  | prflx
  | relay
  deriving DecidableEq, Repr

/-- `asioice::candidate_type`. -/
inductive IceCandidateType
  | host
  | srflx
  | prflx
  | relay
  deriving DecidableEq, Repr

/-- `asiortc::candidate`. -/
structure Candidate where
  foundation : Text := []
  component : U8 := 1
  transportType : Text := "UDP".toList
  priority : U32 := 0
  address : Text := []
  port : U16 := 0
  type : CandidateType := .host
  relatedAddress : Option Text := none
  relatedPort : Option U16 := none
  tcptype : Text := []
  generation : Option U32 := none
  deriving DecidableEq, Repr

variable [IpText]

/-- `asioice::endpoint`. -/
structure IceEndpoint where
  address : IpText.Address := IpText.unspecified
  port : U16 := 0

/-- `asioice::candidate`. -/
structure IceCandidate where
  foundation : Text
  component : U8
  transportType : Text
  priority : U32
  tcptype : Text
  generation : Option U32
  type : IceCandidateType
  mdnsHost : Text := []
  endpoint : IceEndpoint := {}
  mdnsRelated : Text := []
  related : Option IceEndpoint := none

/-! ### The two functions -/

omit [IpText] in
/-- `is_mdns`. -/
def isMdns (host : Text) : Bool := ".local".toList.isSuffixOf host

omit [IpText] in
/-- The `switch` of `to_ice`. -/
def CandidateType.toIce : CandidateType → IceCandidateType
  | .host => .host
  | .srflx => .srflx
  | .prflx => .prflx
  | .relay => .relay

omit [IpText] in
/-- The `switch` of `from_ice`. -/
def IceCandidateType.toCandidate : IceCandidateType → CandidateType
  | .host => .host
  | .srflx => .srflx
  | .prflx => .prflx
  | .relay => .relay

/-- The address of `to_ice`. -/
def iceAddress (c : Candidate) (ice : IceCandidate) : Except Text IceCandidate :=
  if c.address = [] then .ok ice
  else if isMdns c.address then
    .ok { ice with mdnsHost := c.address, endpoint := { port := c.port } }
  else
    match makeAddress c.address with
    | .ok address => .ok { ice with endpoint := { address := address, port := c.port } }
    | .error message => .error
        ("invalid address: ".toList ++ c.address ++ " (".toList ++ message ++ ")".toList)

/-- The related address of `to_ice`. -/
def iceRelated (c : Candidate) (ice : IceCandidate) : Except Text IceCandidate :=
  match c.relatedAddress with
  | none => .ok ice
  | some related =>
      if related = [] then .ok ice
      else if isMdns related then
        .ok { ice with
          mdnsRelated := related
          related := some { port := c.relatedPort.getD 0 } }
      else
        match makeAddress related with
        | .ok address =>
            .ok { ice with related := some { address := address, port := c.relatedPort.getD 0 } }
        | .error message => .error
            ("invalid related address: ".toList ++ related ++ " (".toList ++ message ++
              ")".toList)

/-- `to_ice`; an error is the text of what it throws. -/
def toIce (c : Candidate) : Except Text IceCandidate := do
  let ice ← iceAddress c
    { foundation := c.foundation, component := c.component, transportType := c.transportType
      priority := c.priority, tcptype := c.tcptype, generation := c.generation
      type := c.type.toIce }
  iceRelated c ice

/-- `from_ice`. -/
def fromIce (ice : IceCandidate) : Candidate :=
  let out : Candidate :=
    { foundation := ice.foundation, component := ice.component
      transportType := ice.transportType, priority := ice.priority, tcptype := ice.tcptype
      generation := ice.generation, type := ice.type.toCandidate
      address := if ice.mdnsHost ≠ [] then ice.mdnsHost else addressText ice.endpoint.address
      port := ice.endpoint.port }
  if ice.mdnsRelated ≠ [] then
    -- The port of the candidate itself.
    { out with relatedAddress := some ice.mdnsRelated, relatedPort := some ice.endpoint.port }
  else
    match ice.related with
    | some related =>
        { out with
          relatedAddress := some (addressText related.address)
          relatedPort := some related.port }
    | none => out

/-! ### There and back -/

/-- The text of an address that is written as it was read. -/
def Canonical (a : Text) : Prop := ∃ x, makeAddress a = .ok x ∧ addressText x = a

/-- A text of an address: the name of an mDNS host, or canonical. -/
def HostText (a : Text) : Prop := a ≠ [] ∧ (isMdns a = true ∨ Canonical a)

/-- A candidate whose addresses are such texts, with a related port where there is a related
address. -/
structure Candidate.Regular (c : Candidate) : Prop where
  address : HostText c.address
  related : ∀ a ∈ c.relatedAddress, HostText a
  together : c.relatedAddress.isSome = c.relatedPort.isSome

omit [IpText] in
/-- What comes back: a related mDNS host has the port of the candidate itself. -/
def Candidate.returned (c : Candidate) : Candidate :=
  { c with relatedPort := if c.relatedAddress.any isMdns then some c.port else c.relatedPort }

section RoundTrip

variable {c : Candidate}

omit [IpText] in
theorem toCandidate_toIce (type : CandidateType) : type.toIce.toCandidate = type := by
  cases type <;> rfl

/-- The address and the port beside it. -/
theorem iceAddress_ok (ice : IceCandidate) (h : HostText c.address) (hice : ice.mdnsHost = []) :
    ∃ mdns endpoint, iceAddress c ice = .ok { ice with mdnsHost := mdns, endpoint := endpoint } ∧
      endpoint.port = c.port ∧
      (if mdns ≠ [] then mdns else addressText endpoint.address) = c.address := by
  obtain ⟨hne, htext⟩ := h
  rw [iceAddress, if_neg hne]
  split
  · exact ⟨c.address, _, rfl, rfl, if_pos hne⟩
  · rename_i hmdns
    obtain ⟨x, hx, hback⟩ := htext.resolve_left hmdns
    refine ⟨[], { address := x, port := c.port }, ?_, rfl, by simpa using hback⟩
    rw [hx, ← hice]

/-- The related address and the port beside it. -/
theorem iceRelated_ok (ice : IceCandidate) {related : Text} (hrel : c.relatedAddress = some related)
    (h : HostText related) (hice : ice.mdnsRelated = []) :
    ∃ mdns endpoint,
      iceRelated c ice = .ok { ice with mdnsRelated := mdns, related := some endpoint } ∧
      if isMdns related = true then mdns = related
      else mdns = [] ∧ addressText endpoint.address = related ∧
        endpoint.port = c.relatedPort.getD 0 := by
  obtain ⟨hne, htext⟩ := h
  rw [iceRelated, hrel]
  dsimp only
  rw [if_neg hne]
  split
  · exact ⟨related, _, rfl, rfl⟩
  · rename_i hmdns
    obtain ⟨x, hx, hback⟩ := htext.resolve_left hmdns
    refine ⟨[], { address := x, port := c.relatedPort.getD 0 }, ?_, rfl, hback, rfl⟩
    rw [hx, ← hice]

/-- **There and back**: everything but the port of a related mDNS host. -/
theorem fromIce_toIce (h : c.Regular) : fromIce <$> toIce c = .ok c.returned := by
  obtain ⟨mdns, endpoint, haddress, hport, hback⟩ := iceAddress_ok
    { foundation := c.foundation, component := c.component, transportType := c.transportType
      priority := c.priority, tcptype := c.tcptype, generation := c.generation
      type := c.type.toIce } h.address rfl
  rw [toIce, haddress]
  cases hrel : c.relatedAddress with
  | none =>
    have hnone : c.relatedPort = none := by simpa [hrel] using h.together
    have hice (ice : IceCandidate) : iceRelated c ice = .ok ice := by rw [iceRelated, hrel]
    refine (congrArg (fromIce <$> ·) (hice _)).trans ?_
    simp [fromIce, Candidate.returned, hback, hport, toCandidate_toIce, hrel, hnone]
  | some related =>
    obtain ⟨port, hsome⟩ : ∃ port, c.relatedPort = some port := by
      rw [← Option.isSome_iff_exists, ← h.together, hrel]
      rfl
    have hhost := h.related related hrel
    obtain ⟨mdns', endpoint', hrelated, hread⟩ := iceRelated_ok
      { foundation := c.foundation, component := c.component, transportType := c.transportType
        priority := c.priority, tcptype := c.tcptype, generation := c.generation
        type := c.type.toIce, mdnsHost := mdns, endpoint := endpoint } hrel hhost rfl
    refine (congrArg (fromIce <$> ·) hrelated).trans (congrArg Except.ok ?_)
    split at hread
    · rename_i hmdns
      simp [fromIce, Candidate.returned, hback, hport, toCandidate_toIce, hrel, hread, hmdns,
        hhost.1]
    · rename_i hmdns
      obtain ⟨rfl, htext, hport'⟩ := hread
      simp [fromIce, Candidate.returned, hback, hport, toCandidate_toIce, hrel, hmdns, htext,
        hport', hsome]

/-- **When a candidate comes back**: it has no related mDNS host, or one of its own port. -/
theorem fromIce_toIce_iff (h : c.Regular) : fromIce <$> toIce c = .ok c ↔
    ((∃ a ∈ c.relatedAddress, isMdns a = true) → c.relatedPort = some c.port) := by
  have hreturned : c.returned = { c with relatedPort := c.returned.relatedPort } := rfl
  have hiff : c.returned = c ↔ c.returned.relatedPort = c.relatedPort := by
    refine ⟨congrArg Candidate.relatedPort, fun hport => ?_⟩
    rw [hreturned, hport]
  have hany : c.relatedAddress.any isMdns = true ↔ ∃ a ∈ c.relatedAddress, isMdns a = true := by
    cases c.relatedAddress <;> simp
  rw [fromIce_toIce h, Except.ok.injEq, hiff, ← hany, Candidate.returned]
  split
  · rename_i hmdns
    exact ⟨fun hport _ => hport.symm, fun hport => (hport hmdns).symm⟩
  · rename_i hmdns
    exact ⟨fun _ hmdns' => absurd hmdns' hmdns, fun _ => rfl⟩

end RoundTrip

/-! ### Dotted addresses -/

omit [IpText] in
/-- The texts of IPv4 addresses. -/
@[reducible] def dottedText : IpText where
  Address := List U8
  unspecified := [0, 0, 0, 0]
  makeAddress s :=
    let parts := (s.splitOn '.').map (parseUint 8)
    if parts.length = 4 ∧ parts.all Option.isSome then .ok (parts.filterMap id)
    else .error "Invalid argument".toList
  addressText a := ['.'].intercalate (a.map fun b => toText b.toNat)

omit [IpText] in
/-- A candidate behind a NAT, whose host has an mDNS name. -/
def reflexive : Candidate where
  foundation := "1".toList
  priority := 1694498815
  address := "203.0.113.5".toList
  port := 61000
  type := .srflx
  relatedAddress := some "9d6c.local".toList
  relatedPort := some 61000

omit [IpText] in
theorem reflexive_regular (port : U16) :
    @Candidate.Regular dottedText { reflexive with relatedPort := some port } := by
  refine @Candidate.Regular.mk dottedText _ ⟨by simp [reflexive], Or.inr ?_⟩ (fun a ha => ?_) rfl
  · exact ⟨[203, 0, 113, 5], rfl, rfl⟩
  · obtain rfl := Option.some.inj ha
    exact ⟨by decide, Or.inl rfl⟩

omit [IpText] in
/-- It comes back where the two ports are the same. -/
theorem reflexive_returns : @fromIce dottedText <$> @toIce dottedText reflexive = .ok reflexive :=
  (@fromIce_toIce_iff dottedText reflexive (reflexive_regular 61000)).2 fun _ => rfl

omit [IpText] in
/-- **It does not** where the related port is another one. -/
theorem reflexive_lost :
    @Candidate.Regular dottedText { reflexive with relatedPort := some 9 } ∧
      @fromIce dottedText <$> @toIce dottedText { reflexive with relatedPort := some 9 } ≠
        .ok { reflexive with relatedPort := some 9 } := by
  refine ⟨reflexive_regular 9, fun h => ?_⟩
  have hback : @fromIce dottedText <$> @toIce dottedText { reflexive with relatedPort := some 9 } =
      .ok reflexive := rfl
  rw [hback] at h
  exact absurd (congrArg Candidate.relatedPort (Except.ok.inj h)) (by decide)

end AsioRtc
