/-
# Writing a description

The `to_string` functions of `src/sdp.cpp`, and `session_description::to_string`,
which puts them together.  Each of them appends to one string; here each gives the
part it appends, and a section or a description the list of its lines, which
`toString` ends with `\r\n` one by one.

What is empty or not set is not written.  A codec is written with its parameters
and the feedback for its payload type (`codecLines`), feedback for all payload types
behind the codecs.
-/

import AsioRtc.Sdp.Values

namespace AsioRtc

open Lib Text

/-! ### The enumerations -/

/-- `to_string(sdp_media_type)`. -/
def SdpMediaType.toString : SdpMediaType → Text
  | audio => "audio".toList
  | video => "video".toList
  | application => "application".toList
  | text => "text".toList
  | message => "message".toList

/-- `to_string(sdp_proto)`. -/
def SdpProto.toString : SdpProto → Text
  | UDP => "UDP".toList
  | RTP_AVP => "RTP/AVP".toList
  | RTP_SAVP => "RTP/SAVP".toList
  | RTP_SAVPF => "RTP/SAVPF".toList
  | UDP_TLS_RTP_SAVPF => "UDP/TLS/RTP/SAVPF".toList
  | DTLS_SCTP => "DTLS/SCTP".toList
  | UDP_DTLS_SCTP => "UDP/DTLS/SCTP".toList
  | TCP_DTLS_SCTP => "TCP/DTLS/SCTP".toList

/-- `to_string(sdp_direction)`. -/
def SdpDirection.toString : SdpDirection → Text
  | inactive => "inactive".toList
  | sendonly => "sendonly".toList
  | recvonly => "recvonly".toList
  | sendrecv => "sendrecv".toList

/-- `to_string(sdp_setup_role)`. -/
def SdpSetupRole.toString : SdpSetupRole → Text
  | active => "active".toList
  | passive => "passive".toList
  | actpass => "actpass".toList
  | holdconn => "holdconn".toList

/-- `to_string(sdp_rid_direction)`. -/
def SdpRidDirection.toString : SdpRidDirection → Text
  | send => "send".toList
  | recv => "recv".toList

/-- `to_string(sdp_bandwidth_type)`. -/
def SdpBandwidthType.toString : SdpBandwidthType → Text
  | CT => "CT".toList
  | AS => "AS".toList
  | TIAS => "TIAS".toList
  | RS => "RS".toList
  | RR => "RR".toList

/-! ### The attributes

What stands behind `a=name:` on the line of the attribute. -/

/-- A text behind its separator, where it is not empty. -/
def optPart (c : Char) (s : Text) : Text := if s = [] then [] else c :: s

/-- `to_string(sdp_rtpmap)`. -/
def SdpRtpmap.text (attr : SdpRtpmap) : Text :=
  toText attr.payloadType.toNat ++ ' ' :: attr.name ++ '/' :: toText attr.clockRate.toNat ++
    attr.channels.elim [] fun ch => '/' :: toText ch.toNat

/-- A payload type, or `*` for all of them. -/
def payloadText (pt : Option U8) : Text := pt.elim "*".toList fun pt => toText pt.toNat

/-- `to_string(sdp_rtcp_fb)`. -/
def SdpRtcpFb.text (attr : SdpRtcpFb) : Text :=
  payloadText attr.payloadType ++ ' ' :: attr.type ++ optPart ' ' attr.subtype

/-- `to_string(sdp_extmap)`. -/
def SdpExtmap.text (attr : SdpExtmap) : Text :=
  toText attr.id.toNat ++ (attr.direction.elim [] fun d => '/' :: d.toString) ++
    ' ' :: attr.uri ++ optPart ' ' attr.attributes

/-- `to_string(sdp_ssrc)`. -/
def SdpSsrc.text (attr : SdpSsrc) : Text :=
  toText attr.ssrc.toNat ++ ' ' :: attr.attr ++ optPart ':' attr.value

/-- `to_string(sdp_ssrc_group)`. -/
def SdpSsrcGroup.text (attr : SdpSsrcGroup) : Text :=
  attr.semantics ++ spaced (attr.ssrcs.map fun ssrc => toText ssrc.toNat)

/-- `to_string(sdp_rtcp)`. -/
def SdpRtcp.text (attr : SdpRtcp) : Text :=
  toText attr.port.toNat ++
    if attr.nettype ≠ [] ∧ attr.addrtype ≠ [] ∧ attr.addr ≠ [] then
      spaced [attr.nettype, attr.addrtype, attr.addr]
    else []

/-- `to_string(sdp_fingerprint)`. -/
def SdpFingerprint.text (attr : SdpFingerprint) : Text := attr.algorithm ++ ' ' :: attr.value

/-- `to_string(sdp_crypto)`. -/
def SdpCrypto.text (attr : SdpCrypto) : Text :=
  toText attr.tag.toNat ++ spaced [attr.suite, attr.keyParams] ++ optPart ' ' attr.sessionParams

/-- `to_string(sdp_msid)`. -/
def SdpMsid.text (attr : SdpMsid) : Text := attr.streamId ++ optPart ' ' attr.trackId

/-- `to_string(sdp_group)`. -/
def SdpGroup.text (attr : SdpGroup) : Text := attr.semantic ++ spaced attr.items

/-- `to_string(sdp_msid_semantic)`. -/
def SdpMsidSemantic.text (attr : SdpMsidSemantic) : Text :=
  attr.semantic ++ spaced attr.streamIds

/-- A stream of a layer, with the `~` of a paused one. -/
def SdpSimulcastStream.text (stream : SdpSimulcastStream) : Text :=
  (if stream.paused then ['~'] else []) ++ stream.rid

/-- `to_string(std::vector<sdp_simulcast_layer>)`.  A stream is written with a comma behind it;
the last one of a layer becomes a semicolon, and the last one of all is taken off. -/
def simulcastLayersText (layers : List (List SdpSimulcastStream)) : Text :=
  (layers.foldl
    (fun s layer =>
      if layer = [] then s
      else (layer.foldl (fun s stream => s ++ stream.text ++ [',']) s).dropLast ++ [';'])
    []).dropLast

/-- `to_string(sdp_simulcast)`. -/
def SdpSimulcast.text (attr : SdpSimulcast) : Text :=
  (if attr.sendLayers ≠ [] then "send ".toList ++ simulcastLayersText attr.sendLayers else []) ++
    if attr.recvLayers ≠ [] then " recv ".toList ++ simulcastLayersText attr.recvLayers else []

/-- The parameters of a restriction identifier; `std::sort` finds the keys of the map in order. -/
def SdpRid.parts (attr : SdpRid) : List Text :=
  (if attr.payloadTypes ≠ [] then
      ["pt=".toList ++ [','].intercalate (attr.payloadTypes.map fun pt => toText pt.toNat)]
    else []) ++
    attr.params.entries.map fun e => e.1 ++ '=' :: e.2

/-- `to_string(sdp_rid)`. -/
def SdpRid.text (attr : SdpRid) : Text :=
  attr.id ++ ' ' :: attr.direction.toString ++
    if attr.parts ≠ [] then ' ' :: [';'].intercalate attr.parts else []

/-- `to_string(sdp_bandwidth)`. -/
def SdpBandwidth.text (b : SdpBandwidth) : Text :=
  b.type.toString ++ ':' :: toText b.bandwidth.toNat

/-- `to_string(sdp_origin)`. -/
def SdpOrigin.text (o : SdpOrigin) : Text :=
  o.username ++ spaced [o.sessionId, o.sessionVersion, o.nettype, o.addrtype, o.addr]

/-! ### Lines -/

/-- `a=name`. -/
def flagLine (name : Text) : Text := 'a' :: '=' :: name

/-- `a=name:value`. -/
def attrLine (name value : Text) : Text := 'a' :: '=' :: (name ++ ':' :: value)

/-- An attribute the parser has no field for. -/
def attributeLine (attr : Text × Text) : Text := 'a' :: '=' :: (attr.1 ++ optPart ':' attr.2)

/-- `c=nettype addrtype addr`. -/
def connLine (nettype addrtype addr : Text) : Text :=
  "c=".toList ++ nettype ++ spaced [addrtype, addr]

/-- A line that is written under a condition. -/
def lineIf (p : Prop) [Decidable p] (line : Text) : List Text := if p then [line] else []

/-- `a=ice-options:`, with the options behind it. -/
def iceOptionsLine (options : List Text) : Text :=
  attrLine "ice-options".toList ([' '].intercalate options)

/-- Each line with its end. -/
def unlines (ls : List Text) : Text := ls.flatMap (· ++ "\r\n".toList)

/-! ### A section -/

namespace SdpMedia

variable (m : SdpMedia)

/-- The formats on the media line. -/
def formatTexts : List Text :=
  match m.formats with
  | .payloadTypes pts => pts.map fun pt => toText pt.toNat
  | .strings fmts => fmts
  | .none => []

/-- `m=type port proto formats`. -/
def mediaLine : Text :=
  "m=".toList ++ m.mediaType.toString ++
    spaced ([toText m.port.toNat, m.proto.toString] ++ m.formatTexts)

/-- The lines for a payload type. -/
def codecLines (pt : U8) : List Text :=
  match m.findRtpmap pt with
  | none => []
  | some rtpmap =>
      [attrLine "rtpmap".toList rtpmap.text] ++
      lineIf (rtpmap.params ≠ [])
        (attrLine "fmtp".toList (toText pt.toNat ++ ' ' :: rtpmap.params)) ++
      (m.rtcpFbs.filter fun fb => fb.payloadType = some pt).map fun fb =>
        attrLine "rtcp-fb".toList fb.text

/-- The lines of the ICE agent of a section, and those of its transport. -/
def transportLines : List Text :=
  lineIf (m.iceUfrag ≠ []) (attrLine "ice-ufrag".toList m.iceUfrag) ++
  lineIf (m.icePwd ≠ []) (attrLine "ice-pwd".toList m.icePwd) ++
  lineIf (m.iceOptions ≠ []) (iceOptionsLine m.iceOptions) ++
  m.candidates.map flagLine ++
  (m.fingerprints.map fun fp => attrLine "fingerprint".toList fp.text) ++
  (m.setup.toList.map fun role => attrLine "setup".toList role.toString) ++
  lineIf m.extmapAllowMixed (flagLine "extmap-allow-mixed".toList) ++
  lineIf m.rtcpMux (flagLine "rtcp-mux".toList) ++
  lineIf m.rtcpMuxOnly (flagLine "rtcp-mux-only".toList) ++
  lineIf m.rtcpRsize (flagLine "rtcp-rsize".toList) ++
  m.rtcp.toList.map fun rtcp => attrLine "rtcp".toList rtcp.text

/-- The lines of the codecs. -/
def codecsLines : List Text :=
  (m.extmaps.map fun em => attrLine "extmap".toList em.text) ++
  m.payloadTypes.flatMap m.codecLines ++
  (m.rtcpFbs.filter fun fb => fb.payloadType = none).map fun fb =>
    attrLine "rtcp-fb".toList fb.text

/-- The lines behind the codecs. -/
def streamLines : List Text :=
  (m.ssrcs.map fun ssrc => attrLine "ssrc".toList ssrc.text) ++
  (m.ssrcGroups.map fun sg => attrLine "ssrc-group".toList sg.text) ++
  (m.cryptos.map fun c => attrLine "crypto".toList c.text) ++
  (m.sctpPort.toList.map fun port => attrLine "sctp-port".toList (toText port.toNat)) ++
  (m.maxMessageSize.toList.map fun size =>
    attrLine "max-message-size".toList (toText size.toNat)) ++
  lineIf (m.simulcast.sendLayers ≠ [] ∨ m.simulcast.recvLayers ≠ [])
    (attrLine "simulcast".toList m.simulcast.text) ++
  (m.rids.map fun rid => attrLine "rid".toList rid.text) ++
  lineIf m.endOfCandidates (flagLine "end-of-candidates".toList) ++
  m.attributes.map attributeLine

/-- `to_string(sdp_media)`, line by line. -/
def toLines : List Text :=
  [m.mediaLine] ++
  lineIf (m.connNettype ≠ []) (connLine m.connNettype m.connAddrtype m.connAddr) ++
  [flagLine m.direction.toString] ++
  lineIf (m.mid ≠ []) (attrLine "mid".toList m.mid) ++
  (m.msids.map fun msid => attrLine "msid".toList msid.text) ++
  m.transportLines ++ m.codecsLines ++ m.streamLines

end SdpMedia

/-! ### A description -/

namespace SessionDescription

variable (sdp : SessionDescription)

/-- The lines in front of the attributes. -/
def sessionLines : List Text :=
  ["v=".toList ++ toText sdp.version.toNat, "o=".toList ++ sdp.origin.text,
    "s=".toList ++ sdp.sessionName] ++
  lineIf (sdp.uri ≠ []) ("u=".toList ++ sdp.uri) ++
  lineIf (sdp.email ≠ []) ("e=".toList ++ sdp.email) ++
  lineIf (sdp.phoneNumber ≠ []) ("p=".toList ++ sdp.phoneNumber) ++
  lineIf (sdp.connNettype ≠ []) (connLine sdp.connNettype sdp.connAddrtype sdp.connAddr) ++
  (sdp.bandwidths.map fun bw => "b=".toList ++ bw.text) ++
  ["t=0 0".toList]

/-- The attributes in front of the sections. -/
def attributeLines : List Text :=
  (sdp.direction.toList.map fun d => flagLine d.toString) ++
  lineIf (sdp.iceUfrag ≠ []) (attrLine "ice-ufrag".toList sdp.iceUfrag) ++
  lineIf (sdp.icePwd ≠ []) (attrLine "ice-pwd".toList sdp.icePwd) ++
  lineIf (sdp.iceOptions ≠ []) (iceOptionsLine sdp.iceOptions) ++
  lineIf sdp.iceLite (flagLine "ice-lite".toList) ++
  (sdp.fingerprints.map fun fp => attrLine "fingerprint".toList fp.text) ++
  (sdp.setup.toList.map fun role => attrLine "setup".toList role.toString) ++
  lineIf sdp.extmapAllowMixed (flagLine "extmap-allow-mixed".toList) ++
  lineIf (sdp.msidSemantic.streamIds ≠ [])
    (attrLine "msid-semantic".toList sdp.msidSemantic.text) ++
  (sdp.groups.map fun group => attrLine "group".toList group.text) ++
  sdp.attributes.map attributeLine ++
  sdp.candidates.map flagLine

/-- `session_description::to_string`, line by line. -/
def toLines : List Text :=
  sdp.sessionLines ++ sdp.attributeLines ++ sdp.medias.flatMap SdpMedia.toLines

/-- `session_description::to_string`. -/
def toString : Text := unlines sdp.toLines

end SessionDescription

end AsioRtc
