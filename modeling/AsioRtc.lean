import AsioRtc.Lib.Machine
import AsioRtc.Lib.Serial
import AsioRtc.Lib.OrdMap
import AsioRtc.Lib.DeliveryQueue
import AsioRtc.Rtp.Packet
import AsioRtc.Rtp.Extension
import AsioRtc.Rtp.ExtensionPadding
import AsioRtc.Rtcp.Packet
import AsioRtc.Rtcp.Feedback
import AsioRtc.Twcc.TransportCc
import AsioRtc.Twcc.Cursor
import AsioRtc.Jitter.Buffer
import AsioRtc.Jitter.Delivery
import AsioRtc.Jitter.Unwrap
import AsioRtc.Jitter.Frames
import AsioRtc.Lib.Slots
import AsioRtc.Nack.Generator
import AsioRtc.Nack.Requests
import AsioRtc.Ssrc.Context
import AsioRtc.Ssrc.Extended
import AsioRtc.Rtcp.Messages
import AsioRtc.Srtp.Transport
import AsioRtc.Text
import AsioRtc.Sdp.Attributes
import AsioRtc.Sdp.Parse
import AsioRtc.Connection.Transceiver
import AsioRtc.Connection.State
import AsioRtc.Connection.Signaling
import AsioRtc.Connection.Negotiation
import AsioRtc.Connection.FirstOffer
import AsioRtc.Connection.FirstAnswer
import AsioRtc.Connection.Receive
import AsioRtc.Rtp.Write
import AsioRtc.Rtcp.Compound
import AsioRtc.Connection.Rejection
import AsioRtc.Connection.Session
import AsioRtc.Connection.AnswerFormats
import AsioRtc.Connection.Send
import AsioRtc.H264.AnnexB
import AsioRtc.Lib.Placement
import AsioRtc.Connection.Reoffer
import AsioRtc.Lib.Pieces
import AsioRtc.Sdp.Values
import AsioRtc.Sdp.Print
import AsioRtc.Sdp.ReadBack
import AsioRtc.Sdp.Simulcast
import AsioRtc.Sdp.Steps
import AsioRtc.Sdp.Accepted
import AsioRtc.Sdp.Written
import AsioRtc.Sdp.Reparse
import AsioRtc.Rtcp.Layout
import AsioRtc.Rtcp.FeedbackReadBack
import AsioRtc.Srtp.Active
import AsioRtc.Connection.History
import AsioRtc.Connection.Retransmit
import AsioRtc.Connection.AnswerBundle
import AsioRtc.Connection.FirstFit
import AsioRtc.Connection.Application
import AsioRtc.Connection.Levels
import AsioRtc.Sdp.Printed
import AsioRtc.Sdp.RoundTrip
import AsioRtc.Sdp.Sections
import AsioRtc.Lib.Tiling
import AsioRtc.Twcc.Tiling
import AsioRtc.Rtcp.FeedbackDecode
import AsioRtc.Twcc.Arrival
import AsioRtc.Vpx.Packetizer
import AsioRtc.Stream.ReadFrame
import AsioRtc.Rtp.WriteBounds
import AsioRtc.Jitter.Waits
import AsioRtc.Nack.Skipped
import AsioRtc.Nack.Message
import AsioRtc.Ssrc.Lost
import AsioRtc.Connection.SendTime
import AsioRtc.Connection.TransportIds
import AsioRtc.Ssrc.Jitter
import AsioRtc.Twcc.SmallDeltas
import AsioRtc.H264.CompleteUnits
import AsioRtc.H264.Ranges
import AsioRtc.Vpx.Vp9
import AsioRtc.Sdp.Params
import AsioRtc.Sdp.Bodies
import AsioRtc.Sdp.Codecs
import AsioRtc.Sdp.Feedback
import AsioRtc.DataChannel.Open
import AsioRtc.Ice.Candidate
import AsioRtc.Mpegts.Psi
import AsioRtc.Rtcp.Remb
import AsioRtc.Mpegts.Demuxer
import AsioRtc.Mpegts.Sync
import AsioRtc.Mpegts.Reassembly
import AsioRtc.Mpegts.Chunks
import AsioRtc.Connection.Frame
import AsioRtc.Connection.SendLoop
import AsioRtc.Connection.SenderRuns
import AsioRtc.Lib.Network
import AsioRtc.Jitter.Contents
import AsioRtc.Connection.TrackRecv
import AsioRtc.Connection.FramePath
import AsioRtc.Jitter.InOrder
import AsioRtc.Connection.InOrder
import AsioRtc.Connection.Connect
import AsioRtc.Connection.Ends
import AsioRtc.Connection.Spoken
import AsioRtc.Connection.Wire
import AsioRtc.Connection.WireRuns
import AsioRtc.Connection.RtcpLoops
import AsioRtc.Rtcp.Inert
import AsioRtc.Connection.Unheard
import AsioRtc.Connection.Endpoints
import AsioRtc.Lib.LowerBound
