import MoqQuic.L2Machine.Tquic.AckSchedule
import MoqQuic.L2Machine.Tquic.Reassembly
import MoqQuic.L2Machine.Tquic.FlowControl
import MoqQuic.L2Machine.Tquic.SendStream
import MoqQuic.L3Protocol.Moqt.Framing
import MoqQuic.L3Protocol.Tquic.LossTimer
import MoqQuic.L3Protocol.Tquic.AckFrames
import MoqQuic.L3Protocol.Tquic.KeyUpdate
import MoqQuic.L3Protocol.Tquic.ReceiveCredit
import MoqQuic.L3Protocol.Tquic.StreamClosing
import MoqQuic.L3Protocol.Tquic.StreamIds
import MoqQuic.L4App.Bbrv3Port
import MoqQuic.L4App.Relay.Subscriptions
import MoqQuic.L4App.Tquic.AddressValidation
import MoqQuic.L4App.Tquic.Routing
import MoqQuic.L4App.Tquic.EventLoop
import MoqQuic.L5Concurrency.Pipe
import MoqQuic.L3Protocol.Tquic.TransportParams
import MoqQuic.L2Machine.Congestion.Bbrv3MinRtt
import MoqQuic.L2Machine.Congestion.Bbrv1Window
import MoqQuic.L2Machine.Congestion.Pacer
import MoqQuic.L4App.Migration
import MoqQuic.L3Protocol.Tquic.CidRetirement
import MoqQuic.L3Protocol.Tquic.CidLimits
import MoqQuic.L5Concurrency.Bbrv3Stats
import MoqQuic.L2Machine.Quic.FrameReassembly
import MoqQuic.L3Protocol.Quic.ProbeAcks
import MoqQuic.L3Protocol.H3.Settings
