import Sponge.Util.Buffer
import Sponge.Util.FileDescriptor
import Sponge.Util.EventLoop.Lifecycle
import Sponge.TCPHelpers.TCPOverIP
import Sponge.TCPHelpers.Reserialization
import Sponge.TCPHelpers.Listening
import Sponge.TCPHelpers.FdAdapter.Lawful
import Sponge.ByteStream.Queue
import Sponge.StreamReassembler.Delivery
import Sponge.StreamReassembler.Memory
import Sponge.StreamReassembler.OrderIndependence
import Sponge.StreamReassembler.Bounds
import Sponge.StreamReassembler.SparseMap
import Sponge.StreamReassembler.Wraparound
import Sponge.TCPReceiver.Arrival
import Sponge.TCPReceiver.Placement
import Sponge.TCPReceiver.Finality
import Sponge.TCPReceiver.Bounds
import Sponge.TCPSender.Encoding
import Sponge.TCPSender.FlowControl
import Sponge.TCPSender.Progress
import Sponge.TCPSender.Outstanding
import Sponge.TCPSender.Timer
import Sponge.TCPConnection.Acknowledgment
import Sponge.TCPConnection.Silence
import Sponge.TCPConnection.Closing
import Sponge.TCPConnection.FrontReads
import Sponge.TCPConnection.Stamps
import Sponge.TCPConnection.Handshake
import Sponge.TCPConnection.Outbound
import Sponge.TCPConnection.States
import Sponge.TCPConnection.Shutdown
import Sponge.TCPConnection.Retransmission
import Sponge.TCPHelpers.TCPSpongeSocket.Lifetime
import Sponge.Network
import Sponge.Network.CleanClose
import Sponge.Network.States
import Sponge.Network.Sockets
import Sponge.Apps.BidirectionalStreamCopy
import Sponge.Apps.TcpUdp
