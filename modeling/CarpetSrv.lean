import CarpetSrv.Foundation.BoundedLoop
import CarpetSrv.Foundation.GuardedRun
import CarpetSrv.Foundation.BigEndian
import CarpetSrv.Foundation.StreamTransducer
import CarpetSrv.Foundation.CipherFeedback
import CarpetSrv.Foundation.BatchWriter
import CarpetSrv.Foundation.ReadCursor
import CarpetSrv.Foundation.ReadFrontier
import CarpetSrv.Foundation.PaddedPrefix
import CarpetSrv.Foundation.OperandOrder
import CarpetSrv.Foundation.PrefixCode
import CarpetSrv.Foundation.SizedReader
import CarpetSrv.Foundation.ArrayMemory
import CarpetSrv.Foundation.LockOrder
import CarpetSrv.Utils.UTF16Storage
import CarpetSrv.Utils.UTF16Values
import CarpetSrv.Utils.StringText
import CarpetSrv.Utils.ArrayAccounting
import CarpetSrv.Packet.Buffer
import CarpetSrv.Packet.BufferReaders
import CarpetSrv.Packet.BufferWriters
import CarpetSrv.Packet.FieldSequence
import CarpetSrv.Packet.FieldArrival
import CarpetSrv.Packet.PacketRoundTrip
import CarpetSrv.Packet.EvaluationOrder
import CarpetSrv.Packet.ReadSafety
import CarpetSrv.Packet.Packets
import CarpetSrv.Packet.WireFormat
import CarpetSrv.Packet.PacketStream
import CarpetSrv.Packet.LengthPrefix
import CarpetSrv.Packet.KickReason
import CarpetSrv.Packet.DeclaredLengths
import CarpetSrv.Network.Connection
import CarpetSrv.Network.ConnectionRun
import CarpetSrv.Network.HandlerSpec
import CarpetSrv.Network.ConnectionFrame
import CarpetSrv.Network.RunInvariant
import CarpetSrv.Network.AuthenticationGate
import CarpetSrv.Network.OutgoingStream
import CarpetSrv.Network.LoginStateMachine
import CarpetSrv.Network.StrandedPackets
import CarpetSrv.Network.Disconnection
import CarpetSrv.Network.Framing
import CarpetSrv.Network.ReadBuffer
import CarpetSrv.Network.ReceivedBytes
import CarpetSrv.Network.InboundCipher
import CarpetSrv.Network.Resynchronisation
import CarpetSrv.Network.PacketRound
import CarpetSrv.Network.PacketDelivery
import CarpetSrv.Network.LoginCompletion
import CarpetSrv.Network.LoginPackets
import CarpetSrv.Network.LastWrite
import CarpetSrv.Network.EarlyPlayerEffects
import CarpetSrv.Network.AliveReading
import CarpetSrv.Network.ConcurrentWrites
import CarpetSrv.Network.ChunkedReading
import CarpetSrv.Network.StreamCuts
import CarpetSrv.Network.Segmentation
import CarpetSrv.Network.ServerInfo
import CarpetSrv.Network.HandlerFailure
import CarpetSrv.Network.PostedReads
import CarpetSrv.Network.PlayerNames
import CarpetSrv.Server.VanillaMinecraftServer
import CarpetSrv.Server.SessionProjection
import CarpetSrv.Server.SessionLifetime
import CarpetSrv.Server.SessionRuns
import CarpetSrv.Server.Locks
import CarpetSrv.Server.PlayerLifetime
import CarpetSrv.Server.PlayerOwnership
import CarpetSrv.Command.CommandHandler
import CarpetSrv.Command.ConsoleSnapshot
import CarpetSrv.Command.CommandEffect
