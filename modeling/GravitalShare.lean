import GravitalShare.Machine
import GravitalShare.OnesComplement
import GravitalShare.Patches
import GravitalShare.FiniteTable
import GravitalShare.FirstCome
import GravitalShare.CyclicCursor
import GravitalShare.Tickets
import GravitalShare.Transition
import GravitalShare.Pipeline
import GravitalShare.Slots
import GravitalShare.LockOrder
import GravitalShare.Channel
import GravitalShare.SharedCell
import GravitalShare.Net
import GravitalShare.NetDisplay
import GravitalShare.StackNat
import GravitalShare.StackRewrite
import GravitalShare.StackConnection
import GravitalShare.StackStream
import GravitalShare.StackClose
import GravitalShare.StackInner
import GravitalShare.StackWorld
import GravitalShare.ProtoIp
import GravitalShare.ProtoViews
import GravitalShare.StackAdmission
import GravitalShare.StackRefine
import GravitalShare.StackRelease
import GravitalShare.StackOutbound
import GravitalShare.StackExact
import GravitalShare.StackHostile
import GravitalShare.StackHandles
import GravitalShare.StackFlows
import GravitalShare.StackBacklog
import GravitalShare.StackPoll
import GravitalShare.EngineSession
import GravitalShare.JniBridge
import GravitalShare.JniEvents
import GravitalShare.EngineDispatch
import GravitalShare.EngineTasks
import GravitalShare.EngineRunner
import GravitalShare.EngineShutdown
import GravitalShare.EngineProcess
import GravitalShare.EngineDescriptors
import GravitalShare.CellThread
import GravitalShare.EngineRestart
import GravitalShare.EngineSolo
import GravitalShare.EngineShadow
import GravitalShare.EngineIsolation
import GravitalShare.EngineOutcome
import GravitalShare.EngineEvents
import GravitalShare.EngineStart
import GravitalShare.EngineTunRead
import GravitalShare.EngineHelpers
import GravitalShare.EngineDnsReply
import GravitalShare.TunDevice
import GravitalShare.EngineDnsTask
import GravitalShare.EngineFragments
import GravitalShare.PrefixCode
import GravitalShare.UdpGwFrame
import GravitalShare.UdpGwMux
import GravitalShare.UdpGwShared
import GravitalShare.Duplex
import GravitalShare.SocksProto
import GravitalShare.SocksServer
import GravitalShare.SocksTunnel
import GravitalShare.SocksConnect
import GravitalShare.SocksDatagram
import GravitalShare.FailFast
import GravitalShare.SocksRelay
import GravitalShare.SocksAssociate
import GravitalShare.EncodedLengths
import GravitalShare.HttpProxy
import GravitalShare.HttpReject
import GravitalShare.HttpAuthority
import GravitalShare.AndroidSession
import GravitalShare.AndroidRegime
import GravitalShare.AndroidFollow
import GravitalShare.AndroidStart
import GravitalShare.AndroidStop
import GravitalShare.SortedAssoc
import GravitalShare.QuotedFields
import GravitalShare.AndroidJson
import GravitalShare.Backoff
import GravitalShare.SocksRetry
import GravitalShare.SocksAuth
import GravitalShare.EngineHistory
import GravitalShare.EngineReconnect
import GravitalShare.EngineChecksum
import GravitalShare.DigitText
import GravitalShare.JsonText
import GravitalShare.JsonWrite
import GravitalShare.ObsEvent
import GravitalShare.NetParse
import GravitalShare.KotlinText
import GravitalShare.EngineConfig
import GravitalShare.AndroidNative
import GravitalShare.AndroidConfig
import GravitalShare.JsonNesting
import GravitalShare.JsonReader
import GravitalShare.AndroidScan
import GravitalShare.AndroidSettings
import GravitalShare.EngineRelay
import GravitalShare.TunnelSystem
import GravitalShare.TunnelUp
import GravitalShare.TunnelDrain
import GravitalShare.TunnelDown
import GravitalShare.ClientLoop
import GravitalShare.ClientDns
import GravitalShare.ClientOutput
