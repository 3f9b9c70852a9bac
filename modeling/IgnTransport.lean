import IgnTransport.Lib.Codec
import IgnTransport.Lib.Cursor
import IgnTransport.Lib.OrderedMap
import IgnTransport.Lib.Iterator
import IgnTransport.Lib.Table
import IgnTransport.Lib.Run
import IgnTransport.Lib.Network
import IgnTransport.Lib.Calls
import IgnTransport.Lib.Prefer
import IgnTransport.Lib.Floating
import IgnTransport.TransportTypes
import IgnTransport.Packet
import IgnTransport.PacketWire
import IgnTransport.TopicStorage
import IgnTransport.Discovery
import IgnTransport.DiscoveryWire
import IgnTransport.DiscoverySend
import IgnTransport.DiscoveryPeers
import IgnTransport.DiscoveryNoninterference
import IgnTransport.DiscoveryRun
import IgnTransport.DiscoveryAgreement
import IgnTransport.TopicStorageMap
import IgnTransport.HandlerStorage
import IgnTransport.TopicUtils
import IgnTransport.TopicNames
import IgnTransport.NodeShared
import IgnTransport.HandlerStorageMap
import IgnTransport.DiscoveryOutputs
import IgnTransport.NodeSharedTables
import IgnTransport.Node
import IgnTransport.ProcessTables
import IgnTransport.RemoteSubscribers
import IgnTransport.Connections
import IgnTransport.SubscriberSocket
import IgnTransport.Advertisements
import IgnTransport.Requests
import IgnTransport.StrandedRequests
import IgnTransport.Disconnections
import IgnTransport.DiscoveryAnnouncements
import IgnTransport.PacketCanonical
import IgnTransport.PendingSends
import IgnTransport.Reception
import IgnTransport.RequestLifetimes
import IgnTransport.BlockingRequest
import IgnTransport.DiscoverySweep
import IgnTransport.DiscoveryCallbacks
import IgnTransport.DiscoveryTransmit
import IgnTransport.DiscoveryStatements
import IgnTransport.DiscoveryNetwork
import IgnTransport.DiscoveryPersistence
import IgnTransport.DiscoveryAnswers
import IgnTransport.TopicLists
import IgnTransport.SocketFilters
import IgnTransport.Unsubscribing
import IgnTransport.ServiceEndpoints
import IgnTransport.NetUtils
import IgnTransport.PacketRefusals
import IgnTransport.StorageReports
import IgnTransport.ProcessEffects
import IgnTransport.ProcessNetwork
import IgnTransport.ServiceCalls
import IgnTransport.Publications
import IgnTransport.Responders
import IgnTransport.Lib.Locks
import IgnTransport.LockDiscipline
import IgnTransport.DiscoveryServices
import IgnTransport.Exchange
import IgnTransport.Recovery
