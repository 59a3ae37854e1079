import Fboss.Lib.BitPrefix
import Fboss.Lib.ListSelect
import Fboss.Lib.AssocList
import Fboss.Lib.PartialMap
import Fboss.Lib.Run
import Fboss.RadixTree.Node
import Fboss.RadixTree.Operations
import Fboss.RadixTree.Invariant
import Fboss.RadixTree.Search
import Fboss.RadixTree.Insert
import Fboss.RadixTree.Erase
import Fboss.RadixTree.Reachable
import Fboss.RadixTree.Iterator
import Fboss.RadixTree.Canonical
import Fboss.RadixTree.Trail
import Fboss.Lib.FlatMap
import Fboss.Route.Types
import Fboss.Route.RouteNextHopsMulti
import Fboss.Route.Route
import Fboss.Route.NormalizedNextHops
import Fboss.RadixTree.Values
import Fboss.RadixTree.Composite
import Fboss.Route.Resolve
import Fboss.Rib.RouteUpdater
import Fboss.Lib.ExceptSpec
import Fboss.Route.ResolveSpec
import Fboss.Rib.UpdateDone
import Fboss.Rib.Weights
import Fboss.State.RouteUpdater
import Fboss.State.UpdateDone
import Fboss.Route.Thrift
import Fboss.Rib.RoutingInformationBase
import Fboss.Agent.ApplyThriftConfig
import Fboss.Agent.ThriftHandler
import Fboss.Lib.Bytes
import Fboss.Lib.Dynamic
import Fboss.Lib.Cursor
import Fboss.Lib.IndexLoop
import Fboss.Packet.IPv4Hdr
import Fboss.Packet.EthHdr
import Fboss.Packet.NDP
import Fboss.Packet.DHCPv4Packet
import Fboss.Agent.DHCPv4Handler
import Fboss.Packet.DHCPv6Packet
import Fboss.Agent.DHCPv6Handler
import Fboss.Agent.LinkNeighbor
import Fboss.Agent.LldpManager
import Fboss.State.Neighbor
import Fboss.State.Mirror
import Fboss.Agent.MirrorManager
import Fboss.Agent.Lacp
import Fboss.Agent.LacpSelector
import Fboss.Agent.LacpReceive
import Fboss.Agent.LacpTransmit
import Fboss.Lib.CowHeap
import Fboss.State.NodeBase
import Fboss.Agent.StateUpdate
import Fboss.Agent.UpdateQueue
import Fboss.Agent.SwSwitch
import Fboss.Agent.NeighborCache
import Fboss.Sai.RefMap
import Fboss.State.DeltaFunctions
import Fboss.State.NodeMapDelta
import Fboss.Sai.Managers
import Fboss.Rib.FibUpdater
import Fboss.State.WarmBoot
import Fboss.Agent.LookupClassUpdater
import Fboss.Lib.CircularBuffer
import Fboss.Common.TimeSeriesWithMinMax
import Fboss.Agent.UpdateAcls
import Fboss.Agent.ResolvedNexthopMonitor
import Fboss.Lib.LayeredTree
import Fboss.Usb.PCA9548MuxedBus
import Fboss.Usb.PCA9548MuxedBusDevices
import Fboss.Usb.PCA9548MultiplexedBus
