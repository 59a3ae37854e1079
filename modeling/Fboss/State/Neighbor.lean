import Fboss.Route.Types

/-!
# Ports and neighbor entries of the switch state

A neighbor entry (`state/NeighborEntry.h`) is what the ARP table of a VLAN
holds for a v4 address and its NDP table for a v6 address: the MAC the
address was answered from, the port and interface it was learnt on, and
whether it is still pending. A port is a physical port or an aggregate port
(`PortDescriptor`). The tables are sorted by address, as the node maps of the
state are.
-/

namespace Fboss

/-- `PortID`. -/
abbrev PortID := Nat

/-- `AggregatePortID`: 16 bits, as the LACP key it is sent as. -/
abbrev AggregatePortID := UInt16

/-- `VlanID`. -/
abbrev VlanID := Nat

/-- `folly::MacAddress`: 48 bits. -/
abbrev MacAddress := BitVec 48

/-- `MacAddress::BROADCAST`. -/
def MacAddress.BROADCAST : MacAddress := BitVec.allOnes 48

/-- `PortDescriptor`: a physical port or an aggregate port. -/
inductive PortDescriptor where
  | physical (p : PortID)
  | aggregate (p : AggregatePortID)
  deriving DecidableEq, Repr

namespace PortDescriptor

def isPhysicalPort : PortDescriptor → Bool
  | physical _ => true
  | aggregate _ => false

/-- `phyPortID()`, whose `CHECK(type() == PortType::PHYSICAL)` fails on an
aggregate port. -/
def phyPortID : PortDescriptor → Except String PortID
  | physical p => pure p
  | aggregate _ => throw "Check failed: type() == PortType::PHYSICAL"

end PortDescriptor

/-- `NeighborState`. -/
inductive NeighborState where
  | UNVERIFIED
  | PENDING
  | REACHABLE
  deriving DecidableEq, Repr

/-- `cfg::AclLookupClass` of `switch_config.thrift`. -/
inductive AclLookupClass where
  | DST_CLASS_L3_LOCAL_IP4
  | DST_CLASS_L3_LOCAL_IP6
  | CLASS_QUEUE_PER_HOST_QUEUE_0
  | CLASS_QUEUE_PER_HOST_QUEUE_1
  | CLASS_QUEUE_PER_HOST_QUEUE_2
  | CLASS_QUEUE_PER_HOST_QUEUE_3
  | CLASS_QUEUE_PER_HOST_QUEUE_4
  | CLASS_QUEUE_PER_HOST_QUEUE_5
  | CLASS_QUEUE_PER_HOST_QUEUE_6
  | CLASS_QUEUE_PER_HOST_QUEUE_7
  | CLASS_QUEUE_PER_HOST_QUEUE_8
  | CLASS_QUEUE_PER_HOST_QUEUE_9
  deriving DecidableEq, Repr

/-- `NeighborEntryFields`: the address, the MAC and port it was learnt on, the
interface, the state, and the lookup class the switch gave it. -/
structure NeighborEntry where
  ip : IPAddress
  mac : MacAddress
  port : PortDescriptor
  interfaceID : InterfaceID
  state : NeighborState
  classID : Option AclLookupClass
  deriving DecidableEq, Repr

namespace NeighborEntry

/-- The constructor of a pending entry: the broadcast MAC on port 0. -/
def pending (ip : IPAddress) (interfaceID : InterfaceID) : NeighborEntry :=
  ⟨ip, MacAddress.BROADCAST, .physical 0, interfaceID, .PENDING, none⟩

def isPending (e : NeighborEntry) : Bool :=
  e.state == .PENDING

/-- `zeroPort()`: the port is `PortID(0)`. -/
def zeroPort (e : NeighborEntry) : Bool :=
  e.port == .physical 0

end NeighborEntry

/-- `ArpTable` or `NdpTable`: the entries of a VLAN by address. -/
abbrev NeighborTable := FlatMap IPAddress NeighborEntry

/-- A VLAN's neighbor tables. -/
structure Vlan where
  arpTable : NeighborTable
  ndpTable : NeighborTable
  deriving DecidableEq

/-- `getNeighborEntryTable<AddrT>()`: the ARP table for a v4 address, the NDP
table for a v6 address. -/
def Vlan.getNeighborEntryTable (vlan : Vlan) : IPAddress → NeighborTable
  | .v4 _ => vlan.arpTable
  | .v6 _ => vlan.ndpTable

end Fboss
