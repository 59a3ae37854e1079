import Fboss.Sai.RefMap
import Fboss.State.DeltaFunctions
import Fboss.State.Neighbor
import Fboss.Route.Route

/-!
# The SAI managers of neighbors, next-hop groups and routes

`SaiSwitch::stateChanged` hands each delta of the switch state to its
managers, the neighbor manager (`SaiNeighborManager.cpp`) first and the route
manager (`SaiRouteManager.cpp`) after it. A route whose action is `NEXTHOPS`
and that is not connected forwards to the next-hop group of its next-hop set,
which the next-hop group manager (`SaiNextHopGroupManager.cpp`) makes when no
route holds one: the groups are kept in a `RefMap` by next-hop set, and a
route's handle holds a handle to its group, so that a group goes with the last
route that uses it. A group has a member for each of its next hops whose
neighbor is resolved. The group manager indexes each set it makes by the
neighbors of its next hops (`nextHopsByNeighbor_`), and the neighbor manager
calls it when a neighbor is resolved or goes away, to add or remove the
members of the groups of that neighbor.

The model keeps the managers' handles and what their SAI objects are set to:
a neighbor's MAC and the adapter key of its next hop, a group's members by
next-hop adapter key with their weights, a route's packet action and next
hop. Adapter keys are numbered in the order their objects are made. The
router interfaces are given, by interface ID. The virtual routers, the FDB
entries and the stores the SAI objects are kept in are not modelled. A call
that throws ends the run: the source leaves its managers part-way through the
delta, which the model does not follow.
-/

namespace Fboss

deriving instance DecidableEq for RouteNextHopsMulti, Route

/-- `RoutePrefix`: a network and a mask, ordered by mask, then by network. -/
structure RoutePrefix where
  network : IPAddress
  mask : Nat
  deriving DecidableEq, Repr

namespace RoutePrefix

def orderKey (p : RoutePrefix) : Lex (Nat × IPAddress) :=
  toLex (p.mask, p.network)

theorem orderKey_injective : Function.Injective orderKey := by
  rintro ⟨n, m⟩ ⟨n', m'⟩ h
  have hm : m = m' := congrArg (fun x => (ofLex x).1) h
  have hn : n = n' := congrArg (fun x => (ofLex x).2) h
  rw [hm, hn]

instance : LinearOrder RoutePrefix :=
  LinearOrder.lift' orderKey orderKey_injective

end RoutePrefix

/-- A route table of the switch state as the route manager walks it: the node
maps of its v4 and v6 ribs, by prefix. -/
structure RouteTable where
  ribV4 : FlatMap RoutePrefix Route
  ribV6 : FlatMap RoutePrefix Route
  deriving DecidableEq

namespace SaiSwitch

/-- The switch state as the SAI managers read it: the VLANs with their
neighbor tables, and the route tables by VRF. -/
structure SwitchState where
  vlans : FlatMap VlanID Vlan
  routeTables : FlatMap RouterID RouteTable

end SaiSwitch

/-- `SaiNeighborTraits::NeighborEntry` of the one switch: a router interface
and an address. -/
structure SaiNeighborEntry where
  routerInterfaceId : Nat
  ip : IPAddress
  deriving DecidableEq, Repr

/-- `SaiNeighborHandle`: the MAC its neighbor object is made with, and the
adapter key of its next hop. -/
structure SaiNeighborHandle where
  neighbor : MacAddress
  nextHop : Nat
  deriving DecidableEq, Repr

/-- `SaiNextHopGroupHandle`: the adapter key of its group, and the weights of
the group's members by the adapter key of their next hops. -/
structure SaiNextHopGroupHandle where
  nextHopGroup : Nat
  nextHopGroupMembers : FlatMap Nat NextHopWeight

/-- `SAI_PACKET_ACTION_FORWARD` and `SAI_PACKET_ACTION_DROP`. -/
inductive SaiPacketAction where
  | FORWARD
  | DROP
  deriving DecidableEq, Repr

/-- What a route's next hop attribute names. -/
inductive SaiRouteNextHop where
  | nextHopGroup (id : Nat)
  | routerInterface (id : Nat)
  | cpuPort
  deriving DecidableEq, Repr

/-- `SaiRouteTraits::CreateAttributes`: the packet action and the next hop. -/
structure SaiRouteAttributes where
  packetAction : SaiPacketAction
  nextHopId : Option SaiRouteNextHop
  deriving DecidableEq, Repr

/-- `SaiRouteHandle`: what its route is set to, and the handle to its
next-hop group, if it holds one. -/
structure SaiRouteHandle where
  route : SaiRouteAttributes
  nextHopGroupHandle : Option Nat
  deriving DecidableEq, Repr

/-- `SaiRouteTraits::RouteEntry` of the one switch: the VRF and the prefix. -/
structure SaiRouteEntry where
  routerId : RouterID
  destination : RoutePrefix
  deriving DecidableEq, Repr

/-- The managers, with each one's fields under its name: the router
interfaces' adapter keys; the neighbor manager's pending neighbors and
handles; the next-hop group manager's groups and their index by neighbor;
the route manager's handles; and the next adapter key. -/
structure SaiManagerTable where
  routerInterfaces : FlatMap InterfaceID Nat
  unresolvedNeighbors : List SaiNeighborEntry
  neighborHandles : SaiNeighborEntry → Option SaiNeighborHandle
  nextHopGroupHandles : RefMap RouteNextHopSet SaiNextHopGroupHandle
  nextHopsByNeighbor : SaiNeighborEntry → List RouteNextHopSet
  routeHandles : SaiRouteEntry → Option SaiRouteHandle
  nextAdapterKey : Nat

namespace SaiManagerTable

/-- Managers with the given router interfaces and nothing else. -/
def empty (routerInterfaces : FlatMap InterfaceID Nat) : SaiManagerTable :=
  ⟨routerInterfaces, [], PartialMap.empty, RefMap.empty, fun _ => [], PartialMap.empty, 0⟩

/-- The adapter key of an object made now. -/
def newAdapterKey (t : SaiManagerTable) : SaiManagerTable × Nat :=
  ({ t with nextAdapterKey := t.nextAdapterKey + 1 }, t.nextAdapterKey)

/-- `getRouterInterfaceHandle(interfaceId)`, by its adapter key. -/
def getRouterInterfaceHandle (t : SaiManagerTable) (interfaceId : InterfaceID) : Option Nat :=
  t.routerInterfaces.find? interfaceId

/-! ### The next-hop group manager -/

/-- `nextHopsByNeighbor_[neighborEntry].insert(swNextHops)`. -/
def indexNextHops (t : SaiManagerTable) (neighborEntry : SaiNeighborEntry)
    (swNextHops : RouteNextHopSet) : SaiManagerTable :=
  let nextHopSets := (t.nextHopsByNeighbor neighborEntry).insert swNextHops
  { t with nextHopsByNeighbor := Function.update t.nextHopsByNeighbor neighborEntry nextHopSets }

/-- A write to the group handle `id`. -/
def modifyNextHopGroup (t : SaiManagerTable) (id : Nat)
    (f : SaiNextHopGroupHandle → SaiNextHopGroupHandle) : SaiManagerTable :=
  { t with nextHopGroupHandles := t.nextHopGroupHandles.modifyValue id f }

/-- The weight a member is made with: `ECMP_WEIGHT` is 1. -/
def memberWeight (weight : NextHopWeight) : NextHopWeight :=
  if weight = ECMP_WEIGHT then 1 else weight

/-- The loop of `incRefOrAddNextHopGroup` over the next hops of a new group:
each is indexed by its neighbor, and a resolved neighbor's next hop is kept
with the next hop's weight. -/
def indexNextHopsStep (swNextHops : RouteNextHopSet)
    (acc : SaiManagerTable × List (Nat × NextHopWeight)) (swNextHop : NextHop) :
    Except String (SaiManagerTable × List (Nat × NextHopWeight)) := do
  let (t, nextHopIdsAndWeights) := acc
  -- `intf()` is `intfID().value()`
  let some interfaceId := swNextHop.intfID | throw "bad_optional_access"
  let some rifId := t.getRouterInterfaceHandle interfaceId
    | throw "Missing SAI router interface for "
  let neighborEntry : SaiNeighborEntry := ⟨rifId, swNextHop.addr⟩
  let t := t.indexNextHops neighborEntry swNextHops
  match t.neighborHandles neighborEntry with
  | none => pure (t, nextHopIdsAndWeights)
  | some neighborHandle => pure (t, nextHopIdsAndWeights ++ [(neighborHandle.nextHop, swNextHop.weight)])

/-- `incRefOrAddNextHopGroup(swNextHops)`: a new handle to the group of the
set, made with a member per resolved next hop when no route holds one. -/
def incRefOrAddNextHopGroup (t : SaiManagerTable) (swNextHops : RouteNextHopSet) :
    Except String (SaiManagerTable × Nat) := do
  let (handles, some id, ins) := t.nextHopGroupHandles.refOrEmplace swNextHops ⟨0, FlatMap.empty⟩
    | throw "null shared_ptr dereferenced"
  let t := { t with nextHopGroupHandles := handles }
  if !ins then return (t, id)
  let (t, nextHopIdsAndWeights) ← swNextHops.elems.foldlM (indexNextHopsStep swNextHops) (t, [])
  let (t, nextHopGroupId) := t.newAdapterKey
  let members := nextHopIdsAndWeights.foldl
    (fun m nextHopIdWeight => m.set nextHopIdWeight.1 (memberWeight nextHopIdWeight.2)) FlatMap.empty
  pure (t.modifyNextHopGroup id fun _ => ⟨nextHopGroupId, members⟩, id)

/-- A handle to group `id` dropped: with the last one the group goes, and its
set's entry is erased. -/
def releaseNextHopGroup (t : SaiManagerTable) (id : Nat) : SaiManagerTable :=
  { t with nextHopGroupHandles := t.nextHopGroupHandles.dropHandle id }

/-- `handleResolvedNeighbor(neighborEntry, nextHopId)`: each group of a set
indexed by the neighbor gets a member for its next hop, with the weight of the
set's first next hop of the neighbor's address. A set whose group is gone is
skipped. -/
def handleResolvedNeighbor (t : SaiManagerTable) (neighborEntry : SaiNeighborEntry)
    (nextHopId : Nat) : Except String SaiManagerTable :=
  (t.nextHopsByNeighbor neighborEntry).foldlM (fun t nextHopSet =>
    match t.nextHopGroupHandles.get nextHopSet with
    | none => pure t
    | some id =>
      -- `std::find_if` by address only
      match nextHopSet.elems.find? (fun nextHop => nextHop.addr == neighborEntry.ip) with
      | none => throw "end() dereferenced"
      | some swNextHop =>
        let weight := memberWeight swNextHop.weight
        pure (t.modifyNextHopGroup id fun h =>
          { h with nextHopGroupMembers := h.nextHopGroupMembers.set nextHopId weight })) t

/-- `handleUnresolvedNeighbor(neighborEntry, nextHopId)`: the member of the
neighbor's next hop leaves each group of a set indexed by the neighbor. A set
whose group is gone is a `XLOG(FATAL)`. -/
def handleUnresolvedNeighbor (t : SaiManagerTable) (neighborEntry : SaiNeighborEntry)
    (nextHopId : Nat) : Except String SaiManagerTable :=
  (t.nextHopsByNeighbor neighborEntry).foldlM (fun t nextHopSet =>
    match t.nextHopGroupHandles.get nextHopSet with
    | none => throw "No next hop group using next hop set associated with newly unresolved neighbor "
    | some id =>
      pure (t.modifyNextHopGroup id fun h =>
        { h with nextHopGroupMembers := h.nextHopGroupMembers.erase nextHopId })) t

/-! ### The neighbor manager -/

/-- `saiEntryFromSwEntry(swEntry)`. -/
def saiEntryFromSwEntry (t : SaiManagerTable) (swEntry : NeighborEntry) :
    Except String SaiNeighborEntry :=
  match t.getRouterInterfaceHandle swEntry.interfaceID with
  | some rifId => pure ⟨rifId, swEntry.ip⟩
  | none => throw "Failed to create sai_neighbor_entry from NeighborEntry. No SaiRouterInterface for InterfaceID: "

/-- A v6 link-local address, whose resolved neighbors are skipped. -/
def isV6LinkLocal (ip : IPAddress) : Bool :=
  ip.isV6 && ip.isLinkLocal

/-- `addNeighbor(swEntry)`: a pending entry is kept as unresolved; a resolved
one gets a neighbor object with its MAC and a next hop, and its groups are
told. -/
def addNeighbor (t : SaiManagerTable) (swEntry : NeighborEntry) : Except String SaiManagerTable := do
  let saiEntry ← t.saiEntryFromSwEntry swEntry
  if (t.neighborHandles saiEntry).isSome then throw "Attempted to add duplicate neighbor: "
  if swEntry.isPending then
    pure { t with unresolvedNeighbors := t.unresolvedNeighbors.insert saiEntry }
  else if isV6LinkLocal swEntry.ip then
    pure t
  else
    let (t, nextHop) := t.newAdapterKey
    let t := { t with neighborHandles :=
      PartialMap.insertIfAbsent t.neighborHandles saiEntry ⟨swEntry.mac, nextHop⟩ }
    t.handleResolvedNeighbor saiEntry nextHop

/-- `removeNeighbor(swEntry)`: a resolved neighbor's groups are told, and its
handle goes; a pending one leaves the unresolved neighbors. -/
def removeNeighbor (t : SaiManagerTable) (swEntry : NeighborEntry) : Except String SaiManagerTable := do
  if isV6LinkLocal swEntry.ip then return t
  let saiEntry ← t.saiEntryFromSwEntry swEntry
  match t.neighborHandles saiEntry with
  | some neighborHandle =>
    let t ← t.handleUnresolvedNeighbor saiEntry neighborHandle.nextHop
    pure { t with neighborHandles := PartialMap.erase t.neighborHandles saiEntry }
  | none =>
    if saiEntry ∈ t.unresolvedNeighbors then
      pure { t with unresolvedNeighbors := t.unresolvedNeighbors.erase saiEntry }
    else throw "Attempted to remove non-existent neighbor: "

/-- `changeNeighbor(oldSwEntry, newSwEntry)`: an entry that goes from pending
to resolved or back is removed and added again; a change between two resolved
entries, to another MAC or port, is not acted on. -/
def changeNeighbor (t : SaiManagerTable) (oldSwEntry newSwEntry : NeighborEntry) :
    Except String SaiManagerTable :=
  if oldSwEntry.isPending != newSwEntry.isPending then do
    let t ← t.removeNeighbor oldSwEntry
    t.addNeighbor newSwEntry
  else pure t

/-- `processNeighborDelta(delta)`: per VLAN, the changes of its ARP table,
then those of its NDP table. -/
def processNeighborDelta (t : SaiManagerTable) (oldState newState : SaiSwitch.SwitchState) :
    Except String SaiManagerTable :=
  (FlatMap.delta oldState.vlans newState.vlans).foldlM (fun t vlanDelta => do
    let processChanged := fun (_ : IPAddress) oldNeighbor newNeighbor t =>
      changeNeighbor t oldNeighbor newNeighbor
    let processAdded := fun (_ : IPAddress) newNeighbor t => addNeighbor t newNeighbor
    let processRemoved := fun (_ : IPAddress) oldNeighbor t => removeNeighbor t oldNeighbor
    let t ← DeltaFunctions.forEachChanged (nodeMapDelta Vlan.arpTable vlanDelta.2.1 vlanDelta.2.2)
      processChanged processAdded processRemoved t
    DeltaFunctions.forEachChanged (nodeMapDelta Vlan.ndpTable vlanDelta.2.1 vlanDelta.2.2)
      processChanged processAdded processRemoved t) t

/-! ### The route manager -/

/-- `addOrUpdateRoute(routeHandle, routerId, swRoute)`: the route set to its
forwarding information, and the handle's group handle replaced by the one it
now needs; the old one is dropped after the new one is taken. -/
def addOrUpdateRoute (t : SaiManagerTable) (oldNextHopGroupHandle : Option Nat) (swRoute : Route) :
    Except String (SaiManagerTable × SaiRouteHandle) := do
  let fwd := swRoute.getForwardInfo
  let (t, attributes, nextHopGroupHandle) ← match fwd.getAction with
    | .NEXTHOPS =>
      if swRoute.isConnected then do
        -- an interface subnet route forwards to its router interface
        let [nextHop] := fwd.getNextHopSet.elems
          | throw "Check failed: fwd.getNextHopSet().size() == 1"
        let some interfaceId := nextHop.intfID | throw "bad_optional_access"
        let some rifId := t.getRouterInterfaceHandle interfaceId
          | throw "cannot create subnet route without a sai_router_interface for InterfaceID: "
        pure (t, (⟨.FORWARD, some (.routerInterface rifId)⟩ : SaiRouteAttributes), none)
      else do
        let (t, id) ← t.incRefOrAddNextHopGroup fwd.getNextHopSet
        let some group := t.nextHopGroupHandles.lock id | throw "null shared_ptr dereferenced"
        pure (t, ⟨.FORWARD, some (.nextHopGroup group.value.nextHopGroup)⟩, some id)
    | .TO_CPU => pure (t, ⟨.FORWARD, some .cpuPort⟩, none)
    | .DROP => pure (t, ⟨.DROP, none⟩, none)
  let t := match oldNextHopGroupHandle with
    | some old => t.releaseNextHopGroup old
    | none => t
  pure (t, ⟨attributes, nextHopGroupHandle⟩)

/-- `changeRoute(routerId, oldSwRoute, newSwRoute)`. -/
def changeRoute (t : SaiManagerTable) (routerId : RouterID) (destination : RoutePrefix)
    (newSwRoute : Route) : Except String SaiManagerTable := do
  let entry : SaiRouteEntry := ⟨routerId, destination⟩
  let some routeHandle := t.routeHandles entry
    | throw "Failure to update route. Route does not exist "
  let (t, routeHandle) ← t.addOrUpdateRoute routeHandle.nextHopGroupHandle newSwRoute
  pure { t with routeHandles := Function.update t.routeHandles entry (some routeHandle) }

/-- `addRoute(routerId, swRoute)`. -/
def addRoute (t : SaiManagerTable) (routerId : RouterID) (destination : RoutePrefix)
    (swRoute : Route) : Except String SaiManagerTable := do
  let entry : SaiRouteEntry := ⟨routerId, destination⟩
  if (t.routeHandles entry).isSome then throw "Failure to add route. A route already exists to "
  let (t, routeHandle) ← t.addOrUpdateRoute none swRoute
  pure { t with routeHandles := PartialMap.insertIfAbsent t.routeHandles entry routeHandle }

/-- `removeRoute(routerId, swRoute)`: the handle goes, and with it its group
handle. -/
def removeRoute (t : SaiManagerTable) (routerId : RouterID) (destination : RoutePrefix) :
    Except String SaiManagerTable := do
  let entry : SaiRouteEntry := ⟨routerId, destination⟩
  let some routeHandle := t.routeHandles entry
    | throw "Failed to remove non-existent route to "
  let t := { t with routeHandles := PartialMap.erase t.routeHandles entry }
  pure (match routeHandle.nextHopGroupHandle with
    | some id => t.releaseNextHopGroup id
    | none => t)

/-- `processRouteDelta(delta)`: per route table, the changes of its v4 rib,
then those of its v6 rib. -/
def processRouteDelta (t : SaiManagerTable) (oldState newState : SaiSwitch.SwitchState) :
    Except String SaiManagerTable :=
  (FlatMap.delta oldState.routeTables newState.routeTables).foldlM (fun t routeDelta => do
    let routerId := routeDelta.1
    let processChanged := fun destination (_ : Route) newRoute t =>
      changeRoute t routerId destination newRoute
    let processAdded := fun destination newRoute t => addRoute t routerId destination newRoute
    let processRemoved := fun destination (_ : Route) t => removeRoute t routerId destination
    let t ← DeltaFunctions.forEachChanged
      (nodeMapDelta RouteTable.ribV4 routeDelta.2.1 routeDelta.2.2)
      processChanged processAdded processRemoved t
    DeltaFunctions.forEachChanged (nodeMapDelta RouteTable.ribV6 routeDelta.2.1 routeDelta.2.2)
      processChanged processAdded processRemoved t) t

end SaiManagerTable

namespace SaiSwitch

/-- `stateChanged(delta)`, as far as the neighbors and routes go. -/
def stateChanged (t : SaiManagerTable) (oldState newState : SwitchState) :
    Except String SaiManagerTable := do
  let t ← t.processNeighborDelta oldState newState
  t.processRouteDelta oldState newState

/-- The switch programmed with each of a list of states in turn, from the
state it was in: the managers after the last delta, or the first failure. -/
def stateChangedAll : SaiManagerTable → SwitchState → List SwitchState → Except String SaiManagerTable
  | t, _, [] => pure t
  | t, oldState, newState :: states => do
    let t ← stateChanged t oldState newState
    stateChangedAll t newState states

/-- A neighbor is resolved together with a route over it; the route is
removed, and then the neighbor. The route's group went with it, but its
next-hop set is still indexed by the neighbor (`nextHopsByNeighbor_` is never
pruned), and the neighbor's removal reaches the `XLOG(FATAL)` of
`handleUnresolvedNeighbor`. Besides, a resolved neighbor that moves to another
MAC keeps its neighbor object with the MAC it was first resolved to. -/
theorem fatal_on_neighbor_removal_after_route_removal :
    let ip : IPAddress := .v4 0x0a000002#32
    let vlans (mac : MacAddress) : FlatMap VlanID Vlan :=
      FlatMap.ofList [(1, ⟨FlatMap.ofList [(ip, ⟨ip, mac, .physical 1, 1, .REACHABLE, none⟩)],
        FlatMap.empty⟩)]
    let nextHops : RouteNextHopSet := FlatSet.ofList [ResolvedNextHop ip 1 ECMP_WEIGHT none]
    let route : Route :=
      ⟨RouteNextHopsMulti.empty (-1), .ofNextHops nextHops 1, ⟨false, true, false, false⟩⟩
    let routeTables : FlatMap RouterID RouteTable :=
      FlatMap.ofList [(0, ⟨FlatMap.ofList [(⟨.v4 0x0a010000#32, 16⟩, route)], FlatMap.empty⟩)]
    let empty : SwitchState := ⟨FlatMap.empty, FlatMap.empty⟩
    let t₀ := SaiManagerTable.empty (FlatMap.ofList [(1, 100)])
    let states : List SwitchState :=
      [⟨vlans 0x020000000002#48, routeTables⟩, ⟨vlans 0x020000000002#48, FlatMap.empty⟩, empty]
    ((stateChangedAll t₀ empty (states.take 2)).toOption.map fun t =>
        (t.nextHopGroupHandles.get nextHops, t.nextHopsByNeighbor ⟨100, ip⟩)) =
      some (none, [nextHops]) ∧
    (stateChangedAll t₀ empty states).map (fun _ => ()) =
      .error "No next hop group using next hop set associated with newly unresolved neighbor " ∧
    ((stateChangedAll t₀ empty
        [⟨vlans 0x020000000002#48, FlatMap.empty⟩, ⟨vlans 0x020000000003#48, FlatMap.empty⟩]).toOption.map
        fun t => (t.neighborHandles ⟨100, ip⟩).map SaiNeighborHandle.neighbor) =
      some (some 0x020000000002#48) := by
  decide +kernel

end SaiSwitch

end Fboss
