import Fboss.State.DeltaFunctions
import Fboss.State.Neighbor

/-!
# The lookup class updater

`LookupClassUpdater` (`LookupClassUpdater.cpp`) observes the switch state and
gives the hosts behind a port with lookup classes configured a queue each:
every MAC seen on such a port, in its VLANs' MAC tables or in a reachable ARP
or NDP entry, is given the class of the port with the fewest MACs, and the
state is updated to carry it. Per port it keeps the class and a reference
count of each MAC (`port2MacEntries_`) and the number of MACs of each class
(`port2ClassIDAndCount_`), both kept up to date from the changes of each
delta: entries added, removed and changed, and ports added, removed and given
other lookup classes. An entry that already carries a class is not counted
again, as it is the echo of the updater's own update. The first delta
initialises the counts from the classes the new state's entries carry.

The model follows each delta's calls in the source's order and returns the
counts with the state updates the updater schedules. A failed `CHECK` is an
error, and ends the run.
-/

namespace Fboss

namespace AclLookupClass

/-- The thrift value of a class. -/
def toNat : AclLookupClass → Nat
  | DST_CLASS_L3_LOCAL_IP4 => 1
  | DST_CLASS_L3_LOCAL_IP6 => 2
  | CLASS_QUEUE_PER_HOST_QUEUE_0 => 10
  | CLASS_QUEUE_PER_HOST_QUEUE_1 => 11
  | CLASS_QUEUE_PER_HOST_QUEUE_2 => 12
  | CLASS_QUEUE_PER_HOST_QUEUE_3 => 13
  | CLASS_QUEUE_PER_HOST_QUEUE_4 => 14
  | CLASS_QUEUE_PER_HOST_QUEUE_5 => 15
  | CLASS_QUEUE_PER_HOST_QUEUE_6 => 16
  | CLASS_QUEUE_PER_HOST_QUEUE_7 => 17
  | CLASS_QUEUE_PER_HOST_QUEUE_8 => 18
  | CLASS_QUEUE_PER_HOST_QUEUE_9 => 19

theorem toNat_injective : Function.Injective toNat := by
  intro a b h
  cases a <;> cases b <;> simp [toNat] at h ⊢

/-- Classes are ordered by their thrift values. -/
instance : LinearOrder AclLookupClass :=
  LinearOrder.lift' toNat toNat_injective

end AclLookupClass

/-- MAC addresses are ordered by their 48-bit values. -/
instance : LinearOrder MacAddress :=
  LinearOrder.lift' BitVec.toNat fun _ _ => BitVec.eq_of_toNat_eq

/-- `MacEntry`: a MAC learnt on a port, and the class the updater gave it. -/
structure MacEntry where
  mac : MacAddress
  port : PortDescriptor
  classID : Option AclLookupClass
  deriving DecidableEq, Repr

/-- `MacTable`: the MAC entries of a VLAN by MAC. -/
abbrev MacTable := FlatMap MacAddress MacEntry

namespace LookupClassUpdater

/-- A port of the switch state as the updater reads it: its lookup classes and
its VLANs. -/
structure Port where
  lookupClassesToDistributeTrafficOn : List AclLookupClass
  vlans : List VlanID
  deriving DecidableEq, Repr

/-- A VLAN of the switch state as the updater reads it: its MAC table besides
its neighbor tables. -/
structure Vlan extends Fboss.Vlan where
  macTable : MacTable
  deriving DecidableEq

/-- The switch state as the updater reads it. -/
structure SwitchState where
  ports : FlatMap PortID Port
  vlans : FlatMap VlanID Vlan

/-- The tables the updater walks, by the address type the source's templates
take: `folly::MacAddress`, `folly::IPAddressV6` and `folly::IPAddressV4`. -/
inductive TableKind where
  | mac
  | ndp
  | arp
  deriving DecidableEq, Repr

/-- An entry of a MAC, NDP or ARP table. -/
inductive TableEntry where
  | mac (e : MacEntry)
  | neighbor (e : NeighborEntry)
  deriving DecidableEq, Repr

namespace TableEntry

def getMac : TableEntry → MacAddress
  | mac e => e.mac
  | neighbor e => e.mac

def getPort : TableEntry → PortDescriptor
  | mac e => e.port
  | neighbor e => e.port

def getClassID : TableEntry → Option AclLookupClass
  | mac e => e.classID
  | neighbor e => e.classID

/-- `isReachable()` of a neighbor entry. -/
def isReachable (e : NeighborEntry) : Bool :=
  e.state == .REACHABLE

end TableEntry

/-- `getTable<AddrT>(vlan)`: the entries of the table, in key order. -/
def getTable : TableKind → Vlan → List TableEntry
  | .mac, vlan => vlan.macTable.toList.map fun p => .mac p.2
  | .ndp, vlan => vlan.ndpTable.toList.map fun p => .neighbor p.2
  | .arp, vlan => vlan.arpTable.toList.map fun p => .neighbor p.2

/-- `getTableDelta<AddrT>(vlanDelta)`: the changes of the table. -/
def getTableDelta : TableKind → Option Vlan → Option Vlan →
    List (Option TableEntry × Option TableEntry)
  | .mac, oldVlan, newVlan => (nodeMapDelta Vlan.macTable oldVlan newVlan).map fun d =>
    (d.2.1.map .mac, d.2.2.map .mac)
  | .ndp, oldVlan, newVlan => (nodeMapDelta (·.ndpTable) oldVlan newVlan).map fun d =>
    (d.2.1.map .neighbor, d.2.2.map .neighbor)
  | .arp, oldVlan, newVlan => (nodeMapDelta (·.arpTable) oldVlan newVlan).map fun d =>
    (d.2.1.map .neighbor, d.2.2.map .neighbor)

/-- A state update the updater schedules: an entry given a class, or its class
removed (`none`), through `SwSwitch::updateState` for a MAC entry and through
the neighbor updater for an ARP or NDP entry. -/
inductive ClassIDUpdate where
  | macEntry (vlan : VlanID) (mac : MacAddress) (classID : Option AclLookupClass)
  | neighborEntry (vlan : VlanID) (ip : IPAddress) (classID : Option AclLookupClass)
  deriving DecidableEq, Repr

/-- The update of an entry's class. -/
def classIDUpdate (vlan : VlanID) (entry : TableEntry) (classID : Option AclLookupClass) :
    ClassIDUpdate :=
  match entry with
  | .mac e => .macEntry vlan e.mac classID
  | .neighbor e => .neighborEntry vlan e.ip classID

end LookupClassUpdater

/-- `ClassID2Count`: the number of MACs of each class. -/
abbrev ClassID2Count := FlatMap AclLookupClass Int

/-- `Mac2ClassIDAndRefCnt`: the class and reference count of each MAC. -/
abbrev Mac2ClassIDAndRefCnt := FlatMap MacAddress (AclLookupClass × Int)

/-- The updater's counts by port, whether it has been initialised, and the
state updates it has scheduled. -/
structure LookupClassUpdater where
  port2ClassIDAndCount : FlatMap PortID ClassID2Count
  port2MacEntries : FlatMap PortID Mac2ClassIDAndRefCnt
  inited : Bool
  scheduled : List LookupClassUpdater.ClassIDUpdate

namespace LookupClassUpdater

variable (u : LookupClassUpdater)

/-- An updater that has seen no delta. -/
def empty : LookupClassUpdater :=
  ⟨FlatMap.empty, FlatMap.empty, false, []⟩

/-- `port2MacEntries_[portID]`, made empty if absent. -/
def macEntries (portID : PortID) : Mac2ClassIDAndRefCnt :=
  (u.port2MacEntries.find? portID).getD FlatMap.empty

/-- `port2ClassIDAndCount_[portID]`, made empty if absent. -/
def classIDAndCount (portID : PortID) : ClassID2Count :=
  (u.port2ClassIDAndCount.find? portID).getD FlatMap.empty

def setMacEntries (portID : PortID) (m : Mac2ClassIDAndRefCnt) : LookupClassUpdater :=
  { u with port2MacEntries := u.port2MacEntries.set portID m }

def setClassIDAndCount (portID : PortID) (c : ClassID2Count) : LookupClassUpdater :=
  { u with port2ClassIDAndCount := u.port2ClassIDAndCount.set portID c }

def schedule (update : ClassIDUpdate) : LookupClassUpdater :=
  { u with scheduled := u.scheduled ++ [update] }

/-- `getRefCnt(portID, mac, classID)`. -/
def getRefCnt (portID : PortID) (mac : MacAddress) (classID : AclLookupClass) :
    Except String (LookupClassUpdater × Int) :=
  let u := u.setMacEntries portID (u.macEntries portID)
  match (u.macEntries portID).find? mac with
  | none => pure (u, 0)
  | some (classID', refCnt) =>
    if classID = classID' then pure (u, refCnt) else throw "Check failed: classID == _classID"

/-- `getClassIDwithMinimumNeighbors(classID2Count)`: the first class of the
least count. -/
def getClassIDwithMinimumNeighbors (classID2Count : ClassID2Count) : Except String AclLookupClass :=
  match classID2Count.toList with
  | [] => throw "Check failed: minItr != classID2Count.end()"
  | c :: cs => pure (cs.foldl (fun m c => if c.2 < m.2 then c else m) c).1

/-- `classID2Count[classID] += delta`, from 0 if absent. -/
def addClassIDCount (classID2Count : ClassID2Count) (classID : AclLookupClass) (delta : Int) :
    ClassID2Count :=
  classID2Count.set classID (((classID2Count.find? classID).getD 0) + delta)

/-- The port of a physical port's entry (`getPort().phyPortID()`), with its
lookup classes, if it is in the state and has some. -/
def portWithLookupClasses (switchState : SwitchState) (entry : TableEntry) :
    Except String (Option PortID) := do
  let portID ← entry.getPort.phyPortID
  match switchState.ports.find? portID with
  | some port =>
    pure (if port.lookupClassesToDistributeTrafficOn.length = 0 then none else some portID)
  | none => pure none

/-- `removeNeighborFromLocalCacheForEntry(removedEntry)`: one reference less
to the entry's MAC on its port; with the last one the MAC's class loses it. -/
def removeNeighborFromLocalCacheForEntry (removedEntry : TableEntry) :
    Except String LookupClassUpdater := do
  let portID ← removedEntry.getPort.phyPortID
  let mac := removedEntry.getMac
  let mac2ClassIDAndRefCnt := u.macEntries portID
  let classID2Count := u.classIDAndCount portID
  -- `mac2ClassIDAndRefCnt[mac]` of a MAC without an entry has the count 0
  let some (classID, refCnt) := mac2ClassIDAndRefCnt.find? mac
    | throw "Check failed: refCnt > 0"
  if refCnt ≤ 0 then throw "Check failed: refCnt > 0"
  let refCnt := refCnt - 1
  if refCnt = 0 then
    let classID2Count := addClassIDCount classID2Count classID (-1)
    if (classID2Count.find? classID).getD 0 < 0 then throw "Check failed: classID2Count[classID] >= 0"
    pure ((u.setMacEntries portID (mac2ClassIDAndRefCnt.erase mac)).setClassIDAndCount portID
      classID2Count)
  else
    pure (u.setMacEntries portID (mac2ClassIDAndRefCnt.set mac (classID, refCnt)))

/-- `removeClassIDForPortAndMac(switchState, vlan, removedEntry)`: on a port
with lookup classes, the entry's MAC loses a reference and the entry its
class. -/
def removeClassIDForPortAndMac (switchState : SwitchState) (vlan : VlanID)
    (removedEntry : TableEntry) : Except String LookupClassUpdater := do
  match ← portWithLookupClasses switchState removedEntry with
  | none => pure u
  | some _ =>
    let u ← u.removeNeighborFromLocalCacheForEntry removedEntry
    pure (u.schedule (classIDUpdate vlan removedEntry none))

/-- `updateNeighborClassID(switchState, vlan, newEntry)`: on a port with
lookup classes, the entry's MAC gets one more reference, and a MAC not seen on
the port before gets the class with the fewest MACs; the entry is given the
MAC's class. -/
def updateNeighborClassID (switchState : SwitchState) (vlan : VlanID) (newEntry : TableEntry) :
    Except String LookupClassUpdater := do
  match ← portWithLookupClasses switchState newEntry with
  | none => pure u
  | some portID =>
    let mac := newEntry.getMac
    let mac2ClassIDAndRefCnt := u.macEntries portID
    let classID2Count := u.classIDAndCount portID
    let (u, classID) ← match mac2ClassIDAndRefCnt.find? mac with
      | none => do
        let classID ← getClassIDwithMinimumNeighbors classID2Count
        let u := u.setMacEntries portID (mac2ClassIDAndRefCnt.insert mac (classID, 1))
        pure (u.setClassIDAndCount portID (addClassIDCount classID2Count classID 1), classID)
      | some (classID, refCnt) =>
        pure (u.setMacEntries portID (mac2ClassIDAndRefCnt.set mac (classID, refCnt + 1)), classID)
    pure (u.schedule (classIDUpdate vlan newEntry (some classID)))

/-- `processNeighborAdded(switchState, vlan, addedEntry)`: a MAC entry, or a
reachable neighbor. -/
def processNeighborAdded (switchState : SwitchState) (vlan : VlanID) :
    TableEntry → Except String LookupClassUpdater
  | .mac e => u.updateNeighborClassID switchState vlan (.mac e)
  | .neighbor e =>
    if TableEntry.isReachable e then u.updateNeighborClassID switchState vlan (.neighbor e)
    else pure u

/-- `processNeighborRemoved(switchState, vlan, removedEntry)`, whatever the
state of the entry. -/
def processNeighborRemoved (switchState : SwitchState) (vlan : VlanID) (removedEntry : TableEntry) :
    Except String LookupClassUpdater :=
  u.removeClassIDForPortAndMac switchState vlan removedEntry

/-- `processNeighborChanged(stateDelta, vlan, oldEntry, newEntry)`. A MAC
entry that moves is not handled (`TODO (skhare) handle MAC Move`). A neighbor
that becomes reachable is counted in the new state, one that stops being
reachable is uncounted in the old, and a reachable one that moves to another
port or MAC is both. -/
def processNeighborChanged (oldState newState : SwitchState) (vlan : VlanID) :
    TableEntry → TableEntry → Except String LookupClassUpdater
  | .neighbor oldEntry, .neighbor newEntry => do
    if oldEntry.ip ≠ newEntry.ip then throw "Check failed: oldEntry->getIP() == newEntry->getIP()"
    let u ← if !TableEntry.isReachable oldEntry && TableEntry.isReachable newEntry then
        u.updateNeighborClassID newState vlan (.neighbor newEntry)
      else pure u
    let u ← if TableEntry.isReachable oldEntry && !TableEntry.isReachable newEntry then
        u.removeClassIDForPortAndMac oldState vlan (.neighbor oldEntry)
      else pure u
    let oldPortID ← oldEntry.port.phyPortID
    let newPortID ← newEntry.port.phyPortID
    if TableEntry.isReachable oldEntry && TableEntry.isReachable newEntry &&
        (oldPortID != newPortID || oldEntry.mac != newEntry.mac) then do
      let u ← u.removeClassIDForPortAndMac oldState vlan (.neighbor oldEntry)
      u.updateNeighborClassID newState vlan (.neighbor newEntry)
    else pure u
  | _, _ => pure u

/-- The handling of one change of a table in `processNeighborUpdates`: an
entry on an aggregate port, or whose new node carries a class, is skipped. -/
def processNeighborUpdate (oldState newState : SwitchState) (vlan : VlanID)
    (delta : Option TableEntry × Option TableEntry) : Except String LookupClassUpdater :=
  let isAggregate (entry : Option TableEntry) : Bool :=
    entry.any fun e => !e.getPort.isPhysicalPort
  if isAggregate delta.1 || isAggregate delta.2 then pure u
  else if delta.2.any fun e => e.getClassID.isSome then pure u
  else match delta with
    | (none, some newEntry) => u.processNeighborAdded newState vlan newEntry
    | (some oldEntry, none) => u.processNeighborRemoved oldState vlan oldEntry
    | (some oldEntry, some newEntry) => u.processNeighborChanged oldState newState vlan oldEntry newEntry
    | (none, none) => pure u

/-- `processNeighborUpdates<AddrT>(stateDelta)`: the changes of one kind of
table, VLAN by VLAN; a VLAN that is gone is skipped. -/
def processNeighborUpdates (kind : TableKind) (oldState newState : SwitchState) :
    Except String LookupClassUpdater :=
  (FlatMap.delta oldState.vlans newState.vlans).foldlM (fun u vlanDelta =>
    match vlanDelta with
    | (_, _, none) => pure u
    | (vlan, oldVlan, some newVlan) =>
      (getTableDelta kind oldVlan (some newVlan)).foldlM
        (fun u delta => u.processNeighborUpdate oldState newState vlan delta) u) u

/-- `isInited(portID)`. -/
def isInited (portID : PortID) : Bool :=
  (u.port2MacEntries.find? portID).isSome && (u.port2ClassIDAndCount.find? portID).isSome

/-- `initPort(port)`: no MAC, and the count 0 for each of the port's classes. -/
def initPort (portID : PortID) (port : Port) : LookupClassUpdater :=
  let classID2Count := port.lookupClassesToDistributeTrafficOn.foldl
    (fun c classID => c.set classID 0) FlatMap.empty
  (u.setMacEntries portID FlatMap.empty).setClassIDAndCount portID classID2Count

/-- The entries of the tables of `kind` of the VLANs of port `portID` in
`switchState` that are on that physical port, VLAN by VLAN. -/
def portEntries (kind : TableKind) (switchState : SwitchState) (portID : PortID) (port : Port) :
    List (VlanID × TableEntry) :=
  port.vlans.flatMap fun vlanID =>
    match switchState.vlans.find? vlanID with
    | none => []
    | some vlan =>
      ((getTable kind vlan).filter fun entry =>
        entry.getPort.isPhysicalPort && entry.getPort == .physical portID).map (vlanID, ·)

/-- `clearClassIdsForResolvedNeighbors<AddrT>(switchState, portID)`: each
entry on the port that carries a class loses it, and its MAC a reference. The
port is dereferenced unchecked. -/
def clearClassIdsForResolvedNeighbors (kind : TableKind) (switchState : SwitchState)
    (portID : PortID) : Except String LookupClassUpdater := do
  let some port := switchState.ports.find? portID | throw "null shared_ptr dereferenced"
  ((portEntries kind switchState portID port).filter fun p => p.2.getClassID.isSome).foldlM
    (fun u p => do
      let u ← u.removeNeighborFromLocalCacheForEntry p.2
      pure (u.schedule (classIDUpdate p.1 p.2 none))) u

/-- `repopulateClassIdsForResolvedNeighbors<AddrT>(switchState, portID)`:
each entry on the port is given a class, whether reachable or not. -/
def repopulateClassIdsForResolvedNeighbors (kind : TableKind) (switchState : SwitchState)
    (portID : PortID) : Except String LookupClassUpdater := do
  let some port := switchState.ports.find? portID | throw "null shared_ptr dereferenced"
  (portEntries kind switchState portID port).foldlM
    (fun u p => u.updateNeighborClassID switchState p.1 p.2) u

/-- `validateRemovedPortEntries<AddrT>(vlan, portID)`: no entry of the table
is on the port. -/
def validateRemovedPortEntries (kind : TableKind) (vlan : Vlan) (portID : PortID) :
    Except String Unit :=
  if (getTable kind vlan).any fun entry => entry.getPort == .physical portID then
    throw "Check failed: entry->getPort().phyPortID() != portID"
  else pure ()

/-- `processPortAdded(addedPort)`: a port with lookup classes is initialised,
unless it already is. -/
def processPortAdded (portID : PortID) (addedPort : Port) : LookupClassUpdater :=
  if addedPort.lookupClassesToDistributeTrafficOn.length = 0 then u
  else if !u.isInited portID then u.initPort portID addedPort
  else u

/-- `processPortRemoved(switchState, removedPort)`: no entry of the new state
may be on the port, and its counts go. -/
def processPortRemoved (switchState : SwitchState) (portID : PortID) (removedPort : Port) :
    Except String LookupClassUpdater := do
  for vlanID in removedPort.vlans do
    match switchState.vlans.find? vlanID with
    | none => pure ()
    | some vlan =>
      validateRemovedPortEntries .mac vlan portID
      validateRemovedPortEntries .ndp vlan portID
      validateRemovedPortEntries .arp vlan portID
  pure { u with
    port2MacEntries := u.port2MacEntries.erase portID
    port2ClassIDAndCount := u.port2ClassIDAndCount.erase portID }

/-- `processPortChanged(stateDelta, oldPort, newPort)`: when the sorted lists
of lookup classes differ, the port's entries lose their classes in the old
state, the port is initialised again, and its entries are given classes in the
new state. -/
def processPortChanged (oldState newState : SwitchState) (portID : PortID) (oldPort newPort : Port) :
    Except String LookupClassUpdater := do
  if oldPort.lookupClassesToDistributeTrafficOn.mergeSort =
      newPort.lookupClassesToDistributeTrafficOn.mergeSort then
    return u
  let u ← u.clearClassIdsForResolvedNeighbors .mac oldState portID
  let u ← u.clearClassIdsForResolvedNeighbors .ndp oldState portID
  let u ← u.clearClassIdsForResolvedNeighbors .arp oldState portID
  let u := u.initPort portID newPort
  let u ← u.repopulateClassIdsForResolvedNeighbors .mac newState portID
  let u ← u.repopulateClassIdsForResolvedNeighbors .ndp newState portID
  u.repopulateClassIdsForResolvedNeighbors .arp newState portID

/-- `processPortUpdates(stateDelta)`; a removed port is checked against the
new state. -/
def processPortUpdates (oldState newState : SwitchState) : Except String LookupClassUpdater :=
  (FlatMap.delta oldState.ports newState.ports).foldlM (fun u portDelta =>
    match portDelta with
    | (portID, none, some newPort) => pure (u.processPortAdded portID newPort)
    | (portID, some oldPort, none) => u.processPortRemoved newState portID oldPort
    | (portID, some oldPort, some newPort) =>
      u.processPortChanged oldState newState portID oldPort newPort
    | (_, none, none) => pure u) u

/-- `updateStateObserverLocalCacheForEntry(newEntry)`: a reference to the
entry's MAC with the class it carries. -/
def updateStateObserverLocalCacheForEntry (newEntry : TableEntry) (classID : AclLookupClass) :
    Except String LookupClassUpdater := do
  let portID ← newEntry.getPort.phyPortID
  let mac2ClassIDAndRefCnt := u.macEntries portID
  let classID2Count := u.classIDAndCount portID
  let mac := newEntry.getMac
  match mac2ClassIDAndRefCnt.find? mac with
  | none =>
    let u := u.setMacEntries portID (mac2ClassIDAndRefCnt.insert mac (classID, 1))
    pure (u.setClassIDAndCount portID (addClassIDCount classID2Count classID 1))
  | some (classID', refCnt) =>
    if classID' ≠ classID then throw "Check failed: classID_ == classID"
    pure (u.setMacEntries portID (mac2ClassIDAndRefCnt.set mac (classID, refCnt + 1)))

/-- `updateStateObserverLocalCache(switchState)`: every port initialised, and
the classes the entries on it carry counted. -/
def updateStateObserverLocalCache (switchState : SwitchState) : Except String LookupClassUpdater :=
  switchState.ports.toList.foldlM (fun u p => do
    let u := u.initPort p.1 p.2
    [TableKind.mac, .ndp, .arp].foldlM (fun u kind =>
      (portEntries kind switchState p.1 p.2).foldlM (fun u e =>
        match e.2.getClassID with
        | some classID => u.updateStateObserverLocalCacheForEntry e.2 classID
        | none => pure u) u) u) u

/-- `stateUpdated(stateDelta)`. -/
def stateUpdated (oldState newState : SwitchState) : Except String LookupClassUpdater := do
  let u ← if !u.inited then do
      let u ← u.updateStateObserverLocalCache newState
      pure { u with inited := true }
    else pure u
  let u ← u.processNeighborUpdates .mac oldState newState
  let u ← u.processNeighborUpdates .ndp oldState newState
  let u ← u.processNeighborUpdates .arp oldState newState
  u.processPortUpdates oldState newState

/-- The deltas from each state of a list to the next delivered in turn. -/
def stateUpdatedAll : LookupClassUpdater → SwitchState → List SwitchState →
    Except String LookupClassUpdater
  | u, _, [] => pure u
  | u, oldState, newState :: states => do
    let u ← u.stateUpdated oldState newState
    stateUpdatedAll u newState states

/-- Ports 1 and 2 of VLAN 1 have lookup classes. A MAC is learnt on port 1
and given a class; it then moves to port 2, and later ages out. The move is
not handled: port 1 keeps a reference to the MAC, which no entry on the port
has, and port 2 has none for the MAC on it, so that the MAC's removal from
port 2 fails `CHECK_GT(refCnt, 0)`. -/
theorem mac_move_breaks_ref_counts :
    let mac : MacAddress := 0x020000000001#48
    let port : Port := ⟨[.CLASS_QUEUE_PER_HOST_QUEUE_0, .CLASS_QUEUE_PER_HOST_QUEUE_1], [1]⟩
    let ports : FlatMap PortID Port := FlatMap.ofList [(1, port), (2, port)]
    let vlans (macTable : MacTable) : FlatMap VlanID Vlan :=
      FlatMap.ofList [(1, ⟨⟨FlatMap.empty, FlatMap.empty⟩, macTable⟩)]
    let learntOn (p : PortID) : SwitchState :=
      ⟨ports, vlans (FlatMap.ofList [(mac, ⟨mac, .physical p, none⟩)])⟩
    let states := [learntOn 1, learntOn 2, ⟨ports, vlans FlatMap.empty⟩]
    ((stateUpdatedAll empty ⟨FlatMap.empty, FlatMap.empty⟩ (states.take 2)).toOption.map fun u =>
        ((u.port2MacEntries.find? 1).bind (·.find? mac), (u.port2MacEntries.find? 2).bind (·.find? mac))) =
      some (some (.CLASS_QUEUE_PER_HOST_QUEUE_0, 1), none) ∧
    (stateUpdatedAll empty ⟨FlatMap.empty, FlatMap.empty⟩ states).map (fun _ => ()) =
      .error "Check failed: refCnt > 0" := by
  decide +kernel

end LookupClassUpdater

end Fboss
