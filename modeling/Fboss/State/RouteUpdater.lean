import Fboss.Rib.RouteUpdater

/-!
# The switch state's route updater

The legacy route path keeps the routes in the published switch state: a
`RouteTableMap` from router IDs to route tables, each with a v4 and a v6
`RouteTableRib`. `RouteUpdater` (`state/RouteUpdater.cpp`) copies on write: a
rib is cloned the first time a call changes it, and only cloned ribs are
resolved by `updateDone`. Resolution of a route of a VRF looks next hops up in
that VRF's two ribs, cloned or not; the routes of a rib that is not cloned are
the published ones, on which `resolveOne` fails its check
`!route->isPublished()`. `updateDone` then builds the new tables, drops the
VRFs whose two ribs are empty, and returns `nullptr` (`none`) when nothing was
cloned or when every table is the same as before (`deduplicate`).

The model follows the routes by value. A rib's node map and its radix tree
hold the same routes once `cloneToRadixTreeWithForwardClear` has rebuilt the
tree, and a radix tree is determined by its bindings
(`radixTree_shape_canonical`), so one tree models both. Object identity, the
generation numbers and the pointer comparisons that short-cut `dedupRoutes`
and `deduplicate` are not modelled: on equal values they give what the
comparison of the routes gives. A published route cloned before it is changed
has its flags and forwarding information reset, which the clearing before
resolution does anyway.
-/

namespace Fboss

namespace State

open RadixTree RadixTreeNode

/-- `ClonedRib::RibV4` and `RibV6`: a rib of one family as the updater holds
it, and whether it has been cloned in this batch. -/
structure FamilyRib (w : Nat) where
  rib : RadixTree w Route
  cloned : Bool

/-- The two ribs of a VRF in the updater. -/
structure ClonedRib where
  v4 : FamilyRib 32
  v6 : FamilyRib 128

namespace ClonedRib

/-- `createNewRib`: two new empty ribs, both cloned. -/
def new : ClonedRib :=
  ⟨⟨RadixTree.empty, true⟩, ⟨RadixTree.empty, true⟩⟩

def tables (r : ClonedRib) : Tables :=
  ⟨r.v4.rib, r.v6.rib⟩

def withTables (r : ClonedRib) (t : Tables) : ClonedRib :=
  ⟨⟨t.v4, r.v4.cloned⟩, ⟨t.v6, r.v6.cloned⟩⟩

/-- The routes of a rib that is not cloned are the published ones. -/
def isPublished (r : ClonedRib) : Family → Bool
  | .v4 => !r.v4.cloned
  | .v6 => !r.v6.cloned

end ClonedRib

/-- `RouteTableMap`: the route tables of the VRFs. -/
abbrev RouteTableMap := FlatMap RouterID Tables

/-- The updater: the published tables it started from and the ribs it holds. -/
structure RouteUpdater where
  orig : RouteTableMap
  clonedRibs : FlatMap RouterID ClonedRib

/-- An interface of the switch state, as `addInterfaceAndLinkLocalRoutes`
reads it: its VRF and its addresses with their masks. -/
structure Interface where
  id : InterfaceID
  routerID : RouterID
  addresses : List (IPAddress × Nat)

section OneRib

variable {w : Nat}

/-- `addRouteImpl`: nothing is cloned when the client already has this entry;
otherwise the rib is cloned, and the route updated or made. -/
def addRouteImpl (pfx : BitVec w × Nat) (ribCloned : FamilyRib w) (clientId : ClientID)
    (entry : RouteNextHopEntry) : Except String (FamilyRib w) :=
  match (ribCloned.rib.exactMatch pfx.1 pfx.2).value with
  | some old =>
    if old.has clientId entry then pure ribCloned
    else pure ⟨ribCloned.rib.setValueAt pfx (old.update clientId entry), true⟩
  | none => do
    let route ← Route.make clientId entry
    pure ⟨(ribCloned.rib.insert pfx.1 pfx.2 route).1, true⟩

/-- `delRouteImpl` on a rib that exists: nothing is cloned when there is no
route for the prefix. -/
def delRouteImpl (pfx : BitVec w × Nat) (ribCloned : FamilyRib w) (clientId : ClientID) : FamilyRib w :=
  match (ribCloned.rib.exactMatch pfx.1 pfx.2).value with
  | none => ribCloned
  | some old =>
    if (old.delEntryForClient clientId).hasNoEntry then
      ⟨(ribCloned.rib.erase pfx.1 pfx.2).1, true⟩
    else ⟨ribCloned.rib.setValueAt pfx (old.delEntryForClient clientId), true⟩

/-- `removeAllRoutesForClientImpl`: the rib is cloned, the client's entry goes
from every route and the routes left with no entry are removed, as in the
RIB's loop. -/
def removeAllRoutesForClientImpl (ribCloned : FamilyRib w) (clientId : ClientID) : FamilyRib w :=
  ⟨Rib.removeAllRoutesFromClientImpl ribCloned.rib clientId, true⟩

end OneRib

namespace RouteUpdater

/-- `RouteUpdater(orig)`: the published ribs of every VRF, none cloned. -/
def make (orig : RouteTableMap) : RouteUpdater :=
  ⟨orig, orig.mapValues fun rt => ⟨⟨rt.v4, false⟩, ⟨rt.v6, false⟩⟩⟩

/-- `getRibV4(id)`/`getRibV6(id)`: the ribs of a VRF, new ones if it has
none. -/
def getClonedRib (u : RouteUpdater) (id : RouterID) : ClonedRib :=
  (u.clonedRibs.find? id).getD ClonedRib.new

def setClonedRib (u : RouteUpdater) (id : RouterID) (r : ClonedRib) : RouteUpdater :=
  { u with clonedRibs := u.clonedRibs.set id r }

/-- `addRoute`: a v6 link-local prefix is ignored. -/
def addRoute (u : RouteUpdater) (id : RouterID) (network : IPAddress) (mask : Nat)
    (clientId : ClientID) (entry : RouteNextHopEntry) : Except String RouteUpdater :=
  match network with
  | .v4 a => do
    let pfx ← Rib.maskedPrefix 32 a mask
    let v4 ← addRouteImpl pfx (u.getClonedRib id).v4 clientId entry
    pure (u.setClonedRib id { u.getClonedRib id with v4 })
  | .v6 a => do
    let pfx ← Rib.maskedPrefix 128 a mask
    if (IPAddress.v6 pfx.1).isLinkLocal then pure u
    else do
      let v6 ← addRouteImpl pfx (u.getClonedRib id).v6 clientId entry
      pure (u.setClonedRib id { u.getClonedRib id with v6 })

/-- `addLinkLocalRoutes`: `fe80::/64` to the CPU; no v4 link-local route. -/
def addLinkLocalRoutes (u : RouteUpdater) (id : RouterID) : Except String RouteUpdater := do
  let v6 ← addRouteImpl Rib.kIPv6LinkLocalPrefix (u.getClonedRib id).v6 ClientID.LINKLOCAL_ROUTE
    (.ofAction .TO_CPU AdminDistance.DIRECTLY_CONNECTED)
  pure (u.setClonedRib id { u.getClonedRib id with v6 })

def delLinkLocalRoutes (u : RouteUpdater) (id : RouterID) : RouteUpdater :=
  u.setClonedRib id { u.getClonedRib id with
    v6 := delRouteImpl Rib.kIPv6LinkLocalPrefix (u.getClonedRib id).v6 ClientID.LINKLOCAL_ROUTE }

/-- `delRoute`: a VRF without ribs is left alone (`getRibV4(id, false)`). -/
def delRoute (u : RouteUpdater) (id : RouterID) (network : IPAddress) (mask : Nat)
    (clientId : ClientID) : Except String RouteUpdater :=
  match network, u.clonedRibs.find? id with
  | _, none => pure u
  | .v4 a, some r => do
    let pfx ← Rib.maskedPrefix 32 a mask
    pure (u.setClonedRib id { r with v4 := delRouteImpl pfx r.v4 clientId })
  | .v6 a, some r => do
    let pfx ← Rib.maskedPrefix 128 a mask
    pure (u.setClonedRib id { r with v6 := delRouteImpl pfx r.v6 clientId })

/-- `removeAllRoutesForClient(rid, clientId)`: both ribs of the VRF `rid`,
created if it has none. -/
def removeAllRoutesForClient (u : RouteUpdater) (rid : RouterID) (clientId : ClientID) :
    RouteUpdater :=
  u.setClonedRib rid ⟨removeAllRoutesForClientImpl (u.getClonedRib rid).v4 clientId,
    removeAllRoutesForClientImpl (u.getClonedRib rid).v6 clientId⟩

/-- The interface routes of one interface: its subnets, resolved through it
at its own addresses. -/
def addInterfaceRoutes (u : RouteUpdater) (intf : Interface) : Except String RouteUpdater :=
  intf.addresses.foldlM (fun u addr =>
    u.addRoute intf.routerID addr.1 addr.2 ClientID.INTERFACE_ROUTE
      (.ofNextHops (FlatSet.ofList [ResolvedNextHop addr.1 intf.id UCMP_DEFAULT_WEIGHT none])
        AdminDistance.DIRECTLY_CONNECTED)) u

/-- `addInterfaceAndLinkLocalRoutes`: the interface routes of every
interface, then the link-local routes of every VRF that has an interface, in
increasing order of router ID. -/
def addInterfaceAndLinkLocalRoutes (u : RouteUpdater) (intfs : List Interface) :
    Except String RouteUpdater := do
  let u ← intfs.foldlM addInterfaceRoutes u
  let routers : FlatSet RouterID := FlatSet.ofList (intfs.map Interface.routerID)
  routers.elems.foldlM addLinkLocalRoutes u

/-! ### `updateDone` -/

/-- `cloneToRadixTreeWithForwardClear` on each cloned rib of a VRF. -/
def clearCloned (r : ClonedRib) : ClonedRib :=
  r.withTables
    (if r.v6.cloned then
      Rib.clearForwardAll (if r.v4.cloned then Rib.clearForwardAll r.tables .v4 else r.tables) .v6
    else if r.v4.cloned then Rib.clearForwardAll r.tables .v4 else r.tables)

/-- The second loop of `resolve` for one VRF: its cloned v4 rib, then its
cloned v6 rib, each route that needs it resolved with at most `fuel` nested
calls. -/
def resolveRib (fuel : Nat) (r : ClonedRib) : Except ResolveError ClonedRib := do
  let t ← (if r.v4.cloned then resolveFamily r.isPublished fuel r.tables .v4 else pure r.tables)
  let t ← (if r.v6.cloned then resolveFamily r.isPublished fuel t .v6 else pure t)
  pure (r.withTables t)

/-- `resolve`: every cloned rib is cleared, then every VRF's cloned ribs are
resolved. A VRF's resolution reads only its own ribs. -/
def resolve (u : RouteUpdater) : Except ResolveError RouteUpdater := do
  let clonedRibs ← (u.clonedRibs.mapValues clearCloned).toList.foldlM (fun acc idRib => do
    let r ← resolveRib (idRib.2.tables.routeCount + 1) idRib.2
    pure (acc.insert idRib.1 r)) FlatMap.empty
  pure { u with clonedRibs }

/-- A rib with no route (`rib->empty()`). -/
def ribEmpty {w : Nat} (rib : RadixTree w Route) : Bool :=
  rib.valueKeys.isEmpty

/-- One turn of the loop of `updateDone` that builds the new tables: the new
table of a VRF and whether anything was cloned so far. A VRF with no route in
either rib is dropped; one with nothing cloned keeps its published table. -/
def tableStep (orig : RouteTableMap) (acc : RouteTableMap × Bool) (idRib : RouterID × ClonedRib) :
    Except ResolveError (RouteTableMap × Bool) :=
  if ribEmpty idRib.2.v4.rib && ribEmpty idRib.2.v6.rib then
    pure (acc.1, acc.2 || idRib.2.v4.cloned || idRib.2.v6.cloned)
  else if !idRib.2.v4.cloned && !idRib.2.v6.cloned then
    match orig.find? idRib.1 with
    | none => throw (.failed "Check failed: origRt != nullptr")
    | some origRt => pure (acc.1.insert idRib.1 origRt, acc.2)
  else
    pure (acc.1.insert idRib.1
      ⟨if idRib.2.v4.cloned then idRib.2.v4.rib
        else ((orig.find? idRib.1).map Tables.v4).getD RadixTree.empty,
       if idRib.2.v6.cloned then idRib.2.v6.rib
        else ((orig.find? idRib.1).map Tables.v6).getD RadixTree.empty⟩, true)

/-- One turn of the loop of `dedupRoutes` over the old routes: the new route
of the same prefix is replaced by the old one when they are the same. -/
def dedupStep {w : Nat} (oldRib : RadixTree w Route) (acc : RadixTree w Route × Bool)
    (k : BitVec w × Nat) : RadixTree w Route × Bool :=
  match (oldRib.root.findNode (some k)).value, (acc.1.exactMatch k.1 k.2).value with
  | some oldRoute, some newRoute =>
    if oldRoute.isSame newRoute then (acc.1.setValueAt k oldRoute, acc.2) else (acc.1, false)
  | _, _ => (acc.1, false)

/-- `dedupRoutes`: the new rib with the old routes that are the same, and
whether every route is the same. -/
def dedupRoutes {w : Nat} (oldRib newRib : RadixTree w Route) : RadixTree w Route × Bool :=
  ((oldRib.valueKeys.foldl (dedupStep oldRib) (newRib, true)).1,
    (oldRib.valueKeys.foldl (dedupStep oldRib) (newRib, true)).2 &&
      newRib.valueKeys.length == oldRib.valueKeys.length)

/-- The ribs of a VRF present in both maps: each is the old rib when it is the
same, and the table is the old one when both are. -/
def dedupTables (oldTable newTable : Tables) : Tables × Bool :=
  (⟨if (dedupRoutes oldTable.v4 newTable.v4).2 then oldTable.v4
      else (dedupRoutes oldTable.v4 newTable.v4).1,
    if (dedupRoutes oldTable.v6 newTable.v6).2 then oldTable.v6
      else (dedupRoutes oldTable.v6 newTable.v6).1⟩,
    (dedupRoutes oldTable.v4 newTable.v4).2 && (dedupRoutes oldTable.v6 newTable.v6).2)

/-- The merge walk of `deduplicate` over the two VRF lists in increasing
order, with at most `fuel` steps: the new tables, with the old ones reused
where they are the same, and whether all VRFs are the same. -/
def dedupWalk : Nat → List (RouterID × Tables) → List (RouterID × Tables) →
    List (RouterID × Tables) × Bool
  | 0, _, new => (new, false)
  | _ + 1, [], new => (new, new.isEmpty)
  | _ + 1, _ :: _, [] => ([], false)
  | fuel + 1, (oldVrf, oldTable) :: old, (newVrf, newTable) :: new =>
    if oldVrf < newVrf then ((dedupWalk fuel old ((newVrf, newTable) :: new)).1, false)
    else if newVrf < oldVrf then
      ((newVrf, newTable) :: (dedupWalk fuel ((oldVrf, oldTable) :: old) new).1, false)
    else
      ((newVrf, if (dedupTables oldTable newTable).2 then oldTable
          else (dedupTables oldTable newTable).1) :: (dedupWalk fuel old new).1,
        (dedupTables oldTable newTable).2 && (dedupWalk fuel old new).2)

/-- `deduplicate`: `nullptr` when every table is the same as before, else the
new map. -/
def deduplicate (orig newTables : RouteTableMap) : Option RouteTableMap :=
  if (dedupWalk (orig.size + newTables.size + 1) orig.toList newTables.toList).2 then none
  else some (FlatMap.ofList (dedupWalk (orig.size + newTables.size + 1) orig.toList newTables.toList).1)

/-- `updateDone`: resolve, build the new tables, and deduplicate them against
the published ones; `none` is `nullptr`. -/
def updateDone (u : RouteUpdater) : Except ResolveError (Option RouteTableMap) := do
  let u ← u.resolve
  let built ← u.clonedRibs.toList.foldlM (tableStep u.orig) (FlatMap.empty, false)
  if built.2 then pure (deduplicate u.orig built.1) else pure none

/-! ### Batches of updater calls -/

/-- The calls a caller makes on the updater before `updateDone`. -/
inductive UpdateOp where
  | addRoute (id : RouterID) (network : IPAddress) (mask : Nat) (clientId : ClientID)
      (entry : RouteNextHopEntry)
  | delRoute (id : RouterID) (network : IPAddress) (mask : Nat) (clientId : ClientID)
  | removeAllRoutesForClient (rid : RouterID) (clientId : ClientID)
  | addInterfaceAndLinkLocalRoutes (intfs : List Interface)
  | addLinkLocalRoutes (id : RouterID)
  | delLinkLocalRoutes (id : RouterID)

def applyOp (u : RouteUpdater) : UpdateOp → Except String RouteUpdater
  | .addRoute id network mask clientId entry => u.addRoute id network mask clientId entry
  | .delRoute id network mask clientId => u.delRoute id network mask clientId
  | .removeAllRoutesForClient rid clientId => pure (u.removeAllRoutesForClient rid clientId)
  | .addInterfaceAndLinkLocalRoutes intfs => u.addInterfaceAndLinkLocalRoutes intfs
  | .addLinkLocalRoutes id => u.addLinkLocalRoutes id
  | .delLinkLocalRoutes id => pure (u.delLinkLocalRoutes id)

/-- One state update: an updater over the published tables `m`, the calls,
and `updateDone`; the tables published after it are `m` itself when it
returns `nullptr`. -/
def runBatch (m : RouteTableMap) (ops : List UpdateOp) : Except ResolveError RouteTableMap := do
  let u ← ((ops.foldlM applyOp (make m)).mapError .failed)
  let res ← u.updateDone
  pure (res.getD m)

/-- State updates one after the other. -/
def runBatches (m : RouteTableMap) (batches : List (List UpdateOp)) :
    Except ResolveError RouteTableMap :=
  batches.foldlM runBatch m

end RouteUpdater

end State

end Fboss
