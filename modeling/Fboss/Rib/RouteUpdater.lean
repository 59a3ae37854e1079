import Fboss.Route.ResolveSpec

/-!
# The RIB's route updater

`rib::RouteUpdater` (`rib/RouteUpdater.cpp`) edits the v4 and v6 route tables
of one VRF in place. Adding a route for a client updates the client's entry of
the route with that prefix, or inserts a new route; deleting one removes the
client's entry and erases the route when no entry is left. `updateDone` then
recomputes the forwarding information of every route, one family after the
other: each v4 route is cleared and the v4 table resolved, and only then is
each v6 route cleared and the v6 table resolved.

A prefix is given by its network address and mask. `folly`'s `mask` throws on
a mask longer than the address, and so does `addRoute`.
-/

namespace Fboss

namespace Rib

open RadixTree RadixTreeNode

/-- `kIPv6LinkLocalPrefix`, `fe80::/64`. -/
def kIPv6LinkLocalPrefix : IPAddressV6 × Nat :=
  (0xfe800000000000000000000000000000#128, 64)

section OneTable

variable {w : Nat}

/-- `addRouteImpl`: the client's entry of the route with this prefix is set,
or a route is made for it. -/
def addRouteImpl (pfx : BitVec w × Nat) (routes : RadixTree w Route) (clientID : ClientID)
    (entry : RouteNextHopEntry) : Except String (RadixTree w Route) :=
  match (routes.exactMatch pfx.1 pfx.2).value with
  | some route =>
    if route.has clientID entry then pure routes
    else pure (routes.setValueAt pfx (route.update clientID entry))
  | none => do
    let route ← Route.make clientID entry
    pure (routes.insert pfx.1 pfx.2 route).1

/-- `routes->erase(it)` for an iterator at the route with key `k`: the node
the iterator points to is erased as it is now. -/
def eraseAt (routes : RadixTree w Route) (k : BitVec w × Nat) : RadixTree w Route :=
  (routes.eraseNode (routes.root.findNode (some k))).1

/-- `delRouteImpl`: the client's entry goes, and the route with it if it was
the last one. -/
def delRouteImpl (pfx : BitVec w × Nat) (routes : RadixTree w Route) (clientID : ClientID) :
    RadixTree w Route :=
  match (routes.exactMatch pfx.1 pfx.2).value with
  | none => routes
  | some route =>
    if (route.delEntryForClient clientID).hasNoEntry then eraseAt routes pfx
    else routes.setValueAt pfx (route.delEntryForClient clientID)

/-- One turn of the first loop of `removeAllRoutesFromClientImpl`: the
client's entry of the route at `k` goes, and the route is remembered for
erasure if it has no entry left. -/
def delEntryStep (clientID : ClientID) (acc : RadixTree w Route × List (BitVec w × Nat))
    (k : BitVec w × Nat) : RadixTree w Route × List (BitVec w × Nat) :=
  match (acc.1.root.findNode (some k)).value with
  | none => acc
  | some route =>
    (acc.1.setValueAt k (route.delEntryForClient clientID),
      if (route.delEntryForClient clientID).hasNoEntry then acc.2 ++ [k] else acc.2)

/-- The second loop of `removeAllRoutesFromClientImpl`: the remembered routes
are erased, in the order they were visited. -/
def eraseAll (acc : RadixTree w Route × List (BitVec w × Nat)) : RadixTree w Route :=
  acc.2.foldl eraseAt acc.1

/-- `removeAllRoutesFromClientImpl`. -/
def removeAllRoutesFromClientImpl (routes : RadixTree w Route) (clientID : ClientID) :
    RadixTree w Route :=
  eraseAll (routes.valueKeys.foldl (delEntryStep clientID) (routes, []))

end OneTable

/-- `network.asV4().mask(mask)` and its v6 counterpart, which throw when the
mask is longer than the address. -/
def maskedPrefix (w : Nat) (network : BitVec w) (mask : Nat) : Except String (BitVec w × Nat) :=
  if mask > w then .error "IPAddressFormatException: numBits is larger than bitCount"
  else .ok (IPAddress.mask network mask, mask)

/-- `addRoute`: a v6 link-local prefix is ignored. -/
def addRoute (t : Tables) (network : IPAddress) (mask : Nat) (clientID : ClientID)
    (entry : RouteNextHopEntry) : Except String Tables :=
  match network with
  | .v4 a => do
    let pfx ← maskedPrefix 32 a mask
    let v4 ← addRouteImpl pfx t.v4 clientID entry
    pure { t with v4 }
  | .v6 a => do
    let pfx ← maskedPrefix 128 a mask
    if (IPAddress.v6 pfx.1).isLinkLocal then pure t
    else do
      let v6 ← addRouteImpl pfx t.v6 clientID entry
      pure { t with v6 }

/-- `addInterfaceRoute`: the interface's subnet, resolved through the
interface at the interface's own address. -/
def addInterfaceRoute (t : Tables) (network : IPAddress) (mask : Nat) (address : IPAddress)
    (interface : InterfaceID) : Except String Tables :=
  addRoute t network mask ClientID.INTERFACE_ROUTE
    (.ofNextHops (FlatSet.ofList [ResolvedNextHop address interface UCMP_DEFAULT_WEIGHT none])
      AdminDistance.DIRECTLY_CONNECTED)

/-- `addLinkLocalRoutes`: `fe80::/64` to the CPU. -/
def addLinkLocalRoutes (t : Tables) : Except String Tables := do
  let v6 ← addRouteImpl kIPv6LinkLocalPrefix t.v6 ClientID.LINKLOCAL_ROUTE
    (.ofAction .TO_CPU AdminDistance.DIRECTLY_CONNECTED)
  pure { t with v6 }

def delLinkLocalRoutes (t : Tables) : Tables :=
  { t with v6 := delRouteImpl kIPv6LinkLocalPrefix t.v6 ClientID.LINKLOCAL_ROUTE }

def delRoute (t : Tables) (network : IPAddress) (mask : Nat) (clientID : ClientID) :
    Except String Tables :=
  match network with
  | .v4 a => do
    let pfx ← maskedPrefix 32 a mask
    pure { t with v4 := delRouteImpl pfx t.v4 clientID }
  | .v6 a => do
    let pfx ← maskedPrefix 128 a mask
    pure { t with v6 := delRouteImpl pfx t.v6 clientID }

def removeAllRoutesForClient (t : Tables) (clientID : ClientID) : Tables :=
  ⟨removeAllRoutesFromClientImpl t.v4 clientID, removeAllRoutesFromClientImpl t.v6 clientID⟩

/-- One turn of the first loop of `updateDoneImpl`: `route.clearForward()`. -/
def clearForwardAt (t : Tables) (r : RouteRef) : Tables :=
  match t.getRoute r with
  | some route => t.setRoute r route.clearForward
  | none => t

/-- The first loop of `updateDoneImpl`: every route of the family loses its
forwarding information and its flags. -/
def clearForwardAll (t : Tables) (family : Family) : Tables :=
  (t.routeRefs family).foldl clearForwardAt t

/-- `updateDoneImpl`: clear the family's routes, then resolve them. -/
def updateDoneImpl (fuel : Nat) (t : Tables) (family : Family) : Except ResolveError Tables :=
  resolveFamily (fun _ => false) fuel (clearForwardAll t family) family

/-- `updateDone`: the v4 table, then the v6 table. -/
def updateDone (fuel : Nat) (t : Tables) : Except ResolveError Tables := do
  let t ← updateDoneImpl fuel t .v4
  updateDoneImpl fuel t .v6

/-! ### Runs of updater calls -/

/-- The calls a client makes on the updater. -/
inductive UpdateOp where
  | addRoute (network : IPAddress) (mask : Nat) (clientID : ClientID) (entry : RouteNextHopEntry)
  | delRoute (network : IPAddress) (mask : Nat) (clientID : ClientID)
  | removeAllRoutesForClient (clientID : ClientID)
  | addInterfaceRoute (network : IPAddress) (mask : Nat) (address : IPAddress)
      (interface : InterfaceID)
  | addLinkLocalRoutes
  | delLinkLocalRoutes
  | updateDone

/-- One call. `updateDone` may nest one more resolution than there are
routes, which is enough (`updateDone_spec`). -/
def applyOp (t : Tables) : UpdateOp → Except ResolveError Tables
  | .addRoute network mask clientID entry =>
    (addRoute t network mask clientID entry).mapError .failed
  | .delRoute network mask clientID => (delRoute t network mask clientID).mapError .failed
  | .removeAllRoutesForClient clientID => pure (removeAllRoutesForClient t clientID)
  | .addInterfaceRoute network mask address interface =>
    (addInterfaceRoute t network mask address interface).mapError .failed
  | .addLinkLocalRoutes => (addLinkLocalRoutes t).mapError .failed
  | .delLinkLocalRoutes => pure (delLinkLocalRoutes t)
  | .updateDone => updateDone (t.routeCount + 1) t

/-- The tables of a VRF after a sequence of calls, from empty tables. -/
def runOps (ops : List UpdateOp) : Except ResolveError Tables :=
  ops.foldlM applyOp ⟨RadixTree.empty, RadixTree.empty⟩

end Rib

end Fboss
