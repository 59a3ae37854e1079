import Fboss.Rib.RouteUpdater
import Fboss.Route.Thrift

/-!
# The standalone RIB

`RoutingInformationBase` (`rib/RoutingInformationBase.cpp`) holds the route
tables of every configured VRF and edits them in place with a
`rib::RouteUpdater`. `update` applies one client's request to the tables of
one VRF: the client's routes are removed first when the request resets them,
then the routes to add are added and the prefixes to delete deleted, and
`updateDone` resolves both tables. `reconfigure` keeps the VRFs of the config,
and `ConfigApplier::updateRibAndFib` sets each one's default, static,
interface and link-local routes and resolves them.

The updater's calls throw on a bad prefix or next-hop set, and what the calls
before it did stays in the tables: every step is run in place
(`Except.inPlace`, `Except.foldlInPlace`). A resolution error is a failed
`CHECK`, which stops the agent. The FIB callbacks are not modelled.
-/

namespace Fboss

namespace Rib

open Except

/-- The route tables of the VRFs (`synchronizedRouteTables_`). -/
abbrev RouteTables := FlatMap RouterID Tables

/-- The interface routes of a VRF: each subnet, with the interface and the
address it has on it. -/
abbrev InterfaceRoutes := List ((IPAddress × Nat) × (InterfaceID × IPAddress))

/-- A call of the updater run in place; the entry of a call may itself fail
to be built. -/
def applyOpInPlace (t : Tables) (op : Except String UpdateOp) : Tables × Option ResolveError :=
  inPlace t (do let op ← op.mapError .failed; applyOp t op)

/-- `RoutingInformationBase::update`: one request of client `clientID` to the
VRF `routerID`, which must be configured. -/
def update (rib : RouteTables) (routerID : RouterID) (clientID : ClientID)
    (adminDistanceFromClientID : AdminDistance) (toAdd : List UnicastRoute)
    (toDelete : List IpPrefix) (resetClientsRoutes : Bool) : RouteTables × Option ResolveError :=
  match rib.find? routerID with
  | none => (rib, some (.failed ("VRF " ++ toString routerID ++ " not configured")))
  | some t =>
    let res := foldlInPlace applyOpInPlace t
      ((if resetClientsRoutes then [pure (.removeAllRoutesForClient clientID)] else []) ++
        toAdd.map (fun route => pure (.addRoute route.dest.ip route.dest.mask clientID
          (.fromRoute route adminDistanceFromClientID))) ++
        toDelete.map (fun pfx => pure (.delRoute pfx.ip pfx.mask clientID)) ++
        [pure .updateDone])
    (rib.set routerID res.1, res.2)

/-- The calls of `ConfigApplier::updateRibAndFib` for the VRF `vrf`: the
default routes that `ALPM` needs, the static routes of the VRF in place of
the old ones, the interface routes in place of the old ones, the link-local
routes, and resolution. -/
def configOps (vrf : RouterID) (directlyConnectedRoutes : InterfaceRoutes)
    (staticCpuRoutes staticDropRoutes : List StaticRouteNoNextHops)
    (staticRoutes : List StaticRouteWithNextHops) : List (Except String UpdateOp) :=
  -- each part carries its type, so that the appends elaborate without search
  ([pure (.addRoute (.v4 0#32) 0 ClientID.STATIC_INTERNAL
      (.ofAction .DROP AdminDistance.MAX_ADMIN_DISTANCE)),
    pure (.addRoute (.v6 0#128) 0 ClientID.STATIC_INTERNAL
      (.ofAction .DROP AdminDistance.MAX_ADMIN_DISTANCE)),
    pure (.removeAllRoutesForClient ClientID.STATIC_ROUTE)] : List (Except String UpdateOp)) ++
  ((staticCpuRoutes.filter fun r => toUInt32 r.routerID == vrf).map fun r =>
    (pure (.addRoute r.pfx.1 r.pfx.2 ClientID.STATIC_ROUTE
      (.ofAction .TO_CPU AdminDistance.STATIC_ROUTE)) : Except String UpdateOp)) ++
  ((staticDropRoutes.filter fun r => toUInt32 r.routerID == vrf).map fun r =>
    (pure (.addRoute r.pfx.1 r.pfx.2 ClientID.STATIC_ROUTE
      (.ofAction .DROP AdminDistance.STATIC_ROUTE)) : Except String UpdateOp)) ++
  ((staticRoutes.filter fun r => toUInt32 r.routerID == vrf).map fun r =>
    (RouteNextHopEntry.fromStaticRoute r).map fun entry =>
      UpdateOp.addRoute r.pfx.1 r.pfx.2 ClientID.STATIC_ROUTE entry) ++
  ([pure (.removeAllRoutesForClient ClientID.INTERFACE_ROUTE)] : List (Except String UpdateOp)) ++
  directlyConnectedRoutes.map (fun r =>
    (pure (.addInterfaceRoute r.1.1 r.1.2 r.2.2 r.2.1) : Except String UpdateOp)) ++
  ([pure .addLinkLocalRoutes, pure .updateDone] : List (Except String UpdateOp))

/-- `ConfigApplier::updateRibAndFib` on the tables of `vrf`. -/
def updateRibAndFib (vrf : RouterID) (t : Tables) (directlyConnectedRoutes : InterfaceRoutes)
    (staticCpuRoutes staticDropRoutes : List StaticRouteNoNextHops)
    (staticRoutes : List StaticRouteWithNextHops) : Tables × Option ResolveError :=
  foldlInPlace applyOpInPlace t
    (configOps vrf directlyConnectedRoutes staticCpuRoutes staticDropRoutes staticRoutes)

/-- `constructRouteTables`: the VRFs of the config, each with its old tables
if it had any. -/
def constructRouteTables (rib : RouteTables)
    (configRouterIDToInterfaceRoutes : FlatMap RouterID InterfaceRoutes) : RouteTables :=
  configRouterIDToInterfaceRoutes.toList.foldl (fun acc vrf =>
      acc.insert vrf.1 ((rib.find? vrf.1).getD ⟨RadixTree.empty, RadixTree.empty⟩))
    FlatMap.empty

/-- `RoutingInformationBase::reconfigure`: the VRFs of the config, then each
VRF's routes set from the config, one VRF after the other. -/
def reconfigure (rib : RouteTables)
    (configRouterIDToInterfaceRoutes : FlatMap RouterID InterfaceRoutes)
    (staticRoutesWithNextHops : List StaticRouteWithNextHops)
    (staticRoutesToNull staticRoutesToCpu : List StaticRouteNoNextHops) :
    RouteTables × Option ResolveError :=
  foldlInPlace (fun tables vrfRoutes =>
      let res := updateRibAndFib vrfRoutes.1
        ((tables.find? vrfRoutes.1).getD ⟨RadixTree.empty, RadixTree.empty⟩)
        vrfRoutes.2 staticRoutesToCpu staticRoutesToNull staticRoutesWithNextHops
      (tables.set vrfRoutes.1 res.1, res.2))
    (constructRouteTables rib configRouterIDToInterfaceRoutes)
    configRouterIDToInterfaceRoutes.toList

end Rib

end Fboss
