import Fboss.Rib.RoutingInformationBase
import Fboss.State.RouteUpdater

/-!
# Routes from the switch config on the legacy path

Without the standalone RIB, `ThriftConfigApplier` (`ApplyThriftConfig.cpp`)
puts the routes of a config into the switch state with the state's
`RouteUpdater`, in two state updates: `updateInterfaceRoutes` adds the
interface routes of the config and deletes those of the old interfaces that
the config no longer has, with the link-local routes of the VRFs, and
`syncStaticRoutes` removes the static routes and adds those of the config.
At start-up `setupAlpmState` (`AlpmUtils.cpp`) adds the default routes that
`ALPM` needs.

The interface routes of the config (`intfRouteTables_`) are computed from the
config's interfaces once, for both paths; the model takes them as given. The
addresses of an interface of the switch state have valid masks, so masking
them does not throw.
-/

namespace Fboss

namespace ThriftConfigApplier

open State RouteUpdater

/-- `IntfRouteTable`: the interface routes of each VRF. -/
abbrev IntfRouteTable := FlatMap RouterID Rib.InterfaceRoutes

/-- `folly::IPAddress::mask`. -/
def maskAddress : IPAddress → Nat → IPAddress
  | .v4 a, len => .v4 (IPAddress.mask a len)
  | .v6 a, len => .v6 (IPAddress.mask a len)

/-- A state update whose calls are built as it goes: a call whose entry
cannot be built throws there, and the update is dropped. -/
def runUpdate (m : RouteTableMap) (ops : List (Except String UpdateOp)) :
    Except ResolveError (Option RouteTableMap) := do
  let u ← (ops.foldlM (fun u op => do applyOp u (← op)) (make m)).mapError .failed
  u.updateDone

/-- The calls of `updateInterfaceRoutes`: the interface routes of the config,
the deletion of each address of an old interface whose subnet is no longer
an interface route of its VRF, the deletion of the link-local routes of the
VRFs no interface of the config is in, and the link-local routes of the VRFs
of the config. -/
def interfaceRouteOps (origInterfaces : List Interface) (intfRouteTables : IntfRouteTable) :
    List UpdateOp :=
  intfRouteTables.toList.flatMap (fun table => table.2.map fun entry =>
    UpdateOp.addRoute table.1 entry.2.2 entry.1.2 ClientID.INTERFACE_ROUTE
      (.ofNextHops (FlatSet.ofList [ResolvedNextHop entry.2.2 entry.2.1 UCMP_DEFAULT_WEIGHT none])
        AdminDistance.DIRECTLY_CONNECTED)) ++
  origInterfaces.flatMap (fun intf => (intf.addresses.filter fun addr =>
      !((intfRouteTables.find? intf.routerID).getD []).any
        fun entry => entry.1 == (maskAddress addr.1 addr.2, addr.2)).map fun addr =>
    UpdateOp.delRoute intf.routerID addr.1 addr.2 ClientID.INTERFACE_ROUTE) ++
  ((FlatSet.ofList ((origInterfaces.map Interface.routerID).filter fun id =>
      (intfRouteTables.find? id).isNone)).elems.map UpdateOp.delLinkLocalRoutes) ++
  intfRouteTables.toList.map (fun table => UpdateOp.addLinkLocalRoutes table.1)

/-- `ThriftConfigApplier::updateInterfaceRoutes`. -/
def updateInterfaceRoutes (orig : RouteTableMap) (origInterfaces : List Interface)
    (intfRouteTables : IntfRouteTable) : Except ResolveError (Option RouteTableMap) :=
  runUpdate orig ((interfaceRouteOps origInterfaces intfRouteTables).map pure)

/-- `ThriftConfigApplier::syncStaticRoutes`: the static routes of VRF 0 are
removed, and those of the config added to their VRFs. -/
def syncStaticRoutes (routes : RouteTableMap)
    (staticRoutesToNull staticRoutesToCPU : List StaticRouteNoNextHops)
    (staticRoutesWithNhops : List StaticRouteWithNextHops) :
    Except ResolveError (Option RouteTableMap) :=
  runUpdate routes
    (([pure (.removeAllRoutesForClient 0 ClientID.STATIC_ROUTE)] : List (Except String UpdateOp)) ++
      staticRoutesToNull.map (fun route => (pure (.addRoute (toUInt32 route.routerID)
        route.pfx.1 route.pfx.2 ClientID.STATIC_ROUTE (.ofAction .DROP AdminDistance.STATIC_ROUTE)) :
          Except String UpdateOp)) ++
      staticRoutesToCPU.map (fun route => (pure (.addRoute (toUInt32 route.routerID)
        route.pfx.1 route.pfx.2 ClientID.STATIC_ROUTE
        (.ofAction .TO_CPU AdminDistance.STATIC_ROUTE)) : Except String UpdateOp)) ++
      staticRoutesWithNhops.map (fun route => (RouteNextHopEntry.fromStaticRoute route).map
        fun entry => UpdateOp.addRoute (toUInt32 route.routerID) route.pfx.1 route.pfx.2
          ClientID.STATIC_ROUTE entry))

/-- A config puts a static route to null into VRF 1, and the next config has
no static route. The second sync removes the static routes of VRF 0 only, so
the tables it leaves still have the static entry of VRF 1. -/
theorem syncStaticRoutes_keeps_static_route_of_other_vrf :
    let vrf1Null : StaticRouteNoNextHops := ⟨1, (.v4 0x0a010000#32, 16)⟩
    let staticEntry (m : RouteTableMap) := ((m.find? 1).bind fun t =>
      t.getRoute (.v4 (0x0a010000#32, 16))).bind fun r =>
        r.nexthopsmulti.getEntryForClient ClientID.STATIC_ROUTE
    ((syncStaticRoutes FlatMap.empty [vrf1Null] [] []).bind fun r1 =>
      (syncStaticRoutes (r1.getD FlatMap.empty) [] [] []).map fun r2 =>
        staticEntry (r2.getD (r1.getD FlatMap.empty))) =
      .ok (some (.ofAction .DROP AdminDistance.STATIC_ROUTE)) := by
  decide +kernel

/-- The route part of `ThriftConfigApplier::run` on the legacy path: the
interface routes, then the static routes over the tables they leave. -/
def applyRoutes (orig : RouteTableMap) (origInterfaces : List Interface)
    (intfRouteTables : IntfRouteTable)
    (staticRoutesToNull staticRoutesToCPU : List StaticRouteNoNextHops)
    (staticRoutesWithNhops : List StaticRouteWithNextHops) : Except ResolveError RouteTableMap := do
  let newTables ← updateInterfaceRoutes orig origInterfaces intfRouteTables
  let updatedRoutes := newTables.getD orig
  let newerTables ← syncStaticRoutes updatedRoutes staticRoutesToNull staticRoutesToCPU
    staticRoutesWithNhops
  pure (newerTables.getD updatedRoutes)

/-- `setupAlpmState`: the default routes `0.0.0.0/0` and `::/0` of VRF 0,
dropping, at the maximal admin distance. -/
def setupAlpmState (routes : RouteTableMap) : Except ResolveError RouteTableMap :=
  runBatch routes
    [.addRoute 0 (.v4 0#32) 0 ClientID.STATIC_INTERNAL
      (.ofAction .DROP AdminDistance.MAX_ADMIN_DISTANCE),
     .addRoute 0 (.v6 0#128) 0 ClientID.STATIC_INTERNAL
      (.ofAction .DROP AdminDistance.MAX_ADMIN_DISTANCE)]

end ThriftConfigApplier

end Fboss
