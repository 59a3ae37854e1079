import Fboss.Agent.ApplyThriftConfig

/-!
# The route calls of the thrift handler

`ThriftHandler` (`ThriftHandler.cpp`) serves `addUnicastRoutes`,
`deleteUnicastRoutes` and `syncFib`, each also for a given VRF, on one of two
paths. With the standalone RIB each call is one `RoutingInformationBase::update`
of the VRF, with the client's configured admin distance; `syncFib` resets the
client's routes first. The legacy path accepts VRF 0 only and makes each call
one state update with the switch state's `RouteUpdater`: `syncFib` removes all
routes of the client first, each route is added with the entry
`RouteNextHopEntry::from` would make, and each prefix deleted.

The checks that the agent is configured and, except for `syncFib`, that the
FIB has been synced, are the same on both paths and are not modelled.
-/

namespace Fboss

namespace ThriftHandler

/-- A route call of a client. -/
inductive Call where
  | addUnicastRoutesInVrf (client : Int) (routes : List UnicastRoute) (vrf : Int)
  | deleteUnicastRoutesInVrf (client : Int) (prefixes : List IpPrefix) (vrf : Int)
  | syncFibInVrf (client : Int) (routes : List UnicastRoute) (vrf : Int)

/-- A call on the standalone RIB path: what the update did stays, also when
it throws. -/
def ribCall (config : FlatMap Int AdminDistance) (rib : Rib.RouteTables) :
    Call → Rib.RouteTables × Option ResolveError
  | .addUnicastRoutesInVrf client routes vrf =>
    Rib.update rib (toUInt32 vrf) client (clientIdToAdminDistance config client) routes [] false
  | .deleteUnicastRoutesInVrf client prefixes vrf =>
    Rib.update rib (toUInt32 vrf) client (clientIdToAdminDistance config client) [] prefixes false
  | .syncFibInVrf client routes vrf =>
    Rib.update rib (toUInt32 vrf) client (clientIdToAdminDistance config client) routes [] true

/-- `updateUnicastRoutesImpl` on the legacy path: one state update. The loop
computes the entry of each route as `RouteNextHopEntry::from` does. -/
def legacyUpdateUnicastRoutes (config : FlatMap Int AdminDistance) (m : State.RouteTableMap)
    (vrf client : Int) (routes : List UnicastRoute) (sync : Bool) :
    Except ResolveError State.RouteTableMap :=
  if vrf ≠ 0 then throw (.failed "Multi-VRF only supported with Stand-Alone RIB")
  else State.RouteUpdater.runBatch m
    ((if sync then [.removeAllRoutesForClient 0 client] else []) ++
      routes.map fun route => .addRoute 0 route.dest.ip route.dest.mask client
        (.fromRoute route (clientIdToAdminDistance config client)))

/-- A call on the legacy path: a state update that throws changes nothing. -/
def legacyCall (config : FlatMap Int AdminDistance) (m : State.RouteTableMap) :
    Call → State.RouteTableMap × Option ResolveError
  | .addUnicastRoutesInVrf client routes vrf =>
    Except.inPlace m (legacyUpdateUnicastRoutes config m vrf client routes false)
  | .deleteUnicastRoutesInVrf client prefixes vrf =>
    Except.inPlace m
      (if vrf ≠ 0 then throw (.failed "Multi-VRF only supported with Stand-Alone RIB")
      else State.RouteUpdater.runBatch m
        (prefixes.map fun pfx => .delRoute 0 pfx.ip pfx.mask client))
  | .syncFibInVrf client routes vrf =>
    Except.inPlace m (legacyUpdateUnicastRoutes config m vrf client routes true)

/-- The RIB's tables after a sequence of calls. -/
def ribRun (config : FlatMap Int AdminDistance) (rib : Rib.RouteTables) (calls : List Call) :
    Rib.RouteTables :=
  calls.foldl (fun rib call => (ribCall config rib call).1) rib

/-- The switch state's route tables after a sequence of calls. -/
def legacyRun (config : FlatMap Int AdminDistance) (m : State.RouteTableMap) (calls : List Call) :
    State.RouteTableMap :=
  calls.foldl (fun m call => (legacyCall config m call).1) m

/-- Interface 1 of VRF 0 has `10.0.0.1/24`. The RIB is configured with it, the
legacy switch state gets its default routes and then the same config. A
client adds `2001::/64` through `10.0.0.5`, then `10.0.0.5/32` without next
hops. The two paths hold the same entry of the client for `2001::/64`, but
the RIB resolves it to drop through the new route, while the switch state,
which cloned only its v4 rib for the second call, keeps forwarding it through
interface 1. -/
theorem rib_and_legacy_resolve_differently :
    let intfRouteTables : ThriftConfigApplier.IntfRouteTable :=
      FlatMap.ofList [(0, [((.v4 0x0a000000#32, 24), (1, .v4 0x0a000001#32))])]
    let rib := (Rib.reconfigure FlatMap.empty intfRouteTables [] [] []).1
    let legacy := (ThriftConfigApplier.setupAlpmState FlatMap.empty).bind fun m =>
      ThriftConfigApplier.applyRoutes m [] intfRouteTables [] [] []
    let b : IPAddress := .v6 0x20010000000000000000000000000000#128
    let calls := [Call.addUnicastRoutesInVrf 0 [⟨⟨b, 64⟩, [], none, [⟨.v4 0x0a000005#32, none, 0, none⟩]⟩] 0,
      .addUnicastRoutesInVrf 0 [⟨⟨.v4 0x0a000005#32, 32⟩, [], none, []⟩] 0]
    let routeB (m : State.RouteTableMap) := (m.find? 0).bind fun t =>
      t.getRoute (.v6 (0x20010000000000000000000000000000#128, 64))
    let view (m : State.RouteTableMap) :=
      ((routeB m).bind fun r => r.nexthopsmulti.getEntryForClient 0, (routeB m).map Route.getForwardInfo)
    (view (ribRun FlatMap.empty rib calls),
      legacy.map fun m => view (legacyRun FlatMap.empty m calls)) =
    ((some (.ofNextHops (FlatSet.ofList [UnresolvedNextHop (.v4 0x0a000005#32) 0 none])
          AdminDistance.MAX_ADMIN_DISTANCE),
        some (.ofAction .DROP AdminDistance.MAX_ADMIN_DISTANCE)),
      .ok (some (.ofNextHops (FlatSet.ofList [UnresolvedNextHop (.v4 0x0a000005#32) 0 none])
          AdminDistance.MAX_ADMIN_DISTANCE),
        some (.ofNextHops (FlatSet.ofList [ResolvedNextHop (.v4 0x0a000005#32) 1 0 none])
          AdminDistance.MAX_ADMIN_DISTANCE))) := by
  decide +kernel

end ThriftHandler

end Fboss
