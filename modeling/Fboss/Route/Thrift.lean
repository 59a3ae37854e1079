import Fboss.Route.Types

/-!
# Routes as clients send them

A client sends a route as a thrift `UnicastRoute`: a prefix, its next hops
(or, from older clients, only their addresses) and perhaps an admin distance.
`RouteNextHopEntry::from` (`rib/RouteNextHopEntry.cpp`) and the loop of
`ThriftHandler::updateUnicastRoutesImpl` turn it into the entry of the client
the same way: a route without next hops drops, and its admin distance is the
client's unless the route sets one. `fromThrift` keeps the interface of a next
hop only for a v6 link-local address.

The interface named by a next hop is read from its name by
`getIDFromTunIntfName`; the model takes the name as the ID it denotes.

The static routes of the switch config (`cfg::StaticRouteNoNextHops` and
`cfg::StaticRouteWithNextHops`) name their prefix and next hops as strings;
the model holds them parsed, as `IPAddress::createNetwork` and `IPAddress`
would parse them.
-/

namespace Fboss

/-- `NextHopThrift`: an address, maybe with the interface it names, a
weight and a label action. -/
structure NextHopThrift where
  address : IPAddress
  ifName : Option InterfaceID
  weight : Int
  mplsAction : Option LabelForwardingAction

/-- `IpPrefix`: an address and a prefix length, an `i16`. -/
structure IpPrefix where
  ip : IPAddress
  prefixLength : Int

/-- `UnicastRoute`. -/
structure UnicastRoute where
  dest : IpPrefix
  nextHopAddrs : List IPAddress
  adminDistance : Option AdminDistance
  nextHops : List NextHopThrift

/-- `static_cast<uint8_t>(prefixLength)`. -/
def IpPrefix.mask (p : IpPrefix) : Nat :=
  (p.prefixLength % 256).toNat

/-- `fromThrift(nht)`: the interface is kept only for a v6 link-local
address; the weight is cast to `uint64_t`. -/
def NextHopThrift.fromThrift (nht : NextHopThrift) : NextHop :=
  match nht.ifName with
  | some intfID =>
    if nht.address.isV6 && nht.address.isLinkLocal then
      ResolvedNextHop nht.address intfID (toUInt64 nht.weight) nht.mplsAction
    else UnresolvedNextHop nht.address (toUInt64 nht.weight) nht.mplsAction
  | none => UnresolvedNextHop nht.address (toUInt64 nht.weight) nht.mplsAction

/-- `thriftNextHopsFromAddresses`: next hops of weight 0 at the addresses. -/
def thriftNextHopsFromAddresses (addrs : List IPAddress) : List NextHopThrift :=
  addrs.map fun addr => ⟨addr, none, 0, none⟩

def toRouteNextHopSet (nhs : List NextHopThrift) : RouteNextHopSet :=
  FlatSet.ofList (nhs.map NextHopThrift.fromThrift)

/-- `RouteNextHopEntry::from(route, defaultAdminDistance)`. -/
def RouteNextHopEntry.fromRoute (route : UnicastRoute) (defaultAdminDistance : AdminDistance) :
    RouteNextHopEntry :=
  if (toRouteNextHopSet (if route.nextHops.isEmpty && !route.nextHopAddrs.isEmpty then
      thriftNextHopsFromAddresses route.nextHopAddrs else route.nextHops)).elems.isEmpty then
    .ofAction .DROP (route.adminDistance.getD defaultAdminDistance)
  else
    .ofNextHops (toRouteNextHopSet (if route.nextHops.isEmpty && !route.nextHopAddrs.isEmpty then
      thriftNextHopsFromAddresses route.nextHopAddrs else route.nextHops))
      (route.adminDistance.getD defaultAdminDistance)

/-- `cfg::StaticRouteNoNextHops`: a VRF and a prefix. -/
structure StaticRouteNoNextHops where
  routerID : Int
  pfx : IPAddress × Nat

/-- `cfg::StaticRouteWithNextHops`: a VRF, a prefix and next-hop addresses. -/
structure StaticRouteWithNextHops where
  routerID : Int
  pfx : IPAddress × Nat
  nexthops : List IPAddress

/-- `RouteNextHopEntry::fromStaticRoute`: the next hops unresolved, of the
default UCMP weight, at the static admin distance. -/
def RouteNextHopEntry.fromStaticRoute (route : StaticRouteWithNextHops) :
    Except String RouteNextHopEntry :=
  RouteNextHopEntry.make (FlatSet.ofList (route.nexthops.map fun nh => UnresolvedNextHop nh UCMP_DEFAULT_WEIGHT none))
    AdminDistance.STATIC_ROUTE

/-- `SwSwitch::clientIdToAdminDistance`: the configured distance of the
client, or the maximal one. -/
def clientIdToAdminDistance (config : FlatMap Int AdminDistance) (clientId : Int) : AdminDistance :=
  (config.find? clientId).getD AdminDistance.MAX_ADMIN_DISTANCE

end Fboss
