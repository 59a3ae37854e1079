import Fboss.RadixTree.Values
import Fboss.Route.Route

/-!
# Recursive route resolution

Resolution (`resolveOne` and `getFwdInfoFromNhop` of `rib/RouteUpdater.cpp`,
the same text in `state/RouteUpdater.cpp`) computes the forwarding
information of a route from its best entry: a `DROP` or `TO_CPU` entry gives
that action, and a next hop without an interface is looked up by longest match
in the table of its address family, the route found being resolved first if
it needs it. The `PROCESSING` flag set at the start of `resolveOne` is the only
guard against cycles: a route found while it is being processed gives
nothing. The forwarding information of the next hops is merged by
`mergeForwardInfos`, with the weights normalised by their LCM and reduced by
their GCD.

The two tables of a VRF are radix trees of routes (`Tables`). The source
writes routes in place through tree iterators; here a write is
`RadixTree.setValueAt`, and a route is named by its family and prefix
(`RouteRef`). `resolveOne` and `getFwdInfoFromNhop` call each other; the model
passes `resolveOne` to `getFwdInfoFromNhop` and bounds the depth of the
recursion by `fuel`. The switch-state copy also `CHECK`s that the route it
resolves is not published, which in a table of values is a property of the
table: the flag `isPublished` of each family, always `false` for the RIB.

Failures the source aborts on (a failed `CHECK`, an exception, reading the
interface of a next hop that has none) are `ResolveError.failed` with the text
of the check; running out of fuel is `ResolveError.outOfFuel`. The weights are
`uint64_t`: sums and products are taken modulo `2 ^ 64`, and the two
`std::accumulate` calls whose start value is the `int` literal keep their
accumulator in an `int`.
-/

namespace Fboss

open RadixTree RadixTreeNode

/-- The address family of a route table. -/
inductive Family where
  | v4
  | v6
  deriving DecidableEq, Repr

/-- A route named by its family and its prefix. -/
inductive RouteRef where
  | v4 (key : IPAddressV4 × Nat)
  | v6 (key : IPAddressV6 × Nat)
  deriving DecidableEq, Repr

def RouteRef.family : RouteRef → Family
  | .v4 _ => .v4
  | .v6 _ => .v6

/-- What stops resolution: a failed check or exception of the source, with
its text, or the fuel of the model running out. -/
inductive ResolveError where
  | outOfFuel
  | failed (what : String)
  deriving DecidableEq, Repr

/-- The v4 and v6 route tables of a VRF. Where a lemma needs the trees to be
valid, it says so (`Tables.Valid`). -/
structure Tables where
  v4 : RadixTree 32 Route
  v6 : RadixTree 128 Route

namespace Tables

/-- The route stored under a name. -/
def getRoute (t : Tables) : RouteRef → Option Route
  | .v4 k => (t.v4.root.findNode (some k)).value
  | .v6 k => (t.v6.root.findNode (some k)).value

/-- The route stored under a name, which the caller knows to be there. -/
def findRoute (t : Tables) (r : RouteRef) : Except ResolveError Route :=
  match t.getRoute r with
  | some route => .ok route
  | none => .error (.failed "Check failed: route")

/-- Write a route through its name. -/
def setRoute (t : Tables) (r : RouteRef) (route : Route) : Tables :=
  match r with
  | .v4 k => { t with v4 := t.v4.setValueAt k route }
  | .v6 k => { t with v6 := t.v6.setValueAt k route }

/-- `routes->longestMatch(nh, nh.bitCount())` in the table of the address's
family, as the name of the route found. -/
def longestMatch (t : Tables) : IPAddress → Option RouteRef
  | .v4 a => ((t.v4.longestMatch a 32).key?).map .v4
  | .v6 a => ((t.v6.longestMatch a 128).key?).map .v6

/-- The routes of a family, in the order the tree's iterator visits them. -/
def routeRefs (t : Tables) : Family → List RouteRef
  | .v4 => t.v4.valueKeys.map .v4
  | .v6 => t.v6.valueKeys.map .v6

/-- Both trees are valid. -/
def Valid (t : Tables) : Prop :=
  RadixTreeNode.Valid t.v4.root ∧ RadixTreeNode.Valid t.v6.root

/-- The number of routes of both tables. -/
def routeCount (t : Tables) : Nat :=
  (t.routeRefs .v4 ++ t.routeRefs .v6).length

variable {t : Tables} {r : RouteRef} {route : Route}

theorem mem_routeRefs_iff (t : Tables) (f : Family) (q : RouteRef) :
    q ∈ t.routeRefs f ↔ q.family = f ∧ ∃ route, t.getRoute q = some route := by
  cases f <;> cases q <;> simp [routeRefs, RouteRef.family, getRoute, mem_valueKeys_iff]

theorem valid_setRoute (hv : t.Valid) (r : RouteRef) (x : Route) : (t.setRoute r x).Valid := by
  cases r with
  | v4 k => exact ⟨valid_setValueAt hv.1 k x, hv.2⟩
  | v6 k => exact ⟨hv.1, valid_setValueAt hv.2 k x⟩

/-- A write to a route changes the route read under its name and no other. -/
theorem getRoute_setRoute (hv : t.Valid) (hr : t.getRoute r = some route) (x : Route)
    (q : RouteRef) : (t.setRoute r x).getRoute q = if q = r then some x else t.getRoute q := by
  cases r with
  | v4 k =>
    cases q with
    | v4 k' =>
      simpa [setRoute, getRoute] using value_setValueAt hv.1 (mem_keys_of_value_findNode hr) x k'
    | v6 k' => simp [setRoute, getRoute]
  | v6 k =>
    cases q with
    | v4 k' => simp [setRoute, getRoute]
    | v6 k' =>
      simpa [setRoute, getRoute] using value_setValueAt hv.2 (mem_keys_of_value_findNode hr) x k'

theorem routeRefs_setRoute (hv : t.Valid) (hr : t.getRoute r = some route) (x : Route)
    (f : Family) : (t.setRoute r x).routeRefs f = t.routeRefs f := by
  cases r with
  | v4 k =>
    cases f
    · simp only [setRoute, routeRefs]
      rw [valueKeys_setValueAt hv.1 (mem_keys_of_value_findNode hr)
        (by simp [isValueNode, show (t.v4.root.findNode (some k)).value = some route from hr])]
    · rfl
  | v6 k =>
    cases f
    · rfl
    · simp only [setRoute, routeRefs]
      rw [valueKeys_setValueAt hv.2 (mem_keys_of_value_findNode hr)
        (by simp [isValueNode, show (t.v6.root.findNode (some k)).value = some route from hr])]

theorem longestMatch_setRoute (hv : t.Valid) (hr : t.getRoute r = some route) (x : Route)
    (a : IPAddress) : (t.setRoute r x).longestMatch a = t.longestMatch a := by
  cases r with
  | v4 k =>
    cases a with
    | v4 a =>
      simp only [setRoute, longestMatch]
      rw [longestMatch_key?_setValueAt hv.1 (mem_keys_of_value_findNode hr)
        (by simp [isValueNode, show (t.v4.root.findNode (some k)).value = some route from hr])]
    | v6 a => rfl
  | v6 k =>
    cases a with
    | v4 a => rfl
    | v6 a =>
      simp only [setRoute, longestMatch]
      rw [longestMatch_key?_setValueAt hv.2 (mem_keys_of_value_findNode hr)
        (by simp [isValueNode, show (t.v6.root.findNode (some k)).value = some route from hr])]

end Tables

/-! ### Merging the forwarding information of the next hops -/

/-- `NextHopForwardInfos`: the forwarding information found for each next hop
of the best entry. -/
abbrev NextHopForwardInfos := FlatMap NextHop RouteNextHopSet

/-- The interface of a resolved next hop, `intfID().value()`. -/
def NextHop.intf (nh : NextHop) : Except ResolveError InterfaceID :=
  match nh.intfID with
  | some intfID => .ok intfID
  | none => .error (.failed "bad optional access: intfID")

/-- `combinePushLabelStack`, whose failed checks stop resolution. -/
def combineLabels (tunnelStack adjacencyLabels : Option LabelForwardingAction) :
    Except ResolveError (Option LabelForwardingAction) :=
  (LabelForwardingAction.combinePushLabelStack tunnelStack adjacencyLabels).mapError .failed

/-- `totalWeight`: the weights summed into a `uint32_t`. -/
def totalWeight (nhops : RouteNextHopSet) : NextHopWeight :=
  nhops.elems.foldl (fun result nh => (result + nh.weight) % 2 ^ 32) 0

/-- `boost::integer::lcm` on `uint64_t`. -/
def lcm64 (a b : Nat) : Nat :=
  if Nat.gcd a b = 0 then 0 else (a / Nat.gcd a b * b) % 2 ^ 64

/-- `totalWeightsLcm`: the LCM of the total weights, accumulated from the
`int` `1`. -/
def totalWeightsLcm (nhToFwds : NextHopForwardInfos) : NextHopWeight :=
  toUInt64 (nhToFwds.toList.foldl (fun l nhToFwd => toInt32 (lcm64 (toUInt64 l) (totalWeight nhToFwd.2))) 1)

def hasEcmpNextHop (nhToFwds : NextHopForwardInfos) : Bool :=
  nhToFwds.toList.any fun nhToFwd => nhToFwd.1.weight == 0

/-- `mergeForwardInfosEcmp`: every resolved next hop with the ECMP weight. -/
def mergeForwardInfosEcmp (nhToFwds : NextHopForwardInfos) : Except ResolveError RouteNextHopSet :=
  nhToFwds.toList.foldlM (fun fwd nhToFwd =>
    nhToFwd.2.elems.foldlM (fun fwd fnh => do
      let intf ← fnh.intf
      pure (fwd.emplace (ResolvedNextHop fnh.addr intf ECMP_WEIGHT fnh.labelForwardingAction)))
      fwd) FlatSet.empty

/-- `NextHopCombinedWeightsKey`: a resolved next hop without its weight. -/
structure NextHopCombinedWeightsKey where
  ip : IPAddress
  intfId : InterfaceID
  action : Option LabelForwardingAction
  deriving DecidableEq

namespace NextHopCombinedWeightsKey

/-- `operator<`: `std::tie(ip, intfId, action)` compared in order. -/
def orderKey (k : NextHopCombinedWeightsKey) :
    Lex (IPAddress × Lex (InterfaceID × WithBot LabelForwardingAction)) :=
  toLex (k.ip, toLex (k.intfId, (k.action : WithBot LabelForwardingAction)))

theorem orderKey_injective : Function.Injective orderKey := by
  rintro ⟨i, n, a⟩ ⟨i', n', a'⟩ h
  have hi : i = i' := congrArg (fun x => (ofLex x).1) h
  have hn : n = n' := congrArg (fun x => (ofLex (ofLex x).2).1) h
  have ha : a = a' := congrArg (fun x => (ofLex (ofLex x).2).2) h
  rw [hi, hn, ha]

instance : LinearOrder NextHopCombinedWeightsKey :=
  LinearOrder.lift' orderKey orderKey_injective

/-- `NextHopCombinedWeightsKey(nhop)`, which reads the interface. -/
def ofNextHop (nhop : NextHop) : Except ResolveError NextHopCombinedWeightsKey := do
  let intfId ← nhop.intf
  pure ⟨nhop.addr, intfId, nhop.labelForwardingAction⟩

end NextHopCombinedWeightsKey

abbrev NextHopCombinedWeights := FlatMap NextHopCombinedWeightsKey NextHopWeight

/-- `combineWeights`: each resolved next hop weighted by the LCM over its set's
total weight and by the weight of the next hop it came through, summed per
weightless next hop. -/
def combineWeights (nhToFwds : NextHopForwardInfos) : Except ResolveError NextHopCombinedWeights :=
  nhToFwds.toList.foldlM (fun cws nhToFwd =>
    if nhToFwd.2.elems = [] then pure cws
    else
      let t := totalWeight nhToFwd.2
      let normalization := if t ≠ 0 then totalWeightsLcm nhToFwds / t else 0
      nhToFwd.2.elems.foldlM (fun cws fnh => do
        let w := fnh.weight * normalization * nhToFwd.1.weight % 2 ^ 64
        let key ← NextHopCombinedWeightsKey.ofNextHop fnh
        pure (cws.set key (((cws.find? key).getD 0 + w) % 2 ^ 64)))
        cws) FlatMap.empty

/-- `optimizeWeights`: the weights divided by their GCD, accumulated from the
`int` `0`. -/
def optimizeWeights (cws : NextHopCombinedWeights) : RouteNextHopSet :=
  let fwdWeightGcd := toUInt64 (cws.toList.foldl (fun g cw =>
    toInt32 (if toUInt64 g ≠ 0 then Nat.gcd (toUInt64 g) cw.2 else cw.2)) 0)
  cws.toList.foldl (fun fwd cw =>
    fwd.emplace (ResolvedNextHop cw.1.ip cw.1.intfId
      (if fwdWeightGcd ≠ 0 then cw.2 / fwdWeightGcd else 0) cw.1.action)) FlatSet.empty

/-- `mergeForwardInfos`: ECMP if any next hop has weight 0, else UCMP. -/
def mergeForwardInfos (nhToFwds : NextHopForwardInfos) : Except ResolveError RouteNextHopSet :=
  if hasEcmpNextHop nhToFwds then mergeForwardInfosEcmp nhToFwds
  else optimizeWeights <$> combineWeights nhToFwds

/-! ### Resolution -/

/-- What resolution carries along: the tables, the flags `hasToCpu` and
`hasDrop`, and the forwarding information gathered so far. -/
structure ResolveAcc (β : Type) where
  tables : Tables
  hasToCpu : Bool
  hasDrop : Bool
  fwd : β

section Resolution

variable (isPublished : Family → Bool)

/-- One resolved next hop of the route found, with the next hop's label
action pushed on top of its own. -/
def addResolvedNextHop (labelAction : Option LabelForwardingAction) (fwd : RouteNextHopSet)
    (nhop : NextHop) : Except ResolveError RouteNextHopSet := do
  let intf ← nhop.intf
  let action ← combineLabels labelAction nhop.labelForwardingAction
  pure (fwd.emplace (ResolvedNextHop nhop.addr intf nhop.weight action))

/-- The part of `getFwdInfoFromNhop` after the lookup: what the route found
for the next hop `nh` forwards to, added to what has been gathered. A route
that is not resolved adds nothing. -/
def addFwdInfo (nh : IPAddress) (labelAction : Option LabelForwardingAction)
    (acc : ResolveAcc RouteNextHopSet) (route : Route) :
    Except ResolveError (ResolveAcc RouteNextHopSet) :=
  if route.isResolved then
    if route.getForwardInfo.isDrop then pure { acc with hasDrop := true }
    else if route.getForwardInfo.isToCPU then pure { acc with hasToCpu := true }
    else if route.isConnected then
      -- the route used to resolve the next hop is directly connected
      match route.getForwardInfo.getNextHopSet.elems with
      | [] => throw (.failed "begin() of an empty next hop set")
      | rtNh :: _ => do
        let intf ← rtNh.intf
        let action ← combineLabels labelAction rtNh.labelForwardingAction
        pure { acc with fwd := acc.fwd.emplace (ResolvedNextHop nh intf UCMP_DEFAULT_WEIGHT action) }
    else do
      let fwd ← route.getForwardInfo.getNextHopSet.elems.foldlM (addResolvedNextHop labelAction) acc.fwd
      pure { acc with fwd }
  else pure acc

/-- `getFwdInfoFromNhop`: look up the next hop `nh`, resolve the route found if
it needs it, and add what it forwards to. `resolveOne` is the resolution of one
route, which this one calls. -/
def getFwdInfoFromNhop (resolveOne : Tables → RouteRef → Except ResolveError Tables)
    (nh : IPAddress) (labelAction : Option LabelForwardingAction)
    (acc : ResolveAcc RouteNextHopSet) : Except ResolveError (ResolveAcc RouteNextHopSet) :=
  match acc.tables.longestMatch nh with
  | none => pure acc
  | some r => do
    let route ← acc.tables.findRoute r
    let tables ← (if route.needResolve then resolveOne acc.tables r else pure acc.tables)
    let route ← tables.findRoute r
    addFwdInfo nh labelAction { acc with tables } route

/-- One turn of the loop of `resolveOne` over the next hops of the best entry. -/
def resolveNextHop (resolveOne : Tables → RouteRef → Except ResolveError Tables)
    (clientId : ClientID) (acc : ResolveAcc NextHopForwardInfos) (nh : NextHop) :
    Except ResolveError (ResolveAcc NextHopForwardInfos) :=
  match nh.intfID with
  | some _ =>
    -- an interface route's next hop, or a v6 link-local one: already resolved
    if clientId = ClientID.INTERFACE_ROUTE ∨ (nh.addr.isV6 ∧ nh.addr.isLinkLocal) then
      pure { acc with fwd := acc.fwd.set nh (((acc.fwd.find? nh).getD FlatSet.empty).emplace nh) }
    else
      throw (.failed "Check failed: clientId == kInterfaceRouteClientId or (addr.isV6() and addr.isLinkLocal())")
  | none => do
    let res ← getFwdInfoFromNhop resolveOne nh.addr nh.labelForwardingAction
      { acc with fwd := (acc.fwd.find? nh).getD FlatSet.empty }
    pure { res with fwd := acc.fwd.set nh res.fwd }

/-- The end of `resolveOne`: resolved with the merged next hops, else to the
CPU, else dropped, else unresolvable; connected if the best entry is an
interface route's. -/
def Route.setResolution (route : Route) (clientId : ClientID) (hasToCpu hasDrop : Bool)
    (fwd : RouteNextHopSet) : Route :=
  if fwd.elems ≠ [] then
    if clientId = ClientID.INTERFACE_ROUTE then
      (route.setResolved (.ofNextHops fwd AdminDistance.MAX_ADMIN_DISTANCE)).setConnected
    else route.setResolved (.ofNextHops fwd AdminDistance.MAX_ADMIN_DISTANCE)
  else if hasToCpu then route.setResolved (.ofAction .TO_CPU AdminDistance.MAX_ADMIN_DISTANCE)
  else if hasDrop then route.setResolved (.ofAction .DROP AdminDistance.MAX_ADMIN_DISTANCE)
  else route.setUnresolvable

/-- The body of `resolveOne` after the route is marked as processing: the
forwarding information of the best entry of client `clientId`. A `DROP` or
`TO_CPU` entry gives its action; the next hops of a `NEXTHOPS` entry are
resolved one by one and their forwarding information merged. -/
def resolveEntry (resolveOne : Tables → RouteRef → Except ResolveError Tables) (t : Tables)
    (clientId : ClientID) (bestEntry : RouteNextHopEntry) :
    Except ResolveError (ResolveAcc RouteNextHopSet) :=
  match bestEntry.getAction with
  | .DROP => pure ⟨t, false, true, FlatSet.empty⟩
  | .TO_CPU => pure ⟨t, true, false, FlatSet.empty⟩
  | .NEXTHOPS => do
    let res ← bestEntry.getNextHopSet.elems.foldlM
      (resolveNextHop resolveOne clientId) ⟨t, false, false, FlatMap.empty⟩
    let fwd ← mergeForwardInfos res.fwd
    pure { res with fwd }

/-- `resolveOne(route)`, with at most `fuel` nested calls. The route is marked
as processing in the tables that the resolution of its next hops reads. -/
def resolveOne : Nat → Tables → RouteRef → Except ResolveError Tables
  | 0, _, _ => throw .outOfFuel
  | fuel + 1, t, r => do
    let route ← t.findRoute r
    if isPublished r.family then throw (.failed "Check failed: !route->isPublished()")
    else do
      let best ← route.getBestEntry.mapError .failed
      let res ← resolveEntry (resolveOne fuel) (t.setRoute r route.setProcessing) best.1 best.2
      let route ← res.tables.findRoute r
      pure (res.tables.setRoute r (route.setResolution best.1 res.hasToCpu res.hasDrop res.fwd))

/-- The resolution loop over the routes of one family: each route that needs
resolution is resolved. -/
def resolveFamily (fuel : Nat) (t : Tables) (family : Family) : Except ResolveError Tables :=
  (t.routeRefs family).foldlM (fun t r => do
    let route ← t.findRoute r
    if route.needResolve then resolveOne isPublished fuel t r else pure t) t

end Resolution

end Fboss
