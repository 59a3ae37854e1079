import Fboss.State.RouteUpdater

/-!
# Incremental resolution in the switch state

`updateDone` resolves the cloned ribs only. A rib that no call of the batch
changed keeps its published routes, with the forwarding information they were
resolved to when they were published, although a route of the other family,
or of the same family in a rib that was cloned, may now be what their next
hops resolve through.

The reference it is compared with is resolution from scratch: an updater over
the same tables with every rib marked cloned, resolved
(`resolveFromScratch`). After a batch that adds a v4 route only, a v6 route
whose next hop now falls in it keeps its old next hop through the interface,
while from scratch it would drop (`updateDone_keeps_stale_forwarding`).
-/

namespace Fboss

namespace State

open RouteUpdater

/-- Resolution from scratch: every rib of the tables marked cloned, cleared
and resolved. -/
def resolveFromScratch (m : RouteTableMap) : Except ResolveError RouteTableMap := do
  let u ← (RouteUpdater.mk m (m.mapValues fun t => ⟨⟨t.v4, true⟩, ⟨t.v6, true⟩⟩)).resolve
  pure (u.clonedRibs.mapValues ClonedRib.tables)

/-- The forwarding information of the route `r` of the VRF `id`. -/
def forwardInfo (m : RouteTableMap) (id : RouterID) (r : RouteRef) : Option RouteNextHopEntry :=
  ((m.find? id).bind fun t => t.getRoute r).map Route.getForwardInfo

/-- Interface 1 of VRF 0 has `10.0.0.1/24`, and `2001::/64` has the next hop
`10.0.0.5`. A second batch adds the dropped route `10.0.0.5/32`, which only
clones the v4 rib: `2001::/64` keeps forwarding to `10.0.0.5` through
interface 1, while resolved from scratch it drops. -/
theorem updateDone_keeps_stale_forwarding :
    let viaV4 : RouteNextHopEntry := .ofNextHops
      (FlatSet.ofList [UnresolvedNextHop (.v4 0x0a000005#32) UCMP_DEFAULT_WEIGHT none]) 20
    let batch1 : List UpdateOp := [.addInterfaceAndLinkLocalRoutes [⟨1, 0, [(.v4 0x0a000001#32, 24)]⟩],
      .addRoute 0 (.v6 0x20010000000000000000000000000000#128) 64 0 viaV4]
    let batch2 : List UpdateOp := [.addRoute 0 (.v4 0x0a000005#32) 32 0 (.ofAction .DROP 20)]
    let b : RouteRef := .v6 (0x20010000000000000000000000000000#128, 64)
    (runBatches FlatMap.empty [batch1, batch2]).map (fun m =>
        (forwardInfo m 0 b, (resolveFromScratch m).toOption.bind (forwardInfo · 0 b))) =
      .ok (some (.ofNextHops (FlatSet.ofList [ResolvedNextHop (.v4 0x0a000005#32) 1 1 none])
          AdminDistance.MAX_ADMIN_DISTANCE),
        some (.ofAction .DROP AdminDistance.MAX_ADMIN_DISTANCE)) := by
  decide +kernel

end State

end Fboss
