import Fboss.Rib.RouteUpdater

/-!
# What `updateDone` leaves

From valid tables, `updateDone` ends: with fuel for more nested resolutions
than there are routes it never runs out of fuel, and it fails only on a check
of the source. It keeps the routes and their client entries, and leaves every
route with exactly one of `RESOLVED` and `UNRESOLVABLE`, no `PROCESSING`, and
forwarding through next hops that carry an interface (`updateDone_spec`).

What it does not do is resolve every route from scratch. The v4 pass resolves
v4 routes while the v6 routes still carry the flags of the last `updateDone`,
so a v4 route whose next hop lies in a v6 route takes that route's old
forwarding information. Two routes that resolve only through each other, one
in each family, stay `RESOLVED` when they were added in two batches, while the
same calls in one batch leave them `UNRESOLVABLE`
(`updateDone_keeps_cross_family_cycle_resolved`).
-/

namespace Fboss

namespace Rib

/-! ### `updateDone` settles every route -/

open Except Tables

variable {t : Tables}

theorem sameShape_clearForwardAt (hv : t.Valid) (r : RouteRef) :
    SameShape t (clearForwardAt t r) := by
  unfold clearForwardAt
  split
  · exact sameShape_setRoute hv ‹_› _
  · exact SameShape.refl hv

theorem getRoute_clearForwardAt (hv : t.Valid) (r q : RouteRef) :
    (clearForwardAt t r).getRoute q =
      if q = r then (t.getRoute q).map Route.clearForward else t.getRoute q := by
  unfold clearForwardAt
  split
  · next route hr =>
    rw [getRoute_setRoute hv hr]
    split_ifs with hq
    · rw [hq, hr]; rfl
    · rfl
  · next hr =>
    split_ifs with hq
    · rw [hq, hr]; rfl
    · rfl

/-- Clearing the routes of a list, one after the other. -/
theorem clearForward_foldl (l : List RouteRef) (hv : t.Valid) :
    SameShape t (l.foldl clearForwardAt t) ∧ ∀ q, (l.foldl clearForwardAt t).getRoute q =
      if q ∈ l then (t.getRoute q).map Route.clearForward else t.getRoute q := by
  induction l generalizing t with
  | nil => exact ⟨SameShape.refl hv, fun q => by simp⟩
  | cons r l ih =>
    have hshape := sameShape_clearForwardAt hv r
    obtain ⟨hshape', hget⟩ := ih hshape.valid
    refine ⟨hshape.trans hshape', fun q => ?_⟩
    rw [List.foldl_cons, hget, getRoute_clearForwardAt hv]
    -- a route cleared twice is cleared once
    by_cases hqr : q = r <;> by_cases hql : q ∈ l <;> simp [hqr, hql, Option.map_map, Function.comp_def]

theorem sameShape_clearForwardAll (hv : t.Valid) (family : Family) :
    SameShape t (clearForwardAll t family) :=
  (clearForward_foldl _ hv).1

theorem getRoute_clearForwardAll (hv : t.Valid) (family : Family) (q : RouteRef) :
    (clearForwardAll t family).getRoute q =
      if q.family = family then (t.getRoute q).map Route.clearForward else t.getRoute q := by
  rw [clearForwardAll, (clearForward_foldl _ hv).2]
  by_cases hq : q.family = family
  · rw [if_pos hq]
    by_cases hr : ∃ route, t.getRoute q = some route
    · rw [if_pos ((mem_routeRefs_iff t family q).mpr ⟨hq, hr⟩)]
    · rw [if_neg fun hmem => hr ((mem_routeRefs_iff t family q).mp hmem).2]
      rw [Option.eq_none_iff_forall_ne_some.mpr fun route h => hr ⟨route, h⟩]
      rfl
  · rw [if_neg hq, if_neg fun hmem => hq ((mem_routeRefs_iff t family q).mp hmem).1]

theorem routeCount_eq (h : SameShape t t') : t'.routeCount = t.routeCount := by
  rw [routeCount, routeCount, h.routeRefs_eq, h.routeRefs_eq]

/-- `updateDoneImpl` from valid tables, with fuel for more nested resolutions
than there are routes: the cleared tables progress, and no route of the family
needs resolution at the end. -/
theorem updateDoneImpl_spec (hv : t.Valid) {fuel : Nat} (hfuel : t.routeCount < fuel)
    (family : Family) :
    Spec (· ≠ .outOfFuel)
      (fun t' => (clearForwardAll t family).Progress t' ∧
        ∀ r ∈ t.routeRefs family, t'.needResolveAt r = false)
      (updateDoneImpl fuel t family) := by
  have hshape := sameShape_clearForwardAll hv family
  have hb : (clearForwardAll t family).needCount < fuel :=
    lt_of_le_of_lt (needCount_le_routeCount _) (by rwa [routeCount_eq hshape])
  unfold updateDoneImpl
  rw [← hshape.routeRefs_eq family]
  exact resolveFamily_spec _ hshape.valid hb family

/-- After `updateDoneImpl`, a route of the family is the resolution of the
route cleared. -/
theorem resolvedFrom_of_updateDoneImpl (hv : t.Valid) {family : Family} {t' : Tables}
    (hp : (clearForwardAll t family).Progress t')
    (hdone : ∀ r ∈ t.routeRefs family, t'.needResolveAt r = false) {r : RouteRef}
    {route : Route} (hr : t.getRoute r = some route) (hf : r.family = family) :
    ∃ route', t'.getRoute r = some route' ∧ route.clearForward.ResolvedFrom route' := by
  have hcleared : (clearForwardAll t family).getRoute r = some route.clearForward := by
    rw [getRoute_clearForwardAll hv, if_pos hf, hr]
    rfl
  have hne := hdone r ((mem_routeRefs_iff t family r).mpr ⟨hf, route, hr⟩)
  rcases hp.frame r with heq | ⟨route₀, route', hr₀, hr', hres⟩
  · -- unchanged would still need resolution
    simp [needResolveAt, heq, hcleared] at hne
  · rw [hcleared, Option.some.injEq] at hr₀
    subst hr₀
    exact ⟨route', hr', hres⟩

/-- `updateDone` ends, unless a check of the source fails: with fuel for more
nested resolutions than there are routes it never runs out of fuel, and it
leaves the tables with the same routes, each with its client entries, exactly
one of `RESOLVED` and `UNRESOLVABLE`, no `PROCESSING`, and, when it forwards to
next hops, next hops that carry an interface. -/
theorem updateDone_spec (hv : t.Valid) {fuel : Nat} (hfuel : t.routeCount < fuel) :
    Spec (· ≠ .outOfFuel)
      (fun t' => SameShape t t' ∧ ∀ r route, t.getRoute r = some route →
        ∃ route', t'.getRoute r = some route' ∧ route'.isSettled = true ∧
          route'.hasResolvedFwd = true ∧ route'.nexthopsmulti = route.nexthopsmulti)
      (updateDone fuel t) := by
  unfold updateDone
  refine Spec.bind (updateDoneImpl_spec hv hfuel .v4) fun t₁ h₁ => ?_
  obtain ⟨hp₁, hdone₁⟩ := h₁
  have hshape₁ : SameShape t t₁ := (sameShape_clearForwardAll hv .v4).trans hp₁.shape
  have hv₁ := hshape₁.valid
  refine (updateDoneImpl_spec hv₁ (by rwa [routeCount_eq hshape₁]) .v6).mono fun t₂ h₂ => ?_
  obtain ⟨hp₂, hdone₂⟩ := h₂
  refine ⟨hshape₁.trans ((sameShape_clearForwardAll hv₁ .v6).trans hp₂.shape), fun r route hr => ?_⟩
  cases r with
  | v4 k =>
    -- resolved by the v4 pass, and left alone by the v6 pass
    obtain ⟨route₁, hr₁, hres₁⟩ := resolvedFrom_of_updateDoneImpl hv hp₁ hdone₁ hr rfl
    have hkeep : t₂.getRoute (.v4 k) = some route₁ := by
      rw [hp₂.getRoute_eq (by
        simp [needResolveAt, getRoute_clearForwardAll hv₁, RouteRef.family, hr₁,
          Route.needResolve_eq_false_of_isSettled hres₁.settled]),
        getRoute_clearForwardAll hv₁, if_neg (by simp [RouteRef.family]), hr₁]
    exact ⟨route₁, hkeep, hres₁.settled, hres₁.resolvedFwd, hres₁.nexthopsmulti⟩
  | v6 k =>
    -- the v4 pass may have resolved it already; the v6 pass clears and resolves it
    obtain ⟨route₁, hr₁, hm₁⟩ := hp₁.nexthopsmulti (r := .v6 k) (by
      rw [getRoute_clearForwardAll hv, if_neg (by simp [RouteRef.family])]
      exact hr)
    obtain ⟨route₂, hr₂, hres₂⟩ := resolvedFrom_of_updateDoneImpl hv₁ hp₂ hdone₂ hr₁ rfl
    exact ⟨route₂, hr₂, hres₂.settled, hres₂.resolvedFwd, hres₂.nexthopsmulti.trans hm₁⟩

/-- `updateDone` on the empty tables, with one unit of fuel. -/
theorem updateDone_spec_empty :
    let t : Tables := ⟨.empty, .empty⟩
    t.Valid ∧ t.routeCount < 1 ∧
      Spec (· ≠ .outOfFuel)
        (fun t' => SameShape t t' ∧ ∀ r route, t.getRoute r = some route →
          ∃ route', t'.getRoute r = some route' ∧ route'.isSettled = true ∧
            route'.hasResolvedFwd = true ∧ route'.nexthopsmulti = route.nexthopsmulti)
        (updateDone 1 t) :=
  have hv : (⟨.empty, .empty⟩ : Tables).Valid := ⟨trivial, trivial⟩
  have hc : (⟨.empty, .empty⟩ : Tables).routeCount < 1 := by decide
  ⟨hv, hc, updateDone_spec hv hc⟩

/-! ### A cycle across the two families -/

/-- v4 `10.0.0.0/24` is the subnet of interface 1, v6 `2001::/64` has the next
hop `10.0.0.5`, and v4 `10.0.0.5/32` has the next hop `2001::1`: the last two
resolve only through each other. Added in two batches, the cycle is left
`RESOLVED`; added in one batch, it is `UNRESOLVABLE`. -/
theorem updateDone_keeps_cross_family_cycle_resolved :
    let subnet : UpdateOp := .addInterfaceRoute (.v4 0x0a000001#32) 24 (.v4 0x0a000001#32) 1
    let viaV4 : UpdateOp := .addRoute (.v6 0x20010000000000000000000000000000#128) 64 0
      (.ofNextHops (FlatSet.ofList [UnresolvedNextHop (.v4 0x0a000005#32) UCMP_DEFAULT_WEIGHT none]) 20)
    let viaV6 : UpdateOp := .addRoute (.v4 0x0a000005#32) 32 0
      (.ofNextHops (FlatSet.ofList
        [UnresolvedNextHop (.v6 0x20010000000000000000000000000001#128) UCMP_DEFAULT_WEIGHT none]) 20)
    let cycle : List RouteRef :=
      [.v4 (0x0a000005#32, 32), .v6 (0x20010000000000000000000000000000#128, 64)]
    let view := fun (t : Tables) => (t.isPureCycle cycle,
      cycle.map fun r => (t.getRoute r).map fun route => (route.isResolved, route.isUnresolvable))
    (runOps [subnet, viaV4, .updateDone, viaV6, .updateDone]).map view =
        .ok (true, [some (true, false), some (true, false)]) ∧
      (runOps [subnet, viaV4, viaV6, .updateDone]).map view =
        .ok (true, [some (false, true), some (false, true)]) := by
  decide +kernel

end Rib

end Fboss
