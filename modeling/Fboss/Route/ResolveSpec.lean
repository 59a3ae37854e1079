import Fboss.Lib.ExceptSpec
import Fboss.Lib.ListSelect
import Fboss.Route.Resolve

/-!
# What resolution guarantees

Resolution only ever writes the routes it resolves, and a route is resolved
only when it needs resolution: the route marked as processing by `resolveOne`
is skipped by every lookup until `resolveOne` sets its resolution. So from the
tables a resolution starts from to the tables it ends with, every route is
either unchanged or has been resolved from a route that needed it
(`Tables.Progress`), and a resolved route has its client entries, exactly one
of `RESOLVED` and `UNRESOLVABLE`, no `PROCESSING`, and forwarding through next
hops that carry an interface (`Route.ResolvedFrom`).

Each nested `resolveOne` marks one more route as processing, so the number of
routes that need resolution bounds the depth of the recursion: with more fuel
than that, resolution never runs out of fuel, and it fails only where a check
of the source fails (`resolveOne_resolvesWithin`). A resolution loop over a
family leaves none of its routes needing resolution (`resolveFamily_spec`).
-/

namespace Fboss

open Except RadixTree

namespace Route

/-- Resolution is done with the route: exactly one of `RESOLVED` and
`UNRESOLVABLE` is set, and `PROCESSING` is not. -/
def isSettled (r : Route) : Bool :=
  (r.isResolved != r.isUnresolvable) && !r.isProcessing

/-- A route resolved to next hops forwards only through next hops that carry
an interface. -/
def hasResolvedFwd (r : Route) : Bool :=
  !r.isResolved || r.fwd.getAction != .NEXTHOPS ||
    r.fwd.getNextHopSet.elems.all fun nh => nh.intfID.isSome

theorem needResolve_eq_false_of_isSettled {r : Route} (h : r.isSettled = true) :
    r.needResolve = false := by
  obtain ⟨_, _, ⟨_, resolved, unresolvable, _⟩⟩ := r
  cases resolved <;> cases unresolvable <;>
    simp_all [isSettled, needResolve, isResolved, isUnresolvable, isProcessing]

/-- `route'` is `route` after its resolution: `route` needed resolution, and
`route'` keeps its client entries, is settled, and forwards through resolved
next hops. -/
structure ResolvedFrom (route route' : Route) : Prop where
  needResolve : route.needResolve = true
  nexthopsmulti : route'.nexthopsmulti = route.nexthopsmulti
  settled : route'.isSettled = true
  resolvedFwd : route'.hasResolvedFwd = true

end Route

/-- The end of `resolveOne` resolves the route it marked as processing, when
the merged next hops carry interfaces. -/
theorem Route.resolvedFrom_setResolution {route : Route} (h : route.needResolve = true)
    (clientId : ClientID) (hasToCpu hasDrop : Bool) {fwd : RouteNextHopSet}
    (hfwd : ∀ nh ∈ fwd.elems, nh.intfID.isSome = true) :
    route.ResolvedFrom (route.setProcessing.setResolution clientId hasToCpu hasDrop fwd) := by
  unfold Route.setResolution
  split_ifs <;>
    exact ⟨h, rfl, by simp [isSettled, setProcessing, setResolved, setConnected, setUnresolvable,
      isResolved, isUnresolvable, isProcessing],
      by simp_all [hasResolvedFwd, setProcessing, setResolved, setConnected, setUnresolvable,
        isResolved, RouteNextHopEntry.getAction, RouteNextHopEntry.ofNextHops,
        RouteNextHopEntry.ofAction, RouteNextHopEntry.getNextHopSet]⟩

namespace Tables

variable {t t₁ t₂ t₃ t' : Tables} {r q : RouteRef} {route : Route}

/-- The route under `r` needs resolution. -/
def needResolveAt (t : Tables) (r : RouteRef) : Bool :=
  (t.getRoute r).any Route.needResolve

/-- The number of routes that need resolution. -/
def needCount (t : Tables) : Nat :=
  (t.routeRefs .v4 ++ t.routeRefs .v6).countP t.needResolveAt

theorem needCount_le_routeCount (t : Tables) : t.needCount ≤ t.routeCount :=
  List.countP_le_length

theorem mem_allRouteRefs (h : t.getRoute r = some route) :
    r ∈ t.routeRefs .v4 ++ t.routeRefs .v6 := by
  have hr : r ∈ t.routeRefs r.family := (mem_routeRefs_iff t r.family r).mpr ⟨rfl, route, h⟩
  cases hf : r.family <;> rw [hf] at hr <;> simp [hr]

/-- The route `r` can be resolved only through the route `q`: its best entry
forwards to next hops, none of them carrying an interface, and each is found
in `q` by longest match. -/
def resolvesOnlyThrough (t : Tables) (r q : RouteRef) : Bool :=
  match t.getRoute r with
  | none => false
  | some route =>
    match route.getBestEntry with
    | .error _ => false
    | .ok best =>
      best.2.getAction == .NEXTHOPS && best.2.getNextHopSet.elems.all fun nh =>
        nh.intfID.isNone && t.longestMatch nh.addr == some q

/-- The routes of `cycle` form a pure resolution cycle: each resolves only
through the next one, and the last only through the first. -/
def isPureCycle (t : Tables) (cycle : List RouteRef) : Bool :=
  !cycle.isEmpty && (cycle.zip (cycle.rotateLeft 1)).all fun rq => t.resolvesOnlyThrough rq.1 rq.2

/-- `t'` holds routes where `t` does, finds the same ones by longest match,
and visits them in the same order. -/
structure SameShape (t t' : Tables) : Prop where
  valid : t'.Valid
  isSome_getRoute : ∀ q, (t'.getRoute q).isSome = (t.getRoute q).isSome
  longestMatch_eq : ∀ a, t'.longestMatch a = t.longestMatch a
  routeRefs_eq : ∀ f, t'.routeRefs f = t.routeRefs f

theorem SameShape.refl (hv : t.Valid) : SameShape t t :=
  ⟨hv, fun _ => rfl, fun _ => rfl, fun _ => rfl⟩

theorem SameShape.trans (h₁ : SameShape t₁ t₂) (h₂ : SameShape t₂ t₃) : SameShape t₁ t₃ :=
  ⟨h₂.valid, fun q => (h₂.isSome_getRoute q).trans (h₁.isSome_getRoute q),
    fun a => (h₂.longestMatch_eq a).trans (h₁.longestMatch_eq a),
    fun f => (h₂.routeRefs_eq f).trans (h₁.routeRefs_eq f)⟩

/-- A write to a route keeps the shape of the tables. -/
theorem sameShape_setRoute (hv : t.Valid) (hr : t.getRoute r = some route) (x : Route) :
    SameShape t (t.setRoute r x) := by
  refine ⟨valid_setRoute hv r x, fun q => ?_, longestMatch_setRoute hv hr x,
    routeRefs_setRoute hv hr x⟩
  rw [getRoute_setRoute hv hr]
  split_ifs with hq
  · rw [hq, hr]; rfl
  · rfl

/-- `t'` is `t` after the resolution of some of the routes that needed it: it
has the same shape, and every route is unchanged or resolved. -/
structure Progress (t t' : Tables) : Prop where
  shape : SameShape t t'
  frame : ∀ q, t'.getRoute q = t.getRoute q ∨
    ∃ route route', t.getRoute q = some route ∧ t'.getRoute q = some route' ∧
      route.ResolvedFrom route'

theorem Progress.refl (hv : t.Valid) : Progress t t :=
  ⟨SameShape.refl hv, fun _ => .inl rfl⟩

/-- A route that needs no resolution is left as it is. -/
theorem Progress.getRoute_eq (h : Progress t t') (hq : t.needResolveAt q = false) :
    t'.getRoute q = t.getRoute q := by
  rcases h.frame q with heq | ⟨route, route', hr, -, hres⟩
  · exact heq
  · simp [needResolveAt, hr, hres.needResolve] at hq

/-- A route that still needs resolution has not been written. -/
theorem Progress.getRoute_eq_of_needResolveAt (h : Progress t t') (hq : t'.needResolveAt q = true) :
    t'.getRoute q = t.getRoute q := by
  rcases h.frame q with heq | ⟨route, route', -, hr', hres⟩
  · exact heq
  · simp [needResolveAt, hr', Route.needResolve_eq_false_of_isSettled hres.settled] at hq

theorem Progress.needResolveAt_eq_false (h : Progress t t') (hq : t.needResolveAt q = false) :
    t'.needResolveAt q = false := by
  rw [needResolveAt, h.getRoute_eq hq]
  exact hq

theorem Progress.trans (h₁ : Progress t₁ t₂) (h₂ : Progress t₂ t₃) : Progress t₁ t₃ := by
  refine ⟨h₁.shape.trans h₂.shape, fun q => ?_⟩
  rcases h₁.frame q with heq | ⟨route, route', hr, hr', hres⟩
  · rcases h₂.frame q with heq' | ⟨route₂, route₃, hr₂, hr₃, hres₂⟩
    · exact .inl (heq'.trans heq)
    · exact .inr ⟨route₂, route₃, heq ▸ hr₂, hr₃, hres₂⟩
  · -- a route resolved by the first part needs no more resolution
    have hq : t₂.needResolveAt q = false := by
      simp [needResolveAt, hr', Route.needResolve_eq_false_of_isSettled hres.settled]
    exact .inr ⟨route, route', hr, (h₂.getRoute_eq hq).trans hr', hres⟩

theorem Progress.needCount_le (h : Progress t t') : t'.needCount ≤ t.needCount := by
  unfold needCount
  rw [h.shape.routeRefs_eq, h.shape.routeRefs_eq]
  refine List.countP_mono_left fun q _ hq => ?_
  rw [needResolveAt, ← h.getRoute_eq_of_needResolveAt hq]
  exact hq

/-- A route is kept with its client entries by progress. -/
theorem Progress.nexthopsmulti (h : Progress t t') (hr : t.getRoute r = some route) :
    ∃ route', t'.getRoute r = some route' ∧ route'.nexthopsmulti = route.nexthopsmulti := by
  rcases h.frame r with heq | ⟨route₀, route', hr₀, hr', hres⟩
  · exact ⟨route, heq.trans hr, rfl⟩
  · rw [hr, Option.some.injEq] at hr₀
    subst hr₀
    exact ⟨route', hr', hres.nexthopsmulti⟩

/-- Marking a route that needs resolution as processing leaves one route
fewer to resolve. -/
theorem needCount_setProcessing (hv : t.Valid) (hr : t.getRoute r = some route)
    (hneed : route.needResolve = true) :
    (t.setRoute r route.setProcessing).needCount < t.needCount := by
  unfold needCount
  rw [routeRefs_setRoute hv hr, routeRefs_setRoute hv hr]
  refine ListSelect.countP_lt_countP (fun q _ hq => ?_) (mem_allRouteRefs hr)
    (by simp [needResolveAt, hr, hneed])
    (by simp [needResolveAt, getRoute_setRoute hv hr])
  rw [needResolveAt, getRoute_setRoute hv hr] at hq
  split_ifs at hq
  · simp at hq
  · exact hq

/-- What `resolveOne` does to the tables around the resolution of the next
hops: the route is marked as processing, other routes progress, and the route
gets its resolution. The route is still marked when its resolution is set,
and from the first tables to the last this is progress. -/
theorem Progress.setRoute_processing (hv : t.Valid) (hr : t.getRoute r = some route)
    (hmid : Progress (t.setRoute r route.setProcessing) t') :
    t'.getRoute r = some route.setProcessing := by
  rw [hmid.getRoute_eq (by simp [needResolveAt, getRoute_setRoute hv hr]),
    getRoute_setRoute hv hr, if_pos rfl]

theorem Progress.setRoute_resolved (hv : t.Valid) (hr : t.getRoute r = some route)
    (hmid : Progress (t.setRoute r route.setProcessing) t') {x : Route}
    (hx : route.ResolvedFrom x) : Progress t (t'.setRoute r x) := by
  have hr' := hmid.setRoute_processing hv hr
  have hv' : t'.Valid := hmid.shape.valid
  refine ⟨((sameShape_setRoute hv hr _).trans hmid.shape).trans (sameShape_setRoute hv' hr' x),
    fun q => ?_⟩
  rw [getRoute_setRoute hv' hr']
  split_ifs with hq
  · subst hq
    exact .inr ⟨route, x, hr, rfl, hx⟩
  · rcases hmid.frame q with heq | hres
    · rw [heq, getRoute_setRoute hv hr, if_neg hq]
      exact .inl rfl
    · rw [getRoute_setRoute hv hr, if_neg hq] at hres
      exact .inr hres

end Tables

end Fboss

namespace Fboss

open Except

/-! ### Failures other than running out of fuel -/

theorem findRoute_spec (t : Tables) (r : RouteRef) :
    Spec (· ≠ .outOfFuel) (fun route => t.getRoute r = some route) (t.findRoute r) := by
  unfold Tables.findRoute
  split <;> simp_all

theorem spec_mapError_failed {α : Type} (x : Except String α) :
    Spec (· ≠ ResolveError.outOfFuel) (fun _ => True) (x.mapError ResolveError.failed) :=
  Spec.mapError (E := fun _ => True) (by cases x <;> simp) fun _ _ => by simp

theorem intf_spec (nh : NextHop) : Spec (· ≠ .outOfFuel) (fun _ => True) nh.intf := by
  unfold NextHop.intf
  split <;> simp

theorem combineLabels_spec (tunnelStack adjacencyLabels : Option LabelForwardingAction) :
    Spec (· ≠ .outOfFuel) (fun _ => True) (combineLabels tunnelStack adjacencyLabels) :=
  spec_mapError_failed _

theorem addResolvedNextHop_spec (labelAction : Option LabelForwardingAction)
    (fwd : RouteNextHopSet) (nhop : NextHop) :
    Spec (· ≠ .outOfFuel) (fun _ => True) (addResolvedNextHop labelAction fwd nhop) :=
  Spec.bind (intf_spec nhop) fun _ _ => Spec.bind (combineLabels_spec _ _) fun _ _ => trivial

theorem ofNextHop_spec (nhop : NextHop) :
    Spec (· ≠ .outOfFuel) (fun _ => True) (NextHopCombinedWeightsKey.ofNextHop nhop) :=
  Spec.bind (intf_spec nhop) fun _ _ => trivial

/-! ### The merged next hops carry interfaces -/

theorem mergeForwardInfosEcmp_spec (nhToFwds : NextHopForwardInfos) :
    Spec (· ≠ .outOfFuel) (fun fwd => ∀ nh ∈ fwd.elems, nh.intfID.isSome = true)
      (mergeForwardInfosEcmp nhToFwds) := by
  unfold mergeForwardInfosEcmp
  refine spec_foldlM _ (by simp) fun fwd hfwd nhToFwd _ =>
    spec_foldlM _ hfwd fun fwd hfwd fnh _ => Spec.bind (intf_spec fnh) fun intf _ => ?_
  refine (spec_pure _).mpr fun nh hnh => ?_
  rcases (FlatSet.mem_emplace _ _ _).mp hnh with rfl | hnh
  · rfl
  · exact hfwd nh hnh

theorem optimizeWeights_intf (cws : NextHopCombinedWeights) :
    ∀ nh ∈ (optimizeWeights cws).elems, nh.intfID.isSome = true := by
  intro nh hnh
  dsimp only [optimizeWeights] at hnh
  rcases (FlatSet.mem_foldl_emplace _ _ _ _).mp hnh with h | ⟨cw, -, rfl⟩
  · simp at h
  · rfl

theorem combineWeights_spec (nhToFwds : NextHopForwardInfos) :
    Spec (· ≠ .outOfFuel) (fun _ => True) (combineWeights nhToFwds) := by
  unfold combineWeights
  refine spec_foldlM _ trivial fun cws _ nhToFwd _ => ?_
  split_ifs
  · trivial
  · exact spec_foldlM _ trivial fun _ _ fnh _ => Spec.bind (ofNextHop_spec fnh) fun _ _ => trivial

/-- Every next hop that `mergeForwardInfos` returns carries an interface. -/
theorem mergeForwardInfos_spec (nhToFwds : NextHopForwardInfos) :
    Spec (· ≠ .outOfFuel) (fun fwd => ∀ nh ∈ fwd.elems, nh.intfID.isSome = true)
      (mergeForwardInfos nhToFwds) := by
  unfold mergeForwardInfos
  split_ifs
  · exact mergeForwardInfosEcmp_spec nhToFwds
  · exact Spec.map (combineWeights_spec nhToFwds) fun cws _ => optimizeWeights_intf cws

/-! ### Resolution makes progress -/

/-- What the route found for a next hop adds leaves the tables as they are. -/
theorem addFwdInfo_spec (nh : IPAddress) (labelAction : Option LabelForwardingAction)
    (acc : ResolveAcc RouteNextHopSet) (route : Route) :
    Spec (· ≠ .outOfFuel) (fun acc' => acc'.tables = acc.tables)
      (addFwdInfo nh labelAction acc route) := by
  unfold addFwdInfo
  split_ifs
  · rfl
  · rfl
  · split
    · simp
    · exact Spec.bind (intf_spec _) fun _ _ => Spec.bind (combineLabels_spec _ _) fun _ _ => rfl
  · exact Spec.bind (spec_foldlM (fun _ => True) trivial fun _ _ _ _ => addResolvedNextHop_spec _ _ _)
      fun _ _ => rfl
  · rfl

open Tables

/-- What a resolution of one route guarantees from valid tables with fewer
than `bound` routes left to resolve: it fails only on a check of the source,
and otherwise the tables have progressed and the route no longer needs
resolution. -/
def ResolvesWithin (bound : Nat) (resolve : Tables → RouteRef → Except ResolveError Tables) :
    Prop :=
  ∀ t r route, t.Valid → t.getRoute r = some route → route.needResolve = true →
    t.needCount < bound →
    Spec (· ≠ .outOfFuel) (fun t' => t.Progress t' ∧ t'.needResolveAt r = false) (resolve t r)

section Nested

variable {bound : Nat} {resolve : Tables → RouteRef → Except ResolveError Tables}

theorem getFwdInfoFromNhop_spec (hres : ResolvesWithin bound resolve)
    {acc : ResolveAcc RouteNextHopSet} (hv : acc.tables.Valid) (hb : acc.tables.needCount < bound)
    (nh : IPAddress) (labelAction : Option LabelForwardingAction) :
    Spec (· ≠ .outOfFuel) (fun acc' => acc.tables.Progress acc'.tables)
      (getFwdInfoFromNhop resolve nh labelAction acc) := by
  unfold getFwdInfoFromNhop
  split
  · exact Progress.refl hv
  · next r _ =>
    refine Spec.bind (findRoute_spec _ _) fun route hroute => ?_
    refine Spec.bind (P := fun tables => acc.tables.Progress tables) ?_ fun tables htables => ?_
    · split_ifs with hneed
      · exact (hres _ _ _ hv hroute hneed hb).mono fun _ h => h.1
      · exact Progress.refl hv
    · refine Spec.bind (findRoute_spec _ _) fun route' _ => ?_
      exact (addFwdInfo_spec _ _ _ _).mono fun acc' h => by rw [h]; exact htables

theorem resolveNextHop_spec (hres : ResolvesWithin bound resolve) (clientId : ClientID)
    {acc : ResolveAcc NextHopForwardInfos} (hv : acc.tables.Valid)
    (hb : acc.tables.needCount < bound) (nh : NextHop) :
    Spec (· ≠ .outOfFuel) (fun acc' => acc.tables.Progress acc'.tables)
      (resolveNextHop resolve clientId acc nh) := by
  unfold resolveNextHop
  split
  · split_ifs
    · exact Progress.refl hv
    · simp
  · exact Spec.bind (getFwdInfoFromNhop_spec hres hv hb _ _) fun _ hprog => hprog

/-- The forwarding information of the best entry is gathered with progress,
and its next hops carry interfaces. -/
theorem resolveEntry_spec (hres : ResolvesWithin bound resolve) {t : Tables} (hv : t.Valid)
    (hb : t.needCount < bound) (clientId : ClientID) (bestEntry : RouteNextHopEntry) :
    Spec (· ≠ .outOfFuel)
      (fun res => t.Progress res.tables ∧ ∀ nh ∈ res.fwd.elems, nh.intfID.isSome = true)
      (resolveEntry resolve t clientId bestEntry) := by
  unfold resolveEntry
  split
  · exact ⟨Progress.refl hv, by simp⟩
  · exact ⟨Progress.refl hv, by simp⟩
  · -- the loop over the next hops: each turn progresses from where the last one ended
    have hloop := spec_foldlM (E := (· ≠ ResolveError.outOfFuel))
      (fun (acc : ResolveAcc NextHopForwardInfos) => t.Progress acc.tables)
      (f := resolveNextHop resolve clientId) (l := bestEntry.getNextHopSet.elems)
      (b := ⟨t, false, false, FlatMap.empty⟩) (Progress.refl hv) fun acc hacc nh _ =>
        (resolveNextHop_spec hres clientId hacc.shape.valid
          (lt_of_le_of_lt hacc.needCount_le hb) nh).mono fun _ h => hacc.trans h
    exact Spec.bind hloop fun res hprog =>
      Spec.bind (mergeForwardInfos_spec _) fun _ hfwd => ⟨hprog, hfwd⟩

end Nested

/-- `resolveOne` with `fuel` nested calls resolves a route from tables with
fewer than `fuel` routes to resolve: it never runs out of fuel there. -/
theorem resolveOne_resolvesWithin (isPublished : Family → Bool) :
    ∀ fuel, ResolvesWithin fuel (resolveOne isPublished fuel)
  | 0 => fun _ _ _ _ _ _ hb => absurd hb (Nat.not_lt_zero _)
  | fuel + 1 => by
    intro t r route hv hr hneed hb
    have hv₁ := valid_setRoute hv r route.setProcessing
    have hb₁ : (t.setRoute r route.setProcessing).needCount < fuel := by
      have := needCount_setProcessing hv hr hneed
      omega
    rw [resolveOne]
    refine Spec.bind (findRoute_spec t r) fun route₀ hr₀ => ?_
    obtain rfl : route = route₀ := Option.some.inj (hr.symm.trans hr₀)
    split_ifs
    · simp
    refine Spec.bind (spec_mapError_failed _) fun best _ => ?_
    refine Spec.bind (resolveEntry_spec (resolveOne_resolvesWithin isPublished fuel) hv₁ hb₁
      best.1 best.2) fun res hres => ?_
    obtain ⟨hmid, hfwd⟩ := hres
    have hproc := hmid.setRoute_processing hv hr
    refine Spec.bind (findRoute_spec _ r) fun route' hr' => ?_
    obtain rfl : route' = route.setProcessing := Option.some.inj (hr'.symm.trans hproc)
    have hx := Route.resolvedFrom_setResolution hneed best.1 res.hasToCpu res.hasDrop hfwd
    refine ⟨hmid.setRoute_resolved hv hr hx, ?_⟩
    simp [needResolveAt, getRoute_setRoute hmid.shape.valid hproc,
      Route.needResolve_eq_false_of_isSettled hx.settled]

/-- The resolution loop over a family progresses and leaves none of the
family's routes needing resolution. -/
theorem resolveFamily_spec (isPublished : Family → Bool) {fuel : Nat} {t : Tables}
    (hv : t.Valid) (hb : t.needCount < fuel) (family : Family) :
    Spec (· ≠ .outOfFuel)
      (fun t' => t.Progress t' ∧ ∀ r ∈ t.routeRefs family, t'.needResolveAt r = false)
      (resolveFamily isPublished fuel t family) := by
  unfold resolveFamily
  -- the invariant: progress from the start, and the routes visited so far are done
  refine spec_foldlM_visited (fun vs t' => t.Progress t' ∧ ∀ r ∈ vs, t'.needResolveAt r = false)
    ⟨Progress.refl hv, by simp⟩ ?_
  intro vs t' hinv r _
  obtain ⟨hprog, hdone⟩ := hinv
  refine Spec.bind (findRoute_spec t' r) fun route hroute => ?_
  split_ifs with hneed
  · refine (resolveOne_resolvesWithin isPublished fuel t' r route hprog.shape.valid hroute hneed
      (lt_of_le_of_lt hprog.needCount_le hb)).mono fun t'' hres => ?_
    obtain ⟨hprog', hr''⟩ := hres
    refine ⟨hprog.trans hprog', fun q hq => ?_⟩
    rcases List.mem_append.mp hq with hq | hq
    · exact hprog'.needResolveAt_eq_false (hdone q hq)
    · rw [List.mem_singleton.mp hq]
      exact hr''
  · refine ⟨hprog, fun q hq => ?_⟩
    rcases List.mem_append.mp hq with hq | hq
    · exact hdone q hq
    · rw [List.mem_singleton.mp hq]
      simp [needResolveAt, hroute, hneed]

end Fboss
