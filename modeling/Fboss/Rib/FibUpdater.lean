import Fboss.Rib.RoutingInformationBase
import Fboss.Sai.Managers

/-!
# Exporting the RIB into the FIB

`ForwardingInformationBaseUpdater` (`rib/ForwardingInformationBaseUpdater.cpp`)
writes the routes of one VRF of the standalone RIB into the switch state. For
each address family `createUpdatedFib` builds a new FIB, the switch state's
routes by prefix, from the `RESOLVED` routes of the RIB's tree, in the order
the tree is walked. Under a prefix that the previous FIB has, its route is
kept when its forwarding information is what `toFibNextHop` makes of the RIB
route's; otherwise `toFibRoute` builds a new route, resolved with that
forwarding information and connected when the RIB route is.

`toFibNextHop` keeps the action and the admin distance, and rebuilds each
next hop from its address, interface and weight: the label forwarding action
is not copied. What the export does is `createUpdatedFib_spec`: the new FIB has
exactly the prefixes of the resolved RIB routes, one route each, whose
forwarding information is the RIB route's without labels, and which is a new
route or the previous FIB's. A kept route keeps its own flags, so the FIB can
say a route is not connected when the RIB says it is.
`fib_export_drops_labels_and_keeps_stale_flags` shows both on runs of the
RIB.
-/

namespace Fboss

/-- A RIB next hop as the FIB gets it: the same interface, address and weight,
and no label forwarding action. -/
def NextHop.withoutLabel (nh : NextHop) : NextHop :=
  { nh with labelForwardingAction := none }

/-- A RIB entry that the FIB can be given: a `NEXTHOPS` entry has next hops,
each with an interface. -/
def RouteNextHopEntry.isFibExportable (e : RouteNextHopEntry) : Bool :=
  e.getAction != .NEXTHOPS ||
    (!e.getNextHopSet.elems.isEmpty && e.getNextHopSet.elems.all fun nh => nh.intfID.isSome)

namespace Rib

open Except

/-- A FIB of the switch state (`ForwardingInformationBase<AddressT>`): its
routes by prefix. -/
abbrev ForwardingInformationBase := FlatMap RoutePrefix Route

/-- `ForwardingInformationBaseContainer`: the v4 and the v6 FIB of a VRF. -/
structure ForwardingInformationBaseContainer where
  fibV4 : ForwardingInformationBase
  fibV6 : ForwardingInformationBase
  deriving DecidableEq

namespace ForwardingInformationBaseUpdater

variable {w : Nat}

/-- One turn of the loop of `toFibNextHop`: `ResolvedNextHop(addr,
intfID().value(), weight)` is inserted. `value()` throws on a next hop without
an interface. -/
def insertFibNextHop (fibNextHopSet : RouteNextHopSet) (ribNextHop : NextHop) :
    Except String RouteNextHopSet :=
  match ribNextHop.intfID with
  | some intf =>
    pure (fibNextHopSet.emplace (ResolvedNextHop ribNextHop.addr intf ribNextHop.weight none))
  | none => throw "bad optional access"

/-- `toFibNextHop`: the switch state's entry for a RIB entry, with the same
action and admin distance. The constructor of a `NEXTHOPS` entry throws on an
empty set. -/
def toFibNextHop (ribNextHopEntry : RouteNextHopEntry) : Except String RouteNextHopEntry :=
  match ribNextHopEntry.getAction with
  | .DROP => pure (.ofAction .DROP ribNextHopEntry.getAdminDistance)
  | .TO_CPU => pure (.ofAction .TO_CPU ribNextHopEntry.getAdminDistance)
  | .NEXTHOPS => do
    let fibNextHopSet ← ribNextHopEntry.getNextHopSet.elems.foldlM insertFibNextHop FlatSet.empty
    RouteNextHopEntry.make fibNextHopSet ribNextHopEntry.getAdminDistance

/-- `Route<AddrT>(fibPrefix)`: no client entry, `DROP` at the maximal admin
distance and no flag. The constructor leaves the cached client of the empty
`RouteNextHopsMulti` uninitialised; the model fixes it to `-1`, as
`findLowestAdminDistance` does for an empty map. -/
def fibRouteOfPrefix : Route :=
  ⟨RouteNextHopsMulti.empty (-1), Route.defaultFwd, .none⟩

/-- `toFibRoute`: a new route, resolved with the forwarding information that
`toFibNextHop` gives, and connected if the RIB route is. -/
def toFibRoute (ribRoute : Route) : Except String Route :=
  if ribRoute.isResolved then do
    let fwd ← toFibNextHop ribRoute.getForwardInfo
    pure (if ribRoute.isConnected then (fibRouteOfPrefix.setResolved fwd).setConnected
      else fibRouteOfPrefix.setResolved fwd)
  else throw "Check failed: ribRoute.isResolved()"

/-- `fibPrefix`: the network and the mask of a RIB route's prefix. -/
def fibPrefixOf (toAddr : BitVec w → IPAddress) (k : BitVec w × Nat) : RoutePrefix :=
  ⟨toAddr k.1, k.2⟩

/-- The route the new FIB gets for a resolved RIB route: the previous FIB's
route under the prefix if `toFibNextHop` of the RIB route's forwarding
information equals its forwarding information, else `toFibRoute`. -/
def fibRouteFor (fib : ForwardingInformationBase) (fibPrefix : RoutePrefix) (ribRoute : Route) :
    Except String Route :=
  match fib.find? fibPrefix with
  | some fibRoute => do
    let fwd ← toFibNextHop ribRoute.getForwardInfo
    if fwd = fibRoute.getForwardInfo then pure fibRoute else toFibRoute ribRoute
  | none => toFibRoute ribRoute

/-- One turn of the loop of `createUpdatedFib`: a RIB route that is not
resolved is skipped, a resolved one goes into the new FIB under its prefix
(`emplace_hint`, which keeps a key that is there). -/
def createUpdatedFibStep (toAddr : BitVec w → IPAddress) (fib : ForwardingInformationBase)
    (updatedFib : ForwardingInformationBase) (ribRouteIt : (BitVec w × Nat) × Route) :
    Except String ForwardingInformationBase :=
  if ribRouteIt.2.isResolved then
    (fibRouteFor fib (fibPrefixOf toAddr ribRouteIt.1) ribRouteIt.2).map fun fibRoute =>
      updatedFib.insert (fibPrefixOf toAddr ribRouteIt.1) fibRoute
  else pure updatedFib

/-- `createUpdatedFib`: the new FIB of one address family, from the routes of
the RIB's tree in the order `for (ribRouteIt : rib)` visits them
(`RadixTree.visitAll_eq_valueKeys`, `RadixTree.valueKeys_eq_map_fst`). The
`DCHECK_EQ` on its size holds (`createUpdatedFib_spec`). -/
def createUpdatedFib (toAddr : BitVec w → IPAddress) (rib : RadixTree w Route)
    (fib : ForwardingInformationBase) : Except String ForwardingInformationBase :=
  rib.root.entries.foldlM (createUpdatedFibStep toAddr fib) FlatMap.empty

end ForwardingInformationBaseUpdater

open ForwardingInformationBaseUpdater

/-- `ForwardingInformationBaseUpdater(vrf, ...)` applied to the switch state's
FIBs: the container of the VRF, which must be there, gets a new v4 FIB and a
new v6 FIB built from the VRF's tables. -/
def updateFibs (vrf : RouterID) (t : Tables)
    (fibs : FlatMap RouterID ForwardingInformationBaseContainer) :
    Except String (FlatMap RouterID ForwardingInformationBaseContainer) :=
  match fibs.find? vrf with
  | none => throw "Check failed: previousFibContainer"
  | some previousFibContainer => do
    let fibV4 ← createUpdatedFib .v4 t.v4 previousFibContainer.fibV4
    let fibV6 ← createUpdatedFib .v6 t.v6 previousFibContainer.fibV6
    pure (fibs.set vrf ⟨fibV4, fibV6⟩)

/-! ### What the export keeps -/

/-- `e'` is the FIB entry of the RIB entry `e`: the same action and admin
distance, and for `NEXTHOPS` the same next hops without their label
forwarding actions. -/
structure FibEntryOf (e e' : RouteNextHopEntry) : Prop where
  action : e'.getAction = e.getAction
  adminDistance : e'.getAdminDistance = e.getAdminDistance
  mem_nextHops : ∀ x, x ∈ e'.getNextHopSet.elems ↔
    e.getAction = .NEXTHOPS ∧ ∃ nh ∈ e.getNextHopSet.elems, x = nh.withoutLabel

/-- `fr` is the FIB route under `p` for the resolved RIB route `r`: its
forwarding information is the FIB entry of `r`'s, and it is the new route of
`toFibRoute` or the route the previous FIB `fib` has under `p`. -/
structure ExportedRoute (fib : ForwardingInformationBase) (p : RoutePrefix) (r fr : Route) : Prop where
  fwd : FibEntryOf r.getForwardInfo fr.getForwardInfo
  built_or_kept : toFibRoute r = .ok fr ∨ fib.find? p = some fr

/-- `updatedFib` is the FIB exported from the RIB routes `routes` with the
previous FIB `fib`: its prefixes are those of the resolved routes, under each
is an exported route, and it has one route per resolved route. -/
structure ExportedFib {w : Nat} (toAddr : BitVec w → IPAddress) (fib : ForwardingInformationBase)
    (routes : List ((BitVec w × Nat) × Route)) (updatedFib : ForwardingInformationBase) : Prop where
  prefixes : ∀ p, (updatedFib.find? p).isSome ↔
    ∃ c ∈ routes, c.2.isResolved ∧ p = fibPrefixOf toAddr c.1
  exported : ∀ c ∈ routes, c.2.isResolved → ∃ fr,
    updatedFib.find? (fibPrefixOf toAddr c.1) = some fr ∧ ExportedRoute fib (fibPrefixOf toAddr c.1) c.2 fr
  size : updatedFib.size = (routes.filter fun c => c.2.isResolved).length

namespace ForwardingInformationBaseUpdater

variable {w : Nat}

theorem resolvedNextHop_eq_withoutLabel {nh : NextHop} {intf : InterfaceID} (h : nh.intfID = some intf) :
    ResolvedNextHop nh.addr intf nh.weight none = nh.withoutLabel := by
  obtain ⟨intfID, addr, weight, action⟩ := nh
  cases h
  rfl

/-- The loop of `toFibNextHop` inserts every next hop without its label, and
throws only on a next hop without an interface. -/
theorem insertFibNextHops_spec (l : List NextHop) :
    Spec (fun _ => ∃ nh ∈ l, nh.intfID = none)
      (fun s : RouteNextHopSet => ∀ x, x ∈ s.elems ↔ ∃ nh ∈ l, x = nh.withoutLabel)
      (l.foldlM insertFibNextHop FlatSet.empty) := by
  refine spec_foldlM_visited (fun (vs : List NextHop) (s : RouteNextHopSet) => ∀ x, x ∈ s.elems ↔ ∃ nh ∈ vs, x = nh.withoutLabel)
    (by simp) fun vs s hs c hc => ?_
  unfold insertFibNextHop
  cases hi : c.intfID with
  | none => exact ⟨c, hc, hi⟩
  | some intf =>
    intro x
    rw [FlatSet.mem_emplace, hs, resolvedNextHop_eq_withoutLabel hi]
    simp only [List.mem_append, List.mem_singleton]
    constructor
    · rintro (rfl | ⟨nh, hnh, rfl⟩)
      · exact ⟨c, .inr rfl, rfl⟩
      · exact ⟨nh, .inl hnh, rfl⟩
    · rintro ⟨nh, hnh | rfl, rfl⟩
      · exact .inr ⟨nh, hnh, rfl⟩
      · exact .inl rfl

/-- `toFibNextHop` gives the FIB entry of a RIB entry, and throws exactly on an
entry that cannot be exported. -/
theorem toFibNextHop_spec (e : RouteNextHopEntry) :
    Spec (fun _ => e.isFibExportable = false) (FibEntryOf e) (toFibNextHop e) := by
  unfold toFibNextHop
  cases ha : e.getAction with
  | DROP =>
    exact ⟨ha.symm, rfl, by simp [ha, RouteNextHopEntry.ofAction, RouteNextHopEntry.getNextHopSet]⟩
  | TO_CPU =>
    exact ⟨ha.symm, rfl, by simp [ha, RouteNextHopEntry.ofAction, RouteNextHopEntry.getNextHopSet]⟩
  | NEXTHOPS =>
    refine Spec.bind ((insertFibNextHops_spec _).mono_error fun _ he => ?_) fun s hs => ?_
    · obtain ⟨nh, hnh, hi⟩ := he
      simp only [RouteNextHopEntry.isFibExportable, ha, bne_self_eq_false, Bool.false_or,
        Bool.and_eq_false_iff, Bool.not_eq_false', List.isEmpty_iff, List.all_eq_false]
      exact .inr ⟨nh, hnh, by simp [hi]⟩
    unfold RouteNextHopEntry.make
    split_ifs with hempty
    · -- the FIB set is empty exactly when the RIB set is
      have hnil : e.getNextHopSet.elems = [] := List.eq_nil_iff_forall_not_mem.mpr fun nh hnh =>
        List.eq_nil_iff_forall_not_mem.mp (List.isEmpty_iff.mp hempty) _ ((hs _).mpr ⟨nh, hnh, rfl⟩)
      simp [RouteNextHopEntry.isFibExportable, ha, hnil]
    · refine ⟨ha.symm, rfl, fun x => ?_⟩
      show x ∈ s.elems ↔ _
      rw [hs, ha]
      simp

/-- `toFibRoute` of a resolved RIB route: a resolved route without client
entries, connected as the RIB route is, with the FIB entry of its forwarding
information. -/
theorem toFibRoute_spec {r : Route} (hr : r.isResolved = true) :
    Spec (fun _ => r.getForwardInfo.isFibExportable = false)
      (fun fr => FibEntryOf r.getForwardInfo fr.getForwardInfo ∧ fr.isResolved = true ∧
        fr.isConnected = r.isConnected ∧ fr.hasNoEntry = true)
      (toFibRoute r) := by
  unfold toFibRoute
  rw [if_pos hr]
  refine Spec.bind (toFibNextHop_spec _) fun fwd hfwd => ?_
  by_cases hc : r.isConnected = true
  · rw [if_pos hc]
    exact ⟨hfwd, rfl, hc.symm, rfl⟩
  · rw [if_neg hc]
    exact ⟨hfwd, rfl, (Bool.not_eq_true _).mp hc ▸ rfl, rfl⟩

/-- The route the new FIB gets for a resolved RIB route is exported from it. -/
theorem fibRouteFor_spec (fib : ForwardingInformationBase) (p : RoutePrefix) {r : Route}
    (hr : r.isResolved = true) :
    Spec (fun _ => r.getForwardInfo.isFibExportable = false) (ExportedRoute fib p r)
      (fibRouteFor fib p r) := by
  have hbuilt : Spec (fun _ => r.getForwardInfo.isFibExportable = false) (ExportedRoute fib p r)
      (toFibRoute r) := by
    cases h : toFibRoute r with
    | error e => exact (toFibRoute_spec hr).of_eq_error h
    | ok fr => exact ⟨((toFibRoute_spec hr).of_eq_ok h).1, .inl h⟩
  unfold fibRouteFor
  cases hp : fib.find? p with
  | none => exact hbuilt
  | some fibRoute =>
    refine Spec.bind (toFibNextHop_spec _) fun fwd hfwd => ?_
    by_cases heq : fwd = fibRoute.getForwardInfo
    · -- the previous FIB's route is kept
      rw [if_pos heq]
      exact ⟨heq ▸ hfwd, .inr hp⟩
    · rw [if_neg heq]
      exact hbuilt

theorem fibPrefixOf_injective {toAddr : BitVec w → IPAddress} (hinj : Function.Injective toAddr) :
    Function.Injective (fibPrefixOf toAddr) := by
  rintro ⟨a, m⟩ ⟨b, n⟩ h
  simp only [fibPrefixOf, RoutePrefix.mk.injEq] at h
  rw [hinj h.1, h.2]

variable {toAddr : BitVec w → IPAddress} {fib : ForwardingInformationBase}

/-- One turn of the loop of `createUpdatedFib` extends the export by the RIB
route it visits, whose prefix is not yet in the new FIB. -/
theorem createUpdatedFibStep_spec {vs : List ((BitVec w × Nat) × Route)} {updatedFib : ForwardingInformationBase}
    (h : ExportedFib toAddr fib vs updatedFib) {c : (BitVec w × Nat) × Route}
    (hfresh : ∀ c' ∈ vs, fibPrefixOf toAddr c'.1 ≠ fibPrefixOf toAddr c.1) :
    Spec (fun _ => c.2.isResolved = true ∧ c.2.getForwardInfo.isFibExportable = false)
      (ExportedFib toAddr fib (vs ++ [c])) (createUpdatedFibStep toAddr fib updatedFib c) := by
  unfold createUpdatedFibStep
  by_cases hr : c.2.isResolved = true
  · rw [if_pos hr]
    have hnone : updatedFib.find? (fibPrefixOf toAddr c.1) = none := by
      rw [← Option.not_isSome_iff_eq_none, h.prefixes]
      rintro ⟨c', hc', -, hp⟩
      exact hfresh c' hc' hp.symm
    refine ((fibRouteFor_spec fib _ hr).mono_error fun _ he => ⟨hr, he⟩).map fun fr hfr => ?_
    refine ⟨fun p => ?_, fun c' hc' hr' => ?_, ?_⟩
    · rw [FlatMap.find?_insert]
      by_cases hp : p = fibPrefixOf toAddr c.1
      · subst hp
        simp only [if_pos, hnone, Option.none_or, Option.isSome_some, true_iff]
        exact ⟨c, List.mem_append_right _ (List.mem_singleton_self c), hr, rfl⟩
      · rw [if_neg hp, h.prefixes]
        simp [hp]
    · rcases List.mem_append.mp hc' with hc' | hc'
      · obtain ⟨fr', hfind, hfr'⟩ := h.exported c' hc' hr'
        refine ⟨fr', ?_, hfr'⟩
        rw [FlatMap.find?_insert, if_neg (hfresh c' hc'), hfind]
      · rw [List.mem_singleton.mp hc']
        exact ⟨fr, by rw [FlatMap.find?_insert, if_pos rfl, hnone]; rfl, hfr⟩
    · rw [FlatMap.size_insert_of_find?_eq_none hnone, h.size, List.filter_append]
      simp [hr]
  · rw [if_neg hr]
    refine ⟨fun p => ?_, fun c' hc' hr' => ?_, ?_⟩
    · rw [h.prefixes]
      simp only [List.mem_append, List.mem_singleton]
      constructor
      · rintro ⟨c', hc', hr', hp⟩
        exact ⟨c', .inl hc', hr', hp⟩
      · rintro ⟨c', hc' | rfl, hr', hp⟩
        · exact ⟨c', hc', hr', hp⟩
        · exact absurd hr' hr
    · rcases List.mem_append.mp hc' with hc' | hc'
      · exact h.exported c' hc' hr'
      · exact absurd (List.mem_singleton.mp hc' ▸ hr') hr
    · rw [h.size, List.filter_append]
      simp [hr]

/-- `createUpdatedFib` on a valid tree builds the FIB exported from its routes,
and throws only on a resolved route whose forwarding information cannot be
exported. -/
theorem createUpdatedFib_spec {rib : RadixTree w Route} (hv : RadixTreeNode.Valid rib.root)
    (hinj : Function.Injective toAddr) (fib : ForwardingInformationBase) :
    Spec (fun _ => ∃ c ∈ rib.root.entries, c.2.isResolved = true ∧
        c.2.getForwardInfo.isFibExportable = false)
      (ExportedFib toAddr fib rib.root.entries) (createUpdatedFib toAddr rib fib) := by
  -- the keys of the routes are those of the tree's value nodes, all different
  have hnodup : (rib.root.entries.map Prod.fst).Nodup := by
    rw [← RadixTree.valueKeys_eq_map_fst hv]
    exact RadixTree.nodup_valueKeys hv
  refine spec_foldlM_split (ExportedFib toAddr fib) ⟨by simp, by simp, rfl⟩
    fun vs c rest b hl hb => ?_
  have hfresh : ∀ c' ∈ vs, fibPrefixOf toAddr c'.1 ≠ fibPrefixOf toAddr c.1 := by
    intro c' hc' hp
    rw [hl, List.map_append, List.map_cons] at hnodup
    exact List.disjoint_of_nodup_append hnodup (List.mem_map_of_mem hc')
      (by rw [fibPrefixOf_injective hinj hp]; exact List.mem_cons_self)
  exact (createUpdatedFibStep_spec hb hfresh).mono_error fun _ he => ⟨c, by rw [hl]; simp, he⟩

end ForwardingInformationBaseUpdater

open ForwardingInformationBaseUpdater

/-- The updater on valid tables gives the VRF's container the FIBs exported
from its v4 and v6 routes, with its old FIBs as the previous ones, and leaves
the other VRFs' containers alone. It throws only when the VRF has no container
or a resolved route cannot be exported. -/
theorem updateFibs_spec {t : Tables} (hv : t.Valid) (vrf : RouterID)
    (fibs : FlatMap RouterID ForwardingInformationBaseContainer) :
    Spec (fun _ => fibs.find? vrf = none ∨
        (∃ c ∈ t.v4.root.entries, c.2.isResolved = true ∧ c.2.getForwardInfo.isFibExportable = false) ∨
        (∃ c ∈ t.v6.root.entries, c.2.isResolved = true ∧ c.2.getForwardInfo.isFibExportable = false))
      (fun fibs' => ∃ prev, fibs.find? vrf = some prev ∧ ∃ next, fibs'.find? vrf = some next ∧
        ExportedFib .v4 prev.fibV4 t.v4.root.entries next.fibV4 ∧
        ExportedFib .v6 prev.fibV6 t.v6.root.entries next.fibV6 ∧
        ∀ vrf', vrf' ≠ vrf → fibs'.find? vrf' = fibs.find? vrf')
      (updateFibs vrf t fibs) := by
  unfold updateFibs
  cases hp : fibs.find? vrf with
  | none => exact .inl rfl
  | some prev =>
    refine Spec.bind ((createUpdatedFib_spec hv.1 (fun _ _ h => IPAddress.v4.inj h) prev.fibV4).mono_error
      fun _ he => .inr (.inl he)) fun fibV4 h4 => ?_
    refine Spec.bind ((createUpdatedFib_spec hv.2 (fun _ _ h => IPAddress.v6.inj h) prev.fibV6).mono_error
      fun _ he => .inr (.inr he)) fun fibV6 h6 => ?_
    refine ⟨prev, rfl, ⟨fibV4, fibV6⟩, by rw [FlatMap.find?_set, if_pos rfl], h4, h6, fun vrf' hne => ?_⟩
    rw [FlatMap.find?_set, if_neg hne]

/-- The updater on the empty tables, for a VRF that has a container. -/
theorem updateFibs_spec_empty :
    let t : Tables := ⟨.empty, .empty⟩
    let fibs : FlatMap RouterID ForwardingInformationBaseContainer :=
      FlatMap.empty.insert 0 ⟨FlatMap.empty, FlatMap.empty⟩
    t.Valid ∧
      Spec (fun _ => fibs.find? 0 = none ∨
          (∃ c ∈ t.v4.root.entries, c.2.isResolved = true ∧ c.2.getForwardInfo.isFibExportable = false) ∨
          (∃ c ∈ t.v6.root.entries, c.2.isResolved = true ∧ c.2.getForwardInfo.isFibExportable = false))
        (fun fibs' => ∃ prev, fibs.find? 0 = some prev ∧ ∃ next, fibs'.find? 0 = some next ∧
          ExportedFib .v4 prev.fibV4 t.v4.root.entries next.fibV4 ∧
          ExportedFib .v6 prev.fibV6 t.v6.root.entries next.fibV6 ∧
          ∀ vrf', vrf' ≠ 0 → fibs'.find? vrf' = fibs.find? vrf')
        (updateFibs 0 t fibs) :=
  have hv : (⟨.empty, .empty⟩ : Tables).Valid := ⟨trivial, trivial⟩
  ⟨hv, updateFibs_spec hv 0 _⟩

/-- Two runs of the RIB whose export loses what the RIB has. `10.9.0.0/16`
pushes label 100 towards `10.0.1.5`, in the subnet of interface 1: the RIB
resolves it with the label, the FIB gets the next hop without it. And
`10.0.1.0/24`, first a route via `10.0.1.1` in the subnet `10.0.1.0/25` of
interface 1, then also the subnet of interface 1 itself, resolves both times
to the same next hop: the FIB exported after the second run keeps the route
exported after the first, which is not connected, where the RIB route is and
`toFibRoute` would build a connected one. -/
theorem fib_export_drops_labels_and_keeps_stale_flags :
    let viaLabel : List UpdateOp := [.addInterfaceRoute (.v4 0x0a000101#32) 24 (.v4 0x0a000101#32) 1,
      .addRoute (.v4 0x0a090000#32) 16 0 (.ofNextHops (FlatSet.ofList
        [UnresolvedNextHop (.v4 0x0a000105#32) 1 (some ⟨.PUSH, none, some [100]⟩)]) 20),
      .updateDone]
    let viaSubnet : List UpdateOp := [.addInterfaceRoute (.v4 0x0a000101#32) 25 (.v4 0x0a000101#32) 1,
      .addRoute (.v4 0x0a000100#32) 24 0 (.ofNextHops (FlatSet.ofList
        [UnresolvedNextHop (.v4 0x0a000101#32) 1 none]) 20),
      .updateDone]
    let asSubnet : List UpdateOp :=
      [.addInterfaceRoute (.v4 0x0a000101#32) 24 (.v4 0x0a000101#32) 1, .updateDone]
    let nextHops := fun (r : Option Route) => r.map fun r => r.getForwardInfo.getNextHopSet.elems
    let connected := fun (r : Option Route) => r.map fun r => r.isConnected
    (runOps viaLabel).map (fun t => (nextHops (t.getRoute (.v4 (0x0a090000#32, 16))),
        (createUpdatedFib .v4 t.v4 FlatMap.empty).map fun fib =>
          nextHops (fib.find? ⟨.v4 0x0a090000#32, 16⟩))) =
      .ok (some [ResolvedNextHop (.v4 0x0a000105#32) 1 1 (some ⟨.PUSH, none, some [100]⟩)],
        .ok (some [ResolvedNextHop (.v4 0x0a000105#32) 1 1 none])) ∧
    ((runOps viaSubnet).toOption.bind fun t₁ => (runOps (viaSubnet ++ asSubnet)).toOption.bind fun t₂ =>
      ((createUpdatedFib .v4 t₁.v4 FlatMap.empty).toOption.bind fun fib₁ =>
        (createUpdatedFib .v4 t₂.v4 fib₁).toOption).map fun fib₂ =>
          (connected (t₂.getRoute (.v4 (0x0a000100#32, 24))),
            ((t₂.getRoute (.v4 (0x0a000100#32, 24))).map fun r => (toFibRoute r).map fun r => r.isConnected),
            connected (fib₂.find? ⟨.v4 0x0a000100#32, 24⟩))) =
      some (some true, some (.ok true), some false) := by
  decide +kernel

end Rib

end Fboss
