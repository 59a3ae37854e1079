import Fboss.Rib.UpdateDone

/-!
# ECMP and UCMP weights of resolved routes

`mergeForwardInfos` merges the forwarding information found for the next hops
of a route. With a next hop of weight 0 the route is ECMP: every resolved next
hop gets weight 0. Otherwise the weights of each next hop's resolved set are
scaled by the LCM of the sets' total weights over the set's own total, times
the next hop's weight, and the sums are divided by their GCD.

A set whose total weight is 0 makes the LCM 0, and with it every scaled weight:
the route is ECMP (`mergeForwardInfos_weights_eq_zero`). The source means this
for a set that is itself ECMP, but two other sets have total 0. An unresolvable
next hop keeps an empty set in `nhToFwds`, which `combineWeights` skips but
`totalWeightsLcm` does not (`unresolvable_next_hop_makes_route_ecmp`). And
`totalWeight` sums into a `uint32_t`, so a UCMP set whose weights add up to
`2 ^ 32` has total 0 too (`wrapped_total_weight_makes_route_ecmp`).
-/

namespace Fboss

open Except

/-! ### A zero total weight makes every weight 0 -/

@[simp] theorem lcm64_zero_left (b : Nat) : lcm64 0 b = 0 := by
  simp [lcm64]

@[simp] theorem lcm64_zero_right (a : Nat) : lcm64 a 0 = 0 := by
  simp [lcm64]

@[simp] theorem toInt32_zero : toInt32 0 = 0 := rfl

@[simp] theorem toUInt64_zero : toUInt64 0 = 0 := rfl

/-- The `int` accumulator of `totalWeightsLcm` stays 0 once it is 0. -/
theorem foldl_lcm_of_zero (l : List (NextHop × RouteNextHopSet)) :
    l.foldl (fun l nhToFwd => toInt32 (lcm64 (toUInt64 l) (totalWeight nhToFwd.2))) 0 = 0 := by
  induction l with
  | nil => rfl
  | cons p l ih => rw [List.foldl_cons, toUInt64_zero, lcm64_zero_left, toInt32_zero, ih]

/-- One set of total weight 0 makes the LCM of the totals 0. -/
theorem totalWeightsLcm_eq_zero {nhToFwds : NextHopForwardInfos}
    (h : ∃ p ∈ nhToFwds.toList, totalWeight p.2 = 0) : totalWeightsLcm nhToFwds = 0 := by
  obtain ⟨p, hp, h0⟩ := h
  obtain ⟨s, s', hsplit⟩ := List.append_of_mem hp
  rw [totalWeightsLcm, hsplit, List.foldl_append, List.foldl_cons, h0, lcm64_zero_right,
    toInt32_zero, foldl_lcm_of_zero, toUInt64_zero]

/-- With an LCM of 0, `combineWeights` gives every next hop the weight 0. -/
theorem combineWeights_eq_zero {nhToFwds : NextHopForwardInfos} (h : totalWeightsLcm nhToFwds = 0) :
    Spec (fun _ => True) (fun cws : NextHopCombinedWeights => ∀ k w, cws.find? k = some w → w = 0)
      (combineWeights nhToFwds) := by
  unfold combineWeights
  refine spec_foldlM _ (by simp) fun cws hcws nhToFwd _ => ?_
  dsimp only
  by_cases hempty : nhToFwd.2.elems = []
  · rw [if_pos hempty]
    exact hcws
  rw [if_neg hempty]
  -- the normalization is 0 whether the set's total is 0 or not
  have hnorm : (if totalWeight nhToFwd.2 ≠ 0 then totalWeightsLcm nhToFwds / totalWeight nhToFwd.2
      else 0) = 0 := by
    split_ifs <;> simp [h]
  rw [hnorm]
  refine spec_foldlM _ hcws fun cws' hcws' fnh _ => ?_
  refine Spec.bind (spec_true _) fun key _ => ?_
  intro k w hk
  rw [FlatMap.find?_set] at hk
  by_cases hkey : k = key
  · rw [if_pos hkey] at hk
    cases hk
    cases hfind : cws'.find? key with
    | none => simp
    | some v => simp [hcws' key v hfind]
  · rw [if_neg hkey] at hk
    exact hcws' k w hk

/-- Weights that are all 0 stay 0 when divided by their GCD. -/
theorem optimizeWeights_weight_eq_zero {cws : NextHopCombinedWeights}
    (h : ∀ k w, cws.find? k = some w → w = 0) : ∀ nh ∈ (optimizeWeights cws).elems, nh.weight = 0 := by
  intro nh hnh
  rw [optimizeWeights, FlatSet.mem_foldl_emplace] at hnh
  rcases hnh with hnh | ⟨cw, hcw, rfl⟩
  · simp at hnh
  · have hw : cw.2 = 0 := h cw.1 cw.2 ((FlatMap.mem_toList_iff cws cw.1 cw.2).mp hcw)
    simp [ResolvedNextHop, hw]

/-- `mergeForwardInfosEcmp` gives every next hop the ECMP weight. -/
theorem mergeForwardInfosEcmp_weight_eq_zero (nhToFwds : NextHopForwardInfos) :
    Spec (fun _ => True) (fun fwd : RouteNextHopSet => ∀ nh ∈ fwd.elems, nh.weight = 0)
      (mergeForwardInfosEcmp nhToFwds) := by
  unfold mergeForwardInfosEcmp
  refine spec_foldlM _ (by simp) fun fwd hfwd nhToFwd _ => ?_
  refine spec_foldlM _ hfwd fun fwd' hfwd' fnh _ => ?_
  refine Spec.bind (spec_true _) fun intf _ => ?_
  intro nh hnh
  rcases (FlatSet.mem_emplace _ _ _).mp hnh with rfl | hnh
  · rfl
  · exact hfwd' nh hnh

/-- A route is ECMP, every resolved next hop of weight 0, when one of its next
hops has weight 0 or one of the sets merged has total weight 0. -/
theorem mergeForwardInfos_weights_eq_zero {nhToFwds : NextHopForwardInfos}
    (h : hasEcmpNextHop nhToFwds = true ∨ ∃ p ∈ nhToFwds.toList, totalWeight p.2 = 0) :
    Spec (fun _ => True) (fun fwd : RouteNextHopSet => ∀ nh ∈ fwd.elems, nh.weight = 0)
      (mergeForwardInfos nhToFwds) := by
  unfold mergeForwardInfos
  split_ifs with hecmp
  · exact mergeForwardInfosEcmp_weight_eq_zero nhToFwds
  · have hlcm := totalWeightsLcm_eq_zero (h.resolve_left hecmp)
    exact (combineWeights_eq_zero hlcm).map fun cws hcws => optimizeWeights_weight_eq_zero hcws

/-- A next hop of weight 1 that did not resolve, next to one that did: the
empty set of the first has total weight 0. -/
theorem mergeForwardInfos_weights_eq_zero_unresolved :
    let nhToFwds : NextHopForwardInfos := FlatMap.ofList
      [(UnresolvedNextHop (.v4 0x0a000105#32) 1 none, FlatSet.ofList [ResolvedNextHop (.v4 0x0a000105#32) 1 1 none]),
        (UnresolvedNextHop (.v4 0x0a000205#32) 1 none, FlatSet.empty)]
    (hasEcmpNextHop nhToFwds = true ∨ ∃ p ∈ nhToFwds.toList, totalWeight p.2 = 0) ∧
      Spec (fun _ => True) (fun fwd : RouteNextHopSet => ∀ nh ∈ fwd.elems, nh.weight = 0)
        (mergeForwardInfos nhToFwds) :=
  ⟨by decide, mergeForwardInfos_weights_eq_zero (by decide)⟩

/-! ### Two routes made ECMP -/

namespace Rib

/-- Whether a route is resolved, and its resolved next hops. -/
def resolvedNextHops (t : Tables) (r : RouteRef) : Option (Bool × List NextHop) :=
  (t.getRoute r).map fun route => (route.isResolved, route.getForwardInfo.getNextHopSet.elems)

/-- `10.9.0.0/16` has the next hops `10.0.1.5` of weight 1, `10.0.2.5` of weight
1 and `10.0.3.5` of weight 3. The first and the last lie in the subnets of
interfaces 1 and 3; the second has no route. The route is resolved with both
reachable next hops at weight 0, not at weights 1 and 3. -/
theorem unresolvable_next_hop_makes_route_ecmp :
    (runOps [.addInterfaceRoute (.v4 0x0a000101#32) 24 (.v4 0x0a000101#32) 1,
      .addInterfaceRoute (.v4 0x0a000301#32) 24 (.v4 0x0a000301#32) 3,
      .addRoute (.v4 0x0a090000#32) 16 0
        (.ofNextHops (FlatSet.ofList [UnresolvedNextHop (.v4 0x0a000105#32) 1 none,
          UnresolvedNextHop (.v4 0x0a000205#32) 1 none,
          UnresolvedNextHop (.v4 0x0a000305#32) 3 none]) 20),
      .updateDone]).map (resolvedNextHops · (.v4 (0x0a090000#32, 16))) =
      .ok (some (true, [ResolvedNextHop (.v4 0x0a000105#32) 1 0 none,
        ResolvedNextHop (.v4 0x0a000305#32) 3 0 none])) := by
  decide +kernel

/-- `10.8.0.0/16` has three next hops in the subnet of interface 1, of weights
`2 ^ 31 - 1`, `2 ^ 31 - 1` and 2, and resolves with these weights.
`10.9.0.0/16` has the next hops `10.8.0.1` and `10.0.4.5`, in the subnet of
interface 4, both of weight 1. No weight is 0 and every next hop resolves, yet
`10.9.0.0/16` is resolved with every next hop at weight 0: the total weight of
`10.8.0.0/16`'s set, `2 ^ 32`, wraps to 0 in the `uint32_t` sum. -/
theorem wrapped_total_weight_makes_route_ecmp :
    (runOps [.addInterfaceRoute (.v4 0x0a000101#32) 24 (.v4 0x0a000101#32) 1,
      .addInterfaceRoute (.v4 0x0a000401#32) 24 (.v4 0x0a000401#32) 4,
      .addRoute (.v4 0x0a080000#32) 16 0
        (.ofNextHops (FlatSet.ofList [UnresolvedNextHop (.v4 0x0a000105#32) (2 ^ 31 - 1) none,
          UnresolvedNextHop (.v4 0x0a000106#32) (2 ^ 31 - 1) none,
          UnresolvedNextHop (.v4 0x0a000107#32) 2 none]) 20),
      .addRoute (.v4 0x0a090000#32) 16 0
        (.ofNextHops (FlatSet.ofList [UnresolvedNextHop (.v4 0x0a080001#32) 1 none,
          UnresolvedNextHop (.v4 0x0a000405#32) 1 none]) 20),
      .updateDone]).map (fun t =>
        (resolvedNextHops t (.v4 (0x0a080000#32, 16)), resolvedNextHops t (.v4 (0x0a090000#32, 16)))) =
      .ok (some (true, [ResolvedNextHop (.v4 0x0a000105#32) 1 (2 ^ 31 - 1) none,
          ResolvedNextHop (.v4 0x0a000106#32) 1 (2 ^ 31 - 1) none,
          ResolvedNextHop (.v4 0x0a000107#32) 1 2 none]),
        some (true, [ResolvedNextHop (.v4 0x0a000105#32) 1 0 none,
          ResolvedNextHop (.v4 0x0a000106#32) 1 0 none, ResolvedNextHop (.v4 0x0a000107#32) 1 0 none,
          ResolvedNextHop (.v4 0x0a000405#32) 4 0 none])) := by
  decide +kernel

end Rib

end Fboss
