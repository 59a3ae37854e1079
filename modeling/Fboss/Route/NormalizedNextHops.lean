import Mathlib.Logic.Function.Iterate
import Fboss.Route.Types
import Fboss.Lib.ExceptSpec

/-!
# The next hops of a forwarding entry, normalized to the ECMP width

`RouteNextHopEntry::normalizedNextHops()` gives each next hop a weight of at
least 1 (step 1). When the weights sum to more than `FLAGS_ecmp_width`, it
scales each weight by `FLAGS_ecmp_width / totalWeight` in `double`, rounding
down but not below 1 (step 2b); while the scaled weights still sum to more than
the width, it takes one off the first next hop of greatest weight, and drops a
next hop whose weight reaches 0 (step 2c).

The next hops are a `flat_set`, so a next hop rebuilt with a new weight that
meets one already there is one element. The sum of the weights is the
source's `std::accumulate` from an `int` 0, so each partial sum is stored in an
`int`; the sum of the scaled weights is a `uint64_t`. The `double`s are Lean's
`Float`, the same binary64 arithmetic; no proof here reads their values.

What the normalization guarantees (`normalizedNextHops_spec`): it throws
exactly for an entry with an unresolved next hop, and every next hop it
returns is resolved, of weight at least 1, with the address, the interface
and the label action of a next hop of the entry. Steps 2a to 2c bring the
weights down to the width unless the `uint64_t` sum of the scaled weights
wraps (`weightSum_scaleDown_le`): each turn of step 2c takes at least one off
the sum of the weights (`weightSum_decrementMax`).
-/

namespace Fboss

namespace RouteNextHopEntry

/-- The sum of the weights of a set of next hops. -/
def weightSum (s : RouteNextHopSet) : Nat :=
  (s.elems.map NextHop.weight).sum

/-- One turn of step 1: the next hop as `ResolvedNextHop(addr, intf(),
max(weight, 1), labelForwardingAction)`; `intf()` throws for an unresolved
next hop. -/
def insertWithMinWeight (normalizedNextHops : RouteNextHopSet) (nhop : NextHop) : Except String RouteNextHopSet :=
  match nhop.intfID with
  | some intf =>
    .ok (normalizedNextHops.emplace (ResolvedNextHop nhop.addr intf (max nhop.weight 1) nhop.labelForwardingAction))
  | none => .error "bad_optional_access"

/-- Step 1, over the next hops of the entry. -/
def withMinWeight (nhops : List NextHop) : Except String RouteNextHopSet :=
  nhops.foldlM insertWithMinWeight FlatSet.empty

/-- `totalWeight`: `std::accumulate` from the `int` 0 with
`[](NextHopWeight w, const NextHop& nh) { return w + nh.weight(); }`, whose
result is stored back into the `int` after each next hop. -/
def accumulateWeights (nhops : List NextHop) : NextHopWeight :=
  toUInt64 (nhops.foldl (fun (w : Int) nh => toInt32 (toUInt64 w + nh.weight)) 0)

/-- Step 2a: `factor = FLAGS_ecmp_width / static_cast<double>(totalWeight)`. -/
def scaleFactor (ecmpWidth : Nat) (totalWeight : NextHopWeight) : Float :=
  Float.ofNat ecmpWidth / totalWeight.toUInt64.toFloat

/-- Step 2b for one weight: `static_cast<NextHopWeight>(weight * factor)`, at
least 1. -/
def scaledWeight (factor : Float) (w : NextHopWeight) : NextHopWeight :=
  max (w.toUInt64.toFloat * factor).toUInt64.toNat 1

/-- One turn of step 2b: the next hop with its scaled weight, added to the
scaled next hops and to their `uint64_t` sum. -/
def insertScaled (factor : Float) (acc : RouteNextHopSet × NextHopWeight) (nhop : NextHop) :
    RouteNextHopSet × NextHopWeight :=
  (acc.1.emplace { nhop with weight := scaledWeight factor nhop.weight },
    (acc.2 + scaledWeight factor nhop.weight) % 2 ^ 64)

/-- Step 2b: the scaled next hops and `scaledTotalWeight`, the `uint64_t` sum
of the scaled weights. The next hops here are resolved, so
`ResolvedNextHop(nhop.addr(), nhop.intf(), w, ...)` is the next hop with
weight `w`. -/
def scaleNextHops (factor : Float) (nhops : List NextHop) : RouteNextHopSet × NextHopWeight :=
  nhops.foldl (insertScaled factor) (FlatSet.empty, 0)

/-- `std::max_element` by weight: the first next hop of greatest weight. -/
def maxWeightElement : List NextHop → Option NextHop
  | [] => none
  | nh :: nhops => some (nhops.foldl (fun largest n => if largest.weight < n.weight then n else largest) nh)

/-- One turn of step 2c: the first next hop of greatest weight is erased, and
put back with its weight less one unless that is 0. The weights here are at
least 1, so the `uint64_t` subtraction does not wrap. On an empty set
`max_element` is `end()`, which the source dereferences; the set is left as it
is. -/
def decrementMax (scaledNextHops : RouteNextHopSet) : RouteNextHopSet :=
  match maxWeightElement scaledNextHops.elems with
  | none => scaledNextHops
  | some maxNh =>
    if maxNh.weight - 1 > 0 then
      (scaledNextHops.erase maxNh).emplace { maxNh with weight := maxNh.weight - 1 }
    else scaledNextHops.erase maxNh

/-- Steps 2a to 2c, for next hops whose total weight is above the width: the
scaled next hops, then `scaledTotalWeight - FLAGS_ecmp_width` turns of step 2c
when the scaled weights are still above the width. -/
def scaleDown (ecmpWidth : Nat) (normalizedNextHops : RouteNextHopSet) : RouteNextHopSet :=
  match scaleNextHops (scaleFactor ecmpWidth (accumulateWeights normalizedNextHops.elems)) normalizedNextHops.elems with
  | (scaledNextHops, scaledTotalWeight) =>
    if scaledTotalWeight > ecmpWidth then Nat.iterate decrementMax (scaledTotalWeight - ecmpWidth) scaledNextHops
    else scaledNextHops

/-- `normalizedNextHops()` with `FLAGS_ecmp_width = ecmpWidth`. -/
def normalizedNextHops (ecmpWidth : Nat) (e : RouteNextHopEntry) : Except String RouteNextHopSet := do
  let normalizedNextHops ← withMinWeight e.getNextHopSet.elems
  if accumulateWeights normalizedNextHops.elems > ecmpWidth then pure (scaleDown ecmpWidth normalizedNextHops)
  else pure normalizedNextHops

/-! ### Where each next hop comes from -/

/-- A next hop of the normalization of the next hops `nhops`: resolved, of
weight at least 1, and with the address, the interface and the label action
of one of `nhops`. -/
def NormalizedFrom (nhops : List NextHop) (nh : NextHop) : Prop :=
  nh.intfID.isSome ∧ 1 ≤ nh.weight ∧
    ∃ nh' ∈ nhops, nh'.addr = nh.addr ∧ nh'.intfID = nh.intfID ∧ nh'.labelForwardingAction = nh.labelForwardingAction

/-- A next hop with another positive weight comes from where the first came
from. -/
theorem NormalizedFrom.withWeight {nhops : List NextHop} {nh : NextHop} (h : NormalizedFrom nhops nh) {w : NextHopWeight}
    (hw : 1 ≤ w) : NormalizedFrom nhops { nh with weight := w } :=
  ⟨h.1, hw, h.2.2⟩

/-- Step 1 succeeds exactly when every next hop is resolved, and then gives
each next hop with a weight of at least 1. -/
theorem foldlM_insertWithMinWeight_spec (nhops : List NextHop) :
    ∀ (acc : RouteNextHopSet),
      ((∃ s, nhops.foldlM insertWithMinWeight acc = .ok s) ↔ ∀ nh ∈ nhops, nh.intfID.isSome) ∧
      ∀ s, nhops.foldlM insertWithMinWeight acc = .ok s →
        ∀ x, x ∈ s.elems ↔ x ∈ acc.elems ∨ ∃ nh ∈ nhops, x = { nh with weight := max nh.weight 1 } := by
  induction nhops with
  | nil =>
    intro acc
    refine ⟨⟨fun _ _ h => absurd h List.not_mem_nil, fun _ => ⟨acc, rfl⟩⟩, fun s hs x => ?_⟩
    obtain rfl : acc = s := Except.ok.inj hs
    simp
  | cons nhop nhops ih =>
    intro acc
    rw [List.foldlM_cons, insertWithMinWeight]
    cases hi : nhop.intfID with
    | none =>
      -- `intf()` of an unresolved next hop throws
      refine ⟨⟨fun hs => ?_, fun h => ?_⟩, fun s h => ?_⟩
      · obtain ⟨_, h⟩ := hs
        cases h
      · have := h nhop List.mem_cons_self
        rw [hi] at this
        cases this
      · cases h
    | some intf =>
      simp only [Except.ok_bind]
      obtain ⟨hok, hmem⟩ := ih (acc.emplace (ResolvedNextHop nhop.addr intf (max nhop.weight 1) nhop.labelForwardingAction))
      refine ⟨hok.trans ⟨fun h nh hnh => ?_, fun h nh hnh => h nh (List.mem_cons_of_mem nhop hnh)⟩, fun s hs x => ?_⟩
      · rcases List.mem_cons.mp hnh with rfl | hnh
        · rw [hi]
          rfl
        · exact h nh hnh
      · -- the rebuilt next hop is the next hop with its new weight
        have hres : ResolvedNextHop nhop.addr intf (max nhop.weight 1) nhop.labelForwardingAction =
            { nhop with weight := max nhop.weight 1 } := by
          rw [ResolvedNextHop, ← hi]
        rw [hmem s hs x, FlatSet.mem_emplace, hres]
        simp only [List.mem_cons, exists_eq_or_imp]
        tauto

/-- The scaled next hops are the next hops with their scaled weights. -/
theorem mem_scaleNextHops (factor : Float) (nhops : List NextHop) (x : NextHop) :
    x ∈ (scaleNextHops factor nhops).1.elems ↔ ∃ nh ∈ nhops, x = { nh with weight := scaledWeight factor nh.weight } := by
  -- the set is the fold of its own component
  have hfst : ∀ (l : List NextHop) (acc : RouteNextHopSet × NextHopWeight),
      (l.foldl (insertScaled factor) acc).1 =
        l.foldl (fun s nhop => s.emplace { nhop with weight := scaledWeight factor nhop.weight }) acc.1 := by
    intro l
    induction l with
    | nil => intro acc; rfl
    | cons nh l ih => intro acc; exact ih _
  rw [scaleNextHops, hfst, FlatSet.mem_foldl_emplace]
  simp

/-- `max_element` returns a member, and `end()` only for an empty list. -/
theorem maxWeightElement_mem : ∀ {l : List NextHop} {m : NextHop}, maxWeightElement l = some m → m ∈ l
  | nh :: nhops, m, h => by
    -- the largest so far is the start or a member of the rest
    have hfold : ∀ (l : List NextHop) (a : NextHop),
        l.foldl (fun largest n => if largest.weight < n.weight then n else largest) a ∈ a :: l := by
      intro l
      induction l with
      | nil => intro a; exact List.mem_singleton_self a
      | cons n l ih =>
        intro a
        rw [List.foldl_cons]
        split
        · exact List.mem_cons_of_mem a (ih n)
        · rcases List.mem_cons.mp (ih a) with h | h
          · rw [h]
            exact List.mem_cons_self
          · exact List.mem_cons_of_mem a (List.mem_cons_of_mem n h)
    rw [maxWeightElement, Option.some.injEq] at h
    rw [← h]
    exact hfold nhops nh

theorem maxWeightElement_eq_none_iff (l : List NextHop) : maxWeightElement l = none ↔ l = [] := by
  cases l <;> simp [maxWeightElement]

/-- A turn of step 2c keeps the next hops it had, and puts back the one it
took with a positive weight. -/
theorem mem_decrementMax {s : RouteNextHopSet} {x : NextHop} (hx : x ∈ (decrementMax s).elems) :
    x ∈ s.elems ∨ ∃ m ∈ s.elems, x = { m with weight := m.weight - 1 } ∧ 1 ≤ m.weight - 1 := by
  unfold decrementMax at hx
  cases hm : maxWeightElement s.elems with
  | none =>
    rw [hm] at hx
    exact .inl hx
  | some m =>
    rw [hm] at hx
    have hms := maxWeightElement_mem hm
    dsimp only at hx
    split at hx
    · rename_i hpos
      rcases (FlatSet.mem_emplace _ _ _).mp hx with rfl | hx
      · exact .inr ⟨m, hms, rfl, hpos⟩
      · exact .inl ((FlatSet.mem_erase _ _ _).mp hx).2
    · exact .inl ((FlatSet.mem_erase _ _ _).mp hx).2

/-- Every turn of step 2c keeps the next hops normalized from `nhops`. -/
theorem normalizedFrom_decrementMax {nhops : List NextHop} {s : RouteNextHopSet}
    (hs : ∀ nh ∈ s.elems, NormalizedFrom nhops nh) : ∀ nh ∈ (decrementMax s).elems, NormalizedFrom nhops nh := by
  intro nh hnh
  rcases mem_decrementMax hnh with hnh | ⟨m, hm, rfl, hpos⟩
  · exact hs nh hnh
  · exact (hs m hm).withWeight hpos

theorem normalizedFrom_iterate_decrementMax {nhops : List NextHop} {s : RouteNextHopSet}
    (hs : ∀ nh ∈ s.elems, NormalizedFrom nhops nh) (n : Nat) :
    ∀ nh ∈ (Nat.iterate decrementMax n s).elems, NormalizedFrom nhops nh := by
  induction n with
  | zero => exact hs
  | succ n ih =>
    rw [Function.iterate_succ_apply']
    exact normalizedFrom_decrementMax ih

/-- Steps 2a to 2c keep the next hops normalized from `nhops`. -/
theorem normalizedFrom_scaleDown {nhops : List NextHop} {s : RouteNextHopSet} (ecmpWidth : Nat)
    (hs : ∀ nh ∈ s.elems, NormalizedFrom nhops nh) : ∀ nh ∈ (scaleDown ecmpWidth s).elems, NormalizedFrom nhops nh := by
  -- the scaled next hops are the next hops with a weight of at least 1
  have hscaled : ∀ (factor : Float), ∀ nh ∈ (scaleNextHops factor s.elems).1.elems, NormalizedFrom nhops nh := by
    intro factor nh hnh
    obtain ⟨nh', hnh', rfl⟩ := (mem_scaleNextHops factor s.elems nh).mp hnh
    exact (hs nh' hnh').withWeight (le_max_right _ _)
  unfold scaleDown
  split
  rename_i scaledNextHops scaledTotalWeight hscale
  have hsc := hscaled (scaleFactor ecmpWidth (accumulateWeights s.elems))
  rw [hscale] at hsc
  split
  · exact normalizedFrom_iterate_decrementMax hsc _
  · exact hsc

/-! ### The width -/

theorem weightSum_emplace_le (s : RouteNextHopSet) (x : NextHop) :
    weightSum (s.emplace x) ≤ weightSum s + x.weight := by
  unfold weightSum
  by_cases hx : x ∈ s.elems
  · rw [((FlatSet.perm_emplace_of_mem hx).map NextHop.weight).sum_nat]
    omega
  · rw [((FlatSet.perm_emplace hx).map NextHop.weight).sum_nat, List.map_cons, List.sum_cons]
    omega

theorem weightSum_erase {s : RouteNextHopSet} {x : NextHop} (hx : x ∈ s.elems) :
    weightSum s = x.weight + weightSum (s.erase x) := by
  unfold weightSum
  rw [((FlatSet.perm_erase hx).map NextHop.weight).sum_nat, List.map_cons, List.sum_cons]

/-- A turn of step 2c on a non-empty set of positive weights takes at least
one off the sum of the weights. -/
theorem weightSum_decrementMax {s : RouteNextHopSet} (hpos : ∀ nh ∈ s.elems, 1 ≤ nh.weight) :
    weightSum (decrementMax s) ≤ weightSum s - 1 := by
  unfold decrementMax
  cases hm : maxWeightElement s.elems with
  | none =>
    -- nothing to take: the set is empty and its sum 0
    have hnil := (maxWeightElement_eq_none_iff _).mp hm
    simp [weightSum, hnil]
  | some m =>
    have hms := maxWeightElement_mem hm
    have hm1 := hpos m hms
    have herase := weightSum_erase hms
    dsimp only
    split
    · calc weightSum ((s.erase m).emplace { m with weight := m.weight - 1 })
          ≤ weightSum (s.erase m) + (m.weight - 1) := weightSum_emplace_le _ _
        _ = weightSum s - 1 := by
          unfold NextHopWeight at *
          omega
    · unfold NextHopWeight at *
      omega

/-- Turns of step 2c, from positive weights: each takes at least one off the
sum, and the weights stay positive. -/
theorem weightSum_iterate_decrementMax {s : RouteNextHopSet} (hpos : ∀ nh ∈ s.elems, 1 ≤ nh.weight) (n : Nat) :
    weightSum (Nat.iterate decrementMax n s) ≤ weightSum s - n ∧
      ∀ nh ∈ (Nat.iterate decrementMax n s).elems, 1 ≤ nh.weight := by
  induction n with
  | zero => exact ⟨Nat.le_refl _, hpos⟩
  | succ n ih =>
    obtain ⟨hsum, hpos'⟩ := ih
    rw [Function.iterate_succ_apply']
    refine ⟨?_, fun nh hnh => ?_⟩
    · have := weightSum_decrementMax hpos'
      omega
    · rcases mem_decrementMax hnh with hnh | ⟨m, _, rfl, hm⟩
      · exact hpos' nh hnh
      · exact hm

/-- The sum of the weights of the scaled next hops is at most the sum of the
scaled weights: scaled next hops that meet are one element. -/
theorem weightSum_scaleNextHops_le (factor : Float) (nhops : List NextHop) :
    weightSum (scaleNextHops factor nhops).1 ≤ (nhops.map fun nh => scaledWeight factor nh.weight).sum ∧
      (scaleNextHops factor nhops).2 = (nhops.map fun nh => scaledWeight factor nh.weight).sum % 2 ^ 64 := by
  have hloop : ∀ (l : List NextHop) (acc : RouteNextHopSet × NextHopWeight), acc.2 < 2 ^ 64 →
      weightSum (l.foldl (insertScaled factor) acc).1 ≤
          weightSum acc.1 + (l.map fun nh => scaledWeight factor nh.weight).sum ∧
        (l.foldl (insertScaled factor) acc).2 = (acc.2 + (l.map fun nh => scaledWeight factor nh.weight).sum) % 2 ^ 64 := by
    intro l
    induction l with
    | nil =>
      intro acc hacc
      exact ⟨Nat.le_add_right _ _, by rw [List.foldl_nil, List.map_nil, List.sum_nil, Nat.add_zero, Nat.mod_eq_of_lt hacc]⟩
    | cons nh l ih =>
      intro acc hacc
      obtain ⟨hsum, hmod⟩ := ih (insertScaled factor acc nh) (Nat.mod_lt _ (Nat.two_pow_pos 64))
      have hone : weightSum (insertScaled factor acc nh).1 ≤ weightSum acc.1 + scaledWeight factor nh.weight :=
        weightSum_emplace_le _ _
      have htwo : (insertScaled factor acc nh).2 = (acc.2 + scaledWeight factor nh.weight) % 2 ^ 64 := rfl
      rw [List.foldl_cons, List.map_cons, List.sum_cons]
      refine ⟨?_, ?_⟩
      · unfold NextHopWeight at *
        omega
      · rw [hmod, htwo, Nat.mod_add_mod, Nat.add_assoc]
  have := hloop nhops (FlatSet.empty, 0) (Nat.two_pow_pos 64)
  simpa [weightSum, scaleNextHops] using this

/-- Steps 2a to 2c bring the sum of the weights down to the width, unless the
`uint64_t` sum of the scaled weights wraps. -/
theorem weightSum_scaleDown_le (ecmpWidth : Nat) (s : RouteNextHopSet) :
    weightSum (scaleDown ecmpWidth s) ≤ ecmpWidth ∨
      2 ^ 64 ≤ (s.elems.map fun nh => scaledWeight (scaleFactor ecmpWidth (accumulateWeights s.elems)) nh.weight).sum := by
  obtain ⟨hle, hmod⟩ := weightSum_scaleNextHops_le (scaleFactor ecmpWidth (accumulateWeights s.elems)) s.elems
  have hpos : ∀ nh ∈ (scaleNextHops (scaleFactor ecmpWidth (accumulateWeights s.elems)) s.elems).1.elems,
      1 ≤ nh.weight := by
    intro nh hnh
    obtain ⟨nh', -, rfl⟩ := (mem_scaleNextHops _ s.elems nh).mp hnh
    exact le_max_right _ _
  by_cases hwrap : 2 ^ 64 ≤ (s.elems.map fun nh => scaledWeight (scaleFactor ecmpWidth (accumulateWeights s.elems)) nh.weight).sum
  · exact .inr hwrap
  · left
    rw [Nat.mod_eq_of_lt (Nat.lt_of_not_le hwrap)] at hmod
    unfold scaleDown
    split
    rename_i scaledNextHops scaledTotalWeight hscale
    rw [hscale] at hle hmod hpos
    dsimp only at hle hmod hpos
    split
    · -- the turns of step 2c take off what the scaled weights are above the width
      have := (weightSum_iterate_decrementMax hpos (scaledTotalWeight - ecmpWidth)).1
      unfold NextHopWeight at *
      omega
    · unfold NextHopWeight at *
      omega

/-- `normalizedNextHops()` throws exactly for an entry with an unresolved next
hop; every next hop it returns is resolved, of weight at least 1, and has the
address, the interface and the label action of a next hop of the entry. -/
theorem normalizedNextHops_spec (ecmpWidth : Nat) (e : RouteNextHopEntry) :
    ((∃ s, e.normalizedNextHops ecmpWidth = .ok s) ↔ ∀ nh ∈ e.nhopSet.elems, nh.isResolved) ∧
      ∀ s, e.normalizedNextHops ecmpWidth = .ok s → ∀ nh ∈ s.elems, NormalizedFrom e.nhopSet.elems nh := by
  obtain ⟨hok, hmem⟩ := foldlM_insertWithMinWeight_spec e.nhopSet.elems FlatSet.empty
  -- what step 1 gives is normalized from the entry's next hops
  have hstep1 : ∀ s, withMinWeight e.nhopSet.elems = .ok s → ∀ nh ∈ s.elems, NormalizedFrom e.nhopSet.elems nh := by
    intro s hs nh hnh
    rcases (hmem s hs nh).mp hnh with hnh | ⟨nh', hnh', rfl⟩
    · simp at hnh
    · have hres : nh'.intfID.isSome := (hok.mp ⟨s, hs⟩) nh' hnh'
      exact ⟨hres, le_max_right _ _, nh', hnh', rfl, rfl, rfl⟩
  refine ⟨⟨fun hs => ?_, fun h => ?_⟩, fun s hs => ?_⟩
  · obtain ⟨s, hs⟩ := hs
    cases h1 : withMinWeight e.nhopSet.elems with
    | error err => simp [normalizedNextHops, getNextHopSet, h1] at hs
    | ok t => exact hok.mp ⟨t, h1⟩
  · obtain ⟨t, ht⟩ := hok.mpr h
    refine ⟨if accumulateWeights t.elems > ecmpWidth then scaleDown ecmpWidth t else t, ?_⟩
    simp only [normalizedNextHops, getNextHopSet]
    rw [show withMinWeight e.nhopSet.elems = .ok t from ht, Except.ok_bind]
    split <;> rfl
  · cases h1 : withMinWeight e.nhopSet.elems with
    | error err => simp [normalizedNextHops, getNextHopSet, h1] at hs
    | ok t =>
      simp only [normalizedNextHops, getNextHopSet, h1, Except.ok_bind] at hs
      split at hs
      · obtain rfl := Except.ok.inj hs
        exact normalizedFrom_scaleDown ecmpWidth (hstep1 t h1)
      · obtain rfl := Except.ok.inj hs
        exact hstep1 t h1

end RouteNextHopEntry

end Fboss
