import Fboss.Route.Route
import Fboss.Route.NormalizedNextHops
import Fboss.State.DeltaFunctions
import Fboss.Lib.ExceptSpec

/-!
# Probes of resolved next hops

`ResolvedNexthopMonitor::stateUpdated` walks the route tables, the FIBs and
the label FIB of a state delta. From each entry it does not skip it collects
the resolved next hops of the normalized next hops of its forwarding entry:
those of a removed entry into `removed_`, those of an added entry into
`added_`, and for a changed entry the old ones into `removed_` and the new ones
into `added_`. `ResolvedNexthopProbeScheduler::processChangedResolvedNexthops`
then counts the uses of each next hop, first all the additions and then all
the removals, and keeps a probe for each next hop in use; a removal of a next
hop that has no count fails its `CHECK`. `schedule()` starts the probe of each
next hop without a neighbor entry in the VLAN of its interface and stops the
others.

A route is skipped unless it is resolved, forwards to next hops and its best
client is monitored. A label entry is skipped unless it forwards to next hops
and its best client is monitored as well, but `skipLabelFibEntry` returns
`isClientMonitored(...)` where the route's test has `!isMonitored(...)`: the
label entries of monitored clients are skipped, and those of every other
client are counted (`stateUpdated_skips_monitored_label_entry`).

The next hops of a forwarding entry are normalized to the ECMP width
(`RouteNextHopEntry.normalizedNextHops`, for `FLAGS_ecmp_width = ecmpWidth`);
only the address and the interface of each next hop it returns are read. The
switch state that `schedule()` reads is given by the VLAN of each interface
and the neighbor entries of each VLAN.
-/

namespace Fboss

namespace ClientID

def OPENR : ClientID := 786

end ClientID

/-- `LabelForwardingEntry`: the top label, the forwarding entry and the entries
of each client. -/
structure LabelForwardingEntry where
  topLabel : MplsLabel
  nexthop : RouteNextHopEntry
  labelNextHopsByClient : RouteNextHopsMulti

/-- The deltas of one VLAN that `stateUpdated` reads: whether its ARP and NDP
tables are there in the old and the new state. -/
structure VlanNeighborDelta where
  arpOld : Bool
  arpNew : Bool
  ndpOld : Bool
  ndpNew : Bool
  deriving DecidableEq, Repr

/-- The parts of a `StateDelta` that `stateUpdated` reads: the v4 and v6
route deltas of each route table, the v4 and v6 deltas of each FIB, the label
FIB delta and the VLAN deltas. -/
structure MonitorDelta (κ₄ κ₆ : Type) where
  routeTablesDelta : List (List (κ₄ × Option Route × Option Route) × List (κ₆ × Option Route × Option Route))
  fibsDelta : List (List (κ₄ × Option Route × Option Route) × List (κ₆ × Option Route × Option Route))
  labelFibDelta : List (MplsLabel × Option LabelForwardingEntry × Option LabelForwardingEntry)
  vlansDelta : List VlanNeighborDelta

/-- `ResolvedNexthopProbeScheduler`: the use count and the probe of each
next hop, a probe being started or stopped. -/
structure ResolvedNexthopProbeScheduler where
  resolvedNextHop2UseCount : FlatMap NextHop Nat
  resolvedNextHop2Probes : FlatMap NextHop Bool

namespace ResolvedNexthopProbeScheduler

/-- A scheduler with no next hop. -/
def empty : ResolvedNexthopProbeScheduler :=
  ⟨FlatMap.empty, FlatMap.empty⟩

/-- One addition of `processChangedResolvedNexthops`: a new next hop has a
count of 1 and a stopped probe. -/
def addNexthop (s : ResolvedNexthopProbeScheduler) (nexthop : NextHop) : ResolvedNexthopProbeScheduler :=
  match s.resolvedNextHop2UseCount.find? nexthop with
  | none => ⟨s.resolvedNextHop2UseCount.insert nexthop 1, s.resolvedNextHop2Probes.insert nexthop false⟩
  | some count => { s with resolvedNextHop2UseCount := s.resolvedNextHop2UseCount.assign nexthop (count + 1) }

/-- One removal of `processChangedResolvedNexthops`: the probe of a next hop
whose count drops from 1 is stopped and dropped. -/
def removeNexthop (s : ResolvedNexthopProbeScheduler) (nexthop : NextHop) :
    Except String ResolvedNexthopProbeScheduler :=
  match s.resolvedNextHop2UseCount.find? nexthop with
  | none => .error "Check failed: itr != resolvedNextHop2UseCount_.end()"
  | some count =>
    if count = 1 then
      .ok ⟨s.resolvedNextHop2UseCount.erase nexthop, s.resolvedNextHop2Probes.erase nexthop⟩
    else .ok { s with resolvedNextHop2UseCount := s.resolvedNextHop2UseCount.assign nexthop (count - 1) }

/-- `processChangedResolvedNexthops(added, removed)`. -/
def processChangedResolvedNexthops (s : ResolvedNexthopProbeScheduler) (added removed : List NextHop) :
    Except String ResolvedNexthopProbeScheduler :=
  removed.foldlM removeNexthop (added.foldl addNexthop s)

/-- `schedule()` against the VLAN of each interface and the neighbor entries
of each VLAN: the probe of a next hop is started when its VLAN has no entry
for its address. An interface or a VLAN that is not there throws. -/
def schedule (intfVlan : InterfaceID → Option Nat) (vlanHasNeighbor : Nat → Option (IPAddress → Bool))
    (s : ResolvedNexthopProbeScheduler) : Except String ResolvedNexthopProbeScheduler :=
  s.resolvedNextHop2UseCount.toList.foldlM (fun (s : ResolvedNexthopProbeScheduler) entry =>
    match entry.1.intfID.bind intfVlan with
    | none => .error "interface not found"
    | some vlanId =>
      match vlanHasNeighbor vlanId with
      | none => .error "vlan not found"
      | some hasNeighbor =>
        .ok { s with resolvedNextHop2Probes := s.resolvedNextHop2Probes.set entry.1 !(hasNeighbor entry.1.addr) })
    s

/-! ### Use counts -/

/-- The number of uses of a next hop: its count, 0 for one the scheduler does
not have. -/
def useCount (s : ResolvedNexthopProbeScheduler) (nexthop : NextHop) : Nat :=
  (s.resolvedNextHop2UseCount.find? nexthop).getD 0

/-- The invariant of the scheduler: a next hop has a count exactly when it has
a probe, and every count is positive. -/
structure Inv (s : ResolvedNexthopProbeScheduler) : Prop where
  probes : ∀ nh, (s.resolvedNextHop2Probes.find? nh).isSome = (s.resolvedNextHop2UseCount.find? nh).isSome
  pos : ∀ nh c, s.resolvedNextHop2UseCount.find? nh = some c → 0 < c

theorem inv_empty : Inv empty :=
  ⟨fun _ => rfl, fun _ _ h => by simp [empty] at h⟩

/-- Under the invariant a next hop has a count exactly when it is in use. -/
theorem Inv.find?_isSome_iff {s : ResolvedNexthopProbeScheduler} (h : Inv s) (nh : NextHop) :
    (s.resolvedNextHop2UseCount.find? nh).isSome ↔ 0 < s.useCount nh := by
  unfold useCount
  cases hc : s.resolvedNextHop2UseCount.find? nh with
  | none => simp
  | some c => simpa using h.pos nh c hc

theorem useCount_addNexthop (s : ResolvedNexthopProbeScheduler) (nh x : NextHop) :
    (s.addNexthop nh).useCount x = s.useCount x + if x = nh then 1 else 0 := by
  unfold addNexthop useCount
  cases hc : s.resolvedNextHop2UseCount.find? nh with
  | none =>
    simp only [FlatMap.find?_insert, hc]
    by_cases hx : x = nh <;> simp [hx, hc]
  | some c =>
    simp only [FlatMap.find?_assign, hc]
    by_cases hx : x = nh <;> simp [hx, hc]

theorem Inv.addNexthop {s : ResolvedNexthopProbeScheduler} (h : Inv s) (nh : NextHop) :
    Inv (s.addNexthop nh) := by
  unfold ResolvedNexthopProbeScheduler.addNexthop
  cases hc : s.resolvedNextHop2UseCount.find? nh with
  | none =>
    refine ⟨fun x => ?_, fun x c hx => ?_⟩
    · have hp : s.resolvedNextHop2Probes.find? nh = none := by
        simpa [hc] using h.probes nh
      simp only [FlatMap.find?_insert]
      by_cases hxn : x = nh
      · simp [hxn, hc, hp]
      · simp [hxn, h.probes x]
    · simp only [FlatMap.find?_insert] at hx
      by_cases hxn : x = nh
      · simp [hxn, hc] at hx
        omega
      · simp only [hxn, if_false] at hx
        exact h.pos x c hx
  | some c =>
    refine ⟨fun x => ?_, fun x c' hx => ?_⟩
    · simp only [FlatMap.find?_assign]
      by_cases hxn : x = nh
      · subst hxn
        simp [h.probes x, hc]
      · simp [hxn, h.probes x]
    · simp only [FlatMap.find?_assign] at hx
      by_cases hxn : x = nh
      · simp [hxn, hc] at hx
        omega
      · simp only [hxn, if_false] at hx
        exact h.pos x c' hx

/-- A removal fails exactly for a next hop that is not in use. -/
theorem removeNexthop_eq_error_iff {s : ResolvedNexthopProbeScheduler} (h : Inv s) (nh : NextHop) :
    (∃ e, s.removeNexthop nh = .error e) ↔ s.useCount nh = 0 := by
  have hiff := h.find?_isSome_iff nh
  unfold removeNexthop
  cases hc : s.resolvedNextHop2UseCount.find? nh with
  | none => simp [useCount, hc]
  | some c =>
    rw [hc] at hiff
    have hpos : 0 < s.useCount nh := hiff.mp rfl
    dsimp only
    split_ifs <;> simp <;> omega

/-- A removal that succeeds keeps the invariant and takes one use away. -/
theorem Inv.removeNexthop {s s' : ResolvedNexthopProbeScheduler} (h : Inv s) {nh : NextHop}
    (hr : s.removeNexthop nh = .ok s') :
    Inv s' ∧ ∀ x, s'.useCount x = s.useCount x - if x = nh then 1 else 0 := by
  unfold ResolvedNexthopProbeScheduler.removeNexthop at hr
  cases hc : s.resolvedNextHop2UseCount.find? nh with
  | none => simp [hc] at hr
  | some c =>
    simp only [hc] at hr
    by_cases h1 : c = 1
    · -- the last use: the count and the probe go
      rw [if_pos h1] at hr
      obtain rfl := (Except.ok.inj hr).symm
      refine ⟨⟨fun x => ?_, fun x c' hx => ?_⟩, fun x => ?_⟩
      · simp only [FlatMap.find?_erase]
        split_ifs
        · rfl
        · exact h.probes x
      · simp only [FlatMap.find?_erase] at hx
        split_ifs at hx
        exact h.pos x c' hx
      · simp only [useCount, FlatMap.find?_erase]
        by_cases hxn : x = nh
        · simp [hxn, hc, h1]
        · simp [hxn]
    · rw [if_neg h1] at hr
      obtain rfl := (Except.ok.inj hr).symm
      have hc0 := h.pos nh c hc
      refine ⟨⟨fun x => ?_, fun x c' hx => ?_⟩, fun x => ?_⟩
      · simp only [FlatMap.find?_assign]
        by_cases hxn : x = nh
        · subst hxn
          simp [h.probes x, hc]
        · simp [hxn, h.probes x]
      · simp only [FlatMap.find?_assign] at hx
        by_cases hxn : x = nh
        · simp [hxn, hc] at hx
          omega
        · simp only [hxn, if_false] at hx
          exact h.pos x c' hx
      · simp only [useCount, FlatMap.find?_assign]
        by_cases hxn : x = nh
        · simp [hxn, hc]
        · simp [hxn]

theorem count_cons_nexthop (nh x : NextHop) (l : List NextHop) :
    (nh :: l).count x = l.count x + if x = nh then 1 else 0 := by
  rw [List.count_cons]
  by_cases hx : x = nh
  · subst hx
    simp
  · simp [hx, Ne.symm hx]

/-- The additions of `processChangedResolvedNexthops`: each next hop gains its
number of additions. -/
theorem addNexthops_spec :
    ∀ (added : List NextHop) {s : ResolvedNexthopProbeScheduler}, Inv s →
      Inv (added.foldl addNexthop s) ∧ ∀ x, (added.foldl addNexthop s).useCount x = s.useCount x + added.count x
  | [], _, h => ⟨h, fun _ => rfl⟩
  | nh :: added, s, h => by
    obtain ⟨hinv, hcount⟩ := addNexthops_spec added (h.addNexthop nh)
    refine ⟨hinv, fun x => ?_⟩
    rw [List.foldl_cons, hcount, useCount_addNexthop, count_cons_nexthop]
    omega

/-- The removals of `processChangedResolvedNexthops`: they succeed exactly when
no next hop is removed more often than it is in use, and each next hop then
loses its number of removals. -/
theorem removeNexthops_spec :
    ∀ (removed : List NextHop) {s : ResolvedNexthopProbeScheduler}, Inv s →
      ((∃ s', removed.foldlM removeNexthop s = .ok s') ↔ ∀ x, removed.count x ≤ s.useCount x) ∧
      ∀ s', removed.foldlM removeNexthop s = .ok s' → Inv s' ∧ ∀ x, s'.useCount x = s.useCount x - removed.count x
  | [], s, h => by
    refine ⟨⟨fun _ x => by simp, fun _ => ⟨s, rfl⟩⟩, fun s' hs' => ?_⟩
    obtain rfl : s = s' := Except.ok.inj hs'
    exact ⟨h, fun _ => by simp⟩
  | nh :: removed, s, h => by
    rw [List.foldlM_cons]
    cases hr : s.removeNexthop nh with
    | error e =>
      -- the next hop is not in use: the `CHECK` fails
      have h0 : s.useCount nh = 0 := (removeNexthop_eq_error_iff h nh).mp ⟨e, hr⟩
      refine ⟨⟨fun ⟨_, he⟩ => by simp [Except.error_bind] at he, fun hle => ?_⟩, fun s' he => ?_⟩
      · have := hle nh
        simp at this
        omega
      · simp [Except.error_bind] at he
    | ok s₁ =>
      obtain ⟨h₁, hcount₁⟩ := h.removeNexthop hr
      obtain ⟨hok, hspec⟩ := removeNexthops_spec removed h₁
      have hpos : 0 < s.useCount nh := by
        by_contra hz
        obtain ⟨e, he⟩ := (removeNexthop_eq_error_iff h nh).mpr (by omega)
        rw [hr] at he
        cases he
      simp only [Except.ok_bind]
      refine ⟨hok.trans ⟨fun hle x => ?_, fun hle x => ?_⟩, fun s' hs' => ?_⟩
      · -- one use of `nh` is gone before the rest are removed
        have := hle x
        rw [hcount₁ x] at this
        rw [count_cons_nexthop]
        by_cases hx : x = nh
        · rw [if_pos hx] at this ⊢
          subst hx
          omega
        · rw [if_neg hx] at this ⊢
          omega
      · have := hle x
        rw [hcount₁ x]
        rw [count_cons_nexthop] at this
        split_ifs at this ⊢ <;> omega
      · obtain ⟨hinv, hcount⟩ := hspec s' hs'
        refine ⟨hinv, fun x => ?_⟩
        rw [hcount, hcount₁, count_cons_nexthop]
        split_ifs <;> omega

/-- `processChangedResolvedNexthops(added, removed)` on a scheduler that keeps
its invariant succeeds exactly when no next hop is removed more often than it
is in use after the additions; it then keeps the invariant, and every next
hop's use count goes up by its additions and down by its removals. -/
theorem processChangedResolvedNexthops_counts {s : ResolvedNexthopProbeScheduler} (h : Inv s)
    (added removed : List NextHop) :
    ((∃ s', s.processChangedResolvedNexthops added removed = .ok s') ↔
        ∀ nh, removed.count nh ≤ s.useCount nh + added.count nh) ∧
      ∀ s', s.processChangedResolvedNexthops added removed = .ok s' →
        Inv s' ∧ ∀ nh, s'.useCount nh = s.useCount nh + added.count nh - removed.count nh := by
  obtain ⟨hadd, hcount⟩ := addNexthops_spec added h
  obtain ⟨hok, hspec⟩ := removeNexthops_spec removed hadd
  refine ⟨?_, fun s' hs' => ?_⟩
  · rw [processChangedResolvedNexthops, hok]
    simp only [hcount]
  · obtain ⟨hinv, hcount'⟩ := hspec s' hs'
    exact ⟨hinv, fun nh => by rw [hcount', hcount]⟩

/-- Two next hops in use, `10.0.0.1` and `10.0.0.2` on interface 1: both are
added twice, and one is removed three times, once more than it is used. -/
theorem processChangedResolvedNexthops_counts_from_empty :
    Inv empty ∧
    (((∃ s', empty.processChangedResolvedNexthops
          [ResolvedNextHop (.v4 0x0a000001#32) 1 0 none, ResolvedNextHop (.v4 0x0a000002#32) 1 0 none,
            ResolvedNextHop (.v4 0x0a000001#32) 1 0 none, ResolvedNextHop (.v4 0x0a000002#32) 1 0 none]
          [ResolvedNextHop (.v4 0x0a000002#32) 1 0 none, ResolvedNextHop (.v4 0x0a000002#32) 1 0 none,
            ResolvedNextHop (.v4 0x0a000002#32) 1 0 none] = .ok s') ↔
        ∀ nh, [ResolvedNextHop (.v4 0x0a000002#32) 1 0 none, ResolvedNextHop (.v4 0x0a000002#32) 1 0 none,
            ResolvedNextHop (.v4 0x0a000002#32) 1 0 none].count nh ≤
          empty.useCount nh +
            [ResolvedNextHop (.v4 0x0a000001#32) 1 0 none, ResolvedNextHop (.v4 0x0a000002#32) 1 0 none,
              ResolvedNextHop (.v4 0x0a000001#32) 1 0 none, ResolvedNextHop (.v4 0x0a000002#32) 1 0 none].count nh) ∧
      ∀ s', empty.processChangedResolvedNexthops
          [ResolvedNextHop (.v4 0x0a000001#32) 1 0 none, ResolvedNextHop (.v4 0x0a000002#32) 1 0 none,
            ResolvedNextHop (.v4 0x0a000001#32) 1 0 none, ResolvedNextHop (.v4 0x0a000002#32) 1 0 none]
          [ResolvedNextHop (.v4 0x0a000002#32) 1 0 none, ResolvedNextHop (.v4 0x0a000002#32) 1 0 none,
            ResolvedNextHop (.v4 0x0a000002#32) 1 0 none] = .ok s' →
        Inv s' ∧ ∀ nh, s'.useCount nh = empty.useCount nh +
          [ResolvedNextHop (.v4 0x0a000001#32) 1 0 none, ResolvedNextHop (.v4 0x0a000002#32) 1 0 none,
            ResolvedNextHop (.v4 0x0a000001#32) 1 0 none, ResolvedNextHop (.v4 0x0a000002#32) 1 0 none].count nh -
          [ResolvedNextHop (.v4 0x0a000002#32) 1 0 none, ResolvedNextHop (.v4 0x0a000002#32) 1 0 none,
            ResolvedNextHop (.v4 0x0a000002#32) 1 0 none].count nh) :=
  ⟨inv_empty, processChangedResolvedNexthops_counts inv_empty _ _⟩

/-- The loop of `schedule()` over entries with distinct next hops: the counts
stay, the probe of each next hop of the loop is set from the neighbor entries
of its VLAN, and the other probes stay. -/
theorem schedule_loop (intfVlan : InterfaceID → Option Nat)
    (vlanHasNeighbor : Nat → Option (IPAddress → Bool)) :
    ∀ (L : List (NextHop × Nat)) {s s' : ResolvedNexthopProbeScheduler}, (L.map Prod.fst).Nodup →
      L.foldlM (fun (s : ResolvedNexthopProbeScheduler) (entry : NextHop × Nat) =>
        (match entry.1.intfID.bind intfVlan with
        | none => .error "interface not found"
        | some vlanId =>
          match vlanHasNeighbor vlanId with
          | none => .error "vlan not found"
          | some hasNeighbor =>
            .ok { s with resolvedNextHop2Probes := s.resolvedNextHop2Probes.set entry.1 !(hasNeighbor entry.1.addr) } :
          Except String ResolvedNexthopProbeScheduler))
        s = .ok s' →
      s'.resolvedNextHop2UseCount = s.resolvedNextHop2UseCount ∧
        (∀ x ∉ L.map Prod.fst, s'.resolvedNextHop2Probes.find? x = s.resolvedNextHop2Probes.find? x) ∧
        ∀ e ∈ L, ∃ vlan hasNeighbor, e.1.intfID.bind intfVlan = some vlan ∧
          vlanHasNeighbor vlan = some hasNeighbor ∧ s'.resolvedNextHop2Probes.find? e.1 = some !(hasNeighbor e.1.addr)
  | [], s, s', _, h => by
    obtain rfl : s = s' := Except.ok.inj h
    exact ⟨rfl, fun _ _ => rfl, fun _ he => absurd he List.not_mem_nil⟩
  | e :: L, s, s', hnd, h => by
    rw [List.map_cons, List.nodup_cons] at hnd
    rw [List.foldlM_cons] at h
    cases hv : e.1.intfID.bind intfVlan with
    | none => simp [hv] at h
    | some vlan =>
      cases hn : vlanHasNeighbor vlan with
      | none => simp [hv, hn] at h
      | some hasNeighbor =>
        simp only [hv, hn, Except.ok_bind] at h
        obtain ⟨hcount, hrest, hset⟩ := schedule_loop intfVlan vlanHasNeighbor L hnd.2 h
        refine ⟨hcount, fun x hx => ?_, fun e' he' => ?_⟩
        · simp only [List.map_cons, List.mem_cons, not_or] at hx
          rw [hrest x hx.2, FlatMap.find?_set, if_neg hx.1]
        · rcases List.mem_cons.mp he' with rfl | he'
          · -- the next hop set here is set nowhere later
            refine ⟨vlan, hasNeighbor, hv, hn, ?_⟩
            rw [hrest _ hnd.1, FlatMap.find?_set, if_pos rfl]
          · exact hset e' he'

/-- `schedule()` on a scheduler that keeps its invariant: when it succeeds it
keeps the invariant and the use counts, and the probe of every next hop in use
is started exactly when the VLAN of its interface has no neighbor entry for its
address. -/
theorem schedule_starts_probes_without_neighbor {intfVlan : InterfaceID → Option Nat}
    {vlanHasNeighbor : Nat → Option (IPAddress → Bool)} {s s' : ResolvedNexthopProbeScheduler} (h : Inv s)
    (hs : schedule intfVlan vlanHasNeighbor s = .ok s') :
    Inv s' ∧ s'.resolvedNextHop2UseCount = s.resolvedNextHop2UseCount ∧
      ∀ nh, 0 < s.useCount nh → ∃ vlan hasNeighbor, nh.intfID.bind intfVlan = some vlan ∧
        vlanHasNeighbor vlan = some hasNeighbor ∧ s'.resolvedNextHop2Probes.find? nh = some !(hasNeighbor nh.addr) := by
  obtain ⟨hcount, hrest, hset⟩ :=
    schedule_loop intfVlan vlanHasNeighbor _ (FlatMap.nodup_keys s.resolvedNextHop2UseCount) hs
  have hin : ∀ nh c, s.resolvedNextHop2UseCount.find? nh = some c → (nh, c) ∈ s.resolvedNextHop2UseCount.toList :=
    fun nh c hc => (FlatMap.mem_toList_iff _ _ _).mpr hc
  refine ⟨⟨fun x => ?_, fun x c hx => h.pos x c (hcount ▸ hx)⟩, hcount, fun nh hpos => ?_⟩
  · rw [hcount]
    cases hc : s.resolvedNextHop2UseCount.find? x with
    | none =>
      rw [hrest x ((FlatMap.find?_eq_none_iff _ _).mp hc), h.probes x, hc]
    | some c =>
      obtain ⟨_, _, -, -, hp⟩ := hset (x, c) (hin x c hc)
      rw [hp]
      rfl
  · obtain ⟨c, hc⟩ := Option.isSome_iff_exists.mp ((h.find?_isSome_iff nh).mpr hpos)
    exact hset (nh, c) (hin nh c hc)

/-- One next hop, `10.0.0.1` on interface 1 of VLAN 1, which has no neighbor
entry for it: `schedule()` starts its probe. -/
theorem schedule_starts_probe_on_vlan_without_entry :
    Inv (empty.addNexthop (ResolvedNextHop (.v4 0x0a000001#32) 1 0 none)) ∧
    schedule (fun i => if i = 1 then some 1 else none) (fun _ => some fun _ => false)
        (empty.addNexthop (ResolvedNextHop (.v4 0x0a000001#32) 1 0 none)) =
      .ok { empty.addNexthop (ResolvedNextHop (.v4 0x0a000001#32) 1 0 none) with
        resolvedNextHop2Probes := (empty.addNexthop (ResolvedNextHop (.v4 0x0a000001#32) 1 0 none)
          ).resolvedNextHop2Probes.set (ResolvedNextHop (.v4 0x0a000001#32) 1 0 none) true } ∧
    (Inv { empty.addNexthop (ResolvedNextHop (.v4 0x0a000001#32) 1 0 none) with
        resolvedNextHop2Probes := (empty.addNexthop (ResolvedNextHop (.v4 0x0a000001#32) 1 0 none)
          ).resolvedNextHop2Probes.set (ResolvedNextHop (.v4 0x0a000001#32) 1 0 none) true } ∧
      (empty.addNexthop (ResolvedNextHop (.v4 0x0a000001#32) 1 0 none)).resolvedNextHop2UseCount =
        (empty.addNexthop (ResolvedNextHop (.v4 0x0a000001#32) 1 0 none)).resolvedNextHop2UseCount ∧
      ∀ nh, 0 < (empty.addNexthop (ResolvedNextHop (.v4 0x0a000001#32) 1 0 none)).useCount nh →
        ∃ vlan hasNeighbor, nh.intfID.bind (fun i => if i = 1 then some 1 else none) = some vlan ∧
          (fun _ => some fun _ => false : Nat → Option (IPAddress → Bool)) vlan = some hasNeighbor ∧
          ((empty.addNexthop (ResolvedNextHop (.v4 0x0a000001#32) 1 0 none)).resolvedNextHop2Probes.set
            (ResolvedNextHop (.v4 0x0a000001#32) 1 0 none) true).find? nh = some !(hasNeighbor nh.addr)) :=
  have hinv := inv_empty.addNexthop (ResolvedNextHop (.v4 0x0a000001#32) 1 0 none)
  have hs : schedule (fun i => if i = 1 then some 1 else none) (fun _ => some fun _ => false)
      (empty.addNexthop (ResolvedNextHop (.v4 0x0a000001#32) 1 0 none)) =
    .ok { empty.addNexthop (ResolvedNextHop (.v4 0x0a000001#32) 1 0 none) with
      resolvedNextHop2Probes := (empty.addNexthop (ResolvedNextHop (.v4 0x0a000001#32) 1 0 none)
        ).resolvedNextHop2Probes.set (ResolvedNextHop (.v4 0x0a000001#32) 1 0 none) true } := rfl
  ⟨hinv, hs, schedule_starts_probes_without_neighbor hinv hs⟩

end ResolvedNexthopProbeScheduler

namespace ResolvedNexthopMonitor

/-- `added_` and `removed_`. -/
structure NexthopLists where
  added : List NextHop
  removed : List NextHop
  deriving DecidableEq, Repr

/-- `ResolvedNextHop(nhop.addr(), nhop.intf(), 0)`: `intf()` throws for a
next hop without an interface. -/
def resolvedOf (nhop : NextHop) : Except String NextHop :=
  match nhop.intfID with
  | some intf => .ok (ResolvedNextHop nhop.addr intf 0 none)
  | none => .error "bad_optional_access"

section

variable (monitoredClients : List ClientID) (standaloneRib : Bool) (ecmpWidth : Nat)

/-- `isClientMonitored(clientId)`. -/
def isClientMonitored (clientId : ClientID) : Bool :=
  monitoredClients.any fun client => clientId == client

/-- `isMonitored(route)`: never with the standalone RIB. -/
def isMonitored (route : Route) : Except String Bool :=
  if standaloneRib then .ok false
  else do
    let bestPair ← route.getBestEntry
    pure (isClientMonitored monitoredClients bestPair.1)

/-- `skipRoute(route)`, the tests made left to right. -/
def skipRoute (route : Route) : Except String Bool :=
  if !route.isResolved || route.getForwardInfo.getAction != .NEXTHOPS then .ok true
  else do
    let monitored ← isMonitored monitoredClients standaloneRib route
    pure !monitored

/-- `skipLabelFibEntry(entry)`. -/
def skipLabelFibEntry (entry : LabelForwardingEntry) : Except String Bool :=
  if entry.nexthop.getAction != .NEXTHOPS then .ok true
  else do
    let bestEntry ← entry.labelNextHopsByClient.getBestEntry
    pure (isClientMonitored monitoredClients bestEntry.1)

/-- The body shared by the `process*` functions: unless `skip`, the resolved
next hops of the normalized next hops of `fwd`, appended to `added_` or to
`removed_`. -/
def collectNextHops (skip : Except String Bool) (fwd : RouteNextHopEntry) (toAdded : Bool)
    (s : NexthopLists) : Except String NexthopLists := do
  if ← skip then pure s
  else do
    let normalized ← fwd.normalizedNextHops ecmpWidth
    let nhops ← normalized.elems.mapM resolvedOf
    if toAdded then pure { s with added := s.added ++ nhops }
    else pure { s with removed := s.removed ++ nhops }

def processAddedRouteNextHops (route : Route) : NexthopLists → Except String NexthopLists :=
  collectNextHops ecmpWidth (skipRoute monitoredClients standaloneRib route) route.getForwardInfo true

def processRemovedRouteNextHops (route : Route) : NexthopLists → Except String NexthopLists :=
  collectNextHops ecmpWidth (skipRoute monitoredClients standaloneRib route) route.getForwardInfo false

def processChangedRouteNextHops (oldRoute newRoute : Route) (s : NexthopLists) : Except String NexthopLists := do
  let s ← processRemovedRouteNextHops monitoredClients standaloneRib ecmpWidth oldRoute s
  processAddedRouteNextHops monitoredClients standaloneRib ecmpWidth newRoute s

def processAddedLabelFibEntry (addedEntry : LabelForwardingEntry) : NexthopLists → Except String NexthopLists :=
  collectNextHops ecmpWidth (skipLabelFibEntry monitoredClients addedEntry) addedEntry.nexthop true

def processRemovedLabelFibEntry (removedEntry : LabelForwardingEntry) :
    NexthopLists → Except String NexthopLists :=
  collectNextHops ecmpWidth (skipLabelFibEntry monitoredClients removedEntry) removedEntry.nexthop false

def processChangedLabelFibEntry (oldEntry newEntry : LabelForwardingEntry) (s : NexthopLists) :
    Except String NexthopLists := do
  let s ← processRemovedLabelFibEntry monitoredClients ecmpWidth oldEntry s
  processAddedLabelFibEntry monitoredClients ecmpWidth newEntry s

/-- The walk of one v4 or v6 route delta. -/
def forEachChangedRoute {κ : Type} (delta : List (κ × Option Route × Option Route)) (s : NexthopLists) :
    Except String NexthopLists :=
  DeltaFunctions.forEachChanged delta
    (fun _ => processChangedRouteNextHops monitoredClients standaloneRib ecmpWidth)
    (fun _ => processAddedRouteNextHops monitoredClients standaloneRib ecmpWidth)
    (fun _ => processRemovedRouteNextHops monitoredClients standaloneRib ecmpWidth) s

/-- The lists collected from a delta, starting from `s`: the route tables,
the FIBs, then the label FIB. -/
def collectDelta {κ₄ κ₆ : Type} (delta : MonitorDelta κ₄ κ₆) (s : NexthopLists) :
    Except String NexthopLists := do
  let s ← delta.routeTablesDelta.foldlM (fun s rt => do
    let s ← forEachChangedRoute monitoredClients standaloneRib ecmpWidth rt.1 s
    forEachChangedRoute monitoredClients standaloneRib ecmpWidth rt.2 s) s
  let s ← delta.fibsDelta.foldlM (fun s fib => do
    let s ← forEachChangedRoute monitoredClients standaloneRib ecmpWidth fib.1 s
    forEachChangedRoute monitoredClients standaloneRib ecmpWidth fib.2 s) s
  DeltaFunctions.forEachChanged delta.labelFibDelta
    (fun _ => processChangedLabelFibEntry monitoredClients ecmpWidth)
    (fun _ => processAddedLabelFibEntry monitoredClients ecmpWidth)
    (fun _ => processRemovedLabelFibEntry monitoredClients ecmpWidth) s

/-- `stateUpdated(delta)`, from lists `added_` and `removed_` that the last
call left empty: the scheduler after it, and whether `schedule()` ran. -/
def stateUpdated {κ₄ κ₆ : Type} (intfVlan : InterfaceID → Option Nat)
    (vlanHasNeighbor : Nat → Option (IPAddress → Bool)) (delta : MonitorDelta κ₄ κ₆)
    (sched : ResolvedNexthopProbeScheduler) : Except String (ResolvedNexthopProbeScheduler × Bool) := do
  let lists ← collectDelta monitoredClients standaloneRib ecmpWidth delta ⟨[], []⟩
  let scheduleProbes := delta.vlansDelta.any fun v => v.arpNew || v.arpOld || v.ndpNew || v.ndpOld
  if !lists.added.isEmpty || !lists.removed.isEmpty then do
    let sched ← sched.processChangedResolvedNexthops lists.added lists.removed
    let sched ← sched.schedule intfVlan vlanHasNeighbor
    pure (sched, true)
  else if scheduleProbes then do
    let sched ← sched.schedule intfVlan vlanHasNeighbor
    pure (sched, true)
  else pure (sched, false)

end

/-! ### A label entry -/

section

variable (monitoredClients : List ClientID) (ecmpWidth : Nat)

/-- A label entry forwarding to next hops is skipped exactly when its best
client is monitored. -/
theorem skipLabelFibEntry_of_nexthops {entry : LabelForwardingEntry} {client : ClientID} {best : RouteNextHopEntry}
    (hnexthops : entry.nexthop.getAction = .NEXTHOPS)
    (hbest : entry.labelNextHopsByClient.getBestEntry = .ok (client, best)) :
    skipLabelFibEntry monitoredClients entry = .ok (isClientMonitored monitoredClients client) := by
  rw [skipLabelFibEntry, hnexthops, hbest]
  rfl

/-- A state delta that adds one label entry forwarding to a next hop, from a
scheduler with no next hop: the next hop is counted and probed exactly when
the entry's best client is not monitored. -/
theorem stateUpdated_skips_monitored_label_entry {entry : LabelForwardingEntry} {client : ClientID}
    {best : RouteNextHopEntry} {nhops : RouteNextHopSet} {nh : NextHop} {intf : InterfaceID} {vlan : Nat}
    {hasNeighbor : IPAddress → Bool}
    (label : MplsLabel) (intfVlan : InterfaceID → Option Nat) (vlanHasNeighbor : Nat → Option (IPAddress → Bool))
    (hnexthops : entry.nexthop.getAction = .NEXTHOPS)
    (hbest : entry.labelNextHopsByClient.getBestEntry = .ok (client, best))
    (hnormalized : entry.nexthop.normalizedNextHops ecmpWidth = .ok nhops) (hone : nhops.elems = [nh])
    (hintf : nh.intfID = some intf)
    (hvlan : intfVlan intf = some vlan) (hneighbors : vlanHasNeighbor vlan = some hasNeighbor) :
    stateUpdated monitoredClients false ecmpWidth intfVlan vlanHasNeighbor
        (⟨[], [], [(label, none, some entry)], []⟩ : MonitorDelta Unit Unit) ResolvedNexthopProbeScheduler.empty =
      if isClientMonitored monitoredClients client then .ok (ResolvedNexthopProbeScheduler.empty, false)
      else .ok (⟨FlatMap.empty.insert (ResolvedNextHop nh.addr intf 0 none) 1,
        FlatMap.empty.insert (ResolvedNextHop nh.addr intf 0 none) !(hasNeighbor nh.addr)⟩, true) := by
  have hskip := skipLabelFibEntry_of_nexthops monitoredClients hnexthops hbest
  have hresolved : resolvedOf nh = .ok (ResolvedNextHop nh.addr intf 0 none) := by
    rw [resolvedOf, hintf]
  by_cases hm : isClientMonitored monitoredClients client = true
  · -- the entry is skipped: nothing is collected and nothing scheduled
    simp [stateUpdated, collectDelta, DeltaFunctions.forEachChanged, processAddedLabelFibEntry, collectNextHops,
      hskip, hm]
    rfl
  · -- the entry's next hop is collected, counted, and its probe scheduled
    have hcollect : collectDelta monitoredClients false ecmpWidth
        (⟨[], [], [(label, none, some entry)], []⟩ : MonitorDelta Unit Unit) ⟨[], []⟩ =
        .ok ⟨[ResolvedNextHop nh.addr intf 0 none], []⟩ := by
      simp [collectDelta, DeltaFunctions.forEachChanged, processAddedLabelFibEntry, collectNextHops, hskip, hm,
        hnormalized, hone, hresolved]
    have hcount : ResolvedNexthopProbeScheduler.empty.processChangedResolvedNexthops
        [ResolvedNextHop nh.addr intf 0 none] [] =
        .ok ⟨FlatMap.empty.insert (ResolvedNextHop nh.addr intf 0 none) 1,
          FlatMap.empty.insert (ResolvedNextHop nh.addr intf 0 none) false⟩ := rfl
    have hvlan' : (ResolvedNextHop nh.addr intf 0 none).intfID.bind intfVlan = some vlan := hvlan
    have hsched : ResolvedNexthopProbeScheduler.schedule intfVlan vlanHasNeighbor
        ⟨FlatMap.empty.insert (ResolvedNextHop nh.addr intf 0 none) 1,
          FlatMap.empty.insert (ResolvedNextHop nh.addr intf 0 none) false⟩ =
        .ok ⟨FlatMap.empty.insert (ResolvedNextHop nh.addr intf 0 none) 1,
          FlatMap.empty.insert (ResolvedNextHop nh.addr intf 0 none) !(hasNeighbor nh.addr)⟩ := by
      have hlist : (FlatMap.empty.insert (ResolvedNextHop nh.addr intf 0 none) 1 : FlatMap NextHop Nat).toList =
          [(ResolvedNextHop nh.addr intf 0 none, 1)] := rfl
      -- setting the probe of the one next hop gives the map with that probe
      have hprobe : (FlatMap.empty.insert (ResolvedNextHop nh.addr intf 0 none) false).set
          (ResolvedNextHop nh.addr intf 0 none) (!hasNeighbor nh.addr) =
          FlatMap.empty.insert (ResolvedNextHop nh.addr intf 0 none) (!hasNeighbor nh.addr) := by
        apply FlatMap.ext_find?
        intro k
        rw [FlatMap.find?_set, FlatMap.find?_insert, FlatMap.find?_insert]
        by_cases hk : k = ResolvedNextHop nh.addr intf 0 none <;> simp [hk]
      rw [ResolvedNexthopProbeScheduler.schedule, hlist]
      simp only [List.foldlM_cons, List.foldlM_nil, hvlan', hneighbors, Except.ok_bind]
      rw [show (ResolvedNextHop nh.addr intf 0 none).addr = nh.addr from rfl, hprobe]
      rfl
    rw [stateUpdated, hcollect, Except.ok_bind, if_neg hm]
    simp only [List.isEmpty_cons, Bool.not_false, Bool.true_or, if_true, hcount, Except.ok_bind, hsched]
    rfl

end

/-- A label entry of `OPENR`, the client monitored by default, forwarding to
`10.0.0.1` through interface 1 with weight 0, and the default ECMP width of
64: a delta that adds it collects nothing, and no probe is scheduled. The
normalization gives the next hop weight 1. -/
theorem stateUpdated_skips_openr_label_entry :
    stateUpdated [ClientID.OPENR] false 64
        (fun i => if i = 1 then some 1 else none) (fun _ => some fun _ => false)
        (⟨[], [], [(100, none, some ⟨100,
          RouteNextHopEntry.ofNextHops (FlatSet.ofList [ResolvedNextHop (.v4 0x0a000001#32) 1 0 none]) 10,
          (RouteNextHopsMulti.empty 0).update ClientID.OPENR
            (RouteNextHopEntry.ofNextHops (FlatSet.ofList [ResolvedNextHop (.v4 0x0a000001#32) 1 0 none]) 10)⟩)],
          []⟩ : MonitorDelta Unit Unit) ResolvedNexthopProbeScheduler.empty =
      .ok (ResolvedNexthopProbeScheduler.empty, false) := by
  have h := @stateUpdated_skips_monitored_label_entry [ClientID.OPENR] 64
    ⟨100, RouteNextHopEntry.ofNextHops (FlatSet.ofList [ResolvedNextHop (.v4 0x0a000001#32) 1 0 none]) 10,
      (RouteNextHopsMulti.empty 0).update ClientID.OPENR
        (RouteNextHopEntry.ofNextHops (FlatSet.ofList [ResolvedNextHop (.v4 0x0a000001#32) 1 0 none]) 10)⟩
    ClientID.OPENR (RouteNextHopEntry.ofNextHops (FlatSet.ofList [ResolvedNextHop (.v4 0x0a000001#32) 1 0 none]) 10)
    (FlatSet.ofList [ResolvedNextHop (.v4 0x0a000001#32) 1 1 none])
    (ResolvedNextHop (.v4 0x0a000001#32) 1 1 none) 1 1 (fun _ => false) 100
    (fun i => if i = 1 then some 1 else none) (fun _ => some fun _ => false) rfl rfl rfl rfl rfl rfl rfl
  rw [h]
  rfl

end ResolvedNexthopMonitor

end Fboss
