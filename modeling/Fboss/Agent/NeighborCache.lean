import Fboss.Lib.FlatMap
import Fboss.Lib.Run
import Fboss.State.Neighbor
import Fboss.Lib.ExceptSpec

/-!
# The neighbor cache and the neighbor table

A VLAN's neighbor cache (`NeighborCacheImpl`) keeps an entry for each
neighbor it learnt or is resolving, and programs the VLAN's neighbor table in
the switch state through state updates queued on the switch. The cache changes
at once; the table changes when the queued updates run, in order. Each update
reads the table as it is then: it adds or refreshes an entry, adds a pending
one (replacing an entry only when forced), or removes one, and it does nothing
when the address is no longer on a subnet of the cache's interface.

The model is the cache, the updates it queued that have not run, and the
table. The subnets of the interface are fixed (`isIpAttached`), and the VLAN
exists throughout. A cache entry runs the state machine of
`NeighborCacheEntry`; its timers are not modelled: `processEntry` is the
expiry of an entry's timeout, and the hardware hit bit it reads is given with
the event.

An entry copies `maxNeighborProbes` into its 8-bit `probesLeft_`. An entry
that the hardware keeps using and that gets no reply sends
`maxNeighborProbes % 256` solicitations before it expires
(`make_reachable_probeRun`, `make_stale_probeRun`, `make_incomplete_probeRun`):
44 with the default of 300.
-/

namespace Fboss

/-- `NeighborEntryState`: the state of a cache entry's machine. -/
inductive NeighborEntryState where
  | UNINITIALIZED
  | INCOMPLETE
  | DELAY
  | PROBE
  | STALE
  | REACHABLE
  | EXPIRED
  deriving DecidableEq, Repr

/-- `NeighborCacheEntry`: the fields it programs, the state of its machine,
and the probes it has left. -/
structure NeighborCacheEntry where
  fields : NeighborEntry
  state : NeighborEntryState
  probesLeft : UInt8
  deriving DecidableEq, Repr

namespace NeighborCacheEntry

/-- `fieldsMatch(fields)`: all but the class. -/
def fieldsMatch (e : NeighborCacheEntry) (fields : NeighborEntry) : Bool :=
  e.fields.ip == fields.ip && e.fields.mac == fields.mac &&
    e.fields.interfaceID == fields.interfaceID && e.fields.port == fields.port &&
    e.fields.state == fields.state

/-- `probeIfProbesLeft()`: a probe is sent, or the entry expires. -/
def probeIfProbesLeft (e : NeighborCacheEntry) : NeighborCacheEntry :=
  if e.probesLeft > 0 then { e with probesLeft := e.probesLeft - 1 }
  else { e with state := .EXPIRED }

/-- `probeStaleEntryIfHit()`: a stale entry the hardware used is probed. -/
def probeStaleEntryIfHit (e : NeighborCacheEntry) (isHit : Bool) : NeighborCacheEntry :=
  if isHit then probeIfProbesLeft { e with state := .PROBE } else e

/-- `runStateMachine()`. -/
def runStateMachine (e : NeighborCacheEntry) (isHit : Bool) : Except String NeighborCacheEntry :=
  match e.state with
  | .INCOMPLETE | .PROBE => pure e.probeIfProbesLeft
  | .STALE => pure (e.probeStaleEntryIfHit isHit)
  | .REACHABLE => pure ({ e with state := .STALE }.probeStaleEntryIfHit isHit)
  | .EXPIRED | .DELAY | .UNINITIALIZED => throw "Found NeighborCacheEntry with invalid state"

/-- `enter(state)`: an entry is only ever entered incomplete, reachable or
stale, and a stale one runs its machine at once. -/
def enter (e : NeighborCacheEntry) (maxNeighborProbes : UInt32) (state : NeighborEntryState)
    (isHit : Bool) : Except String NeighborCacheEntry :=
  let e := { e with state }
  match state with
  | .INCOMPLETE => pure { e with probesLeft := (maxNeighborProbes - 1).toUInt8 }
  | .REACHABLE => pure { e with probesLeft := maxNeighborProbes.toUInt8 }
  | .STALE => { e with probesLeft := maxNeighborProbes.toUInt8 }.runStateMachine isHit
  | .PROBE | .DELAY | .UNINITIALIZED | .EXPIRED => throw "Tried to create entry with invalid state"

/-- The constructor: a new entry with all its probes, entered in `state`. -/
def make (fields : NeighborEntry) (maxNeighborProbes : UInt32) (state : NeighborEntryState)
    (isHit : Bool) : Except String NeighborCacheEntry :=
  enter ⟨fields, .UNINITIALIZED, maxNeighborProbes.toUInt8⟩ maxNeighborProbes state isHit

end NeighborCacheEntry

/-- A VLAN's neighbor cache: the interface its entries are on, the probes an
entry may send, and the entries by address. -/
structure NeighborCache where
  intfID : InterfaceID
  maxNeighborProbes : UInt32
  entries : FlatMap IPAddress NeighborCacheEntry

/-- A state update of the VLAN's neighbor table: the new table, or `none`
for `nullptr`. -/
abbrev TableUpdate := NeighborTable → Option NeighborTable

/-- The cache, the state updates it queued that have not run yet, in order,
and the VLAN's neighbor table. -/
structure CacheAndTable where
  cache : NeighborCache
  updates : List TableUpdate
  table : NeighborTable

namespace NeighborCache

section Updates

-- whether an address is on a subnet of an interface (`Interface::isIpAttached`)
variable (isIpAttached : IPAddress → InterfaceID → Bool)

/-- The state update of `programEntry()`: the entry is added, or an entry
that differs from it (or is pending) is refreshed; `updateEntry` makes it
reachable and takes the class of the cache entry. -/
def programEntryFn (fields : NeighborEntry) : TableUpdate := fun table =>
  if !isIpAttached fields.ip fields.interfaceID then none
  else
    match table.find? fields.ip with
    | none => some (table.insert fields.ip { fields with classID := none })
    | some node =>
      if node.mac == fields.mac && node.port == fields.port &&
          node.interfaceID == fields.interfaceID && node.state == fields.state &&
          !node.isPending then
        -- already updated while the update waited
        none
      else
        some (table.assign fields.ip
          { node with mac := fields.mac, port := fields.port, interfaceID := fields.interfaceID,
                      state := .REACHABLE, classID := fields.classID })

/-- The state update of `programPendingEntry(entry, force)`: a pending entry
is added; an existing entry is replaced only when forced. -/
def programPendingEntryFn (fields : NeighborEntry) (force : Bool) : TableUpdate := fun table =>
  if !isIpAttached fields.ip fields.interfaceID then none
  else
    match table.find? fields.ip with
    | some _ =>
      if !force then none
      else some ((table.erase fields.ip).insert fields.ip
        (NeighborEntry.pending fields.ip fields.interfaceID))
    | none => some (table.insert fields.ip (NeighborEntry.pending fields.ip fields.interfaceID))

end Updates

/-- The state update of `flushEntry()`: the entry is removed, if there is
one (`flushEntryFromSwitchState`). -/
def flushEntryFn (ip : IPAddress) : TableUpdate := fun table =>
  match table.find? ip with
  | some _ => some (table.erase ip)
  | none => none

/-- `setEntryInternal(fields, state, add)`: an existing entry takes the new
fields and is entered in `state`; a missing one is created when `add`. The
fields to program come back when the entry is new or its fields changed. -/
def setEntryInternal (cache : NeighborCache) (fields : NeighborEntry) (state : NeighborEntryState)
    (add : Bool) (isHit : Bool) : Except String (NeighborCache × Option NeighborEntry) :=
  match cache.entries.find? fields.ip with
  | some entry => do
    let changed := !entry.fieldsMatch fields
    let entry := if changed then { entry with fields } else entry
    let entry ← entry.enter cache.maxNeighborProbes state isHit
    pure ({ cache with entries := cache.entries.set fields.ip entry },
      if changed then some entry.fields else none)
  | none =>
    if add then do
      let entry ← NeighborCacheEntry.make fields cache.maxNeighborProbes state isHit
      pure ({ cache with entries := cache.entries.set fields.ip entry }, some entry.fields)
    else pure (cache, none)

end NeighborCache

namespace CacheAndTable

section Calls

variable (isIpAttached : IPAddress → InterfaceID → Bool)

/-- `programEntry()`: its update is queued (`updateState`). -/
def programEntry (s : CacheAndTable) (fields : NeighborEntry) : CacheAndTable :=
  { s with updates := s.updates ++ [NeighborCache.programEntryFn isIpAttached fields] }

/-- `programPendingEntry()`: its update is queued (`updateStateNoCoalescing`). -/
def programPendingEntry (s : CacheAndTable) (fields : NeighborEntry) (force : Bool) :
    CacheAndTable :=
  { s with updates := s.updates ++ [NeighborCache.programPendingEntryFn isIpAttached fields force] }

/-- `setEntry(ip, mac, port, state)`: reachable fields on the cache's
interface. -/
def setEntry (s : CacheAndTable) (ip : IPAddress) (mac : MacAddress) (port : PortDescriptor)
    (state : NeighborEntryState) (isHit : Bool) : Except String CacheAndTable := do
  let r ← NeighborCache.setEntryInternal s.cache ⟨ip, mac, port, s.cache.intfID, .REACHABLE, none⟩
    state true isHit
  let s := { s with cache := r.1 }
  match r.2 with
  | some fields => pure (programEntry isIpAttached s fields)
  | none => pure s

/-- `setExistingEntry(ip, mac, port, state)`: as `setEntry`, for an entry the
cache has. -/
def setExistingEntry (s : CacheAndTable) (ip : IPAddress) (mac : MacAddress)
    (port : PortDescriptor) (state : NeighborEntryState) (isHit : Bool) :
    Except String CacheAndTable := do
  let r ← NeighborCache.setEntryInternal s.cache ⟨ip, mac, port, s.cache.intfID, .REACHABLE, none⟩
    state false isHit
  let s := { s with cache := r.1 }
  match r.2 with
  | some fields => pure (programEntry isIpAttached s fields)
  | none => pure s

/-- `setPendingEntry(ip, force)`: an entry the cache has is overwritten only
when forced. -/
def setPendingEntry (s : CacheAndTable) (ip : IPAddress) (force : Bool) :
    Except String CacheAndTable :=
  if !force && (s.cache.entries.find? ip).isSome then pure s
  else do
    let r ← NeighborCache.setEntryInternal s.cache (NeighborEntry.pending ip s.cache.intfID)
      .INCOMPLETE true false
    let s := { s with cache := r.1 }
    match r.2 with
    | some fields => pure (programPendingEntry isIpAttached s fields force)
    | none => pure s

end Calls

/-- `updateEntryState(ip, state)`: only the entry's machine changes. -/
def updateEntryState (s : CacheAndTable) (ip : IPAddress) (state : NeighborEntryState)
    (isHit : Bool) : Except String CacheAndTable :=
  match s.cache.entries.find? ip with
  | some entry => do
    let entry ← entry.enter s.cache.maxNeighborProbes state isHit
    pure { s with cache := { s.cache with entries := s.cache.entries.set ip entry } }
  | none => pure s

/-- `flushEntry(ip)`: the entry leaves the cache, and its removal from the
table is queued. -/
def flushEntry (s : CacheAndTable) (ip : IPAddress) : CacheAndTable :=
  match s.cache.entries.find? ip with
  | some _ =>
    { s with
      cache := { s.cache with entries := s.cache.entries.erase ip }
      updates := s.updates ++ [NeighborCache.flushEntryFn ip] }
  | none => s

/-- `processEntry(ip)`, when the entry's timeout fires: its machine runs, and
an entry that expired is flushed. -/
def processEntry (s : CacheAndTable) (ip : IPAddress) (isHit : Bool) :
    Except String CacheAndTable :=
  match s.cache.entries.find? ip with
  | some entry => do
    let entry ← entry.runStateMachine isHit
    let s := { s with cache := { s.cache with entries := s.cache.entries.set ip entry } }
    if entry.state == .EXPIRED then pure (s.flushEntry ip) else pure s
  | none => pure s

/-- `portDown(port)`: every entry on the port is made pending, forced. -/
def portDown (isIpAttached : IPAddress → InterfaceID → Bool) (s : CacheAndTable)
    (port : PortDescriptor) : Except String CacheAndTable :=
  (s.cache.entries.toList.filter fun e => e.2.fields.port == port).foldlM
    (fun s e => setPendingEntry isIpAttached s e.2.fields.ip true) s

/-- The switch runs the update at the front of the queue. -/
def runUpdate (s : CacheAndTable) : CacheAndTable :=
  match s.updates with
  | [] => s
  | f :: fs => { s with updates := fs, table := (f s.table).getD s.table }

end CacheAndTable

/-- What happens to a cache and its table: a call of the cache (with the
hardware hit bit the machine may read), or the switch running the next queued
update. -/
inductive NeighborCacheEvent where
  | setEntry (ip : IPAddress) (mac : MacAddress) (port : PortDescriptor)
      (state : NeighborEntryState) (isHit : Bool)
  | setExistingEntry (ip : IPAddress) (mac : MacAddress) (port : PortDescriptor)
      (state : NeighborEntryState) (isHit : Bool)
  | setPendingEntry (ip : IPAddress) (force : Bool)
  | updateEntryState (ip : IPAddress) (state : NeighborEntryState) (isHit : Bool)
  | processEntry (ip : IPAddress) (isHit : Bool)
  | flushEntry (ip : IPAddress)
  | portDown (port : PortDescriptor)
  | runUpdate
  deriving DecidableEq, Repr

namespace CacheAndTable

/-- One event. A call that throws leaves the cache and the queue as they were
before it. -/
def step (isIpAttached : IPAddress → InterfaceID → Bool) (s : CacheAndTable) :
    NeighborCacheEvent → CacheAndTable
  | .setEntry ip mac port state isHit =>
    (setEntry isIpAttached s ip mac port state isHit).toOption.getD s
  | .setExistingEntry ip mac port state isHit =>
    (setExistingEntry isIpAttached s ip mac port state isHit).toOption.getD s
  | .setPendingEntry ip force => (setPendingEntry isIpAttached s ip force).toOption.getD s
  | .updateEntryState ip state isHit => (updateEntryState s ip state isHit).toOption.getD s
  | .processEntry ip isHit => (processEntry s ip isHit).toOption.getD s
  | .flushEntry ip => s.flushEntry ip
  | .portDown port => (portDown isIpAttached s port).toOption.getD s
  | .runUpdate => s.runUpdate

/-- An empty cache of an interface and an empty table. -/
def empty (intfID : InterfaceID) (maxNeighborProbes : UInt32) : CacheAndTable :=
  ⟨⟨intfID, maxNeighborProbes, FlatMap.empty⟩, [], FlatMap.empty⟩

/-- An ARP reply to the switch from a sender off the interface's subnets
(10.1.0.5 on an interface with 10.0.0.0/24): `receivedArpMine` sets the entry
in the cache, but the queued update finds the address not attached and does
nothing. Once the queue has drained, the cache holds the address and the table
does not. -/
theorem cache_holds_unattached_address :
    let isIpAttached : IPAddress → InterfaceID → Bool := fun ip intf =>
      intf == 1 && match ip with
        | .v4 a => a >>> 8 == 0x0a0000#32
        | .v6 _ => false
    let sender : IPAddress := .v4 0x0a010005#32
    let s := Run.run (CacheAndTable.step isIpAttached) (CacheAndTable.empty 1 3)
      [.setEntry sender 0x020000000001#48 (.physical 1) .REACHABLE false, .runUpdate]
    s.updates.isEmpty = true ∧ (s.cache.entries.find? sender).isSome = true ∧
      s.table.find? sender = none := by
  decide +kernel

end CacheAndTable

/-! ### The probe budget

An entry whose hardware hit bit stays set and that gets no reply is probed on
each expiry of its timer until it has no probes left, and it then expires.
The probes it has are `maxNeighborProbes`, a `uint32_t`, copied into the
`uint8_t probesLeft_`: it sends `maxNeighborProbes % 256` of them. -/

namespace NeighborCacheEntry

/-- The solicitations `runStateMachine()` sends: `probeIfProbesLeft()` sends
one when it has probes left, `probeFor` for an incomplete entry and
`checkReachability` for one being probed. -/
def solicitations (e : NeighborCacheEntry) (isHit : Bool) : Nat :=
  match e.state with
  | .INCOMPLETE | .PROBE => if e.probesLeft > 0 then 1 else 0
  | .STALE | .REACHABLE => if isHit && e.probesLeft > 0 then 1 else 0
  | .EXPIRED | .DELAY | .UNINITIALIZED => 0

/-- The `process()` calls of an entry's timer while its hit bit is set: each
runs the machine, until the entry expires and `processEntry` flushes it. At
most `fuel` calls; the entry, the calls and the solicitations sent. -/
def probeRun : Nat → NeighborCacheEntry → Except String (NeighborCacheEntry × Nat × Nat)
  | 0, e => .ok (e, 0, 0)
  | fuel + 1, e =>
    if e.state = .EXPIRED then .ok (e, 0, 0)
    else do
      let e' ← e.runStateMachine true
      let r ← probeRun fuel e'
      pure (r.1, r.2.1 + 1, r.2.2 + e.solicitations true)

theorem probeRun_expired (fuel : Nat) (fields : NeighborEntry) (p : UInt8) :
    probeRun fuel ⟨fields, .EXPIRED, p⟩ = .ok (⟨fields, .EXPIRED, p⟩, 0, 0) := by
  cases fuel <;> rfl

/-- An entry being probed, with `n` probes left, sends them all, one on each
call, and expires on the call after. -/
theorem probeRun_probing (fields : NeighborEntry) {state : NeighborEntryState}
    (hs : state = .INCOMPLETE ∨ state = .PROBE) :
    ∀ (n : Nat) (p : UInt8) (fuel : Nat), p.toNat = n → n + 1 ≤ fuel →
      probeRun fuel ⟨fields, state, p⟩ = .ok (⟨fields, .EXPIRED, 0⟩, n + 1, n) := by
  have hne : state ≠ .EXPIRED := by rcases hs with rfl | rfl <;> decide
  have hrun : ∀ e : NeighborCacheEntry, e.state = state →
      e.runStateMachine true = .ok e.probeIfProbesLeft := by
    intro e he
    rcases hs with rfl | rfl <;> simp [runStateMachine, he] <;> rfl
  -- induction on the probes left
  intro n
  induction n with
  | zero =>
    intro p fuel hp hfuel
    obtain ⟨fuel, rfl⟩ : ∃ f, fuel = f + 1 := ⟨fuel - 1, by omega⟩
    have hp0 : p = 0 := UInt8.toNat_inj.mp hp
    subst hp0
    have hsol : solicitations ⟨fields, state, 0⟩ true = 0 := by
      rcases hs with rfl | rfl <;> rfl
    have hnone : ¬ (0 : UInt8) > 0 := by decide
    rw [probeRun, if_neg hne, hrun _ rfl, Except.ok_bind]
    simp only [probeIfProbesLeft, hnone, if_false]
    rw [probeRun_expired, Except.ok_bind, hsol]
    rfl
  | succ n ih =>
    intro p fuel hp hfuel
    obtain ⟨fuel, rfl⟩ : ∃ f, fuel = f + 1 := ⟨fuel - 1, by omega⟩
    have hpos : p > 0 := by
      rw [gt_iff_lt, UInt8.lt_iff_toNat_lt]
      simp only [UInt8.toNat_zero]
      omega
    have hsol : solicitations ⟨fields, state, p⟩ true = 1 := by
      rcases hs with rfl | rfl <;> simp [solicitations, hpos]
    have hdec : (p - 1).toNat = n := by
      rw [UInt8.toNat_sub_of_le _ _ (by rw [UInt8.le_iff_toNat_le]; simp; omega)]
      simp only [UInt8.toNat_one]
      omega
    rw [probeRun, if_neg hne, hrun _ rfl, Except.ok_bind]
    simp only [probeIfProbesLeft, hpos, if_true]
    rw [ih (p - 1) fuel hdec (by omega), Except.ok_bind, hsol]
    rfl

/-- A reachable entry with `p` probes goes stale on the first call, is probed
at once since it was hit, and so sends its `p` probes in `p + 1` calls. -/
theorem probeRun_reachable (fields : NeighborEntry) (p : UInt8) (fuel : Nat) (hfuel : p.toNat + 1 ≤ fuel) :
    probeRun fuel ⟨fields, .REACHABLE, p⟩ = .ok (⟨fields, .EXPIRED, 0⟩, p.toNat + 1, p.toNat) := by
  obtain ⟨fuel, rfl⟩ : ∃ f, fuel = f + 1 := ⟨fuel - 1, by omega⟩
  rw [probeRun, if_neg (by simp)]
  simp only [runStateMachine, probeStaleEntryIfHit, if_true]
  by_cases hpos : p > 0
  · -- the first probe, then the others as a probed entry
    have hp1 : 1 ≤ p.toNat := by
      rw [gt_iff_lt, UInt8.lt_iff_toNat_lt] at hpos
      simp only [UInt8.toNat_zero] at hpos
      omega
    have hdec : (p - 1).toNat = p.toNat - 1 := by
      rw [UInt8.toNat_sub_of_le _ _ (by rw [UInt8.le_iff_toNat_le]; simpa using hp1)]
      simp
    have hsol : solicitations ⟨fields, .REACHABLE, p⟩ true = 1 := by
      simp [solicitations, hpos]
    simp only [probeIfProbesLeft, hpos, if_true]
    rw [pure_bind, probeRun_probing fields (Or.inr rfl) (p.toNat - 1) (p - 1) fuel hdec (by omega)]
    simp only [hsol, Except.ok_bind, pure]
    congr 3 <;> omega
  · have hp0 : p = 0 := by simpa using hpos
    subst hp0
    simp [probeIfProbesLeft, probeRun_expired, solicitations]

theorem toNat_toUInt8 (maxNeighborProbes : UInt32) :
    maxNeighborProbes.toUInt8.toNat = maxNeighborProbes.toNat % 256 :=
  UInt32.toNat_toUInt8 maxNeighborProbes

/-- An entry entered reachable, whose hit bit stays set and that gets no
reply, sends `maxNeighborProbes % 256` solicitations, one call more, and then
expires; no call throws. -/
theorem make_reachable_probeRun (fields : NeighborEntry) (maxNeighborProbes : UInt32) (fuel : Nat)
    (hfuel : maxNeighborProbes.toNat % 256 + 1 ≤ fuel) :
    (make fields maxNeighborProbes .REACHABLE true >>= probeRun fuel) =
      .ok (⟨fields, .EXPIRED, 0⟩, maxNeighborProbes.toNat % 256 + 1, maxNeighborProbes.toNat % 256) := by
  rw [← toNat_toUInt8] at hfuel ⊢
  exact probeRun_reachable fields _ fuel hfuel

/-- An entry entered stale and hit is probed as it is entered; with the
solicitations of the calls after, it sends `maxNeighborProbes % 256`. -/
theorem make_stale_probeRun (fields : NeighborEntry) (maxNeighborProbes : UInt32) (fuel : Nat)
    (hfuel : maxNeighborProbes.toNat % 256 ≤ fuel) :
    ∃ calls sent, (make fields maxNeighborProbes .STALE true >>= probeRun fuel) =
        .ok (⟨fields, .EXPIRED, 0⟩, calls, sent) ∧
      solicitations ⟨fields, .STALE, maxNeighborProbes.toUInt8⟩ true + sent = maxNeighborProbes.toNat % 256 := by
  rw [← toNat_toUInt8] at hfuel ⊢
  -- `enter` runs the machine at once: the first probe, or the entry expires
  by_cases hpos : maxNeighborProbes.toUInt8 > 0
  · have hp1 : 1 ≤ maxNeighborProbes.toUInt8.toNat := by
      rw [gt_iff_lt, UInt8.lt_iff_toNat_lt] at hpos
      simp only [UInt8.toNat_zero] at hpos
      omega
    have hdec : (maxNeighborProbes.toUInt8 - 1).toNat = maxNeighborProbes.toUInt8.toNat - 1 := by
      rw [UInt8.toNat_sub_of_le _ _ (by rw [UInt8.le_iff_toNat_le]; simpa using hp1)]
      simp
    refine ⟨maxNeighborProbes.toUInt8.toNat - 1 + 1, maxNeighborProbes.toUInt8.toNat - 1, ?_, ?_⟩
    · simp only [make, enter, runStateMachine, probeStaleEntryIfHit, if_true, probeIfProbesLeft, hpos]
      exact probeRun_probing fields (Or.inr rfl) _ _ fuel hdec (by omega)
    · simp only [solicitations, hpos, Bool.true_and, decide_true, if_true]
      omega
  · have hp0 : maxNeighborProbes.toUInt8 = 0 := by simpa using hpos
    refine ⟨0, 0, ?_, by simp [solicitations, hp0]⟩
    simp only [make, enter, runStateMachine, probeStaleEntryIfHit, if_true, probeIfProbesLeft, hp0]
    exact probeRun_expired fuel fields 0

/-- An entry entered incomplete has sent a solicitation already and has
`maxNeighborProbes - 1` probes, modulo 256, for the calls after. -/
theorem make_incomplete_probeRun (fields : NeighborEntry) (maxNeighborProbes : UInt32) (fuel : Nat)
    (hfuel : (maxNeighborProbes - 1).toNat % 256 + 1 ≤ fuel) :
    (make fields maxNeighborProbes .INCOMPLETE true >>= probeRun fuel) =
      .ok (⟨fields, .EXPIRED, 0⟩, (maxNeighborProbes - 1).toNat % 256 + 1, (maxNeighborProbes - 1).toNat % 256) := by
  rw [← toNat_toUInt8] at hfuel ⊢
  exact probeRun_probing fields (Or.inl rfl) _ _ fuel rfl hfuel

/-- Whatever state an entry is entered in with its hit bit set and no reply
coming, its probes all go out, counted modulo 256, and it expires: entered
reachable it sends `maxNeighborProbes % 256` solicitations on the calls after;
entered stale as many, counting the one sent as it is entered; entered
incomplete it has sent one already and sends `(maxNeighborProbes - 1) % 256`
more. -/
theorem make_probeRun_sends_budget (fields : NeighborEntry) (maxNeighborProbes : UInt32) (fuel : Nat)
    (hfuel : maxNeighborProbes.toNat % 256 + 1 ≤ fuel)
    (hfuel' : (maxNeighborProbes - 1).toNat % 256 + 1 ≤ fuel) :
    (make fields maxNeighborProbes .REACHABLE true >>= probeRun fuel) =
        .ok (⟨fields, .EXPIRED, 0⟩, maxNeighborProbes.toNat % 256 + 1, maxNeighborProbes.toNat % 256) ∧
      (∃ calls sent, (make fields maxNeighborProbes .STALE true >>= probeRun fuel) =
          .ok (⟨fields, .EXPIRED, 0⟩, calls, sent) ∧
        solicitations ⟨fields, .STALE, maxNeighborProbes.toUInt8⟩ true + sent = maxNeighborProbes.toNat % 256) ∧
      (make fields maxNeighborProbes .INCOMPLETE true >>= probeRun fuel) =
        .ok (⟨fields, .EXPIRED, 0⟩, (maxNeighborProbes - 1).toNat % 256 + 1, (maxNeighborProbes - 1).toNat % 256) :=
  ⟨make_reachable_probeRun fields maxNeighborProbes fuel hfuel,
    make_stale_probeRun fields maxNeighborProbes fuel (Nat.le_of_succ_le hfuel),
    make_incomplete_probeRun fields maxNeighborProbes fuel hfuel'⟩

/-- Three probes and four calls, for the neighbor `10.0.0.2` on port 1. -/
theorem make_probeRun_sends_budget_three :
    let fields : NeighborEntry := ⟨.v4 0x0a000002#32, 0x020000000002#48, .physical 1, 1, .REACHABLE, none⟩
    (3 : UInt32).toNat % 256 + 1 ≤ 4 ∧ ((3 : UInt32) - 1).toNat % 256 + 1 ≤ 4 ∧
      (make fields 3 .REACHABLE true >>= probeRun 4) = .ok (⟨fields, .EXPIRED, 0⟩, 3 % 256 + 1, 3 % 256) ∧
      (∃ calls sent, (make fields 3 .STALE true >>= probeRun 4) = .ok (⟨fields, .EXPIRED, 0⟩, calls, sent) ∧
        solicitations ⟨fields, .STALE, (3 : UInt32).toUInt8⟩ true + sent = (3 : UInt32).toNat % 256) ∧
      (make fields 3 .INCOMPLETE true >>= probeRun 4) =
        .ok (⟨fields, .EXPIRED, 0⟩, ((3 : UInt32) - 1).toNat % 256 + 1, ((3 : UInt32) - 1).toNat % 256) :=
  ⟨by decide, by decide, make_probeRun_sends_budget _ 3 4 (by decide) (by decide)⟩

/-- With the default `maxNeighborProbes` of 300, an entry entered reachable
whose hit bit stays set sends 44 solicitations, not 300, and expires on the
45th call. -/
theorem default_probe_budget_sends_44 (fields : NeighborEntry) :
    (make fields 300 .REACHABLE true >>= probeRun 301) = .ok (⟨fields, .EXPIRED, 0⟩, 45, 44) :=
  make_reachable_probeRun fields 300 301 (by decide)

end NeighborCacheEntry

end Fboss
