import Fboss.Lib.Dynamic
import Fboss.Lib.ExceptSpec
import Fboss.Sai.Managers

/-!
# Routes in the warm boot state file

At a warm boot the agent writes its switch state out as `folly::dynamic` and
reads it back when it starts again. A route (`state/Route.cpp`) is written as
its prefix, its client entries (`RouteNextHopsMulti`, under `rib`), its
forwarding information and its flag word; an entry as its action, its next
hops and its admin distance; a next hop as its address, its weight in decimal
text, its interface if it has one and its label forwarding action if it has
one. The address text is folly's (`IPAddress::str` and the `IPAddress`
constructor): the model takes both as parameters, and the lemmas that read an
address back assume that its text reads back as it.

Each part is read back as it was written, within the ranges of the integer
types the code casts through: weights below `2 ^ 63` (their text is read by
`asInt()`), interfaces that fit `uint32_t`, admin distances, client ids and
labels that fit `int32_t`, masks that fit `uint8_t`, and label forwarding
actions that their constructors build (`nextHopFromFollyDynamic_toFollyDynamic`,
`RouteNextHopEntry.fromFollyDynamic_toFollyDynamic`). A weight of `2 ^ 63` or
more makes the read throw (`nextHopFromFollyDynamic_of_overflow`).

The client entries are rebuilt by replaying `update` over the fields of the
written object, in the order of its hash map, into a `RouteNextHopsMulti`
whose cached client is uninitialised. The map comes back as it was, and the
cached client is one of lowest admin distance in whatever order the fields
are visited (`RouteNextHopsMulti.fromFollyDynamic_toFollyDynamic`). A route
whose cached client is not of lowest distance, as `update` leaves one after
raising that client's distance, comes back with another best entry.
-/

namespace Fboss

open Except

/-- A value that fits `int32_t`. -/
def InInt32 (i : Int) : Prop :=
  -2 ^ 31 ≤ i ∧ i < 2 ^ 31

instance (i : Int) : Decidable (InInt32 i) :=
  inferInstanceAs (Decidable (-2 ^ 31 ≤ i ∧ i < 2 ^ 31))

/-- `static_cast<int32_t>` of an integer, as an enumeration or an `int` takes
a wider value. -/
def castInt32 (i : Int) : Int :=
  toInt32 (toUInt32 i)

theorem castInt32_of_inInt32 {i : Int} (h : InInt32 i) : castInt32 i = i := by
  unfold castInt32 toInt32 toUInt32
  unfold InInt32 at h
  omega

theorem inInt32_castInt32 (i : Int) : InInt32 (castInt32 i) := by
  unfold castInt32 toInt32 toUInt32 InInt32
  omega

namespace MplsActionCode

/-- `static_cast<LabelForwardingType>` of a thrift value. A value out of the
enumeration is not modelled: every constructor of `LabelForwardingAction`
rejects it. -/
def ofInt? (i : Int) : Option MplsActionCode :=
  [PUSH, SWAP, PHP, POP_AND_LOOKUP, NOOP].find? fun c => (c.toNat : Int) = i

@[simp] theorem ofInt?_toNat (c : MplsActionCode) : ofInt? c.toNat = some c := by
  cases c <;> rfl

end MplsActionCode

namespace LabelForwardingAction

/-- `LabelForwardingAction(type, swapWith)`, for `SWAP` only. -/
def ofSwapWith (type : MplsActionCode) (swapWith : MplsLabel) : Except String LabelForwardingAction :=
  if type = .SWAP then .ok ⟨type, some swapWith, none⟩
  else .error "Invalid Label Forwarding Action: label to swap with is not valid for label forwarding type"

/-- `LabelForwardingAction(type, pushStack)`, for `PUSH` and a stack that is
not empty. -/
def ofPushStack (type : MplsActionCode) (pushStack : List MplsLabel) :
    Except String LabelForwardingAction :=
  if type = .PUSH ∧ pushStack ≠ [] then .ok ⟨type, none, some pushStack⟩
  else
    .error "Invalid Label Forwarding Action: either label stack to push is missing or label stack is provided"

/-- `LabelForwardingAction(type)`, for the types that take no label. -/
def ofType (type : MplsActionCode) : Except String LabelForwardingAction :=
  if type = .POP_AND_LOOKUP ∨ type = .PHP ∨ type = .NOOP then .ok ⟨type, none, none⟩
  else .error "Invalid Label Forwarding Action: required attributes missing for label forwarding type"

/-- An action that one of the constructors builds, with labels that fit
`int32_t`. -/
def IsStorable (a : LabelForwardingAction) : Prop :=
  (a.type = .SWAP ∧ a.pushStack = none ∧ ∃ l, a.swapWith = some l ∧ InInt32 l) ∨
  (a.type = .PUSH ∧ a.swapWith = none ∧
    ∃ s, a.pushStack = some s ∧ s ≠ [] ∧ ∀ l ∈ s, InInt32 l) ∨
  ((a.type = .POP_AND_LOOKUP ∨ a.type = .PHP ∨ a.type = .NOOP) ∧
    a.swapWith = none ∧ a.pushStack = none)

/-- `toFollyDynamic`. -/
def toFollyDynamic (a : LabelForwardingAction) : Folly.Dynamic :=
  -- the parts carry their types, so that the appends elaborate without search
  .object (([("type", .int a.type.toNat)] : List (String × Folly.Dynamic)) ++
    (a.swapWith.map fun (l : MplsLabel) => (("swapWith", .int l) : String × Folly.Dynamic)).toList ++
    (a.pushStack.map fun s => (("pushStack", .array (s.map .int)) : String × Folly.Dynamic)).toList)

/-- The labels of a `pushStack` array, each cast to `Label`. -/
def labelsFromFollyDynamic (labels : List Folly.Dynamic) : Except String (List MplsLabel) :=
  labels.mapM fun label => castInt32 <$> label.asInt

/-- `fromFollyDynamic`: the constructor for a label to swap with, else for a
stack to push, else for the type alone. -/
def fromFollyDynamic (json : Folly.Dynamic) : Except String LabelForwardingAction := do
  let code ← (← json.get "type").asInt
  match MplsActionCode.ofInt? code with
  | none => throw "Invalid Label Forwarding Action"
  | some type =>
    match json.find "swapWith", json.find "pushStack" with
    | some swapWith, _ => do ofSwapWith type (castInt32 (← swapWith.asInt))
    | none, some pushStack => do ofPushStack type (← labelsFromFollyDynamic (← pushStack.elems))
    | none, none => ofType type

end LabelForwardingAction

section Codec

variable (str : IPAddress → String) (ofStr : String → Except String IPAddress)

/-- `NextHop::toFollyDynamic`. -/
def NextHop.toFollyDynamic (nh : NextHop) : Folly.Dynamic :=
  .object (([("nexthop", .string (str nh.addr)), ("weight", .string (toString nh.weight))] :
      List (String × Folly.Dynamic)) ++
    (nh.intfID.map fun (intf : InterfaceID) => (("interface", .int intf) : String × Folly.Dynamic)).toList ++
    (nh.labelForwardingAction.map fun a => ("label_forwarding_action", a.toFollyDynamic)).toList)

/-- The label forwarding action of a next hop, if its object has one. -/
def labelActionFromFollyDynamic : Option Folly.Dynamic → Except String (Option LabelForwardingAction)
  | some labelAction => some <$> LabelForwardingAction.fromFollyDynamic labelAction
  | none => pure none

/-- The weight of a next hop: the ECMP weight when its object has none, else
its text read by `asInt()` and converted to `uint64_t`. -/
def weightFromFollyDynamic : Option Folly.Dynamic → Except String NextHopWeight
  | some weight => toUInt64 <$> weight.asInt
  | none => pure ECMP_WEIGHT

/-- `util::nextHopFromFollyDynamic`: resolved if the object has an interface,
which must fit `uint32_t`. -/
def nextHopFromFollyDynamic (nhopJson : Folly.Dynamic) : Except String NextHop := do
  let address ← ofStr (← (← nhopJson.get "nexthop").asString)
  let action ← labelActionFromFollyDynamic (nhopJson.find "label_forwarding_action")
  let weight ← weightFromFollyDynamic (nhopJson.find "weight")
  match nhopJson.find "interface" with
  | some intf => do
    let stored ← intf.asInt
    if stored < 0 ∨ 2 ^ 32 - 1 < stored then throw "stored InterfaceID exceeds uint32_t limit"
    else pure (ResolvedNextHop address stored.toNat weight action)
  | none => pure (UnresolvedNextHop address weight action)

/-- `forwardActionStr`. -/
def forwardActionStr : RouteForwardAction → String
  | .DROP => "Drop"
  | .TO_CPU => "ToCPU"
  | .NEXTHOPS => "Nexthops"

/-- `str2ForwardAction`, whose `CHECK` fails on any other text. -/
def str2ForwardAction (action : String) : Except String RouteForwardAction :=
  if action = "Drop" then .ok .DROP
  else if action = "ToCPU" then .ok .TO_CPU
  else if action = "Nexthops" then .ok .NEXTHOPS
  else .error "Check failed: action == kNexthops"

/-- `RouteNextHopEntry::toFollyDynamic`: the admin distance is cast to
`int32_t`. -/
def RouteNextHopEntry.toFollyDynamic (e : RouteNextHopEntry) : Folly.Dynamic :=
  .object [("action", .string (forwardActionStr e.getAction)),
    ("nexthops", .array (e.getNextHopSet.elems.map (NextHop.toFollyDynamic str))),
    ("adminDistance", .int (castInt32 e.getAdminDistance))]

/-- The admin distance of an entry: `MAX_ADMIN_DISTANCE` when its object has
none, else the value read, as an `AdminDistance`. -/
def adminDistanceFromFollyDynamic : Option Folly.Dynamic → Except String AdminDistance
  | some adminDistance => castInt32 <$> adminDistance.asInt
  | none => pure AdminDistance.MAX_ADMIN_DISTANCE

/-- One turn of the loop of `RouteNextHopEntry::fromFollyDynamic`: a next hop
read and inserted. -/
def insertNextHopFromFollyDynamic (nhopSet : RouteNextHopSet) (nhop : Folly.Dynamic) :
    Except String RouteNextHopSet :=
  nhopSet.emplace <$> nextHopFromFollyDynamic ofStr nhop

/-- `RouteNextHopEntry::fromFollyDynamic`. -/
def RouteNextHopEntry.fromFollyDynamic (entryJson : Folly.Dynamic) : Except String RouteNextHopEntry := do
  let action ← str2ForwardAction (← (← entryJson.get "action").asString)
  let adminDistance ← adminDistanceFromFollyDynamic (entryJson.find "adminDistance")
  let nhops ← (← entryJson.get "nexthops").elems
  let nhopSet ← nhops.foldlM (insertNextHopFromFollyDynamic ofStr) FlatSet.empty
  pure ⟨adminDistance, action, nhopSet⟩

/-- The field of a client: named by its id cast to `int`, in decimal, and
holding its entry. -/
def clientEntryToFollyDynamic (row : ClientID × RouteNextHopEntry) : String × Folly.Dynamic :=
  (toString (castInt32 row.1), RouteNextHopEntry.toFollyDynamic str row.2)

/-- `RouteNextHopsMulti::toFollyDynamic`: an object with a field per client. -/
def RouteNextHopsMulti.toFollyDynamic (s : RouteNextHopsMulti) : Folly.Dynamic :=
  .object (s.map.toList.map (clientEntryToFollyDynamic str))

/-- One turn of the loop of `RouteNextHopsMulti::fromFollyDynamic`: the client
id read from the field's name, its entry read, and `update`. -/
def updateFromFollyDynamic (nh : RouteNextHopsMulti) (pair : String × Folly.Dynamic) :
    Except String RouteNextHopsMulti := do
  let clientId ← (Folly.Dynamic.string pair.1).asInt
  let entry ← RouteNextHopEntry.fromFollyDynamic ofStr pair.2
  pure (nh.update (castInt32 clientId) entry)

/-- `RouteNextHopsMulti::fromFollyDynamic`: `update` replayed over the fields
in the order `order` of the hash map, from a `RouteNextHopsMulti` whose cached
client holds whatever it held, `lowest`. -/
def RouteNextHopsMulti.fromFollyDynamic
    (order : List (String × Folly.Dynamic) → List (String × Folly.Dynamic)) (lowest : ClientID)
    (json : Folly.Dynamic) : Except String RouteNextHopsMulti := do
  let items ← json.items order
  items.foldlM (updateFromFollyDynamic ofStr) (RouteNextHopsMulti.empty lowest)

/-- The flag word of a route. -/
def RouteFlags.toUInt32 (f : RouteFlags) : Nat :=
  (if f.connected then 1 else 0) + (if f.resolved then 2 else 0) +
    (if f.unresolvable then 4 else 0) + (if f.processing then 8 else 0)

/-- The flags of a flag word. -/
def RouteFlags.ofUInt32 (flags : Nat) : RouteFlags :=
  ⟨flags.testBit 0, flags.testBit 1, flags.testBit 2, flags.testBit 3⟩

/-- `RoutePrefix::toFollyDynamic`. -/
def RoutePrefix.toFollyDynamic (p : RoutePrefix) : Folly.Dynamic :=
  .object [("address", .string (str p.network)), ("mask", .int p.mask)]

/-- `RoutePrefix::fromFollyDynamic`: the mask is a `uint8_t`. -/
def RoutePrefix.fromFollyDynamic (pfxJson : Folly.Dynamic) : Except String RoutePrefix := do
  let network ← ofStr (← (← pfxJson.get "address").asString)
  let mask ← (← pfxJson.get "mask").asInt
  pure ⟨network, (mask % 256).toNat⟩

/-- `Route::toFollyDynamic` of the route `r` with the prefix `pfx`. -/
def Route.toFollyDynamic (pfx : RoutePrefix) (r : Route) : Folly.Dynamic :=
  .object [("prefix", RoutePrefix.toFollyDynamic str pfx),
    ("rib", RouteNextHopsMulti.toFollyDynamic str r.nexthopsmulti),
    ("forwardingInfo", RouteNextHopEntry.toFollyDynamic str r.fwd),
    ("flags", .int r.flags.toUInt32)]

/-- `Route::fromFollyDynamic`: the prefix and the route, which must have an
entry. -/
def Route.fromFollyDynamic (order : List (String × Folly.Dynamic) → List (String × Folly.Dynamic))
    (lowest : ClientID) (routeJson : Folly.Dynamic) : Except String (RoutePrefix × Route) := do
  let pfx ← RoutePrefix.fromFollyDynamic ofStr (← routeJson.get "prefix")
  let nexthopsmulti ← RouteNextHopsMulti.fromFollyDynamic ofStr order lowest (← routeJson.get "rib")
  let fwd ← RouteNextHopEntry.fromFollyDynamic ofStr (← routeJson.get "forwardingInfo")
  let flags ← (← routeJson.get "flags").asInt
  if nexthopsmulti.isEmpty then throw "Check failed: !route->hasNoEntry()"
  else pure (pfx, ⟨nexthopsmulti, fwd, RouteFlags.ofUInt32 (toUInt32 flags)⟩)

end Codec

/-! ### Reading back what was written -/

namespace LabelForwardingAction

theorem labelsFromFollyDynamic_map_int {s : List MplsLabel} (hs : ∀ l ∈ s, InInt32 l) :
    labelsFromFollyDynamic (s.map .int) = .ok s := by
  induction s with
  | nil => rfl
  | cons l s ih =>
    have hl : InInt32 l := hs l List.mem_cons_self
    have hrest := ih fun l' hl' => hs l' (List.mem_cons_of_mem l hl')
    simp only [labelsFromFollyDynamic, List.map_cons, List.mapM_cons] at hrest ⊢
    simp [hrest, castInt32_of_inInt32 hl]

/-- A label forwarding action that its constructors build reads back as it. -/
theorem fromFollyDynamic_toFollyDynamic {a : LabelForwardingAction} (ha : a.IsStorable) :
    fromFollyDynamic a.toFollyDynamic = .ok a := by
  obtain ⟨type, swapWith, pushStack⟩ := a
  rcases ha with ⟨htype, hpush, l, hswap, hl⟩ | ⟨htype, hswap, s, hpush, hs, hl⟩ |
    ⟨htype, hswap, hpush⟩
  · -- `SWAP`, with a label
    dsimp only at htype hpush hswap
    subst htype hpush hswap
    simp [fromFollyDynamic, toFollyDynamic, List.lookup, ofSwapWith, castInt32_of_inInt32 hl]
  · -- `PUSH`, with a stack
    dsimp only at htype hpush hswap
    subst htype hpush hswap
    simp [fromFollyDynamic, toFollyDynamic, List.lookup, ofPushStack, labelsFromFollyDynamic_map_int hl, hs]
  · -- a type that takes no label
    dsimp only at htype hpush hswap
    subst hpush hswap
    rcases htype with rfl | rfl | rfl <;> simp [fromFollyDynamic, toFollyDynamic, List.lookup, ofType]

end LabelForwardingAction

/-- A next hop the warm boot file holds: a weight whose text `asInt()` reads,
an interface that fits `uint32_t`, and a label forwarding action that its
constructors build. -/
def NextHop.IsStorable (nh : NextHop) : Prop :=
  nh.weight < 2 ^ 63 ∧ (∀ intf, nh.intfID = some intf → intf < 2 ^ 32) ∧
    ∀ a, nh.labelForwardingAction = some a → a.IsStorable

section ReadBack

variable {str : IPAddress → String} {ofStr : String → Except String IPAddress}

theorem labelActionFromFollyDynamic_map {action : Option LabelForwardingAction}
    (h : ∀ a, action = some a → a.IsStorable) :
    labelActionFromFollyDynamic (action.map LabelForwardingAction.toFollyDynamic) = .ok action := by
  cases action with
  | none => rfl
  | some a =>
    simp [labelActionFromFollyDynamic, LabelForwardingAction.fromFollyDynamic_toFollyDynamic (h a rfl)]

theorem weightFromFollyDynamic_toString {weight : NextHopWeight} (h : weight < 2 ^ 63) :
    weightFromFollyDynamic (some (.string (toString weight))) = .ok weight := by
  -- the value read is converted back to `uint64_t`, which keeps it
  have hcast : toUInt64 (weight : Int) = weight := by
    unfold toUInt64
    dsimp only [NextHopWeight] at h ⊢
    omega
  simp only [weightFromFollyDynamic, Folly.Dynamic.asInt_toString_nat h, Except.map_ok, hcast]

/-- A next hop reads back as it was written. -/
theorem nextHopFromFollyDynamic_toFollyDynamic (hstr : ∀ a, ofStr (str a) = .ok a) {nh : NextHop}
    (h : nh.IsStorable) : nextHopFromFollyDynamic ofStr (NextHop.toFollyDynamic str nh) = .ok nh := by
  obtain ⟨hw, hintf, hlabel⟩ := h
  obtain ⟨intfID, addr, weight, action⟩ := nh
  have hweight := weightFromFollyDynamic_toString hw
  have haction := labelActionFromFollyDynamic_map hlabel
  cases intfID with
  | none =>
    cases action <;>
      simp_all [nextHopFromFollyDynamic, NextHop.toFollyDynamic, List.lookup, UnresolvedNextHop]
  | some intf =>
    -- the interface was written as a `uint32_t` and passes the range check
    have hrange : ¬((intf : Int) < 0 ∨ 2 ^ 32 - 1 < (intf : Int)) := by
      have hlt := hintf intf rfl
      dsimp only [InterfaceID] at hlt ⊢
      omega
    have hresolved : ∀ action : Option LabelForwardingAction,
        (if (intf : Int) < 0 ∨ 2 ^ 32 - 1 < (intf : Int) then throw "stored InterfaceID exceeds uint32_t limit"
          else pure (ResolvedNextHop addr (intf : Int).toNat weight action)) =
        (Except.ok ⟨some intf, addr, weight, action⟩ : Except String NextHop) := fun action => by
      rw [if_neg hrange]
      rfl
    cases action <;>
      simp_all [nextHopFromFollyDynamic, NextHop.toFollyDynamic, List.lookup]

/-- The action text reads back as the action. -/
theorem str2ForwardAction_forwardActionStr (action : RouteForwardAction) :
    str2ForwardAction (forwardActionStr action) = .ok action := by
  cases action <;> rfl

/-- An entry the warm boot file holds: an admin distance that fits `int32_t`,
and next hops the file holds. -/
def RouteNextHopEntry.IsStorable (e : RouteNextHopEntry) : Prop :=
  InInt32 e.getAdminDistance ∧ ∀ nh ∈ e.getNextHopSet.elems, nh.IsStorable

/-- The loop over the next hops of an entry inserts each next hop written. -/
theorem foldlM_insertNextHopFromFollyDynamic (hstr : ∀ a, ofStr (str a) = .ok a)
    (l : List NextHop) (hl : ∀ nh ∈ l, nh.IsStorable) (nhopSet : RouteNextHopSet) :
    (l.map (NextHop.toFollyDynamic str)).foldlM (insertNextHopFromFollyDynamic ofStr) nhopSet =
      .ok (l.foldl FlatSet.emplace nhopSet) := by
  induction l generalizing nhopSet with
  | nil => rfl
  | cons nh l ih =>
    rw [List.map_cons, List.foldlM_cons, insertNextHopFromFollyDynamic,
      nextHopFromFollyDynamic_toFollyDynamic hstr (hl nh List.mem_cons_self), Except.map_ok, ok_bind,
      List.foldl_cons]
    exact ih (fun nh' hnh' => hl nh' (List.mem_cons_of_mem nh hnh')) _

/-- An entry reads back as it was written. -/
theorem RouteNextHopEntry.fromFollyDynamic_toFollyDynamic (hstr : ∀ a, ofStr (str a) = .ok a)
    {e : RouteNextHopEntry} (h : e.IsStorable) :
    RouteNextHopEntry.fromFollyDynamic ofStr (RouteNextHopEntry.toFollyDynamic str e) = .ok e := by
  obtain ⟨hd, hnh⟩ := h
  obtain ⟨adminDistance, action, nhopSet⟩ := e
  have hdistance : castInt32 adminDistance = adminDistance := castInt32_of_inInt32 hd
  -- the next hops are inserted in their order into an empty set
  have hloop : (nhopSet.elems.map (NextHop.toFollyDynamic str)).foldlM
      (insertNextHopFromFollyDynamic ofStr) FlatSet.empty = .ok nhopSet := by
    rw [foldlM_insertNextHopFromFollyDynamic hstr nhopSet.elems hnh]
    exact congrArg Except.ok (FlatSet.ofList_elems nhopSet)
  simp [RouteNextHopEntry.fromFollyDynamic, RouteNextHopEntry.toFollyDynamic, List.lookup,
    str2ForwardAction_forwardActionStr, adminDistanceFromFollyDynamic, hdistance, hloop,
    RouteNextHopEntry.getAdminDistance, RouteNextHopEntry.getAction, RouteNextHopEntry.getNextHopSet]

/-- The client entries the warm boot file holds: client ids that fit
`int32_t`, with entries the file holds. -/
def RouteNextHopsMulti.IsStorable (s : RouteNextHopsMulti) : Prop :=
  ∀ c e, s.map.find? c = some e → InInt32 c ∧ e.IsStorable

/-- Two clients whose ids fit `int32_t` get fields of different names. -/
theorem castInt32_toString_injective {x y : ClientID} (hx : InInt32 x) (hy : InInt32 y)
    (h : toString (castInt32 x) = toString (castInt32 y)) : x = y := by
  have hparse := congrArg (fun t : String => Folly.Dynamic.parseInteger t.toList) h
  simp only [Folly.Dynamic.parseInteger_toString, Option.some.injEq] at hparse
  rwa [castInt32_of_inInt32 hx, castInt32_of_inInt32 hy] at hparse

/-- One turn of the replay reads a client's field back and updates with it. -/
theorem updateFromFollyDynamic_clientEntry (hstr : ∀ a, ofStr (str a) = .ok a)
    {row : ClientID × RouteNextHopEntry} (hc : InInt32 row.1) (he : row.2.IsStorable)
    (nh : RouteNextHopsMulti) :
    updateFromFollyDynamic ofStr nh (clientEntryToFollyDynamic str row) = .ok (nh.update row.1 row.2) := by
  have hrange : -2 ^ 63 ≤ castInt32 row.1 ∧ castInt32 row.1 < 2 ^ 63 := by
    have hcast := inInt32_castInt32 row.1
    unfold InInt32 at hcast
    omega
  unfold updateFromFollyDynamic clientEntryToFollyDynamic
  rw [Folly.Dynamic.asInt_toString hrange, ok_bind, RouteNextHopEntry.fromFollyDynamic_toFollyDynamic hstr he,
    ok_bind, castInt32_of_inInt32 (inInt32_castInt32 _), castInt32_of_inInt32 hc]
  rfl

section Replay

variable {s : RouteNextHopsMulti}

/-- What the replay has built after the fields `vs`: the entries of the
clients whose fields it has read, and a cached client of lowest admin
distance. -/
def ReplayedFrom (str : IPAddress → String) (s : RouteNextHopsMulti)
    (vs : List (String × Folly.Dynamic)) (s' : RouteNextHopsMulti) : Prop :=
  (∀ x v, s'.map.find? x = some v ↔
    (x, v) ∈ s.map.toList ∧ clientEntryToFollyDynamic str (x, v) ∈ vs) ∧
  RouteNextHopsMulti.BestIsLowest s'

/-- Two rows of a map of storable entries with fields of the same name are the
same row. -/
theorem clientEntry_injOn (hs : s.IsStorable) :
    ∀ r₁ ∈ s.map.toList, ∀ r₂ ∈ s.map.toList,
      clientEntryToFollyDynamic str r₁ = clientEntryToFollyDynamic str r₂ → r₁ = r₂ := by
  intro r₁ h₁ r₂ h₂ heq
  have hf₁ := (FlatMap.mem_toList_iff _ _ _).mp h₁
  have hf₂ := (FlatMap.mem_toList_iff _ _ _).mp h₂
  have hkey : r₁.1 = r₂.1 :=
    castInt32_toString_injective (hs _ _ hf₁).1 (hs _ _ hf₂).1 (congrArg Prod.fst heq)
  rw [hkey, hf₂] at hf₁
  exact Prod.ext hkey (Option.some.inj hf₁).symm

/-- One turn of the replay, on the field `c` of a row, read after the fields
`vs` and before others, none of them `c`. -/
theorem replayedFrom_step (hstr : ∀ a, ofStr (str a) = .ok a) (hs : s.IsStorable)
    {vs : List (String × Folly.Dynamic)} {s' : RouteNextHopsMulti} (hI : ReplayedFrom str s vs s')
    {row : ClientID × RouteNextHopEntry} (hrow : row ∈ s.map.toList)
    (hfresh : clientEntryToFollyDynamic str row ∉ vs) :
    Spec (fun _ => False) (ReplayedFrom str s (vs ++ [clientEntryToFollyDynamic str row]))
      (updateFromFollyDynamic ofStr s' (clientEntryToFollyDynamic str row)) := by
  have hfind := (FlatMap.mem_toList_iff _ _ _).mp hrow
  obtain ⟨hc, he⟩ := hs row.1 row.2 hfind
  rw [updateFromFollyDynamic_clientEntry hstr hc he]
  -- the client is new to the replay, since its field has not been read
  have hnew : s'.map.find? row.1 = none := by
    rw [Option.eq_none_iff_forall_ne_some]
    intro v hv
    obtain ⟨hmem, hvs⟩ := (hI.1 row.1 v).mp hv
    have hv' : v = row.2 := Option.some.inj (((FlatMap.mem_toList_iff _ _ _).mp hmem).symm.trans hfind)
    subst hv'
    exact hfresh hvs
  refine ⟨fun x v => ?_, RouteNextHopsMulti.bestIsLowest_update hI.2 row.1 row.2 ?_⟩
  · rw [RouteNextHopsMulti.update_map, RouteNextHopsMulti.find?_updateMap,
      RouteNextHopsMulti.getEntryForClient_eq]
    by_cases hx : x = row.1
    · -- the client just read
      rw [if_pos hx]
      subst hx
      constructor
      · intro h
        cases h
        exact ⟨hrow, List.mem_append_right _ (List.mem_singleton_self _)⟩
      · rintro ⟨hmem, -⟩
        exact congrArg some (Option.some.inj (hfind.symm.trans ((FlatMap.mem_toList_iff _ _ _).mp hmem)))
    · -- another client: its field is not the one just read
      rw [if_neg hx, hI.1 x v]
      constructor
      · rintro ⟨hmem, hvs⟩
        exact ⟨hmem, List.mem_append_left _ hvs⟩
      · rintro ⟨hmem, hvs⟩
        refine ⟨hmem, ?_⟩
        rcases List.mem_append.mp hvs with hvs | hvs
        · exact hvs
        · exact absurd (congrArg Prod.fst (clientEntry_injOn hs _ hmem _ hrow (List.mem_singleton.mp hvs))) hx
  · -- a new client does not raise the cached client's distance
    rintro ⟨-, old, hold, -⟩
    rw [RouteNextHopsMulti.getEntryForClient_eq, hnew] at hold
    cases hold

/-- The client entries read back: in whatever order the hash map gives the
fields, and whatever the uninitialised cached client held, the replay rebuilds
the map as it was, with a cached client of lowest admin distance. -/
theorem RouteNextHopsMulti.fromFollyDynamic_toFollyDynamic (hstr : ∀ a, ofStr (str a) = .ok a)
    {order : List (String × Folly.Dynamic) → List (String × Folly.Dynamic)}
    (horder : ∀ l, (order l).Perm l) (lowest : ClientID) (hs : s.IsStorable) :
    ∃ s', RouteNextHopsMulti.fromFollyDynamic ofStr order lowest (RouteNextHopsMulti.toFollyDynamic str s) =
        .ok s' ∧ s'.map = s.map ∧ RouteNextHopsMulti.BestIsLowest s' := by
  have hperm := horder (s.map.toList.map (clientEntryToFollyDynamic str))
  -- the fields are all different: the rows are, and so are their fields
  have hnodup : (order (s.map.toList.map (clientEntryToFollyDynamic str))).Nodup :=
    hperm.nodup_iff.mpr (List.Nodup.map_on (clientEntry_injOn hs) (s.map.nodup_keys.of_map _))
  have hspec : Spec (fun _ => False) (ReplayedFrom str s (order (s.map.toList.map (clientEntryToFollyDynamic str))))
      ((order (s.map.toList.map (clientEntryToFollyDynamic str))).foldlM (updateFromFollyDynamic ofStr)
        (RouteNextHopsMulti.empty lowest)) := by
    refine spec_foldlM_split (ReplayedFrom str s) ⟨fun x v => ?_, fun c e he => ?_⟩
      fun vs c rest s' hl hI => ?_
    · simp [RouteNextHopsMulti.empty]
    · simp [RouteNextHopsMulti.empty, RouteNextHopsMulti.getEntryForClient] at he
    · have hc : c ∈ order (s.map.toList.map (clientEntryToFollyDynamic str)) := by
        rw [hl]
        simp
      obtain ⟨row, hrow, hrc⟩ := List.mem_map.mp (hperm.mem_iff.mp hc)
      subst hrc
      have hfresh : clientEntryToFollyDynamic str row ∉ vs := by
        rw [hl] at hnodup
        exact fun hvs => List.disjoint_of_nodup_append hnodup hvs List.mem_cons_self
      exact replayedFrom_step hstr hs hI hrow hfresh
  obtain ⟨s', hs', hI⟩ := Spec.exists_eq_ok hspec
  refine ⟨s', by simpa [RouteNextHopsMulti.fromFollyDynamic, RouteNextHopsMulti.toFollyDynamic] using hs',
    FlatMap.ext_find? fun x => Option.ext fun v => ?_, hI.2⟩
  rw [hI.1 x v, ← FlatMap.mem_toList_iff]
  exact ⟨And.left, fun h => ⟨h, hperm.mem_iff.mpr (List.mem_map_of_mem h)⟩⟩

end Replay

theorem RouteFlags.ofUInt32_toUInt32 (f : RouteFlags) :
    RouteFlags.ofUInt32 (Fboss.toUInt32 (f.toUInt32 : Int)) = f := by
  obtain ⟨connected, resolved, unresolvable, processing⟩ := f
  cases connected <;> cases resolved <;> cases unresolvable <;> cases processing <;> rfl

theorem RoutePrefix.fromFollyDynamic_toFollyDynamic (hstr : ∀ a, ofStr (str a) = .ok a) {pfx : RoutePrefix}
    (hmask : pfx.mask < 256) :
    RoutePrefix.fromFollyDynamic ofStr (RoutePrefix.toFollyDynamic str pfx) = .ok pfx := by
  obtain ⟨network, mask⟩ := pfx
  -- the mask is read back as a `uint8_t`
  have hcast : ((mask : Int) % 256).toNat = mask := by
    dsimp only at hmask
    omega
  simp [RoutePrefix.fromFollyDynamic, RoutePrefix.toFollyDynamic, List.lookup, hstr, hcast]

/-- A route reads back with its prefix, its client entries, its forwarding
information and its flags, whatever order the hash map gives the clients in;
its cached client is then one of lowest admin distance. -/
theorem Route.fromFollyDynamic_toFollyDynamic (hstr : ∀ a, ofStr (str a) = .ok a)
    {order : List (String × Folly.Dynamic) → List (String × Folly.Dynamic)}
    (horder : ∀ l, (order l).Perm l) (lowest : ClientID) {pfx : RoutePrefix} (hmask : pfx.mask < 256)
    {r : Route} (hs : r.nexthopsmulti.IsStorable) (hfwd : r.fwd.IsStorable)
    (hne : r.nexthopsmulti.isEmpty = false) :
    ∃ r', Route.fromFollyDynamic ofStr order lowest (Route.toFollyDynamic str pfx r) = .ok (pfx, r') ∧
      r'.nexthopsmulti.map = r.nexthopsmulti.map ∧ r'.fwd = r.fwd ∧ r'.flags = r.flags ∧
      RouteNextHopsMulti.BestIsLowest r'.nexthopsmulti := by
  obtain ⟨s', hs', hmap, hbest⟩ := RouteNextHopsMulti.fromFollyDynamic_toFollyDynamic hstr horder lowest hs
  -- the check that the route has an entry passes: the map read back is the map written
  have hne' : s'.isEmpty = false := by
    rw [← hne]
    simp only [RouteNextHopsMulti.isEmpty, hmap]
  refine ⟨⟨s', r.fwd, r.flags⟩, ?_, hmap, rfl, rfl, hbest⟩
  simp [Route.fromFollyDynamic, Route.toFollyDynamic, List.lookup,
    RoutePrefix.fromFollyDynamic_toFollyDynamic hstr hmask, hs',
    RouteNextHopEntry.fromFollyDynamic_toFollyDynamic hstr hfwd, RouteFlags.ofUInt32_toUInt32, hne']

end ReadBack

/-! ### A route whose best entry changes -/

/-- Client 1 announces a route at admin distance 10 and client 2 at 20; client
1 then raises its own to 30, and the route still caches client 1, as `update`
does not look at the other clients. Written to the warm boot file and read
back, in whatever order the hash map gives the clients and whatever the
uninitialised cached client held, the route has its prefix, its client
entries, its forwarding information and its flags again, but its best entry is
client 2's. -/
theorem warm_boot_changes_best_entry (str : IPAddress → String)
    (ofStr : String → Except String IPAddress) (hstr : ∀ a, ofStr (str a) = .ok a)
    (order : List (String × Folly.Dynamic) → List (String × Folly.Dynamic))
    (horder : ∀ l, (order l).Perm l) (lowest lowest' : ClientID) (pfx : RoutePrefix)
    (hmask : pfx.mask < 256) :
    let r : Route := ⟨Run.run RouteNextHopsMulti.applyOp (RouteNextHopsMulti.empty lowest)
        [.update 1 (.ofAction .DROP 10), .update 2 (.ofAction .DROP 20), .update 1 (.ofAction .DROP 30)],
      Route.defaultFwd, .none⟩
    r.getBestEntry = .ok (1, .ofAction .DROP 30) ∧
    ∃ r', Route.fromFollyDynamic ofStr order lowest' (Route.toFollyDynamic str pfx r) = .ok (pfx, r') ∧
      r'.nexthopsmulti.map = r.nexthopsmulti.map ∧ r'.fwd = r.fwd ∧ r'.flags = r.flags ∧
      r'.getBestEntry = .ok (2, .ofAction .DROP 20) := by
  intro r
  -- the first update caches its client whatever `lowest` held; the rest is computed
  have hrun : r.nexthopsmulti = ⟨(FlatMap.empty.insert 1 (.ofAction .DROP 10)).insert 2 (.ofAction .DROP 20)
      |>.assign 1 (.ofAction .DROP 30), 1⟩ := by
    simp only [r, Run.run_cons, RouteNextHopsMulti.applyOp, RouteNextHopsMulti.update_empty]
    decide
  have hrows : ∀ c e, r.nexthopsmulti.map.find? c = some e →
      (c = 1 ∧ e = .ofAction .DROP 30) ∨ (c = 2 ∧ e = .ofAction .DROP 20) := by
    intro c e he
    have hlist : r.nexthopsmulti.map.toList = [(1, .ofAction .DROP 30), (2, .ofAction .DROP 20)] := by
      rw [hrun]
      decide
    have hmem := (FlatMap.mem_toList_iff _ _ _).mpr he
    rw [hlist] at hmem
    simpa using hmem
  have hstorable : r.nexthopsmulti.IsStorable := by
    intro c e he
    rcases hrows c e he with ⟨rfl, rfl⟩ | ⟨rfl, rfl⟩ <;>
      simp [InInt32, RouteNextHopEntry.IsStorable, RouteNextHopEntry.ofAction,
        RouteNextHopEntry.getAdminDistance, RouteNextHopEntry.getNextHopSet]
  have hfwd : r.fwd.IsStorable := by
    simp [r, InInt32, RouteNextHopEntry.IsStorable, Route.defaultFwd, RouteNextHopEntry.ofAction,
      RouteNextHopEntry.getAdminDistance, RouteNextHopEntry.getNextHopSet, AdminDistance.MAX_ADMIN_DISTANCE]
  refine ⟨by rw [Route.getBestEntry, hrun]; decide, ?_⟩
  obtain ⟨r', hr', hmap, hfwd', hflags, hbest⟩ :=
    Route.fromFollyDynamic_toFollyDynamic hstr horder lowest' hmask hstorable hfwd (by rw [hrun]; decide)
  refine ⟨r', hr', hmap, hfwd', hflags, ?_⟩
  -- read back, client 2's entry is strictly the lowest, so the cache is on it
  have hrows' : ∀ c e, r'.nexthopsmulti.map.find? c = some e →
      (c = 1 ∧ e = .ofAction .DROP 30) ∨ (c = 2 ∧ e = .ofAction .DROP 20) := by
    rw [hmap]
    exact hrows
  refine RouteNextHopsMulti.getBestEntry_of_bestIsLowest hbest (by rw [RouteNextHopsMulti.getEntryForClient_eq, hmap, hrun]; decide)
    fun c e he hc => ?_
  rcases hrows' c e he with ⟨rfl, rfl⟩ | ⟨rfl, -⟩
  · decide
  · exact absurd rfl hc

/-- An address text that reads back: the bits of a v4 address in decimal, and
those of a v6 address negated, less one. -/
def addressText : IPAddress → String
  | .v4 a => toString (a.toNat : Int)
  | .v6 a => toString (-(a.toNat : Int) - 1)

/-- The address of a text of `addressText`. -/
def addressOfText (s : String) : Except String IPAddress :=
  match Folly.Dynamic.parseInteger s.toList with
  | some i =>
    if 0 ≤ i then .ok (.v4 (BitVec.ofNat 32 i.toNat)) else .ok (.v6 (BitVec.ofNat 128 (-i - 1).toNat))
  | none => .error "not an address"

theorem addressOfText_addressText (a : IPAddress) : addressOfText (addressText a) = .ok a := by
  cases a with
  | v4 x =>
    have hsign : (0 : Int) ≤ x.toNat := by omega
    rw [addressText, addressOfText, Folly.Dynamic.parseInteger_toString]
    simp [hsign]
  | v6 x =>
    have hsign : ¬(0 : Int) ≤ -(x.toNat : Int) - 1 := by omega
    have hbits : (-(-(x.toNat : Int) - 1) - 1).toNat = x.toNat := by omega
    rw [addressText, addressOfText, Folly.Dynamic.parseInteger_toString]
    simp only [if_neg hsign, hbits, BitVec.ofNat_toNat, BitVec.setWidth_eq]

/-- The route read back in the order its fields were written, with the
uninitialised cached client at 0, under `10.0.0.0/24`. -/
theorem warm_boot_changes_best_entry_in_written_order :
    (∀ a, addressOfText (addressText a) = .ok a) ∧
    (∀ l : List (String × Folly.Dynamic), (id l).Perm l) ∧
    (⟨.v4 0x0a000000#32, 24⟩ : RoutePrefix).mask < 256 ∧
    let r : Route := ⟨Run.run RouteNextHopsMulti.applyOp (RouteNextHopsMulti.empty 0)
        [.update 1 (.ofAction .DROP 10), .update 2 (.ofAction .DROP 20), .update 1 (.ofAction .DROP 30)],
      Route.defaultFwd, .none⟩
    r.getBestEntry = .ok (1, .ofAction .DROP 30) ∧
    ∃ r', Route.fromFollyDynamic addressOfText id 0 (Route.toFollyDynamic addressText ⟨.v4 0x0a000000#32, 24⟩ r) =
        .ok (⟨.v4 0x0a000000#32, 24⟩, r') ∧
      r'.nexthopsmulti.map = r.nexthopsmulti.map ∧ r'.fwd = r.fwd ∧ r'.flags = r.flags ∧
      r'.getBestEntry = .ok (2, .ofAction .DROP 20) :=
  ⟨addressOfText_addressText, fun l => List.Perm.refl l, by decide,
    warm_boot_changes_best_entry addressText addressOfText addressOfText_addressText id
      (fun l => List.Perm.refl l) 0 0 ⟨.v4 0x0a000000#32, 24⟩ (by decide)⟩

end Fboss
