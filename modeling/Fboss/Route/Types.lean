import Mathlib.Data.List.Lex
import Mathlib.Data.Prod.Lex
import Mathlib.Order.WithBot
import Fboss.Lib.FlatMap
import Fboss.RadixTree.Node

/-!
# Route types

The values that routes are built from, shared by the standalone RIB (`rib/`)
and the switch state (`state/`): client ids and admin distances of
`ctrl.thrift`, addresses, MPLS label actions (`LabelForwardingAction`), next
hops (`NextHop`, with `ResolvedNextHop` and `UnresolvedNextHop` as the two
ways to build one) and the next-hop entry of a client (`RouteNextHopEntry`).
The `rib/` and `state/` copies of `NextHop`, `RouteNextHopEntry` and
`RouteForwardAction` are the same text, and are modelled once.

Thrift enums are `int32` values in C++ and the code builds values outside the
named ones (`ClientID(-1)`), so `ClientID` and `AdminDistance` are integers and
the named values are constants. `folly::IPAddress` is a v4 or a v6 address;
folly is not part of the repository, and its order is modelled by its
documented behaviour: a v4 address compares as its v4-mapped v6 address. The
one place where folly goes further, a v4 address *equal* to its mapped v6
address, is ordered v4 first here, so that next-hop sets stay sets.
The sorted containers of the source (`flat_set<NextHop>`) are `FlatSet`s under
the order of `operator<` of each type.
-/

namespace Fboss

/-- `ClientID` of `ctrl.thrift`. -/
abbrev ClientID := Int

namespace ClientID

def STATIC_ROUTE : ClientID := 1
def INTERFACE_ROUTE : ClientID := 2
def LINKLOCAL_ROUTE : ClientID := 3
def STATIC_INTERNAL : ClientID := 700

end ClientID

/-- `AdminDistance` of `ctrl.thrift`; a lower distance is preferred. -/
abbrev AdminDistance := Int

namespace AdminDistance

def DIRECTLY_CONNECTED : AdminDistance := 0
def STATIC_ROUTE : AdminDistance := 1
def MAX_ADMIN_DISTANCE : AdminDistance := 255

end AdminDistance

/-- `RouterID`, the VRF of a route table. -/
abbrev RouterID := Nat

/-- `InterfaceID`, a `uint32`. -/
abbrev InterfaceID := Nat

/-- `NextHopWeight`, a `uint64`. -/
abbrev NextHopWeight := Nat

def ECMP_WEIGHT : NextHopWeight := 0
def UCMP_DEFAULT_WEIGHT : NextHopWeight := 1

/-- A `uint64_t` stored in an `int`: its low 32 bits, read as signed. -/
def toInt32 (v : Nat) : Int :=
  if v % 2 ^ 32 < 2 ^ 31 then (v % 2 ^ 32 : Nat) else (v % 2 ^ 32 : Nat) - 2 ^ 32

/-- A signed integer converted to `uint64_t`. -/
def toUInt64 (i : Int) : Nat :=
  (i % 2 ^ 64).toNat

/-- A signed integer converted to `uint32_t`, as `RouterID(vrf)` converts. -/
def toUInt32 (i : Int) : Nat :=
  (i % 2 ^ 32).toNat

/-! ### Addresses -/

/-- `folly::IPAddress`: a v4 or a v6 address. -/
inductive IPAddress where
  | v4 (addr : IPAddressV4)
  | v6 (addr : IPAddressV6)
  deriving DecidableEq, Repr

namespace IPAddress

def isV4 : IPAddress → Bool
  | v4 _ => true
  | v6 _ => false

def isV6 (a : IPAddress) : Bool :=
  !a.isV4

/-- `isLinkLocal`: `169.254.0.0/16` for v4, `fe80::/10` for v6. -/
def isLinkLocal : IPAddress → Bool
  | v4 a => mask a 16 == 0xa9fe0000#32
  | v6 a => mask a 10 == 0xfe800000000000000000000000000000#128

/-- The key that orders addresses: the v6 value, a v4 address read as its
v4-mapped v6 address `::ffff:a.b.c.d`, then v4 before v6. -/
def orderKey : IPAddress → Lex (Nat × Bool)
  | v4 a => toLex (0xffff * 2 ^ 32 + a.toNat, false)
  | v6 a => toLex (a.toNat, true)

theorem orderKey_injective : Function.Injective orderKey := by
  intro a b h
  cases a <;> cases b <;> simp [orderKey] at h ⊢
  · exact BitVec.eq_of_toNat_eq h
  · exact BitVec.eq_of_toNat_eq h

instance : LinearOrder IPAddress :=
  LinearOrder.lift' orderKey orderKey_injective

end IPAddress

/-! ### MPLS label actions -/

/-- `MplsActionCode` of `mpls.thrift`, in the order of its values. -/
inductive MplsActionCode where
  | PUSH
  | SWAP
  | PHP
  | POP_AND_LOOKUP
  | NOOP
  deriving DecidableEq, Repr

namespace MplsActionCode

/-- The thrift value of the code. -/
def toNat : MplsActionCode → Nat
  | PUSH => 0
  | SWAP => 1
  | PHP => 2
  | POP_AND_LOOKUP => 3
  | NOOP => 4

theorem toNat_injective : Function.Injective toNat := by
  intro a b h
  cases a <;> cases b <;> simp [toNat] at h ⊢

instance : LinearOrder MplsActionCode :=
  LinearOrder.lift' toNat toNat_injective

end MplsActionCode

/-- `MplsLabel`, an `i32`. -/
abbrev MplsLabel := Int

/-- `LabelForwardingAction`: the action code, the label to swap with and the
label stack to push. The constructors of the source check that the fields
match the code; `combinePushLabelStack` only builds `PUSH` actions. -/
structure LabelForwardingAction where
  type : MplsActionCode
  swapWith : Option MplsLabel
  pushStack : Option (List MplsLabel)
  deriving DecidableEq, Repr

namespace LabelForwardingAction

/-- `operator<`: `std::tie(type_, swapWith_, pushStack_)` compared in order. -/
def orderKey (a : LabelForwardingAction) :
    Lex (MplsActionCode × Lex (WithBot MplsLabel × WithBot (List MplsLabel))) :=
  toLex (a.type, toLex ((a.swapWith : WithBot MplsLabel), (a.pushStack : WithBot (List MplsLabel))))

theorem orderKey_injective : Function.Injective orderKey := by
  rintro ⟨t, s, p⟩ ⟨t', s', p'⟩ h
  have ht : t = t' := congrArg (fun x => (ofLex x).1) h
  have hs : s = s' := congrArg (fun x => (ofLex (ofLex x).2).1) h
  have hp : p = p' := congrArg (fun x => (ofLex (ofLex x).2).2) h
  rw [ht, hs, hp]

instance : LinearOrder LabelForwardingAction :=
  LinearOrder.lift' orderKey orderKey_injective

/-- `combinePushLabelStack(tunnelStack, adjacencyLabels)`: the adjacency
labels pushed on top of the tunnel stack. Each action given must be a `PUSH`,
which the source `CHECK`s. -/
def combinePushLabelStack (tunnelStack adjacencyLabels : Option LabelForwardingAction) :
    Except String (Option LabelForwardingAction) :=
  match tunnelStack, adjacencyLabels with
  | none, none => .ok none
  | none, some adj =>
    if adj.type = .PUSH then .ok (some adj)
    else .error "Check failed: LabelForwardingType::PUSH == adjacencyLabels->type()"
  | some tun, none =>
    if tun.type = .PUSH then .ok (some tun)
    else .error "Check failed: LabelForwardingType::PUSH == tunnelStack->type()"
  | some tun, some adj =>
    if tun.type = .PUSH ∧ adj.type = .PUSH then
      .ok (some ⟨.PUSH, none, some (tun.pushStack.getD [] ++ adj.pushStack.getD [])⟩)
    else .error "Check failed: LabelForwardingType::PUSH == type()"

end LabelForwardingAction

/-! ### Next hops -/

/-- A next hop (`folly::Poly<INextHop>`): the interface it leaves by, if known,
its address, its weight and its label action. -/
structure NextHop where
  intfID : Option InterfaceID
  addr : IPAddress
  weight : NextHopWeight
  labelForwardingAction : Option LabelForwardingAction
  deriving DecidableEq, Repr

/-- `ResolvedNextHop(addr, intfID, weight, action)`. -/
def ResolvedNextHop (addr : IPAddress) (intfID : InterfaceID) (weight : NextHopWeight)
    (action : Option LabelForwardingAction) : NextHop :=
  ⟨some intfID, addr, weight, action⟩

/-- `UnresolvedNextHop(addr, weight, action)`. -/
def UnresolvedNextHop (addr : IPAddress) (weight : NextHopWeight)
    (action : Option LabelForwardingAction) : NextHop :=
  ⟨none, addr, weight, action⟩

namespace NextHop

/-- `isResolved`: the interface is known. -/
def isResolved (nh : NextHop) : Bool :=
  nh.intfID.isSome

/-- `operator<`: interface, then address, then label action, then weight. -/
def orderKey (nh : NextHop) :
    Lex (WithBot InterfaceID × Lex (IPAddress × Lex (WithBot LabelForwardingAction × NextHopWeight))) :=
  toLex ((nh.intfID : WithBot InterfaceID),
    toLex (nh.addr, toLex ((nh.labelForwardingAction : WithBot LabelForwardingAction), nh.weight)))

theorem orderKey_injective : Function.Injective orderKey := by
  rintro ⟨i, a, w, l⟩ ⟨i', a', w', l'⟩ h
  have hi : i = i' := congrArg (fun x => (ofLex x).1) h
  have ha : a = a' := congrArg (fun x => (ofLex (ofLex x).2).1) h
  have hl : l = l' := congrArg (fun x => (ofLex (ofLex (ofLex x).2).2).1) h
  have hw : w = w' := congrArg (fun x => (ofLex (ofLex (ofLex x).2).2).2) h
  rw [hi, ha, hl, hw]

instance : LinearOrder NextHop :=
  LinearOrder.lift' orderKey orderKey_injective

end NextHop

/-- `RouteNextHopSet`: a `flat_set<NextHop>`. -/
abbrev RouteNextHopSet := FlatSet NextHop

/-- `RouteForwardAction`. -/
inductive RouteForwardAction where
  | DROP
  | TO_CPU
  | NEXTHOPS
  deriving DecidableEq, Repr

/-- `RouteNextHopEntry`: the admin distance of the entry, its action and, for
`NEXTHOPS`, its next hops. -/
structure RouteNextHopEntry where
  adminDistance : AdminDistance
  action : RouteForwardAction
  nhopSet : RouteNextHopSet
  deriving DecidableEq

namespace RouteNextHopEntry

/-- `RouteNextHopEntry(action, distance)`, for `DROP` and `TO_CPU`. -/
def ofAction (action : RouteForwardAction) (distance : AdminDistance) : RouteNextHopEntry :=
  ⟨distance, action, FlatSet.empty⟩

/-- `RouteNextHopEntry(nhopSet, distance)`, a `NEXTHOPS` entry. -/
def ofNextHops (nhopSet : RouteNextHopSet) (distance : AdminDistance) : RouteNextHopEntry :=
  ⟨distance, .NEXTHOPS, nhopSet⟩

/-- `RouteNextHopEntry(nhopSet, distance)` as the constructor runs: it throws
on an empty set. -/
def make (nhopSet : RouteNextHopSet) (distance : AdminDistance) : Except String RouteNextHopEntry :=
  if nhopSet.elems.isEmpty then .error "Empty nexthop set is passed to the RouteNextHopEntry"
  else .ok (ofNextHops nhopSet distance)

def getAdminDistance (e : RouteNextHopEntry) : AdminDistance :=
  e.adminDistance

def getAction (e : RouteNextHopEntry) : RouteForwardAction :=
  e.action

def getNextHopSet (e : RouteNextHopEntry) : RouteNextHopSet :=
  e.nhopSet

def isDrop (e : RouteNextHopEntry) : Bool :=
  e.action = .DROP

def isToCPU (e : RouteNextHopEntry) : Bool :=
  e.action = .TO_CPU

/-- `isSame`: the two entries have the same admin distance. -/
def isSame (e entry : RouteNextHopEntry) : Bool :=
  entry.getAdminDistance = e.getAdminDistance

/-- `reset`: no next hops, and the action `DROP`. -/
def reset (e : RouteNextHopEntry) : RouteNextHopEntry :=
  { e with nhopSet := FlatSet.empty, action := .DROP }

end RouteNextHopEntry

end Fboss
