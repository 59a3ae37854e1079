import Fboss.RadixTree.Values
import Fboss.Route.Types

/-!
# The radix tree of `folly::IPAddress`

`RadixTree<folly::IPAddress, T>` holds a tree of v4 prefixes and a tree of v6
prefixes. Each call on an address goes to the tree of its family. Its iterator
(`IPAddressRadixTreeIteratorImpl`) is an iterator in each tree: it steps the v4
one until that is at its end, then the v6 one. The v4 tree's traits build an
iterator at a v4 node paired with the v6 tree's root, so that iteration goes on
into the v6 tree; `end()` is the pair of null iterators.

A v4 lookup that finds nothing would so return the iterator at the start of
the v6 tree, and the composite tree replaces it by `end()`; `subTreeIterator()`
of a v4 node resets the v6 iterator.

The loop from `begin()` to `end()` passes the v4 tree's value nodes and then the
v6 tree's (`visitAll_eq`), as a loop over the v4 tree followed by a loop over
the v6 tree (`visitFrom_v4`, `visitFrom_v6`).
-/

namespace Fboss

open Run RadixTree RadixTreeNode

variable {α : Type}

/-- `bitCount()`: the width of an address of the family. -/
def IPAddress.bitCount : IPAddress → Nat
  | .v4 _ => 32
  | .v6 _ => 128

/-- `RadixTree<folly::IPAddress, T>`: a tree of v4 prefixes and one of v6
prefixes. -/
structure IPAddressRadixTree (α : Type) where
  ipv4Tree : RadixTree 32 α
  ipv6Tree : RadixTree 128 α

/-- `IPAddressRadixTreeIteratorImpl`: an iterator in each tree. -/
structure IPAddressRadixTreeIterator where
  iterator4 : RadixTreeIterator 32
  iterator6 : RadixTreeIterator 128
  deriving DecidableEq

namespace IPAddressRadixTreeIterator

/-- `atEnd()`. -/
def atEnd (it : IPAddressRadixTreeIterator) : Bool :=
  it.iterator4.atEnd && it.iterator6.atEnd

/-- `reset()`. -/
def reset : IPAddressRadixTreeIterator :=
  ⟨RadixTreeIterator.reset, RadixTreeIterator.reset⟩

/-- `ipAddress()` and `masklen()`: read from the v4 iterator unless it is at
its end; at the end of both the `CHECK` fails. -/
def key? (it : IPAddressRadixTreeIterator) : Option (IPAddress × Nat) :=
  match it.iterator4.cursor, it.iterator6.cursor with
  | some k, _ => some (.v4 k.1, k.2)
  | none, some k => some (.v6 k.1, k.2)
  | none, none => none

end IPAddressRadixTreeIterator

/-! ### The loop of one tree -/

/-- With enough fuel the constructor builds a well formed tree's `begin()`,
from which the loop passes the value nodes. -/
theorem RadixTree.WellFormed.exists_begin {w : Nat} {t : RadixTree w α} (h : t.WellFormed)
    (fuel rounds : Nat) (hfuel : 2 * t.root.keys.length + 1 ≤ fuel)
    (hrounds : t.root.keys.length + 2 ≤ rounds) :
    ∃ it, RadixTree.makeItr t.root fuel t.root false = some it ∧
      RadixTree.visitFrom t.root fuel rounds it = some t.valueKeys :=
  Option.bind_eq_some_iff.mp (visitAll_eq_valueKeys h hfuel hrounds)

/-- A loop of a tree that ends within `rounds` rounds passes fewer nodes than
that: each node takes a round, and so does the test at the end. -/
theorem RadixTree.length_lt_of_visitFrom {w : Nat} {root : RadixTreeNode w α} {fuel : Nat} :
    ∀ {rounds : Nat} {it : RadixTreeIterator w} {L : List (BitVec w × Nat)},
      RadixTree.visitFrom root fuel rounds it = some L → L.length < rounds
  | 0, _, _, h => by simp [RadixTree.visitFrom] at h
  | rounds + 1, it, L, h => by
    unfold RadixTree.visitFrom at h
    cases hc : it.cursor with
    | none =>
      rw [hc] at h
      cases h
      simp
    | some c =>
      rw [hc] at h
      obtain ⟨it', -, hv⟩ := Option.bind_eq_some_iff.mp h
      obtain ⟨L', hL', rfl⟩ := Option.map_eq_some_iff.mp hv
      have := RadixTree.length_lt_of_visitFrom hL'
      simp only [List.length_cons]
      omega

namespace IPAddressRadixTree

open IPAddressRadixTreeIterator

/-- The tree a default constructed `RadixTree<folly::IPAddress, T>` holds. -/
def empty : IPAddressRadixTree α :=
  ⟨RadixTree.empty, RadixTree.empty⟩

/-- `size()`. -/
def size (t : IPAddressRadixTree α) : Nat :=
  t.ipv4Tree.size + t.ipv6Tree.size

/-- `size4()`. -/
def size4 (t : IPAddressRadixTree α) : Nat :=
  t.ipv4Tree.size

/-- `size6()`. -/
def size6 (t : IPAddressRadixTree α) : Nat :=
  t.ipv6Tree.size

/-! ### Iterators -/

/-- `IPAddressRadixTreeIteratorImpl(root4, root6, includeNonValNodes)`: the v4
iterator built at `node4` and the v6 one at `node6`, with `fuel` passes of the
loop that moves each past a non value node. -/
def makeItr (t : IPAddressRadixTree α) (fuel : Nat) (node4 : RadixTreeNode 32 α)
    (node6 : RadixTreeNode 128 α) (includeNonValNodes : Bool) :
    Option IPAddressRadixTreeIterator :=
  match RadixTree.makeItr t.ipv4Tree.root fuel node4 includeNonValNodes,
      RadixTree.makeItr t.ipv6Tree.root fuel node6 includeNonValNodes with
  | some it4, some it6 => some ⟨it4, it6⟩
  | _, _ => none

/-- `operator++`: the v4 iterator steps unless it is at its end, else the v6
one; at the end of both the `CHECK` fails. -/
def increment (t : IPAddressRadixTree α) (fuel : Nat) (it : IPAddressRadixTreeIterator) :
    Option IPAddressRadixTreeIterator :=
  if it.atEnd then none
  else if !it.iterator4.atEnd then
    (RadixTree.increment t.ipv4Tree.root fuel it.iterator4).map fun it4 => ⟨it4, it.iterator6⟩
  else (RadixTree.increment t.ipv6Tree.root fuel it.iterator6).map fun it6 => ⟨it.iterator4, it6⟩

/-- `subTreeIterator()`: at a v4 node the v4 iterator is bounded to the node's
subtree and the v6 iterator is reset; at a v6 node the v6 iterator is
bounded. -/
def subTreeIterator (t : IPAddressRadixTree α) (it : IPAddressRadixTreeIterator) :
    IPAddressRadixTreeIterator :=
  if !it.iterator4.atEnd then
    ⟨RadixTree.subTreeIterator t.ipv4Tree.root it.iterator4, RadixTreeIterator.reset⟩
  else if !it.iterator6.atEnd then
    ⟨it.iterator4, RadixTree.subTreeIterator t.ipv6Tree.root it.iterator6⟩
  else it

/-- `begin()`: the v4 tree's `begin()`, whose traits pair the v4 root with the
v6 root. -/
def begin (t : IPAddressRadixTree α) (fuel : Nat) : Option IPAddressRadixTreeIterator :=
  t.makeItr fuel t.ipv4Tree.root t.ipv6Tree.root false

/-- `end()`: the v6 tree's `end()`, built from two null nodes. -/
def endIt (t : IPAddressRadixTree α) (fuel : Nat) : Option IPAddressRadixTreeIterator :=
  t.makeItr fuel nil nil false

/-- The addresses and mask lengths that `for (; it != last; ++it)` passes, with
`fuel` passes of each increment's loop and at most `rounds` rounds. -/
def visitFrom (t : IPAddressRadixTree α) (fuel : Nat) (last : IPAddressRadixTreeIterator) :
    Nat → IPAddressRadixTreeIterator → Option (List (IPAddress × Nat))
  | 0, _ => none
  | rounds + 1, it =>
    if it = last then some []
    else
      match it.key?, t.increment fuel it with
      | some k, some it' => (t.visitFrom fuel last rounds it').map (k :: ·)
      | _, _ => none

/-- The loop from `begin()` to `end()`. -/
def visitAll (t : IPAddressRadixTree α) (fuel rounds : Nat) : Option (List (IPAddress × Nat)) :=
  match t.begin fuel, t.endIt fuel with
  | some b, some e => t.visitFrom fuel e rounds b
  | _, _ => none

/-! ### Calls on an address -/

/-- `insert(ipaddr, masklen, value)`: in the tree of the address's family. The
two nodes are those the returned iterator is built from: the v4 tree's traits
pair a v4 node with the v6 root, the v6 tree's a null v4 node with a v6 node. -/
def insert (t : IPAddressRadixTree α) (ipaddr : IPAddress) (masklen : Nat) (value : α) :
    IPAddressRadixTree α × (RadixTreeNode 32 α × RadixTreeNode 128 α) × Bool :=
  match ipaddr with
  | .v4 a =>
    let r := t.ipv4Tree.insert a masklen value
    (⟨r.1, t.ipv6Tree⟩, (r.2.1, t.ipv6Tree.root), r.2.2)
  | .v6 a =>
    let r := t.ipv6Tree.insert a masklen value
    (⟨t.ipv4Tree, r.1⟩, (nil, r.2.1), r.2.2)

/-- `erase(ipaddr, masklen)`: the tree of the address's family erases the node
of `exactMatch(ipaddr, masklen)`, which is that tree's exact match. -/
def erase (t : IPAddressRadixTree α) (ipaddr : IPAddress) (masklen : Nat) :
    IPAddressRadixTree α × Bool :=
  match ipaddr with
  | .v4 a =>
    let r := t.ipv4Tree.erase a masklen
    (⟨r.1, t.ipv6Tree⟩, r.2)
  | .v6 a =>
    let r := t.ipv6Tree.erase a masklen
    (⟨t.ipv4Tree, r.1⟩, r.2)

/-- The result of a v4 lookup that found `node`: the v4 tree's iterator, which
goes on at the v6 root; if its v4 iterator is at no node, `makeCItr(itr.node4(),
nullptr)`, the iterator `end()` is built as. -/
def v4Match (t : IPAddressRadixTree α) (fuel : Nat) (node : RadixTreeNode 32 α) :
    Option IPAddressRadixTreeIterator :=
  (t.makeItr fuel node t.ipv6Tree.root false).bind fun itr =>
    if itr.iterator4.cursor.isSome then some itr else t.makeItr fuel nil nil false

/-- `longestMatch(ipaddr, masklen)`. -/
def longestMatch (t : IPAddressRadixTree α) (fuel : Nat) (ipaddr : IPAddress) (masklen : Nat) :
    Option IPAddressRadixTreeIterator :=
  match ipaddr with
  | .v4 a => t.v4Match fuel (t.ipv4Tree.longestMatch a masklen)
  | .v6 a => t.makeItr fuel nil (t.ipv6Tree.longestMatch a masklen) false

/-- `exactMatch(ipaddr, masklen)`. -/
def exactMatch (t : IPAddressRadixTree α) (fuel : Nat) (ipaddr : IPAddress) (masklen : Nat) :
    Option IPAddressRadixTreeIterator :=
  match ipaddr with
  | .v4 a => t.v4Match fuel (t.ipv4Tree.exactMatch a masklen)
  | .v6 a => t.makeItr fuel nil (t.ipv6Tree.exactMatch a masklen) false

/-- A call that changes the tree. -/
inductive Op (α : Type) where
  | insert (ipaddr : IPAddress) (masklen : Nat) (value : α)
  | erase (ipaddr : IPAddress) (masklen : Nat)

/-- The address an operation is called with. -/
def Op.ipaddr : Op α → IPAddress
  | .insert ipaddr _ _ => ipaddr
  | .erase ipaddr _ => ipaddr

/-- The mask length an operation is called with. -/
def Op.masklen : Op α → Nat
  | .insert _ masklen _ => masklen
  | .erase _ masklen => masklen

/-- The tree after one operation. -/
def applyOp (t : IPAddressRadixTree α) : Op α → IPAddressRadixTree α
  | .insert ipaddr masklen value => (t.insert ipaddr masklen value).1
  | .erase ipaddr masklen => (t.erase ipaddr masklen).1

/-! ### The loop over both trees -/

@[simp] theorem endIt_eq (t : IPAddressRadixTree α) (fuel : Nat) : t.endIt fuel = some reset := by
  simp [endIt, makeItr, IPAddressRadixTreeIterator.reset]

theorem makeItr_eq_some {t : IPAddressRadixTree α} {fuel : Nat} {node4 : RadixTreeNode 32 α}
    {node6 : RadixTreeNode 128 α} {inc : Bool} {it4 : RadixTreeIterator 32}
    {it6 : RadixTreeIterator 128} (h4 : RadixTree.makeItr t.ipv4Tree.root fuel node4 inc = some it4)
    (h6 : RadixTree.makeItr t.ipv6Tree.root fuel node6 inc = some it6) :
    t.makeItr fuel node4 node6 inc = some ⟨it4, it6⟩ := by
  rw [makeItr, h4, h6]

section Loop

variable (t : IPAddressRadixTree α) (fuel : Nat)

/-- Once the v4 iterator is at its end, the loop is the v6 tree's loop, its
keys read as v6 addresses. The induction is on the rounds. -/
theorem visitFrom_v6 : ∀ (rounds : Nat) (it6 : RadixTreeIterator 128), it6.normalize = it6 →
    t.visitFrom fuel reset rounds ⟨RadixTreeIterator.reset, it6⟩ =
      (RadixTree.visitFrom t.ipv6Tree.root fuel rounds it6).map
        (List.map fun k => (.v6 k.1, k.2))
  | 0, _, _ => rfl
  | rounds + 1, it6, hn => by
    cases hc : it6.cursor with
    | none =>
      -- the v6 iterator is at its end too: this is `end()`
      have hreset := RadixTreeIterator.eq_reset_of_cursor_eq_none hn hc
      subst hreset
      simp [visitFrom, RadixTree.visitFrom, IPAddressRadixTreeIterator.reset, RadixTreeIterator.reset]
    | some c =>
      have hne : (⟨RadixTreeIterator.reset, it6⟩ : IPAddressRadixTreeIterator) ≠ reset := by
        intro h
        have := congrArg (fun it => it.iterator6.cursor) h
        simp [IPAddressRadixTreeIterator.reset, RadixTreeIterator.reset, hc] at this
      have hkey : (⟨RadixTreeIterator.reset, it6⟩ : IPAddressRadixTreeIterator).key? =
          some (.v6 c.1, c.2) := by
        simp [IPAddressRadixTreeIterator.key?, RadixTreeIterator.reset, hc]
      have hinc : t.increment fuel ⟨RadixTreeIterator.reset, it6⟩ =
          (RadixTree.increment t.ipv6Tree.root fuel it6).map fun it6' => ⟨RadixTreeIterator.reset, it6'⟩ := by
        simp [increment, IPAddressRadixTreeIterator.atEnd, RadixTreeIterator.atEnd,
          RadixTreeIterator.reset, hc]
      rw [visitFrom, if_neg hne, hkey, hinc, RadixTree.visitFrom, hc]
      cases hi : RadixTree.increment t.ipv6Tree.root fuel it6 with
      | none => rfl
      | some it6' =>
        simp only [Option.map_some, Option.bind_some, Option.map_map]
        rw [visitFrom_v6 rounds it6' (RadixTree.normalize_of_increment hi)]
        cases RadixTree.visitFrom t.ipv6Tree.root fuel rounds it6' <;> rfl

/-- While the v4 iterator is at a node, the loop is the v4 tree's loop, its
keys read as v4 addresses, and then goes on as the loop with the v4 iterator at
its end. The induction is on the v4 loop's rounds. -/
theorem visitFrom_v4 (it6 : RadixTreeIterator 128) :
    ∀ (r4 : Nat) (it4 : RadixTreeIterator 32) (L4 : List (BitVec 32 × Nat)), it4.normalize = it4 →
      RadixTree.visitFrom t.ipv4Tree.root fuel r4 it4 = some L4 → ∀ rounds,
      t.visitFrom fuel reset (L4.length + rounds) ⟨it4, it6⟩ =
        (t.visitFrom fuel reset rounds ⟨RadixTreeIterator.reset, it6⟩).map
          (L4.map (fun k => (.v4 k.1, k.2)) ++ ·)
  | 0, _, _, _, h, _ => by simp [RadixTree.visitFrom] at h
  | r4 + 1, it4, L4, hn, h, rounds => by
    rw [RadixTree.visitFrom] at h
    cases hc : it4.cursor with
    | none =>
      -- the v4 loop is over: nothing of the v4 tree is left
      rw [hc] at h
      cases h
      rw [RadixTreeIterator.eq_reset_of_cursor_eq_none hn hc]
      simp
    | some c =>
      rw [hc] at h
      obtain ⟨it4', hi, hv⟩ := Option.bind_eq_some_iff.mp h
      obtain ⟨L4', hL4', rfl⟩ := Option.map_eq_some_iff.mp hv
      have hne : (⟨it4, it6⟩ : IPAddressRadixTreeIterator) ≠ reset := by
        intro h
        have := congrArg (fun it => it.iterator4.cursor) h
        simp [IPAddressRadixTreeIterator.reset, RadixTreeIterator.reset, hc] at this
      have hkey : (⟨it4, it6⟩ : IPAddressRadixTreeIterator).key? = some (.v4 c.1, c.2) := by
        simp [IPAddressRadixTreeIterator.key?, hc]
      have hinc : t.increment fuel ⟨it4, it6⟩ = some ⟨it4', it6⟩ := by
        simp [increment, IPAddressRadixTreeIterator.atEnd, RadixTreeIterator.atEnd, hc, hi]
      rw [List.length_cons, show L4'.length + 1 + rounds = (L4'.length + rounds) + 1 by omega,
        visitFrom, if_neg hne, hkey, hinc]
      simp only
      rw [visitFrom_v4 it6 r4 it4' L4' (RadixTree.normalize_of_increment hi) hL4' rounds, Option.map_map]
      rfl

end Loop

/-- The value keys of the v4 tree, then those of the v6 tree, read as
addresses. -/
def valueKeys (t : IPAddressRadixTree α) : List (IPAddress × Nat) :=
  t.ipv4Tree.valueKeys.map (fun k => (.v4 k.1, k.2)) ++
    t.ipv6Tree.valueKeys.map (fun k => (.v6 k.1, k.2))

/-- Both trees are well formed. -/
structure WellFormed (t : IPAddressRadixTree α) : Prop where
  v4 : t.ipv4Tree.WellFormed
  v6 : t.ipv6Tree.WellFormed

section WellFormed

variable {t : IPAddressRadixTree α} (h : t.WellFormed)
include h

/-- Each value node is listed once. -/
theorem WellFormed.nodup_valueKeys : t.valueKeys.Nodup := by
  refine List.nodup_append.mpr ⟨?_, ?_, ?_⟩
  · exact (RadixTree.nodup_valueKeys h.v4.valid).map fun a b hab => by simpa [Prod.ext_iff] using hab
  · exact (RadixTree.nodup_valueKeys h.v6.valid).map fun a b hab => by simpa [Prod.ext_iff] using hab
  · -- a v4 address is no v6 address
    intro a ha b hb hab
    obtain ⟨_, -, rfl⟩ := List.mem_map.mp ha
    obtain ⟨_, -, rfl⟩ := List.mem_map.mp hb
    simp at hab

/-- The counters count the value nodes. -/
theorem WellFormed.size4_eq : t.size4 = t.ipv4Tree.valueKeys.length := by
  rw [size4, h.v4.size_eq, valueKeys_eq_map_fst h.v4.valid, List.length_map]

theorem WellFormed.size6_eq : t.size6 = t.ipv6Tree.valueKeys.length := by
  rw [size6, h.v6.size_eq, valueKeys_eq_map_fst h.v6.valid, List.length_map]

/-- From `begin()` to `end()` the loop passes the value nodes of the v4 tree,
in preorder, and then those of the v6 tree. -/
theorem WellFormed.visitAll_eq {fuel rounds : Nat}
    (hfuel : 2 * (t.ipv4Tree.root.keys.length + t.ipv6Tree.root.keys.length) + 1 ≤ fuel)
    (hrounds : t.ipv4Tree.root.keys.length + t.ipv6Tree.root.keys.length + 2 ≤ rounds) :
    t.visitAll fuel rounds = some t.valueKeys := by
  obtain ⟨it4, hb4, hv4⟩ := h.v4.exists_begin fuel (t.ipv4Tree.root.keys.length + 2) (by omega)
    le_rfl
  -- the v4 loop takes as many rounds as there are v4 value nodes
  have hlen4 : t.ipv4Tree.valueKeys.length ≤ t.ipv4Tree.root.keys.length := List.length_filter_le _ _
  obtain ⟨r6, rfl⟩ : ∃ r6, rounds = t.ipv4Tree.valueKeys.length + r6 :=
    ⟨rounds - t.ipv4Tree.valueKeys.length, by omega⟩
  obtain ⟨it6, hb6, hv6⟩ := h.v6.exists_begin fuel r6 (by omega) (by omega)
  rw [visitAll, begin, makeItr_eq_some hb4 hb6, endIt_eq]
  simp only
  rw [visitFrom_v4 t fuel it6 _ it4 _ (RadixTree.normalize_of_makeItr hb4) hv4,
    visitFrom_v6 t fuel r6 it6 (RadixTree.normalize_of_makeItr hb6), hv6]
  rfl

/-- From `subTreeIterator()` of an iterator at a v4 node where it stops, the
loop to `end()` passes the nodes of that node's subtree where the iterator
stops, in preorder, and no node of the v6 tree. -/
theorem WellFormed.visitFrom_subTreeIterator_v4 {it : IPAddressRadixTreeIterator}
    {x : BitVec 32 × Nat} (hcur : it.iterator4.cursor = some x) (hx : x ∈ t.ipv4Tree.root.keys)
    (hdone : isDone t.ipv4Tree.root it.iterator4.includeNonValueNodes (some x))
    {fuel rounds : Nat} (hfuel : 2 * t.ipv4Tree.root.keys.length + 1 ≤ fuel)
    (hrounds : t.ipv4Tree.root.keys.length + 2 ≤ rounds) :
    t.visitFrom fuel reset rounds (t.subTreeIterator it) =
      some (((t.ipv4Tree.root.findNode (some x)).keys.filter
        fun k => isDone t.ipv4Tree.root it.iterator4.includeNonValueNodes (some k)).map
          fun k => (.v4 k.1, k.2)) := by
  have hsub : t.subTreeIterator it =
      ⟨RadixTree.subTreeIterator t.ipv4Tree.root it.iterator4, RadixTreeIterator.reset⟩ := by
    simp [subTreeIterator, RadixTreeIterator.atEnd, hcur]
  have hn : (RadixTree.subTreeIterator t.ipv4Tree.root it.iterator4).normalize =
      RadixTree.subTreeIterator t.ipv4Tree.root it.iterator4 := by
    rw [subTreeIterator_of_cursor hcur, RadixTreeIterator.normalize_some]
  have hv := RadixTree.visitFrom_subTreeIterator h.v4.valid h.v4.root_parent hcur hx hdone hfuel
    hrounds
  -- the v4 loop ends with rounds to spare, and the v6 iterator is at its end
  set L := (t.ipv4Tree.root.findNode (some x)).keys.filter
    fun k => isDone t.ipv4Tree.root it.iterator4.includeNonValueNodes (some k)
  have hlen := RadixTree.length_lt_of_visitFrom hv
  obtain ⟨r, hr⟩ : ∃ r, rounds = L.length + (r + 1) := ⟨rounds - L.length - 1, by omega⟩
  rw [hsub]
  nth_rewrite 1 [hr]
  rw [visitFrom_v4 t fuel _ rounds _ _ hn hv, visitFrom_v6 t fuel (r + 1) _ rfl]
  simp [RadixTree.visitFrom, RadixTreeIterator.reset]

end WellFormed

/-! ### Lookups -/

section Lookup

variable {t : IPAddressRadixTree α} {fuel : Nat} {it6 : RadixTreeIterator 128}

/-- The v4 part of a v4 lookup's result is the v4 tree's own iterator at the
node it found. -/
theorem iterator4_v4Match
    (h6 : RadixTree.makeItr t.ipv6Tree.root fuel t.ipv6Tree.root false = some it6)
    (node : RadixTreeNode 32 α) :
    (t.v4Match fuel node).map (·.iterator4) = RadixTree.makeItr t.ipv4Tree.root fuel node false := by
  cases h4 : RadixTree.makeItr t.ipv4Tree.root fuel node false with
  | none => simp [v4Match, makeItr, h4]
  | some it4 =>
    rw [v4Match, makeItr_eq_some h4 h6, Option.bind_some]
    cases hc : it4.cursor with
    | some c => simp
    | none =>
      -- a v4 iterator at no node is `reset()`, as in `end()`
      have hreset := RadixTreeIterator.eq_reset_of_cursor_eq_none
        (RadixTree.normalize_of_makeItr h4) hc
      simp [hreset, makeItr]

/-- A v6 lookup's result is the v6 tree's own iterator at the node it found,
with the v4 iterator at its end. -/
theorem makeItr_nil_left (node6 : RadixTreeNode 128 α) (inc : Bool) :
    t.makeItr fuel nil node6 inc =
      (RadixTree.makeItr t.ipv6Tree.root fuel node6 inc).map fun it6 => ⟨RadixTreeIterator.reset, it6⟩ := by
  rw [makeItr, RadixTree.makeItr_nil]
  cases RadixTree.makeItr t.ipv6Tree.root fuel node6 inc <;> rfl

/-- A v4 lookup that finds no node returns `end()`, not the iterator at the
start of the v6 tree. -/
theorem v4Match_nil (h6 : RadixTree.makeItr t.ipv6Tree.root fuel t.ipv6Tree.root false = some it6) :
    t.v4Match fuel nil = t.endIt fuel := by
  rw [v4Match, makeItr_eq_some (RadixTree.makeItr_nil _ _ _) h6, Option.bind_some, endIt]
  simp [RadixTreeIterator.reset]

end Lookup

/-! ### Trees built by calls -/

/-- Both operations keep both trees well formed. -/
theorem WellFormed.applyOp {t : IPAddressRadixTree α} (h : t.WellFormed) (op : Op α)
    (hop : op.masklen ≤ op.ipaddr.bitCount) : (t.applyOp op).WellFormed := by
  cases op with
  | insert ipaddr masklen value =>
    cases ipaddr with
    | v4 a => exact ⟨insert_wellFormed h.v4 a masklen hop value, h.v6⟩
    | v6 a => exact ⟨h.v4, insert_wellFormed h.v6 a masklen hop value⟩
  | erase ipaddr masklen =>
    cases ipaddr with
    | v4 a => exact ⟨(erase_spec h.v4 a masklen).1, h.v6⟩
    | v6 a => exact ⟨h.v4, (erase_spec h.v6 a masklen).1⟩

/-- Every tree built from the empty tree is well formed. -/
theorem wellFormed_run (ops : List (Op α)) (hops : ∀ op ∈ ops, op.masklen ≤ op.ipaddr.bitCount) :
    (run applyOp empty ops).WellFormed :=
  run_invariant WellFormed (fun _ op hop h => h.applyOp op hop) hops
    ⟨wellFormed_empty, wellFormed_empty⟩

/-! ### The composite tree as the union of its two trees -/

/-- The composite tree behaves as the disjoint union of its two trees. A call
on a v4 address changes only the v4 tree, as that tree's own call does, and one
on a v6 address only the v6 tree; a lookup's iterator in the tree of the
address is that tree's own, and a v4 lookup that finds nothing returns `end()`.
`size()` counts the value nodes of both trees; the loop from `begin()` to
`end()` passes each value node of the v4 tree, then each of the v6 tree, once;
and the loop from `subTreeIterator()` at a v4 node stays in that node's
subtree. -/
theorem disjoint_union (ops : List (Op α)) (hops : ∀ op ∈ ops, op.masklen ≤ op.ipaddr.bitCount) :
    let t := run applyOp empty ops
    (∀ a masklen value, (t.insert (.v4 a) masklen value).1 =
        ⟨(t.ipv4Tree.insert a masklen value).1, t.ipv6Tree⟩) ∧
    (∀ a masklen value, (t.insert (.v6 a) masklen value).1 =
        ⟨t.ipv4Tree, (t.ipv6Tree.insert a masklen value).1⟩) ∧
    (∀ a masklen, (t.erase (.v4 a) masklen).1 = ⟨(t.ipv4Tree.erase a masklen).1, t.ipv6Tree⟩) ∧
    (∀ a masklen, (t.erase (.v6 a) masklen).1 = ⟨t.ipv4Tree, (t.ipv6Tree.erase a masklen).1⟩) ∧
    t.size = t.size4 + t.size6 ∧ t.size4 = t.ipv4Tree.valueKeys.length ∧
    t.size6 = t.ipv6Tree.valueKeys.length ∧
    ∀ fuel rounds, 2 * (t.ipv4Tree.root.keys.length + t.ipv6Tree.root.keys.length) + 1 ≤ fuel →
      t.ipv4Tree.root.keys.length + t.ipv6Tree.root.keys.length + 2 ≤ rounds →
      (t.visitAll fuel rounds = some t.valueKeys ∧ t.valueKeys.Nodup) ∧
      (∀ a masklen,
        (t.longestMatch fuel (.v4 a) masklen).map (·.iterator4) =
          RadixTree.makeItr t.ipv4Tree.root fuel (t.ipv4Tree.longestMatch a masklen) false ∧
        (t.exactMatch fuel (.v4 a) masklen).map (·.iterator4) =
          RadixTree.makeItr t.ipv4Tree.root fuel (t.ipv4Tree.exactMatch a masklen) false ∧
        (t.ipv4Tree.longestMatch a masklen = nil →
          t.longestMatch fuel (.v4 a) masklen = t.endIt fuel) ∧
        (t.ipv4Tree.exactMatch a masklen = nil →
          t.exactMatch fuel (.v4 a) masklen = t.endIt fuel)) ∧
      (∀ a masklen,
        t.longestMatch fuel (.v6 a) masklen =
          (RadixTree.makeItr t.ipv6Tree.root fuel (t.ipv6Tree.longestMatch a masklen) false).map
            (fun it6 => ⟨RadixTreeIterator.reset, it6⟩) ∧
        t.exactMatch fuel (.v6 a) masklen =
          (RadixTree.makeItr t.ipv6Tree.root fuel (t.ipv6Tree.exactMatch a masklen) false).map
            fun it6 => ⟨RadixTreeIterator.reset, it6⟩) ∧
      ∀ (it : IPAddressRadixTreeIterator) (x : BitVec 32 × Nat), it.iterator4.cursor = some x →
        x ∈ t.ipv4Tree.root.keys →
        isDone t.ipv4Tree.root it.iterator4.includeNonValueNodes (some x) →
        (t.endIt fuel).bind (fun e => t.visitFrom fuel e rounds (t.subTreeIterator it)) =
          some (((t.ipv4Tree.root.findNode (some x)).keys.filter
            fun k => isDone t.ipv4Tree.root it.iterator4.includeNonValueNodes (some k)).map
              fun k => (.v4 k.1, k.2)) := by
  intro t
  have h : t.WellFormed := wellFormed_run ops hops
  refine ⟨fun _ _ _ => rfl, fun _ _ _ => rfl, fun _ _ => rfl, fun _ _ => rfl, rfl, h.size4_eq,
    h.size6_eq, fun fuel rounds hfuel hrounds => ?_⟩
  -- the v4 lookups build the v6 iterator at the v6 root, which needs fuel
  obtain ⟨it6, hb6, -⟩ := h.v6.exists_begin fuel (t.ipv6Tree.root.keys.length + 2) (by omega)
    le_rfl
  refine ⟨⟨h.visitAll_eq hfuel hrounds, h.nodup_valueKeys⟩, fun a masklen => ⟨iterator4_v4Match hb6 _,
    iterator4_v4Match hb6 _, fun hnil => ?_, fun hnil => ?_⟩,
    fun a masklen => ⟨makeItr_nil_left _ _, makeItr_nil_left _ _⟩, fun it x hcur hx hdone => ?_⟩
  · rw [longestMatch, hnil, v4Match_nil hb6]
  · rw [exactMatch, hnil, v4Match_nil hb6]
  · rw [endIt_eq, Option.bind_some]
    exact h.visitFrom_subTreeIterator_v4 hcur hx hdone (by omega) (by omega)

/-- Two v4 prefixes and a v6 prefix inserted in turn: the loop passes the v4
ones first. -/
theorem disjoint_union_two_families :
    let t := run applyOp empty [Op.insert (.v4 0x0a000000#32) 8 (),
      Op.insert (.v6 0x20010db8000000000000000000000000#128) 32 (), Op.insert (.v4 0x0a010000#32) 16 ()]
    t.visitAll 20 10 = some [(.v4 0x0a000000#32, 8), (.v4 0x0a010000#32, 16),
      (.v6 0x20010db8000000000000000000000000#128, 32)] := by
  intro t
  rw [((disjoint_union _ (by decide)).2.2.2.2.2.2.2 20 10 (by decide) (by decide)).1.1]
  decide

end IPAddressRadixTree

end Fboss
