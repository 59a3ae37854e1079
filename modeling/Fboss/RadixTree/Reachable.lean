import Fboss.RadixTree.Insert
import Fboss.RadixTree.Erase
import Fboss.Lib.Run
import Fboss.Lib.PartialMap

/-!
# Trees reachable from the empty tree

A radix tree is built by a sequence of `insert` and `erase` calls from the
empty tree. Every such tree is well formed (`wellFormed_run`), since both
operations keep the invariant when the mask length is at most the width.

The map a tree stands for reads the value at each prefix (`toMap`). On a well
formed tree `insert` binds a prefix that is absent, `erase` drops one binding,
`exactMatch` reads the map and `size_` counts its bindings; so the trees
reachable by a sequence of operations stand for the map that the same
sequence builds from the empty map (`toMap_run`).

Two statements about every reachable tree close the file: the representation
invariant in the words of `RadixTree.h`, over all nodes of the tree, and what
`longestMatch` returns.
-/

namespace Fboss

namespace RadixTreeNode

open BitPrefix

variable {w : Nat} {α : Type}

/-- The nodes of a subtree, in preorder. -/
def nodes : RadixTreeNode w α → List (RadixTreeNode w α)
  | nil => []
  | n@(node _ _ _ _ l r) => n :: (nodes l ++ nodes r)

@[simp] theorem nodes_nil : (nil : RadixTreeNode w α).nodes = [] := rfl

@[simp] theorem nodes_node (ip : BitVec w) (ml : Nat) (v : Option α) (p) (l r : RadixTreeNode w α) :
    (node ip ml v p l r).nodes = node ip ml v p l r :: (l.nodes ++ r.nodes) := rfl

/-- The child on side `dir`: left for bit 0, right for bit 1. -/
def child (n : RadixTreeNode w α) (dir : Bool) : RadixTreeNode w α :=
  if dir then n.right else n.left

theorem ne_nil_of_mem_nodes {n m : RadixTreeNode w α} (hm : m ∈ n.nodes) : m ≠ nil := by
  induction n with
  | nil => simp at hm
  | node ip ml v p l r ihl ihr =>
      simp only [nodes_node, List.mem_cons, List.mem_append] at hm
      rcases hm with rfl | hm | hm
      · simp
      · exact ihl hm
      · exact ihr hm

/-- Every node of a valid subtree is the root of a valid subtree. -/
theorem Valid.of_mem_nodes {n m : RadixTreeNode w α} (h : Valid n) (hm : m ∈ n.nodes) :
    Valid m := by
  induction n with
  | nil => simp at hm
  | node ip ml v p l r ihl ihr =>
      simp only [nodes_node, List.mem_cons, List.mem_append] at hm
      rcases hm with rfl | hm | hm
      · exact h
      · exact ihl h.left hm
      · exact ihr h.right hm

/-- The value nodes are the bindings. -/
theorem length_filter_nodes (n : RadixTreeNode w α) :
    (n.nodes.filter isValueNode).length = n.entries.length := by
  induction n with
  | nil => rfl
  | node ip ml v p l r ihl ihr =>
      cases v <;> simp [List.filter_cons, List.filter_append, ihl, ihr]

/-- In preorder, the keys of the value nodes are the keys of the bindings. -/
theorem Valid.keys_filter_isValueNode {n : RadixTreeNode w α} (h : Valid n) :
    n.keys.filter (fun k => (n.findNode (some k)).isValueNode) = n.entries.map Prod.fst := by
  induction n with
  | nil => rfl
  | node ip ml v p l r ihl ihr =>
      -- a key of a child is read in that child
      have hl : l.keys.filter (fun k => ((node ip ml v p l r).findNode (some k)).isValueNode) =
          l.keys.filter (fun k => (l.findNode (some k)).isValueNode) :=
        List.filter_congr fun k hk => by rw [h.findNode_of_mem_left hk]
      have hr : r.keys.filter (fun k => ((node ip ml v p l r).findNode (some k)).isValueNode) =
          r.keys.filter (fun k => (r.findNode (some k)).isValueNode) :=
        List.filter_congr fun k hk => by rw [h.findNode_of_mem_right hk]
      rw [keys_node, List.filter_cons, List.filter_append, hl, hr, ihl h.left, ihr h.right,
        RadixTreeNode.findNode_self rfl]
      cases v <;> simp

end RadixTreeNode

namespace RadixTree

open BitPrefix Run PartialMap RadixTreeNode

variable {w : Nat} {α : Type}

/-- A call that changes the tree: `insert(ipaddr, mask, value)` or
`erase(ipaddr, masklen)`. -/
inductive Op (w : Nat) (α : Type) where
  | insert (ipaddr : BitVec w) (mask : Nat) (value : α)
  | erase (ipaddr : BitVec w) (masklen : Nat)
  deriving DecidableEq, Repr

/-- The mask length an operation is called with. -/
def Op.masklen : Op w α → Nat
  | .insert _ mask _ => mask
  | .erase _ masklen => masklen

/-- The tree after one operation. -/
def applyOp (t : RadixTree w α) : Op w α → RadixTree w α
  | .insert ipaddr mask value => (t.insert ipaddr mask value).1
  | .erase ipaddr masklen => (t.erase ipaddr masklen).1

/-- Both operations keep a tree well formed. -/
theorem WellFormed.applyOp {t : RadixTree w α} (h : t.WellFormed) (op : Op w α)
    (hop : op.masklen ≤ w) : (t.applyOp op).WellFormed := by
  cases op with
  | insert ipaddr mask value => exact insert_wellFormed h ipaddr mask hop value
  | erase ipaddr masklen => exact (erase_spec h ipaddr masklen).1

/-- Every tree built from the empty tree is well formed. -/
theorem wellFormed_run (ops : List (Op w α)) (hops : ∀ op ∈ ops, op.masklen ≤ w) :
    (run applyOp empty ops).WellFormed :=
  run_invariant WellFormed (fun _ op hop h => h.applyOp op hop) hops wellFormed_empty

/-! ### The map a tree stands for -/

/-- The bindings of the tree: the value at each prefix. -/
def toMap (t : RadixTree w α) : BitVec w × Nat → Option α :=
  fun k => (t.root.findNode (some k)).value

/-- The change an operation makes to the bindings. -/
def applyOpToMap (m : BitVec w × Nat → Option α) : Op w α → BitVec w × Nat → Option α
  | .insert ipaddr mask value => insertIfAbsent m (IPAddress.mask ipaddr mask, mask) value
  | .erase ipaddr masklen => PartialMap.erase m (IPAddress.mask ipaddr masklen, masklen)

theorem toMap_empty : (empty : RadixTree w α).toMap = PartialMap.empty := rfl

/-- The preorder list of bindings enumerates the map of a well formed tree. -/
theorem WellFormed.enumerates {t : RadixTree w α} (h : t.WellFormed) :
    Enumerates t.toMap t.root.entries :=
  ⟨h.valid.nodup_entries_keys, h.valid.mem_entries_iff⟩

/-- `insert` binds a prefix that has no binding and leaves the map alone
otherwise. -/
theorem toMap_insert {t : RadixTree w α} (h : t.WellFormed) (ipaddr : BitVec w) (mask : Nat)
    (hlen : mask ≤ w) (value : α) :
    (t.insert ipaddr mask value).1.toMap =
      insertIfAbsent t.toMap (IPAddress.mask ipaddr mask, mask) value := by
  obtain ⟨hv, -, hent, -⟩ := insert_spec h.valid ipaddr mask hlen value
  funext k
  apply Option.ext
  intro x
  rw [toMap, ← hv.mem_entries_iff, hent, insertIfAbsent_apply, h.valid.mem_entries_iff]
  simp only [toMap, Prod.mk.injEq]
  by_cases hk : k = (IPAddress.mask ipaddr mask, mask)
  · subst hk
    by_cases hnone : (t.root.findNode (some (IPAddress.mask ipaddr mask, mask))).value = none
    · simp [hnone, eq_comm]
    · simp [hnone]
  · simp [hk]

/-- `erase` drops the binding of the masked prefix. -/
theorem toMap_erase {t : RadixTree w α} (h : t.WellFormed) (ipaddr : BitVec w) (masklen : Nat) :
    (t.erase ipaddr masklen).1.toMap =
      PartialMap.erase t.toMap (IPAddress.mask ipaddr masklen, masklen) := by
  obtain ⟨h', hent, -⟩ := erase_spec h ipaddr masklen
  funext k
  apply Option.ext
  intro x
  rw [toMap, ← h'.valid.mem_entries_iff, hent, erase_apply]
  by_cases hk : k = (IPAddress.mask ipaddr masklen, masklen)
  · subst hk
    simp
  · simp [hk, h.valid.mem_entries_iff, toMap]

/-- Each operation changes the map of a well formed tree as it changes an
abstract map. -/
theorem WellFormed.toMap_applyOp {t : RadixTree w α} (h : t.WellFormed) (op : Op w α)
    (hop : op.masklen ≤ w) : (t.applyOp op).toMap = applyOpToMap t.toMap op := by
  cases op with
  | insert ipaddr mask value => exact toMap_insert h ipaddr mask hop value
  | erase ipaddr masklen => exact toMap_erase h ipaddr masklen

/-- The trees built by a sequence of operations stand for the map the same
sequence builds. -/
theorem toMap_run (ops : List (Op w α)) (hops : ∀ op ∈ ops, op.masklen ≤ w) :
    (run applyOp empty ops).toMap = run applyOpToMap PartialMap.empty ops := by
  have hsim := run_simulation (fun (t : RadixTree w α) m => t.WellFormed ∧ t.toMap = m)
    (fun t m op hop ⟨h, hm⟩ => ⟨h.applyOp op hop, by rw [h.toMap_applyOp op hop, hm]⟩)
    hops ⟨wellFormed_empty, toMap_empty⟩
  exact hsim.2

/-- `exactMatch` reads the map: its value is the binding of the masked prefix,
and it is null exactly when there is none. -/
theorem exactMatch_value {t : RadixTree w α} (h : Valid t.root) (ipaddr : BitVec w)
    (masklen : Nat) :
    (t.exactMatch ipaddr masklen).value = t.toMap (IPAddress.mask ipaddr masklen, masklen) ∧
      (t.exactMatch ipaddr masklen = nil ↔
        t.toMap (IPAddress.mask ipaddr masklen, masklen) = none) := by
  rw [exactMatch_eq h, toMap]
  generalize t.root.findNode (some (IPAddress.mask ipaddr masklen, masklen)) = n
  cases n with
  | nil => simp
  | node ip ml v p l r => cases v <;> simp

/-- `size_` is the number of bindings. -/
theorem WellFormed.size_eq_ncard {t : RadixTree w α} (h : t.WellFormed) :
    t.size = (support t.toMap).ncard := by
  rw [h.enumerates.ncard_support, h.size_eq]

/-! ### The representation invariant, clause by clause -/

/-- The invariant of `RadixTree.h` in its own words: node addresses are masked
to their mask length; a child is strictly longer than its parent, agrees with
it on the parent's bits and has bit `parent.masklen` equal to its side; a non
value node has two children and is their longest common prefix; child parent
links point back and the root's is null; `size_` counts the value nodes. -/
structure RepInvariant (t : RadixTree w α) : Prop where
  masked : ∀ n ∈ t.root.nodes, IPAddress.mask n.ipAddress n.masklen = n.ipAddress
  child_prefix : ∀ n ∈ t.root.nodes, ∀ dir : Bool, n.child dir ≠ nil →
    n.masklen < (n.child dir).masklen ∧
      IPAddress.mask (n.child dir).ipAddress n.masklen = n.ipAddress ∧
      IPAddress.getNthMSBit (n.child dir).ipAddress n.masklen = dir
  child_parent : ∀ n ∈ t.root.nodes, ∀ dir : Bool, n.child dir ≠ nil →
    (n.child dir).parent = n.key?
  nonValue : ∀ n ∈ t.root.nodes, n.isValueNode = false →
    n.left ≠ nil ∧ n.right ≠ nil ∧
      IPAddress.longestCommonPrefix (n.left.ipAddress, n.left.masklen)
        (n.right.ipAddress, n.right.masklen) = (n.ipAddress, n.masklen)
  root_parent : t.root.parent = none
  size_eq : t.size = (t.root.nodes.filter isValueNode).length

/-- A child on side `dir` of a valid node lies in that branch and links back. -/
theorem valid_child {ip : BitVec w} {ml : Nat} {v : Option α} {p} {l r : RadixTreeNode w α}
    (h : Valid (node ip ml v p l r)) (dir : Bool) (hne : (node ip ml v p l r).child dir ≠ nil) :
    InBranch ip ml dir ((node ip ml v p l r).child dir).ipAddress
        ((node ip ml v p l r).child dir).masklen ∧
      ((node ip ml v p l r).child dir).parent = some (ip, ml) := by
  obtain ⟨-, -, hfl, hfr, -⟩ := h
  have hfit : FitsBelow ip ml dir ((node ip ml v p l r).child dir) := by
    cases dir
    · exact hfl
    · exact hfr
  cases hc : (node ip ml v p l r).child dir with
  | nil => exact absurd hc hne
  | node cip cml cv cp cl cr =>
      rw [hc] at hfit
      exact hfit

/-- A well formed tree satisfies the invariant as `RadixTree.h` states it. -/
theorem WellFormed.repInvariant {t : RadixTree w α} (h : t.WellFormed) : RepInvariant t := by
  -- each clause reads one node, which is the root of a valid subtree
  have hnode : ∀ n ∈ t.root.nodes, ∃ ip ml v p l r, n = node ip ml v p l r ∧
      Valid (node ip ml v p l r) := by
    intro n hn
    cases n with
    | nil => exact absurd rfl (ne_nil_of_mem_nodes hn)
    | node ip ml v p l r => exact ⟨ip, ml, v, p, l, r, rfl, h.valid.of_mem_nodes hn⟩
  refine ⟨?_, ?_, ?_, ?_, h.root_parent, ?_⟩
  · intro n hn
    obtain ⟨ip, ml, v, p, l, r, rfl, hv⟩ := hnode n hn
    exact hv.1
  · intro n hn dir hne
    obtain ⟨ip, ml, v, p, l, r, rfl, hv⟩ := hnode n hn
    obtain ⟨⟨hlt, hmask, hbit⟩, -⟩ := valid_child hv dir hne
    exact ⟨hlt, hmask, hbit⟩
  · intro n hn dir hne
    obtain ⟨ip, ml, v, p, l, r, rfl, hv⟩ := hnode n hn
    exact (valid_child hv dir hne).2
  · intro n hn hnv
    obtain ⟨ip, ml, v, p, l, r, rfl, hv⟩ := hnode n hn
    have hvn : v = none := by simpa using hnv
    obtain ⟨hl, hr⟩ := hv.2.2.2.2.1 hvn
    refine ⟨hl, hr, ?_⟩
    have hinl := (valid_child hv false (by simpa [child] using hl)).1
    have hinr := (valid_child hv true (by simpa [child] using hr)).1
    exact InBranch.commonPrefix_eq_of_ne hinl hinr Bool.false_ne_true
  · rw [h.size_eq, length_filter_nodes]

/-- A prefix has a binding exactly when it is the key of a value node. -/
theorem toMap_ne_none_iff (t : RadixTree w α) (k : BitVec w × Nat) :
    t.toMap k ≠ none ↔ k ∈ t.root.keys ∧ (t.root.findNode (some k)).isValueNode = true := by
  unfold toMap
  constructor
  · intro hk
    have hne : t.root.findNode (some k) ≠ nil := fun hnil => hk (by rw [hnil]; rfl)
    exact ⟨mem_keys_of_findNode_ne_nil hne, by simpa [isValueNode, Option.isSome_iff_ne_none]⟩
  · rintro ⟨-, hv⟩
    simpa [isValueNode, Option.isSome_iff_ne_none] using hv

/-- Every tree built from the empty tree satisfies the invariant of
`RadixTree.h`. -/
theorem reachable_tree_rep_invariant (ops : List (Op w α)) (hops : ∀ op ∈ ops, op.masklen ≤ w) :
    RepInvariant (run applyOp empty ops) :=
  (wellFormed_run ops hops).repInvariant

theorem rep_invariant_after_insert_erase :
    RepInvariant (run applyOp empty [Op.insert (0b1010 : BitVec 4) 2 (), Op.insert 0b1100 4 (),
      Op.insert 0b1000 1 (), Op.erase 0b1010 2]) :=
  reachable_tree_rep_invariant _ (by decide)

/-! ### Longest match on a reachable tree -/

/-- `longestMatch` on a tree built from the empty tree: null exactly when no
bound prefix covers the query; otherwise the tree's value node of the longest
bound prefix covering it. Only the first `masklen` bits of the query are read. -/
theorem longestMatch_reachable (ops : List (Op w α)) (hops : ∀ op ∈ ops, op.masklen ≤ w)
    (ipaddr : BitVec w) (masklen : Nat) :
    let t := run applyOp empty ops
    let r := t.longestMatch ipaddr masklen
    (r = nil ↔ ∀ p l, l ≤ masklen → IPAddress.mask ipaddr l = p → t.toMap (p, l) = none) ∧
      (r ≠ nil → r.isValueNode = true ∧ t.root.findNode (some (r.ipAddress, r.masklen)) = r ∧
        r.masklen ≤ masklen ∧ IPAddress.mask ipaddr r.masklen = r.ipAddress ∧
        ∀ p l, l ≤ masklen → IPAddress.mask ipaddr l = p → t.toMap (p, l) ≠ none →
          l ≤ r.masklen) ∧
      ∀ ipaddr', IPAddress.mask ipaddr' masklen = IPAddress.mask ipaddr masklen →
        t.longestMatch ipaddr' masklen = r := by
  intro t r
  have h := wellFormed_run ops hops
  -- only the masked query reaches the search
  have hbits : ∀ ipaddr', IPAddress.mask ipaddr' masklen = IPAddress.mask ipaddr masklen →
      t.longestMatch ipaddr' masklen = r := by
    intro ipaddr' hmask
    simp only [r, longestMatch, longestMatchImpl, hmask]
  rcases longestMatch_spec h.valid ipaddr masklen with ⟨hnil, hnone⟩ | ⟨hne, hfind, hv, hcov, hmax⟩
  · refine ⟨⟨fun _ p l hl hp => ?_, fun _ => hnil⟩, fun hr => absurd hnil hr, hbits⟩
    refine Classical.byContradiction fun hk => ?_
    obtain ⟨hkey, hval⟩ := (toMap_ne_none_iff t (p, l)).mp hk
    rw [hnone _ hkey (covers_maskMsb_iff.mpr ⟨hl, hp⟩)] at hval
    exact Bool.false_ne_true hval
  · rw [key?_of_ne_nil hne] at hfind
    obtain ⟨hlen, hmask⟩ := covers_maskMsb_iff.mp hcov
    refine ⟨⟨fun hr => absurd hr hne, fun hall => absurd (hall _ _ hlen hmask) ?_⟩,
      fun _ => ⟨hv, hfind, hlen, hmask, fun p l hl hp hk => ?_⟩, hbits⟩
    · -- the node found is itself a binding covering the query
      exact (toMap_ne_none_iff t _).mpr ⟨mem_keys_of_findNode_ne_nil (by rw [hfind]; exact hne),
        by rw [hfind]; exact hv⟩
    · obtain ⟨hkey, hval⟩ := (toMap_ne_none_iff t (p, l)).mp hk
      exact hmax _ hkey (covers_maskMsb_iff.mpr ⟨hl, hp⟩) hval

theorem longestMatch_reachable_after_inserts :
    let t := run applyOp empty [Op.insert (0b1000 : BitVec 4) 1 (), Op.insert 0b1010 3 ()]
    (t.longestMatch 0b1011 4 = nil ↔
      ∀ p l, l ≤ 4 → IPAddress.mask 0b1011 l = p → t.toMap (p, l) = none) :=
  (longestMatch_reachable _ (by decide) 0b1011 4).1

end RadixTree

end Fboss
