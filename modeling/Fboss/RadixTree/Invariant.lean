import Fboss.RadixTree.Operations
import Mathlib.Data.List.Nodup

/-!
# The representation invariant of the radix tree

The comment on `RadixTreeNode` states the invariant the code maintains: every
non value node has two children. The tree also relies on facts it never
states: node addresses are masked to their mask length, a child is strictly
more specific than its parent, agrees with it on the parent's bits and sits on
the side given by its next bit, and every child's parent link points back.
`Valid` collects these, node by node, so that a fact about a node reads only
its own fields and the keys and links of its children.

The abstract view of a tree is `entries`, the bindings of its value nodes in
preorder, and `keys`, the keys of all its nodes. On a valid tree every key of
a subtree lies in the branch below the subtree's root that its side
prescribes; keys are therefore pairwise distinct, and a pointer, read as a key,
names exactly one node. The last part of the file gives the reading and
writing of nodes through such pointers (`findNode`, `modifyNode`) the lemmas
that the proofs of `insert` and `erase` rest on.
-/

namespace Fboss

namespace RadixTreeNode

open BitPrefix

variable {w : Nat} {α : Type}

/-- The keys of all nodes, in preorder. -/
def keys : RadixTreeNode w α → List (BitVec w × Nat)
  | nil => []
  | node ip ml _ _ l r => (ip, ml) :: (keys l ++ keys r)

/-- The bindings of the value nodes, in preorder. -/
def entries : RadixTreeNode w α → List ((BitVec w × Nat) × α)
  | nil => []
  | node ip ml v _ l r => (v.map fun x => ((ip, ml), x)).toList ++ (entries l ++ entries r)

@[simp] theorem keys_nil : (nil : RadixTreeNode w α).keys = [] := rfl
@[simp] theorem keys_node (ip : BitVec w) (ml : Nat) (v : Option α) (p) (l r : RadixTreeNode w α) :
    (node ip ml v p l r).keys = (ip, ml) :: (l.keys ++ r.keys) := rfl
@[simp] theorem entries_nil : (nil : RadixTreeNode w α).entries = [] := rfl
@[simp] theorem entries_node (ip : BitVec w) (ml : Nat) (v : Option α) (p)
    (l r : RadixTreeNode w α) :
    (node ip ml v p l r).entries =
      (v.map fun x => ((ip, ml), x)).toList ++ (l.entries ++ r.entries) := rfl

@[simp] theorem keys_setParent (p : Option (BitVec w × Nat)) (n : RadixTreeNode w α) :
    (n.setParent p).keys = n.keys := by
  cases n <;> rfl

@[simp] theorem entries_setParent (p : Option (BitVec w × Nat)) (n : RadixTreeNode w α) :
    (n.setParent p).entries = n.entries := by
  cases n <;> rfl

theorem mem_keys_of_mem_entries {n : RadixTreeNode w α} {e : (BitVec w × Nat) × α}
    (h : e ∈ n.entries) : e.1 ∈ n.keys := by
  induction n with
  | nil => simp at h
  | node ip ml v p l r ihl ihr =>
      simp only [entries_node, List.mem_append] at h
      rcases h with h | h | h
      · cases v <;> simp_all
      · simp [ihl h]
      · simp [ihr h]

/-- The key of a non null node is among its keys. -/
theorem mem_keys_of_mem_child {n : RadixTreeNode w α} {c : Prop} [Decidable c]
    {k : BitVec w × Nat} (hk : k ∈ (if c then n.left else n.right).keys) : k ∈ n.keys := by
  cases n with
  | nil => split_ifs at hk <;> simp at hk
  | node ip ml v p l r => split_ifs at hk <;> simp only [left_node, right_node] at hk <;> simp [hk]

theorem mem_keys_of_key? {n : RadixTreeNode w α} {k : BitVec w × Nat} (h : n.key? = some k) :
    k ∈ n.keys := by
  cases n with
  | nil => simp at h
  | node ip ml v p l r =>
      simp only [Option.some.injEq] at h
      simp [h]

/-- A child pointer fits below the node `(ip, ml)` on side `dir`: its prefix
lies in that branch and its parent link points back. -/
def FitsBelow (ip : BitVec w) (ml : Nat) (dir : Bool) : RadixTreeNode w α → Prop
  | nil => True
  | node cip cml _ cp _ _ => InBranch ip ml dir cip cml ∧ cp = some (ip, ml)

@[simp] theorem fitsBelow_nil (ip : BitVec w) (ml : Nat) (dir : Bool) :
    FitsBelow ip ml dir (nil : RadixTreeNode w α) := trivial

@[simp] theorem fitsBelow_node (ip : BitVec w) (ml : Nat) (dir : Bool) (cip : BitVec w)
    (cml : Nat) (v : Option α) (cp) (l r : RadixTreeNode w α) :
    FitsBelow ip ml dir (node cip cml v cp l r) ↔ InBranch ip ml dir cip cml ∧ cp = some (ip, ml) :=
  Iff.rfl

/-- A subtree installed as a child fits when its prefix lies in the branch: the
installation points its parent link back. -/
theorem fitsBelow_setParent {ip : BitVec w} {ml : Nat} {dir : Bool} {c : RadixTreeNode w α}
    (hin : c ≠ nil → InBranch ip ml dir c.ipAddress c.masklen) :
    FitsBelow ip ml dir (c.setParent (some (ip, ml))) := by
  cases c with
  | nil => trivial
  | node cip cml v p l r => exact ⟨hin (by simp), rfl⟩

/-- Whether a child fits reads only its key and its parent link. -/
theorem fitsBelow_congr {ip : BitVec w} {ml : Nat} {dir : Bool} {c c' : RadixTreeNode w α}
    (hkey : c'.key? = c.key?) (hpar : c'.parent = c.parent) :
    FitsBelow ip ml dir c' ↔ FitsBelow ip ml dir c := by
  cases c <;> cases c' <;> simp_all

/-- The representation invariant, node by node: the address is masked to the
mask length, the mask length is at most the width, both children fit below
the node, and a non value node has two children. -/
def Valid : RadixTreeNode w α → Prop
  | nil => True
  | node ip ml v _ l r =>
    maskMsb ip ml = ip ∧ ml ≤ w ∧ FitsBelow ip ml false l ∧ FitsBelow ip ml true r ∧
      (v = none → l ≠ nil ∧ r ≠ nil) ∧ Valid l ∧ Valid r

@[simp] theorem valid_nil : Valid (nil : RadixTreeNode w α) := trivial

/-- The parent link plays no part in the validity of a subtree. -/
@[simp] theorem valid_setParent (p : Option (BitVec w × Nat)) (n : RadixTreeNode w α) :
    Valid (n.setParent p) ↔ Valid n := by
  cases n <;> rfl

/-- Every key of a valid subtree that fits below `(ip, ml)` on side `dir` lies
in that branch. The induction is on the subtree; the branch is carried down by
`InBranch.trans`. -/
theorem Valid.inBranch_of_fitsBelow {c : RadixTreeNode w α} {ip : BitVec w} {ml : Nat}
    {dir : Bool} (hc : Valid c) (hfit : FitsBelow ip ml dir c) :
    ∀ k ∈ c.keys, InBranch ip ml dir k.1 k.2 := by
  induction c generalizing ip ml dir with
  | nil => simp
  | node cip cml v cp l r ihl ihr =>
      obtain ⟨-, -, hl, hr, -, hvl, hvr⟩ := hc
      obtain ⟨hbranch, -⟩ := hfit
      intro k hk
      simp only [keys_node, List.mem_cons, List.mem_append] at hk
      rcases hk with rfl | hk | hk
      · exact hbranch
      · exact hbranch.trans (ihl hvl hl k hk)
      · exact hbranch.trans (ihr hvr hr k hk)

theorem Valid.left {ip : BitVec w} {ml : Nat} {v : Option α} {p} {l r : RadixTreeNode w α}
    (h : Valid (node ip ml v p l r)) : Valid l :=
  h.2.2.2.2.2.1

theorem Valid.right {ip : BitVec w} {ml : Nat} {v : Option α} {p} {l r : RadixTreeNode w α}
    (h : Valid (node ip ml v p l r)) : Valid r :=
  h.2.2.2.2.2.2

theorem Valid.keys_left {ip : BitVec w} {ml : Nat} {v : Option α} {p} {l r : RadixTreeNode w α}
    (h : Valid (node ip ml v p l r)) : ∀ k ∈ l.keys, InBranch ip ml false k.1 k.2 :=
  h.left.inBranch_of_fitsBelow h.2.2.1

theorem Valid.keys_right {ip : BitVec w} {ml : Nat} {v : Option α} {p} {l r : RadixTreeNode w α}
    (h : Valid (node ip ml v p l r)) : ∀ k ∈ r.keys, InBranch ip ml true k.1 k.2 :=
  h.right.inBranch_of_fitsBelow h.2.2.2.1

/-- The root of a valid subtree covers all its keys. -/
theorem Valid.covers_of_mem_keys {ip : BitVec w} {ml : Nat} {v : Option α} {p}
    {l r : RadixTreeNode w α} (h : Valid (node ip ml v p l r)) {k : BitVec w × Nat}
    (hk : k ∈ (node ip ml v p l r).keys) : Covers ip ml k.1 k.2 := by
  simp only [keys_node, List.mem_cons, List.mem_append] at hk
  rcases hk with rfl | hk | hk
  · exact covers_refl h.1
  · exact (h.keys_left k hk).covers
  · exact (h.keys_right k hk).covers

/-- The three parts of a valid node have no key in common. -/
theorem Valid.not_mem_left_of_mem_right {ip : BitVec w} {ml : Nat} {v : Option α} {p}
    {l r : RadixTreeNode w α} (h : Valid (node ip ml v p l r)) {k : BitVec w × Nat}
    (hk : k ∈ r.keys) : k ∉ l.keys := by
  intro hkl
  exact (h.keys_left k hkl).ne_of_ne (h.keys_right k hk) Bool.false_ne_true rfl

theorem Valid.self_not_mem_left {ip : BitVec w} {ml : Nat} {v : Option α} {p}
    {l r : RadixTreeNode w α} (h : Valid (node ip ml v p l r)) : (ip, ml) ∉ l.keys :=
  fun hk => (h.keys_left _ hk).ne_self rfl

theorem Valid.self_not_mem_right {ip : BitVec w} {ml : Nat} {v : Option α} {p}
    {l r : RadixTreeNode w α} (h : Valid (node ip ml v p l r)) : (ip, ml) ∉ r.keys :=
  fun hk => (h.keys_right _ hk).ne_self rfl

/-- Keys are pairwise distinct: a key names one node. -/
theorem Valid.nodup_keys {n : RadixTreeNode w α} (h : Valid n) : n.keys.Nodup := by
  induction n with
  | nil => simp
  | node ip ml v p l r ihl ihr =>
      rw [keys_node, List.nodup_cons, List.nodup_append]
      refine ⟨?_, ihl h.left, ihr h.right, ?_⟩
      · simp only [List.mem_append, not_or]
        exact ⟨h.self_not_mem_left, h.self_not_mem_right⟩
      · intro a ha b hb hab
        subst hab
        exact h.not_mem_left_of_mem_right hb ha

/-- The keys of the bindings are pairwise distinct. -/
theorem Valid.nodup_entries_keys {n : RadixTreeNode w α} (h : Valid n) :
    (n.entries.map Prod.fst).Nodup := by
  induction n with
  | nil => simp
  | node ip ml v p l r ihl ihr =>
      rw [entries_node, List.map_append, List.map_append, List.nodup_append, List.nodup_append]
      refine ⟨?_, ⟨ihl h.left, ihr h.right, ?_⟩, ?_⟩
      · cases v <;> simp
      · intro a ha b hb hab
        subst hab
        obtain ⟨e, he, rfl⟩ := List.mem_map.mp ha
        obtain ⟨e', he', hee'⟩ := List.mem_map.mp hb
        exact h.not_mem_left_of_mem_right (hee' ▸ mem_keys_of_mem_entries he')
          (mem_keys_of_mem_entries he)
      · intro a ha b hb hab
        subst hab
        cases v with
        | none => simp at ha
        | some x =>
            simp only [Option.map_some, Option.toList_some, List.map_cons, List.map_nil,
              List.mem_singleton] at ha
            subst ha
            simp only [List.mem_append] at hb
            rcases hb with hb | hb
            · obtain ⟨e, he, hek⟩ := List.mem_map.mp hb
              exact h.self_not_mem_left (hek ▸ mem_keys_of_mem_entries he)
            · obtain ⟨e, he, hek⟩ := List.mem_map.mp hb
              exact h.self_not_mem_right (hek ▸ mem_keys_of_mem_entries he)

/-- The entries are pairwise distinct. -/
theorem Valid.nodup_entries {n : RadixTreeNode w α} (h : Valid n) : n.entries.Nodup :=
  List.Nodup.of_map Prod.fst h.nodup_entries_keys

/-! ### Reading through a pointer -/

@[simp] theorem findNode_nil (ptr : Option (BitVec w × Nat)) :
    (nil : RadixTreeNode w α).findNode ptr = nil := rfl

@[simp] theorem findNode_none (n : RadixTreeNode w α) : n.findNode none = nil := by
  induction n with
  | nil => rfl
  | node ip ml v p l r ihl ihr => simp [findNode, ihl, ihr]

/-- A pointer to a node reads back the node itself. -/
theorem findNode_self {n : RadixTreeNode w α} {k : BitVec w × Nat} (h : n.key? = some k) :
    n.findNode (some k) = n := by
  cases n with
  | nil => simp at h
  | node ip ml v p l r => simp_all [findNode]

theorem findNode_eq_nil_of_not_mem {n : RadixTreeNode w α} {k : BitVec w × Nat}
    (h : k ∉ n.keys) : n.findNode (some k) = nil := by
  induction n with
  | nil => rfl
  | node ip ml v p l r ihl ihr =>
      simp only [keys_node, List.mem_cons, List.mem_append, not_or] at h
      obtain ⟨hself, hl, hr⟩ := h
      have hne : ¬ some (ip, ml) = some k := fun heq => hself (Option.some.inj heq).symm
      simp [findNode, hne, ihl hl, ihr hr]

theorem mem_keys_of_findNode_ne_nil {n : RadixTreeNode w α} {k : BitVec w × Nat}
    (h : n.findNode (some k) ≠ nil) : k ∈ n.keys :=
  Classical.byContradiction fun hk => h (findNode_eq_nil_of_not_mem hk)

/-- A key of the tree reads back a node with that key. -/
theorem key?_findNode_of_mem {n : RadixTreeNode w α} {k : BitVec w × Nat} (h : k ∈ n.keys) :
    (n.findNode (some k)).key? = some k := by
  induction n with
  | nil => simp at h
  | node ip ml v p l r ihl ihr =>
      by_cases hself : (ip, ml) = k
      · subst hself
        simp [findNode]
      · have hne : ¬ some (ip, ml) = some k := fun heq => hself (Option.some.inj heq)
        simp only [keys_node, List.mem_cons, List.mem_append] at h
        by_cases hl : k ∈ l.keys
        · have hfound := ihl hl
          cases hfl : l.findNode (some k) with
          | nil => simp [hfl] at hfound
          | node ip' ml' v' p' l' r' => simp_all [findNode]
        · have hr : k ∈ r.keys := by
            rcases h with h | h | h
            · exact absurd h.symm hself
            · exact absurd h hl
            · exact h
          simp [findNode, hne, findNode_eq_nil_of_not_mem hl, ihr hr]

theorem findNode_node_of_mem_left {ip : BitVec w} {ml : Nat} {v : Option α} {p}
    {l r : RadixTreeNode w α} {k : BitVec w × Nat} (hself : (ip, ml) ≠ k) (hl : k ∈ l.keys) :
    (node ip ml v p l r).findNode (some k) = l.findNode (some k) := by
  have hne : ¬ some (ip, ml) = some k := fun heq => hself (Option.some.inj heq)
  have hfound := key?_findNode_of_mem hl
  cases hfl : l.findNode (some k) with
  | nil => simp [hfl] at hfound
  | node ip' ml' v' p' l' r' => simp [findNode, hne, hfl]

theorem findNode_node_of_not_mem_left {ip : BitVec w} {ml : Nat} {v : Option α} {p}
    {l r : RadixTreeNode w α} {k : BitVec w × Nat} (hself : (ip, ml) ≠ k) (hl : k ∉ l.keys) :
    (node ip ml v p l r).findNode (some k) = r.findNode (some k) := by
  have hne : ¬ some (ip, ml) = some k := fun heq => hself (Option.some.inj heq)
  simp [findNode, hne, findNode_eq_nil_of_not_mem hl]

/-- In a valid node a key of the left branch is read in the left branch. -/
theorem Valid.findNode_of_mem_left {ip : BitVec w} {ml : Nat} {v : Option α} {p}
    {l r : RadixTreeNode w α} (h : Valid (node ip ml v p l r)) {k : BitVec w × Nat}
    (hk : k ∈ l.keys) : (node ip ml v p l r).findNode (some k) = l.findNode (some k) :=
  findNode_node_of_mem_left (fun heq => h.self_not_mem_left (heq ▸ hk)) hk

/-- In a valid node a key of the right branch is read in the right branch. -/
theorem Valid.findNode_of_mem_right {ip : BitVec w} {ml : Nat} {v : Option α} {p}
    {l r : RadixTreeNode w α} (h : Valid (node ip ml v p l r)) {k : BitVec w × Nat}
    (hk : k ∈ r.keys) : (node ip ml v p l r).findNode (some k) = r.findNode (some k) :=
  findNode_node_of_not_mem_left (fun heq => h.self_not_mem_right (heq ▸ hk))
    (fun hkl => h.not_mem_left_of_mem_right hk hkl)

/-- What a pointer reads is a subtree: its keys are keys of the tree. -/
theorem keys_findNode_subset (ptr : Option (BitVec w × Nat)) (n : RadixTreeNode w α) :
    ∀ k ∈ (n.findNode ptr).keys, k ∈ n.keys := by
  induction n with
  | nil => simp
  | node ip ml v p l r ihl ihr =>
      intro k hk
      by_cases hself : some (ip, ml) = ptr
      · simpa [findNode, hself] using hk
      · simp only [findNode, hself, if_false] at hk
        cases hfl : l.findNode ptr with
        | nil =>
            rw [hfl, nil_orElse] at hk
            simp [ihr k hk]
        | node ip' ml' v' p' l' r' =>
            rw [hfl, node_orElse, ← hfl] at hk
            simp [ihl k hk]

theorem Valid.findNode {n : RadixTreeNode w α} (h : Valid n) (ptr : Option (BitVec w × Nat)) :
    Valid (n.findNode ptr) := by
  induction n with
  | nil => trivial
  | node ip ml v p l r ihl ihr =>
      by_cases hself : some (ip, ml) = ptr
      · simpa [RadixTreeNode.findNode, hself] using h
      · simp only [RadixTreeNode.findNode, hself, if_false]
        cases hfl : l.findNode ptr with
        | nil =>
            rw [nil_orElse]
            exact ihr h.right
        | node ip' ml' v' p' l' r' =>
            rw [node_orElse, ← hfl]
            exact ihl h.left

/-- In a valid tree the binding at a key is the value of the node read at that
key. -/
theorem Valid.mem_entries_iff {n : RadixTreeNode w α} (h : Valid n) (k : BitVec w × Nat) (x : α) :
    (k, x) ∈ n.entries ↔ (n.findNode (some k)).value = some x := by
  induction n with
  | nil => simp
  | node ip ml v p l r ihl ihr =>
      by_cases hself : (ip, ml) = k
      · subst hself
        have hl : (ip, ml) ∉ l.keys := h.self_not_mem_left
        have hr : (ip, ml) ∉ r.keys := h.self_not_mem_right
        have hnl : ((ip, ml), x) ∉ l.entries := fun he => hl (mem_keys_of_mem_entries he)
        have hnr : ((ip, ml), x) ∉ r.entries := fun he => hr (mem_keys_of_mem_entries he)
        rw [findNode_self rfl]
        cases v <;> simp [hnl, hnr, eq_comm]
      · have hown : (k, x) ∉ (v.map fun y => ((ip, ml), y)).toList := by
          cases v <;> simp [Ne.symm hself]
        by_cases hl : k ∈ l.keys
        · have hr : k ∉ r.keys := fun hr => h.not_mem_left_of_mem_right hr hl
          have hnr : (k, x) ∉ r.entries := fun he => hr (mem_keys_of_mem_entries he)
          rw [findNode_node_of_mem_left hself hl, ← ihl h.left]
          simp [hown, hnr]
        · have hnl : (k, x) ∉ l.entries := fun he => hl (mem_keys_of_mem_entries he)
          rw [findNode_node_of_not_mem_left hself hl, ← ihr h.right]
          simp [hown, hnl]

/-! ### Writing through a pointer -/

@[simp] theorem modifyNode_nil (ptr : Option (BitVec w × Nat)) (f : RadixTreeNode w α → RadixTreeNode w α) :
    (nil : RadixTreeNode w α).modifyNode ptr f = nil := rfl

theorem modifyNode_node_self (ip : BitVec w) (ml : Nat) (v : Option α) (p) (l r : RadixTreeNode w α)
    (f : RadixTreeNode w α → RadixTreeNode w α) :
    (node ip ml v p l r).modifyNode (some (ip, ml)) f = f (node ip ml v p l r) := by
  simp [modifyNode]

theorem modifyNode_node_of_ne {ip : BitVec w} {ml : Nat} {v : Option α} {p} {l r : RadixTreeNode w α}
    {ptr : Option (BitVec w × Nat)} (f : RadixTreeNode w α → RadixTreeNode w α)
    (hself : some (ip, ml) ≠ ptr) :
    (node ip ml v p l r).modifyNode ptr f =
      node ip ml v p (l.modifyNode ptr f) (r.modifyNode ptr f) := by
  simp [modifyNode, hself]

theorem modifyNode_eq_self_of_not_mem {n : RadixTreeNode w α} {k : BitVec w × Nat}
    (f : RadixTreeNode w α → RadixTreeNode w α) (h : k ∉ n.keys) :
    n.modifyNode (some k) f = n := by
  induction n with
  | nil => rfl
  | node ip ml v p l r ihl ihr =>
      simp only [keys_node, List.mem_cons, List.mem_append, not_or] at h
      obtain ⟨hself, hl, hr⟩ := h
      rw [modifyNode_node_of_ne f (fun heq => hself (Option.some.inj heq).symm), ihl hl, ihr hr]

@[simp] theorem modifyNode_none (f : RadixTreeNode w α → RadixTreeNode w α) (n : RadixTreeNode w α) :
    n.modifyNode none f = n := by
  induction n with
  | nil => rfl
  | node ip ml v p l r ihl ihr => rw [modifyNode_node_of_ne f (by simp), ihl, ihr]

/-- A write keeps the tree valid when it replaces the node it points to by a
valid node with the same key and the same parent link: validity is local, and
the parent of the written node reads only its key and its link. -/
theorem Valid.modifyNode {n : RadixTreeNode w α} {k : BitVec w × Nat}
    {f : RadixTreeNode w α → RadixTreeNode w α} (h : Valid n) (hk : k ∈ n.keys)
    (hf : Valid (f (n.findNode (some k))) ∧ (f (n.findNode (some k))).key? = some k ∧
      (f (n.findNode (some k))).parent = (n.findNode (some k)).parent) :
    Valid (n.modifyNode (some k) f) ∧ (n.modifyNode (some k) f).key? = n.key? ∧
      (n.modifyNode (some k) f).parent = n.parent := by
  induction n with
  | nil => simp at hk
  | node ip ml v p l r ihl ihr =>
      by_cases hself : (ip, ml) = k
      · subst hself
        rw [findNode_self rfl] at hf
        rw [modifyNode_node_self]
        exact hf
      · rw [modifyNode_node_of_ne f (fun heq => hself (Option.some.inj heq))]
        -- the written node is in one branch; the other branch is left as it is
        have hside : ∀ c : RadixTreeNode w α, Valid c →
            (k ∈ c.keys → Valid (f (c.findNode (some k))) ∧
              (f (c.findNode (some k))).key? = some k ∧
              (f (c.findNode (some k))).parent = (c.findNode (some k)).parent) →
            (k ∈ c.keys → Valid (c.modifyNode (some k) f) ∧ (c.modifyNode (some k) f).key? = c.key? ∧
              (c.modifyNode (some k) f).parent = c.parent) →
            Valid (c.modifyNode (some k) f) ∧ (c.modifyNode (some k) f).key? = c.key? ∧
              (c.modifyNode (some k) f).parent = c.parent := by
          intro c hc hfc ih
          by_cases hkc : k ∈ c.keys
          · exact ih hkc
          · rw [modifyNode_eq_self_of_not_mem f hkc]
            exact ⟨hc, rfl, rfl⟩
        obtain ⟨hvl', hkl, hpl⟩ := hside l h.left
          (fun hkl => by rw [← h.findNode_of_mem_left hkl]; exact hf)
          (fun hkl => ihl h.left hkl (by rw [← h.findNode_of_mem_left hkl]; exact hf))
        obtain ⟨hvr', hkr, hpr⟩ := hside r h.right
          (fun hkr => by rw [← h.findNode_of_mem_right hkr]; exact hf)
          (fun hkr => ihr h.right hkr (by rw [← h.findNode_of_mem_right hkr]; exact hf))
        obtain ⟨hmask, hml, hfl, hfr, htwo, -, -⟩ := h
        refine ⟨⟨hmask, hml, (fitsBelow_congr hkl hpl).mpr hfl, (fitsBelow_congr hkr hpr).mpr hfr,
          ?_, hvl', hvr'⟩, rfl, rfl⟩
        intro hv
        obtain ⟨hl, hr⟩ := htwo hv
        refine ⟨fun hnil => hl ?_, fun hnil => hr ?_⟩
        · rw [← key?_eq_none_iff, ← hkl, hnil, key?_nil]
        · rw [← key?_eq_none_iff, ← hkr, hnil, key?_nil]

/-- On a valid tree a write depends only on what it makes of the node it points
to: the key is found once. -/
theorem Valid.modifyNode_congr {n : RadixTreeNode w α} (h : Valid n) {k : BitVec w × Nat}
    {f g : RadixTreeNode w α → RadixTreeNode w α}
    (hfg : f (n.findNode (some k)) = g (n.findNode (some k))) :
    n.modifyNode (some k) f = n.modifyNode (some k) g := by
  induction n with
  | nil => rfl
  | node ip ml v p l r ihl ihr =>
      by_cases hself : (ip, ml) = k
      · subst hself
        rw [findNode_self rfl] at hfg
        rw [modifyNode_node_self, modifyNode_node_self, hfg]
      · have hne : some (ip, ml) ≠ some k := fun heq => hself (Option.some.inj heq)
        rw [modifyNode_node_of_ne f hne, modifyNode_node_of_ne g hne]
        by_cases hl : k ∈ l.keys
        · rw [h.findNode_of_mem_left hl] at hfg
          have hr : k ∉ r.keys := fun hr => h.not_mem_left_of_mem_right hr hl
          rw [ihl h.left hfg, modifyNode_eq_self_of_not_mem f hr, modifyNode_eq_self_of_not_mem g hr]
        · rw [modifyNode_eq_self_of_not_mem f hl, modifyNode_eq_self_of_not_mem g hl]
          by_cases hr : k ∈ r.keys
          · rw [h.findNode_of_mem_right hr] at hfg
            rw [ihr h.right hfg]
          · rw [modifyNode_eq_self_of_not_mem f hr, modifyNode_eq_self_of_not_mem g hr]

/-- The bindings after a write, when the written node loses the bindings `Q`
picks, all at keys below it, and gains those `P` picks. -/
theorem Valid.mem_entries_modifyNode {n : RadixTreeNode w α} {k : BitVec w × Nat}
    {f : RadixTreeNode w α → RadixTreeNode w α} (h : Valid n) (hk : k ∈ n.keys)
    {P Q : (BitVec w × Nat) × α → Prop}
    (hQ : ∀ e, Q e → e.1 ∈ (n.findNode (some k)).keys)
    (hf : ∀ e, e ∈ (f (n.findNode (some k))).entries ↔
      (e ∈ (n.findNode (some k)).entries ∧ ¬ Q e) ∨ P e) :
    ∀ e, e ∈ (n.modifyNode (some k) f).entries ↔ (e ∈ n.entries ∧ ¬ Q e) ∨ P e := by
  induction n with
  | nil => simp at hk
  | node ip ml v p l r ihl ihr =>
      by_cases hself : (ip, ml) = k
      · subst hself
        rw [findNode_self rfl] at hQ hf
        rw [modifyNode_node_self]
        exact hf
      · rw [modifyNode_node_of_ne f (fun heq => hself (Option.some.inj heq))]
        have hown : ∀ e ∈ (v.map fun y => ((ip, ml), y)).toList, e.1 = (ip, ml) := by
          cases v <;> simp
        intro e
        by_cases hl : k ∈ l.keys
        · rw [h.findNode_of_mem_left hl] at hQ hf
          have hr : k ∉ r.keys := fun hr => h.not_mem_left_of_mem_right hr hl
          -- what the write removes lies in the left branch, not here nor on the right
          have hQl : Q e → e.1 ∈ l.keys := fun hq => keys_findNode_subset _ l _ (hQ e hq)
          have hnown : e ∈ (v.map fun y => ((ip, ml), y)).toList → ¬ Q e :=
            fun he hq => h.self_not_mem_left (hown e he ▸ hQl hq)
          have hnr : e ∈ r.entries → ¬ Q e :=
            fun he hq => h.not_mem_left_of_mem_right (mem_keys_of_mem_entries he) (hQl hq)
          rw [modifyNode_eq_self_of_not_mem f hr]
          simp only [entries_node, List.mem_append, ihl h.left hl hQ hf e]
          grind
        · have hr : k ∈ r.keys := by
            simp only [keys_node, List.mem_cons, List.mem_append] at hk
            rcases hk with hk | hk | hk
            · exact absurd hk.symm hself
            · exact absurd hk hl
            · exact hk
          rw [h.findNode_of_mem_right hr] at hQ hf
          have hQr : Q e → e.1 ∈ r.keys := fun hq => keys_findNode_subset _ r _ (hQ e hq)
          have hnown : e ∈ (v.map fun y => ((ip, ml), y)).toList → ¬ Q e :=
            fun he hq => h.self_not_mem_right (hown e he ▸ hQr hq)
          have hnl : e ∈ l.entries → ¬ Q e :=
            fun he hq => h.not_mem_left_of_mem_right (hQr hq) (mem_keys_of_mem_entries he)
          rw [modifyNode_eq_self_of_not_mem f hl]
          simp only [entries_node, List.mem_append, ihr h.right hr hQ hf e]
          grind

/-! ### Parent links -/

/-- In a valid tree, a node other than the root has a parent link to a node of
the tree that holds it as its left child, or else as its right child. -/
theorem Valid.parent_findNode {n : RadixTreeNode w α} {k : BitVec w × Nat} (h : Valid n)
    (hk : k ∈ n.keys) (hroot : n.key? ≠ some k) :
    ∃ pk, (n.findNode (some k)).parent = some pk ∧ pk ∈ n.keys ∧
      (if (n.findNode (some pk)).left.key? = some k then (n.findNode (some pk)).left
        else (n.findNode (some pk)).right) = n.findNode (some k) := by
  induction n with
  | nil => simp at hk
  | node ip ml v p l r ihl ihr =>
      have hself : (ip, ml) ≠ k := fun heq => hroot (by simp [heq])
      by_cases hl : k ∈ l.keys
      · rw [findNode_node_of_mem_left hself hl]
        by_cases hlk : l.key? = some k
        · cases l with
          | nil => simp at hlk
          | node cip cml cv cp cl cr =>
              have hpar : cp = some (ip, ml) := h.2.2.1.2
              refine ⟨(ip, ml), by rw [findNode_self hlk]; exact hpar, by simp, ?_⟩
              rw [findNode_self hlk, findNode_self rfl]
              simp [hlk]
        · obtain ⟨pk, hpar, hpk, hside⟩ := ihl h.left hl hlk
          have hpk' : (ip, ml) ≠ pk := fun heq => h.self_not_mem_left (heq ▸ hpk)
          refine ⟨pk, hpar, by simp [hpk], ?_⟩
          rw [findNode_node_of_mem_left hpk' hpk]
          exact hside
      · have hr : k ∈ r.keys := by
          simp only [keys_node, List.mem_cons, List.mem_append] at hk
          rcases hk with hk | hk | hk
          · exact absurd hk.symm hself
          · exact absurd hk hl
          · exact hk
        rw [findNode_node_of_not_mem_left hself hl]
        by_cases hrk : r.key? = some k
        · cases r with
          | nil => simp at hrk
          | node cip cml cv cp cl cr =>
              have hpar : cp = some (ip, ml) := h.2.2.2.1.2
              have hlk : l.key? ≠ some k := fun hlk => hl (mem_keys_of_key? hlk)
              refine ⟨(ip, ml), by rw [findNode_self hrk]; exact hpar, by simp, ?_⟩
              rw [findNode_self hrk, findNode_self rfl]
              simp [hlk]
        · obtain ⟨pk, hpar, hpk, hside⟩ := ihr h.right hr hrk
          have hpk' : (ip, ml) ≠ pk := fun heq => h.self_not_mem_right (heq ▸ hpk)
          have hpkl : pk ∉ l.keys := fun hpkl => h.not_mem_left_of_mem_right hpk hpkl
          refine ⟨pk, hpar, by simp [hpk], ?_⟩
          rw [findNode_node_of_not_mem_left hpk' hpkl]
          exact hside

/-- In a valid tree whose root has a null parent link, a node's parent link is
null exactly at the root; otherwise it points to a node holding it as a child. -/
theorem Valid.findNode_parent {n : RadixTreeNode w α} (h : Valid n) (hroot : n.parent = none)
    {k : BitVec w × Nat} (hk : k ∈ n.keys) :
    ((n.findNode (some k)).parent = none ∧ n.key? = some k) ∨
      ∃ pk, (n.findNode (some k)).parent = some pk ∧ pk ∈ n.keys ∧
        (if (n.findNode (some pk)).left.key? = some k then (n.findNode (some pk)).left
          else (n.findNode (some pk)).right) = n.findNode (some k) := by
  by_cases hr : n.key? = some k
  · exact Or.inl ⟨by rw [findNode_self hr]; exact hroot, hr⟩
  · exact Or.inr (h.parent_findNode hk hr)

end RadixTreeNode

namespace RadixTree

open RadixTreeNode

variable {w : Nat} {α : Type}

/-- The invariant of a whole tree: a valid node structure, a root with a null
parent link, and a `size_` counter equal to the number of bindings. -/
structure WellFormed (t : RadixTree w α) : Prop where
  valid : Valid t.root
  root_parent : t.root.parent = none
  size_eq : t.size = t.root.entries.length

theorem wellFormed_empty : (empty : RadixTree w α).WellFormed :=
  ⟨trivial, rfl, rfl⟩

end RadixTree

end Fboss
