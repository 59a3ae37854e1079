import Fboss.RadixTree.Reachable

/-!
# The shape of a radix tree is canonical

`RadixTree::operator==` compares the counters and then the two trees node by
node, ignoring the links (`radixSubTreesEqual`). That this is equality of the
maps the trees stand for rests on the shape being determined by the bindings.

It is. The root of a valid tree is the longest prefix that covers every bound
prefix: a value root is itself bound, and a non value root has a binding in
each of its two branches, whose bits at the root's length differ. The bindings
of each child are those in its branch. So two valid trees with the same
bindings and the same root parent link are the same tree (`Valid.eq_of_entries`),
whatever sequence of insertions and erasures built them. `clone()` copies a
well formed tree exactly, since `resetLeft` and `resetRight` rebuild the parent
links that it had.
-/

namespace Fboss

namespace RadixTreeNode

open BitPrefix

variable {w : Nat} {α : Type}

/-- `equalSansLinks`: the same prefix, the same kind of node, and for value
nodes the same value. -/
def equalSansLinks [DecidableEq α] (a b : RadixTreeNode w α) : Bool :=
  a.ipAddress == b.ipAddress && a.masklen == b.masklen && a.isValueNode == b.isValueNode &&
    (!a.isValueNode || a.value == b.value)

/-- `radixSubTreesEqual(nodeA, nodeB)`. -/
def radixSubTreesEqual [DecidableEq α] : RadixTreeNode w α → RadixTreeNode w α → Bool
  | nodeA@(node _ _ _ _ leftA rightA), nodeB@(node _ _ _ _ leftB rightB) =>
    if equalSansLinks nodeA nodeB then
      radixSubTreesEqual leftA leftB && radixSubTreesEqual rightA rightB
    else false
  | nodeA, nodeB => nodeA.isNil && nodeB.isNil

/-- `cloneSubTree(node)`: a copy of the node and of its subtrees, linked by
`resetLeft` and `resetRight`. -/
def cloneSubTree : RadixTreeNode w α → RadixTreeNode w α
  | nil => nil
  | node ip ml v _ l r =>
    ((RadixTree.makeNode ip ml v).resetLeft (cloneSubTree l)).resetRight (cloneSubTree r)

/-- A node compares equal to itself. -/
theorem radixSubTreesEqual_self [DecidableEq α] (n : RadixTreeNode w α) :
    radixSubTreesEqual n n = true := by
  induction n with
  | nil => rfl
  | node ip ml v p l r ihl ihr =>
      have hself : equalSansLinks (node ip ml v p l r) (node ip ml v p l r) = true := by
        simp [equalSansLinks]
      simp [radixSubTreesEqual, hself, ihl, ihr]

/-- A child that fits below a node already links back to it. -/
theorem setParent_of_fitsBelow {ip : BitVec w} {ml : Nat} {dir : Bool} {c : RadixTreeNode w α}
    (h : FitsBelow ip ml dir c) : c.setParent (some (ip, ml)) = c := by
  cases c with
  | nil => rfl
  | node cip cml cv cp cl cr =>
      obtain ⟨-, hcp⟩ := h
      rw [setParent_node, hcp]

/-- The copy of a valid subtree is the subtree with a null parent link: every
link below is rebuilt as it was. -/
theorem Valid.cloneSubTree {n : RadixTreeNode w α} (h : Valid n) :
    n.cloneSubTree = n.setParent none := by
  induction n with
  | nil => rfl
  | node ip ml v p l r ihl ihr =>
      obtain ⟨-, -, hfl, hfr, -, hl, hr⟩ := h
      simp only [RadixTreeNode.cloneSubTree, RadixTree.makeNode, resetLeft_node, resetRight_node,
        ihl hl, ihr hr, setParent_setParent, setParent_of_fitsBelow hfl,
        setParent_of_fitsBelow hfr, setParent_node]

/-! ### A valid tree is determined by its bindings -/

/-- A valid tree that is not empty binds something: its leaves are value nodes. -/
theorem Valid.entries_ne_nil {n : RadixTreeNode w α} (h : Valid n) (hn : n ≠ nil) :
    n.entries ≠ [] := by
  induction n with
  | nil => exact absurd rfl hn
  | node ip ml v p l r ihl ihr =>
      cases v with
      | some x => simp
      | none =>
          obtain ⟨hl, -⟩ := h.2.2.2.2.1 rfl
          have hle := ihl h.left hl
          simp only [entries_node, Option.map_none, Option.toList_none, List.nil_append, ne_eq,
            List.append_eq_nil_iff, not_and]
          exact fun hnil => absurd hnil hle

/-- The root of a valid tree covers every bound prefix. -/
theorem Valid.covers_of_mem_entries {ip : BitVec w} {ml : Nat} {v : Option α} {p}
    {l r : RadixTreeNode w α} (h : Valid (node ip ml v p l r)) {e : (BitVec w × Nat) × α}
    (he : e ∈ (node ip ml v p l r).entries) : Covers ip ml e.1.1 e.1.2 :=
  h.covers_of_mem_keys (mem_keys_of_mem_entries he)

/-- Every prefix that covers all bound prefixes of a valid tree is no longer
than its root. -/
theorem Valid.le_of_covers_entries {ip : BitVec w} {ml : Nat} {v : Option α} {p}
    {l r : RadixTreeNode w α} (h : Valid (node ip ml v p l r)) {q : BitVec w} {m : Nat}
    (hq : ∀ e ∈ (node ip ml v p l r).entries, Covers q m e.1.1 e.1.2) : m ≤ ml := by
  cases v with
  | some x =>
      -- the root is bound itself
      exact (hq ((ip, ml), x) (by simp)).1
  | none =>
      -- a binding in each branch: they differ at bit `ml`
      obtain ⟨hl, hr⟩ := h.2.2.2.2.1 rfl
      obtain ⟨a, ha⟩ := List.exists_mem_of_ne_nil _ (h.left.entries_ne_nil hl)
      obtain ⟨b, hb⟩ := List.exists_mem_of_ne_nil _ (h.right.entries_ne_nil hr)
      have hina := h.keys_left _ (mem_keys_of_mem_entries ha)
      have hinb := h.keys_right _ (mem_keys_of_mem_entries hb)
      refine Nat.le_of_not_lt fun hlt => Bool.false_ne_true ?_
      have hqa := hq a (by simp [ha])
      have hqb := hq b (by simp [hb])
      rw [← hina.2.2, ← hinb.2.2, hqa.getMsbD_eq hlt, hqb.getMsbD_eq hlt]

/-- The bindings of the left child are those in the left branch. -/
theorem Valid.mem_entries_left_iff {ip : BitVec w} {ml : Nat} {v : Option α} {p}
    {l r : RadixTreeNode w α} (h : Valid (node ip ml v p l r)) (e : (BitVec w × Nat) × α) :
    e ∈ l.entries ↔
      e ∈ (node ip ml v p l r).entries ∧ InBranch ip ml false e.1.1 e.1.2 := by
  constructor
  · intro he
    exact ⟨by simp [he], h.keys_left _ (mem_keys_of_mem_entries he)⟩
  · rintro ⟨he, hin⟩
    simp only [entries_node, List.mem_append] at he
    rcases he with he | he | he
    · -- the root is not in a branch below itself
      exfalso
      cases v <;> simp at he
      subst he
      exact hin.ne_self rfl
    · exact he
    · exact absurd (h.keys_right _ (mem_keys_of_mem_entries he)).2.2 (by rw [hin.2.2]; simp)

/-- The bindings of the right child are those in the right branch. -/
theorem Valid.mem_entries_right_iff {ip : BitVec w} {ml : Nat} {v : Option α} {p}
    {l r : RadixTreeNode w α} (h : Valid (node ip ml v p l r)) (e : (BitVec w × Nat) × α) :
    e ∈ r.entries ↔
      e ∈ (node ip ml v p l r).entries ∧ InBranch ip ml true e.1.1 e.1.2 := by
  constructor
  · intro he
    exact ⟨by simp [he], h.keys_right _ (mem_keys_of_mem_entries he)⟩
  · rintro ⟨he, hin⟩
    simp only [entries_node, List.mem_append] at he
    rcases he with he | he | he
    · exfalso
      cases v <;> simp at he
      subst he
      exact hin.ne_self rfl
    · exact absurd (h.keys_left _ (mem_keys_of_mem_entries he)).2.2 (by rw [hin.2.2]; simp)
    · exact he

/-- Two valid roots with the same bindings have the same prefix: each is the
longest prefix covering all bindings. -/
theorem Valid.key_eq_of_entries {ip ip' : BitVec w} {ml ml' : Nat} {v v' : Option α} {p p'}
    {l r l' r' : RadixTreeNode w α} (h : Valid (node ip ml v p l r))
    (h' : Valid (node ip' ml' v' p' l' r'))
    (hent : ∀ e, e ∈ (node ip ml v p l r).entries ↔ e ∈ (node ip' ml' v' p' l' r').entries) :
    ip = ip' ∧ ml = ml' := by
  have hml : ml = ml' := Nat.le_antisymm
    (h'.le_of_covers_entries fun e he => h.covers_of_mem_entries ((hent e).mpr he))
    (h.le_of_covers_entries fun e he => h'.covers_of_mem_entries ((hent e).mp he))
  subst hml
  obtain ⟨e, he⟩ := List.exists_mem_of_ne_nil _ (h.entries_ne_nil (by simp))
  exact ⟨(h.covers_of_mem_entries he).2.symm.trans (h'.covers_of_mem_entries ((hent e).mp he)).2,
    rfl⟩

/-- A valid tree is determined by its bindings and its root parent link. The
induction is on the first tree; the root prefix is fixed by the bindings, and
each child by the bindings in its branch. -/
theorem Valid.eq_of_entries {n n' : RadixTreeNode w α} (h : Valid n) (h' : Valid n')
    (hpar : n.parent = n'.parent) (hent : ∀ e, e ∈ n.entries ↔ e ∈ n'.entries) : n = n' := by
  induction n generalizing n' with
  | nil =>
      refine Classical.byContradiction fun hne => h'.entries_ne_nil (Ne.symm hne) ?_
      exact List.eq_nil_iff_forall_not_mem.mpr fun e he => by simpa using (hent e).mpr he
  | node ip ml v p l r ihl ihr =>
      cases n' with
      | nil =>
          exact absurd (List.eq_nil_iff_forall_not_mem.mpr fun e he => by simpa using (hent e).mp he)
            (h.entries_ne_nil (by simp))
      | node ip' ml' v' p' l' r' =>
          obtain ⟨rfl, rfl⟩ := h.key_eq_of_entries h' hent
          have hp : p = p' := hpar
          -- the root binding
          have hv : v = v' := by
            apply Option.ext
            intro x
            have h1 := h.mem_entries_iff (ip, ml) x
            have h2 := h'.mem_entries_iff (ip, ml) x
            rw [RadixTreeNode.findNode_self rfl, value_node] at h1 h2
            rw [← h1, ← h2]
            exact hent _
          -- the bindings of each branch
          have hentl : ∀ e, e ∈ l.entries ↔ e ∈ l'.entries := fun e => by
            rw [h.mem_entries_left_iff, h'.mem_entries_left_iff, hent]
          have hentr : ∀ e, e ∈ r.entries ↔ e ∈ r'.entries := fun e => by
            rw [h.mem_entries_right_iff, h'.mem_entries_right_iff, hent]
          -- a child that exists in one tree exists in the other, with the same link
          have hparc : ∀ {c c' : RadixTreeNode w α} {dir : Bool}, Valid c → Valid c' →
              FitsBelow ip ml dir c → FitsBelow ip ml dir c' →
              (∀ e, e ∈ c.entries ↔ e ∈ c'.entries) → c.parent = c'.parent := by
            intro c c' dir hc hc' hfc hfc' hce
            cases c with
            | nil =>
                cases c' with
                | nil => rfl
                | node _ _ _ _ _ _ =>
                    exact absurd (List.eq_nil_iff_forall_not_mem.mpr fun e he =>
                      by simpa using (hce e).mpr he) (hc'.entries_ne_nil (by simp))
            | node _ _ _ cp _ _ =>
                cases c' with
                | nil =>
                    exact absurd (List.eq_nil_iff_forall_not_mem.mpr fun e he =>
                      by simpa using (hce e).mp he) (hc.entries_ne_nil (by simp))
                | node _ _ _ cp' _ _ => exact hfc.2.trans hfc'.2.symm
          have hl := ihl h.left h'.left (hparc h.left h'.left h.2.2.1 h'.2.2.1 hentl) hentl
          have hr := ihr h.right h'.right (hparc h.right h'.right h.2.2.2.1 h'.2.2.2.1 hentr) hentr
          rw [hp, hv, hl, hr]

end RadixTreeNode

namespace RadixTree

open BitPrefix Run RadixTreeNode

variable {w : Nat} {α : Type}

/-- `clone()`: the copied root, with the copied counter. -/
def clone (t : RadixTree w α) : RadixTree w α :=
  ⟨t.root.cloneSubTree, t.size⟩

/-- `operator==`: the same counter, and equal trees node by node. -/
def equals [DecidableEq α] (t t' : RadixTree w α) : Bool :=
  t.size == t'.size && radixSubTreesEqual t.root t'.root

theorem equals_self [DecidableEq α] (t : RadixTree w α) : t.equals t = true := by
  simp [equals, radixSubTreesEqual_self]

/-- Two well formed trees with the same bindings are the same tree. -/
theorem WellFormed.eq_of_toMap {t t' : RadixTree w α} (h : t.WellFormed) (h' : t'.WellFormed)
    (hmap : t.toMap = t'.toMap) : t = t' := by
  have hent : ∀ e, e ∈ t.root.entries ↔ e ∈ t'.root.entries := fun ⟨k, x⟩ => by
    rw [h.valid.mem_entries_iff, h'.valid.mem_entries_iff]
    exact Eq.to_iff (congrArg (· = some x) (congrFun hmap k))
  have hroot := h.valid.eq_of_entries h'.valid (h.root_parent.trans h'.root_parent.symm) hent
  have hsize : t.size = t'.size := by rw [h.size_eq, h'.size_eq, hroot]
  cases t
  cases t'
  simp_all

/-- `clone()` copies a well formed tree exactly. -/
theorem WellFormed.clone_eq {t : RadixTree w α} (h : t.WellFormed) : t.clone = t := by
  have hroot : t.root.cloneSubTree = t.root := by
    rw [h.valid.cloneSubTree]
    cases hr : t.root with
    | nil => rfl
    | node ip ml v p l r =>
        have hp : p = none := by rw [← h.root_parent, hr]; rfl
        rw [setParent_node, hp]
  simp [clone, hroot]

/-- Any two sequences of operations from the empty tree that end with the same
bindings build trees that compare equal; and the clone of a tree built so
compares equal to it. -/
theorem radixTree_shape_canonical [DecidableEq α] (ops ops' : List (Op w α))
    (hops : ∀ op ∈ ops, op.masklen ≤ w) (hops' : ∀ op ∈ ops', op.masklen ≤ w)
    (hmap : (run applyOp empty ops).toMap = (run applyOp empty ops').toMap) :
    (run applyOp empty ops).equals (run applyOp empty ops') = true ∧
      (run applyOp empty ops).clone.equals (run applyOp empty ops) = true := by
  have h := wellFormed_run ops hops
  have h' := wellFormed_run ops' hops'
  refine ⟨?_, ?_⟩
  · rw [h.eq_of_toMap h' hmap]
    exact equals_self _
  · rw [h.clone_eq]
    exact equals_self _

theorem radixTree_shape_canonical_two_orders :
    (run applyOp empty [Op.insert (0b1010 : BitVec 4) 2 (), Op.insert 0b1100 4 ()]).equals
      (run applyOp empty [Op.insert (0b1100 : BitVec 4) 4 (), Op.insert 0b1010 2 ()]) = true ∧
    (run applyOp empty [Op.insert (0b1010 : BitVec 4) 2 (), Op.insert 0b1100 4 ()]).clone.equals
      (run applyOp empty [Op.insert (0b1010 : BitVec 4) 2 (), Op.insert 0b1100 4 ()]) = true :=
  radixTree_shape_canonical _ _ (by decide) (by decide) (congrArg toMap (by decide))

end RadixTree

end Fboss
