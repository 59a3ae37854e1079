import Fboss.RadixTree.Reachable

/-!
# Iterating over a radix tree

`RadixTreeIteratorImpl` walks the tree in preorder through the parent links,
with no stack: `radixTreeItrIncrement` moves down to the first child, or up
until it comes back to a node from the left and can turn right. Its loop only
tests whether to stop (`done`) after a move down, so it passes over the non
value nodes unless told to visit them.

The cursor and the `previous` pointer of the loop are keys, read in the tree
being iterated. The loop is given fuel, and is proved to end with enough of it.

The proof follows the loop through subtrees. From a node it has just reached
by a move down, the loop passes through the rest of that node's subtree in
preorder and comes back up to the node's parent after `2 * size - 1` passes
(`itrLoop_down`). From there the loop goes on in the surrounding tree, so every
increment ends at the first node after the cursor, in the preorder of the
whole tree, at which it stops (`endsWithin_of_mem`), and a loop from `begin()`
to `end()` visits these nodes in preorder (`visitAll_eq`).
-/

namespace Fboss

namespace RadixTree

open BitPrefix ListSelect RadixTreeNode

variable {w : Nat} {α : Type}

/-- `RadixTreeIteratorImpl`: the node the iterator is at (`cursor_`, null at
the end), the node at which the iteration of a subtree ends (`subTreeEnd_`),
and whether non value nodes are visited. -/
structure RadixTreeIterator (w : Nat) where
  cursor : Option (BitVec w × Nat)
  subTreeEnd : Option (BitVec w × Nat)
  includeNonValueNodes : Bool
  deriving DecidableEq, Repr

namespace RadixTreeIterator

/-- `reset()`. -/
def reset : RadixTreeIterator w :=
  ⟨none, none, false⟩

/-- `normalize()`: an iterator at the end forgets its other fields. -/
def normalize (it : RadixTreeIterator w) : RadixTreeIterator w :=
  if it.cursor = none then reset else it

/-- `atEnd()`. -/
def atEnd (it : RadixTreeIterator w) : Bool :=
  it.cursor.isNone

@[simp] theorem normalize_normalize (it : RadixTreeIterator w) :
    it.normalize.normalize = it.normalize := by
  unfold normalize
  by_cases h : it.cursor = none
  · rw [if_pos h]
    simp [reset]
  · rw [if_neg h, if_neg h]

/-- An iterator at a node is left as it is. -/
@[simp] theorem normalize_some (c : BitVec w × Nat) (se : Option (BitVec w × Nat)) (inc : Bool) :
    normalize ⟨some c, se, inc⟩ = ⟨some c, se, inc⟩ := by
  simp [normalize]

/-- An iterator at the end is `reset()`. -/
@[simp] theorem normalize_none (se : Option (BitVec w × Nat)) (inc : Bool) :
    normalize ⟨none, se, inc⟩ = (reset : RadixTreeIterator w) := by
  simp [normalize]

@[simp] theorem normalize_cursor (it : RadixTreeIterator w) : it.normalize.cursor = it.cursor := by
  unfold normalize
  by_cases h : it.cursor = none
  · rw [if_pos h, h]
    rfl
  · rw [if_neg h]

/-- A normalized iterator at no node is `reset()`. -/
theorem eq_reset_of_cursor_eq_none {it : RadixTreeIterator w} (hn : it.normalize = it)
    (hc : it.cursor = none) : it = reset := by
  rw [← hn]
  unfold normalize
  rw [if_pos hc]

end RadixTreeIterator

open RadixTreeIterator

/-- The `done` test of the loop at the cursor it moved to. -/
def isDone (root : RadixTreeNode w α) (includeNonValueNodes : Bool)
    (cursor : Option (BitVec w × Nat)) : Bool :=
  cursor.isNone || includeNonValueNodes || (root.findNode cursor).isValueNode

/-- One pass through the body of the loop of `radixTreeItrIncrement` at the
node `cursor`, once it is known not to be the end of the subtree: the new
`cursor_` and `previous`, and whether the pass reaches the `done` test (a
`continue` skips it). -/
def itrStep (root : RadixTreeNode w α) (cursor : BitVec w × Nat)
    (previous : Option (BitVec w × Nat)) :
    Option (BitVec w × Nat) × Option (BitVec w × Nat) × Bool :=
  let n := root.findNode (some cursor)
  if previous = none ∨ n.parent = previous then
    -- going down the tree
    if !n.left.isNil then (n.left.key?, some cursor, true)
    else if !n.right.isNil then (n.right.key?, some cursor, true)
    else (n.parent, some cursor, false)
  else if n.left.key? = previous then
    -- coming up the tree from the left
    if !n.right.isNil then (n.right.key?, some cursor, true)
    else (n.parent, some cursor, false)
  else if n.right.key? = previous then
    -- coming up the tree from the right
    (n.parent, some cursor, false)
  else (some cursor, previous, true)

/-- The loop `while (!done && cursor_)` of `radixTreeItrIncrement`, from
`cursor_` and `previous`, given `fuel` passes: the cursor it ends with, or
`none` if the fuel runs out first. -/
def itrLoop (root : RadixTreeNode w α) (subTreeEnd : Option (BitVec w × Nat))
    (includeNonValueNodes : Bool) :
    Nat → Option (BitVec w × Nat) → Option (BitVec w × Nat) → Option (Option (BitVec w × Nat))
  | 0, _, _ => none
  | _ + 1, none, _ => some none
  | fuel + 1, some c, previous =>
    if some c = subTreeEnd then
      -- the iteration of a subtree reached its end
      some none
    else
      match itrStep root c previous with
      | (cursor, previous', test) =>
        if test && isDone root includeNonValueNodes cursor then some cursor
        else itrLoop root subTreeEnd includeNonValueNodes fuel cursor previous'

/-- `operator++`: `radixTreeItrIncrement()` and its `normalize()`, with `fuel`
passes of the loop. -/
def increment (root : RadixTreeNode w α) (fuel : Nat) (it : RadixTreeIterator w) :
    Option (RadixTreeIterator w) :=
  (itrLoop root it.subTreeEnd it.includeNonValueNodes fuel it.cursor none).map
    fun c => normalize { it with cursor := c }

/-- `RadixTreeIteratorImpl(node, includeNonValNodes)`: an iterator at `node`,
moved on at once if it is a non value node that is not to be visited. -/
def makeItr (root : RadixTreeNode w α) (fuel : Nat) (node : RadixTreeNode w α)
    (includeNonValNodes : Bool) : Option (RadixTreeIterator w) :=
  let it : RadixTreeIterator w := ⟨node.key?, none, includeNonValNodes⟩
  if !node.isNil && !includeNonValNodes && !node.isValueNode then
    (increment root fuel it).map normalize
  else some (normalize it)

/-- Every increment leaves a normalized iterator. -/
theorem normalize_of_increment {root : RadixTreeNode w α} {fuel : Nat} {it it' : RadixTreeIterator w}
    (h : increment root fuel it = some it') : it'.normalize = it' := by
  unfold increment at h
  obtain ⟨c, -, rfl⟩ := Option.map_eq_some_iff.mp h
  exact normalize_normalize _

/-- Every iterator the constructor builds is normalized. -/
theorem normalize_of_makeItr {root node : RadixTreeNode w α} {fuel : Nat} {inc : Bool}
    {it : RadixTreeIterator w} (h : makeItr root fuel node inc = some it) : it.normalize = it := by
  unfold makeItr at h
  split_ifs at h
  · obtain ⟨it', -, rfl⟩ := Option.map_eq_some_iff.mp h
    exact normalize_normalize _
  · cases h
    exact normalize_normalize _

/-- An iterator built at a null node is at the end. -/
@[simp] theorem makeItr_nil (root : RadixTreeNode w α) (fuel : Nat) (inc : Bool) :
    makeItr root fuel nil inc = some reset := by
  simp [makeItr]

/-- `subTreeIterator()`: the same iterator, ending where the subtree of its
node ends. -/
def subTreeIterator (root : RadixTreeNode w α) (it : RadixTreeIterator w) :
    RadixTreeIterator w :=
  match it.cursor with
  | none => it
  | some c => normalize { it with subTreeEnd := (root.findNode (some c)).parent }

/-- `begin()`. -/
def begin (t : RadixTree w α) (fuel : Nat) : Option (RadixTreeIterator w) :=
  makeItr t.root fuel t.root false

/-- The cursors that `for (auto it = begin; it != end(); ++it)` passes, with
`fuel` passes of each increment's loop and at most `rounds` rounds: `it !=
end()` compares the cursor with the null cursor of `end()`. -/
def visitFrom (root : RadixTreeNode w α) (fuel : Nat) :
    Nat → RadixTreeIterator w → Option (List (BitVec w × Nat))
  | 0, _ => none
  | rounds + 1, it =>
    match it.cursor with
    | none => some []
    | some c =>
      (increment root fuel it).bind fun it' => (visitFrom root fuel rounds it').map (c :: ·)

/-- The cursors of a loop from `begin()` to `end()`. -/
def visitAll (t : RadixTree w α) (fuel rounds : Nat) : Option (List (BitVec w × Nat)) :=
  (t.begin fuel).bind (visitFrom t.root fuel rounds)

/-! ### Subtrees as the iterator sees them -/

/-- `S` is a subtree of `root` for the iterator: valid, each of its keys is read
in `S`, and its parent link points to a shorter prefix. -/
structure Subtree (root S : RadixTreeNode w α) : Prop where
  valid : Valid S
  findNode_eq : ∀ k ∈ S.keys, root.findNode (some k) = S.findNode (some k)
  parent_lt : ∀ pk, S.parent = some pk → pk.2 < S.masklen

variable {root : RadixTreeNode w α}

/-- A valid tree with a null parent link is a subtree of itself. -/
theorem subtree_root (h : Valid root) (hroot : root.parent = none) : Subtree root root :=
  ⟨h, fun _ _ => rfl, fun pk hpk => by rw [hroot] at hpk; cases hpk⟩

section Subtree

variable {ip : BitVec w} {ml : Nat} {v : Option α} {p : Option (BitVec w × Nat)}
  {l r : RadixTreeNode w α}

theorem Subtree.findNode_self (hS : Subtree root (node ip ml v p l r)) :
    root.findNode (some (ip, ml)) = node ip ml v p l r := by
  rw [hS.findNode_eq _ (by simp), RadixTreeNode.findNode_self rfl]

/-- A child fits below its node and is itself a subtree. -/
theorem Subtree.child {S : RadixTreeNode w α} (hS : Subtree root S) (dir : Bool)
    (hc : S.child dir ≠ nil)
    (hfit : FitsBelow S.ipAddress S.masklen dir (S.child dir)) (hvc : Valid (S.child dir))
    (hkeys : ∀ k ∈ (S.child dir).keys, S.findNode (some k) = (S.child dir).findNode (some k))
    (hsub : ∀ k ∈ (S.child dir).keys, k ∈ S.keys) :
    Subtree root (S.child dir) ∧ (S.child dir).parent = some (S.ipAddress, S.masklen) ∧
      S.masklen < (S.child dir).masklen := by
  cases hcd : S.child dir with
  | nil => exact absurd hcd hc
  | node cip cml cv cp cl cr =>
      rw [hcd] at hfit hvc hkeys hsub
      obtain ⟨hin, hpar⟩ := hfit
      refine ⟨⟨hvc, fun k hk => by rw [hS.findNode_eq k (hsub k hk), hkeys k hk], ?_⟩, hpar, hin.1⟩
      intro pk hpk
      rw [parent_node, hpar] at hpk
      cases hpk
      exact hin.1

theorem Subtree.left (hS : Subtree root (node ip ml v p l r)) (hl : l ≠ nil) :
    Subtree root l ∧ l.parent = some (ip, ml) ∧ ml < l.masklen :=
  hS.child false hl hS.valid.2.2.1 hS.valid.left
    (fun _ hk => hS.valid.findNode_of_mem_left hk)
    (fun _ hk => by simp only [RadixTreeNode.child, Bool.false_eq_true, if_false, left_node] at hk; simp [hk])

theorem Subtree.right (hS : Subtree root (node ip ml v p l r)) (hr : r ≠ nil) :
    Subtree root r ∧ r.parent = some (ip, ml) ∧ ml < r.masklen :=
  hS.child true hr hS.valid.2.2.2.1 hS.valid.right
    (fun _ hk => hS.valid.findNode_of_mem_right hk)
    (fun _ hk => by simp only [RadixTreeNode.child, if_true, right_node] at hk; simp [hk])

/-- The parent link of a node is not the key of a child. -/
theorem Subtree.parent_ne_child (hS : Subtree root (node ip ml v p l r)) {c : RadixTreeNode w α}
    (hc : c ≠ nil) (hlt : ml < c.masklen) : p ≠ c.key? := by
  intro hpc
  rw [key?_of_ne_nil hc] at hpc
  have := hS.parent_lt _ hpc
  simp only [masklen_node] at this
  omega

/-! ### The three moves of the loop at a node -/

/-- Going down: to the left child, else to the right child, else back up. -/
theorem itrStep_down (hS : Subtree root (node ip ml v p l r)) {previous : Option (BitVec w × Nat)}
    (hprev : previous = none ∨ previous = p) :
    itrStep root (ip, ml) previous =
      if !l.isNil then (l.key?, some (ip, ml), true)
      else if !r.isNil then (r.key?, some (ip, ml), true)
      else (p, some (ip, ml), false) := by
  have hdown : previous = none ∨ p = previous := by
    rcases hprev with h | h
    · exact Or.inl h
    · exact Or.inr h.symm
  simp only [itrStep, hS.findNode_self, left_node, right_node, parent_node, if_pos hdown]

/-- Coming up from the left child: to the right child, else further up. -/
theorem itrStep_up_left (hS : Subtree root (node ip ml v p l r)) (hl : l ≠ nil) :
    itrStep root (ip, ml) l.key? =
      if !r.isNil then (r.key?, some (ip, ml), true) else (p, some (ip, ml), false) := by
  have hnot : ¬ (l.key? = none ∨ p = l.key?) := by
    rintro (h | h)
    · exact hl (key?_eq_none_iff.mp h)
    · exact hS.parent_ne_child hl (hS.left hl).2.2 h
  simp only [itrStep, hS.findNode_self, left_node, right_node, parent_node, if_neg hnot, if_true]

/-- Coming up from the right child: further up. -/
theorem itrStep_up_right (hS : Subtree root (node ip ml v p l r)) (hr : r ≠ nil) :
    itrStep root (ip, ml) r.key? = (p, some (ip, ml), false) := by
  have hnot : ¬ (r.key? = none ∨ p = r.key?) := by
    rintro (h | h)
    · exact hr (key?_eq_none_iff.mp h)
    · exact hS.parent_ne_child hr (hS.right hr).2.2 h
  -- the two children have different keys
  have hlr : ¬ l.key? = r.key? := by
    rw [key?_of_ne_nil hr]
    cases l with
    | nil => simp
    | node lip lml lv lp ll lr =>
        have hinl : InBranch ip ml false lip lml := hS.valid.2.2.1.1
        have hinr := (valid_child hS.valid true (by simpa [child] using hr)).1
        simp only [child, if_true] at hinr
        intro heq
        exact hinl.ne_of_ne hinr Bool.false_ne_true (Option.some.inj heq)
  simp only [itrStep, hS.findNode_self, left_node, right_node, parent_node, if_neg hnot,
    if_neg hlr, if_true]

end Subtree

/-! ### The loop through a subtree -/

section Loop

variable (root) {se : Option (BitVec w × Nat)} {inc : Bool}

/-- One pass of the loop at a node that is not the end of the subtree. -/
theorem itrLoop_succ {c : BitVec w × Nat} (hse : some c ≠ se) (fuel : Nat)
    (previous : Option (BitVec w × Nat)) :
    itrLoop root se inc (fuel + 1) (some c) previous =
      match itrStep root c previous with
      | (cursor, previous', test) =>
        if test && isDone root inc cursor then some cursor
        else itrLoop root se inc fuel cursor previous' := by
  simp only [itrLoop, if_neg hse]

/-- At a node `c` it reached by a move down, the loop passes through the rest
of `c`'s subtree in preorder: it stops at the first node there that it should
stop at, or comes back up to `c`'s parent after `2 * size - 1` passes. -/
def PassesThrough (se : Option (BitVec w × Nat)) (inc : Bool) (c : RadixTreeNode w α) : Prop :=
  ∀ fuel, itrLoop root se inc (fuel + 2 * c.keys.length) c.key? c.parent =
    match c.keys.tail.find? (fun k => isDone root inc (some k)) with
    | some y => some (some y)
    | none => itrLoop root se inc (fuel + 1) c.parent c.key?

/-- Reaching a node by a move down: the loop stops there if it should, and
otherwise passes through the node's subtree. -/
theorem itrLoop_enter {c : RadixTreeNode w α} (hc : c ≠ nil) {k : BitVec w × Nat}
    (hpar : c.parent = some k) (hdown : PassesThrough root se inc c) (fuel : Nat) :
    (if isDone root inc c.key? then some c.key?
      else itrLoop root se inc (fuel + 2 * c.keys.length) c.key? (some k)) =
      match c.keys.find? (fun k => isDone root inc (some k)) with
      | some y => some (some y)
      | none => itrLoop root se inc (fuel + 1) (some k) c.key? := by
  cases c with
  | nil => exact absurd rfl hc
  | node cip cml cv cp cl cr =>
      unfold PassesThrough at hdown
      rw [parent_node] at hpar hdown
      subst hpar
      rw [key?_node, keys_node, List.find?_cons]
      by_cases hd : isDone root inc (some (cip, cml)) = true
      · simp [hd]
      · simp only [hd, Bool.false_eq_true, if_false]
        exact hdown fuel

section Node

variable {root} {ip : BitVec w} {ml : Nat} {v : Option α} {p : Option (BitVec w × Nat)}
  {l r : RadixTreeNode w α}

/-- Coming up from the right child leaves the node's subtree. -/
theorem itrLoop_up_right (hS : Subtree root (node ip ml v p l r)) (hself : some (ip, ml) ≠ se)
    (hr : r ≠ nil) (fuel : Nat) :
    itrLoop root se inc (fuel + 1) (some (ip, ml)) r.key? =
      itrLoop root se inc fuel p (some (ip, ml)) := by
  rw [itrLoop_succ root hself, itrStep_up_right hS hr]
  simp

/-- Turning right at a node: the loop passes through the right child's subtree
and then leaves the node's subtree. -/
theorem itrLoop_through_right (hS : Subtree root (node ip ml v p l r))
    (hself : some (ip, ml) ≠ se) (hR : r ≠ nil → PassesThrough root se inc r) (fuel : Nat) :
    (if !r.isNil then
      (if isDone root inc r.key? then some r.key?
        else itrLoop root se inc (fuel + 2 * r.keys.length) r.key? (some (ip, ml)))
    else itrLoop root se inc (fuel + 2 * r.keys.length) p (some (ip, ml))) =
      match r.keys.find? (fun k => isDone root inc (some k)) with
      | some y => some (some y)
      | none => itrLoop root se inc fuel p (some (ip, ml)) := by
  by_cases hr : r = nil
  · subst hr
    simp
  · simp only [isNil_eq_false hr, Bool.not_false, if_true]
    rw [itrLoop_enter root hr (hS.right hr).2.1 (hR hr) fuel]
    cases r.keys.find? (fun k => isDone root inc (some k)) with
    | some y => rfl
    | none => exact itrLoop_up_right hS hself hr fuel

/-- Coming up from the left child: through the right child's subtree, then up. -/
theorem itrLoop_up_left (hS : Subtree root (node ip ml v p l r)) (hself : some (ip, ml) ≠ se)
    (hR : r ≠ nil → PassesThrough root se inc r) (hl : l ≠ nil) (fuel : Nat) :
    itrLoop root se inc (fuel + 2 * r.keys.length + 1) (some (ip, ml)) l.key? =
      match r.keys.find? (fun k => isDone root inc (some k)) with
      | some y => some (some y)
      | none => itrLoop root se inc fuel p (some (ip, ml)) := by
  rw [itrLoop_succ root hself, itrStep_up_left hS hl, ← itrLoop_through_right hS hself hR fuel]
  by_cases hr : r = nil
  · subst hr
    simp
  · simp [isNil_eq_false hr]

end Node

/-- From a node it has just reached by a move down, or at which an increment
starts, the loop passes through the rest of the node's subtree. The induction
is on the subtree: the loop enters the left child's subtree, comes up from it,
and passes through the right child's subtree. -/
theorem itrLoop_down : ∀ (S : RadixTreeNode w α), Subtree root S → S ≠ nil →
    (∀ k ∈ S.keys, some k ≠ se) → ∀ previous, (previous = none ∨ previous = S.parent) →
    ∀ fuel, itrLoop root se inc (fuel + 2 * S.keys.length) S.key? previous =
      match S.keys.tail.find? (fun k => isDone root inc (some k)) with
      | some y => some (some y)
      | none => itrLoop root se inc (fuel + 1) S.parent S.key? := by
  intro S
  induction S with
  | nil => intro _ h; exact absurd rfl h
  | node ip ml v p l r ihl ihr =>
      intro hS _ hse previous hprev fuel
      have hself : some (ip, ml) ≠ se := hse _ (by simp)
      have hL : l ≠ nil → PassesThrough root se inc l := fun hl =>
        ihl (hS.left hl).1 hl (fun k hk => hse k (by simp [hk])) _ (Or.inr rfl)
      have hR : r ≠ nil → PassesThrough root se inc r := fun hr =>
        ihr (hS.right hr).1 hr (fun k hk => hse k (by simp [hk])) _ (Or.inr rfl)
      simp only [keys_node, List.length_cons, List.length_append, List.tail_cons,
        List.find?_append]
      show itrLoop root se inc (fuel + 2 * (l.keys.length + r.keys.length + 1)) (some (ip, ml))
          previous =
        match (l.keys.find? (fun k => isDone root inc (some k))).or
            (r.keys.find? (fun k => isDone root inc (some k))) with
        | some y => some (some y)
        | none => itrLoop root se inc (fuel + 1) p (some (ip, ml))
      rw [show fuel + 2 * (l.keys.length + r.keys.length + 1) =
        (fuel + 2 * r.keys.length + 1 + 2 * l.keys.length) + 1 by omega,
        itrLoop_succ root hself, itrStep_down hS hprev]
      by_cases hl : l = nil
      · -- no left child: straight into the right child's subtree
        subst hl
        have h := itrLoop_through_right hS hself hR (fuel + 1)
        simp only [keys_nil, List.length_nil, Nat.mul_zero, Nat.add_zero, List.find?_nil,
          Option.none_or, isNil_nil, Bool.not_true, Bool.false_eq_true, if_false]
        rw [show fuel + 2 * r.keys.length + 1 = fuel + 1 + 2 * r.keys.length by omega]
        by_cases hr : r = nil
        · subst hr
          simp
        · simp only [isNil_eq_false hr, Bool.not_false, if_true, Bool.true_and] at h ⊢
          exact h
      · simp only [isNil_eq_false hl, Bool.not_false, if_true, Bool.true_and]
        rw [itrLoop_enter root hl (hS.left hl).2.1 (hL hl)]
        cases l.keys.find? (fun k => isDone root inc (some k)) with
        | some y => rfl
        | none =>
            rw [show fuel + 2 * r.keys.length + 1 + 1 = (fuel + 1) + 2 * r.keys.length + 1 by omega,
              itrLoop_up_left hS hself hR hl (fuel + 1), Option.none_or]

end Loop

/-! ### Increments in the whole tree -/

section Increment

variable {se : Option (BitVec w × Nat)} {inc : Bool}

/-- The loop from `cursor` and `previous` ends with the cursor `r` whenever it
has at least `bound` passes. -/
def EndsWithin (root : RadixTreeNode w α) (se : Option (BitVec w × Nat)) (inc : Bool)
    (bound : Nat) (cursor previous r : Option (BitVec w × Nat)) : Prop :=
  ∀ fuel, bound ≤ fuel → itrLoop root se inc fuel cursor previous = some r

theorem EndsWithin.mono {bound bound' : Nat} {cursor previous r : Option (BitVec w × Nat)}
    (h : EndsWithin root se inc bound cursor previous r) (hle : bound ≤ bound') :
    EndsWithin root se inc bound' cursor previous r :=
  fun fuel hfuel => h fuel (Nat.le_trans hle hfuel)

/-- Coming up past the root ends the loop. -/
theorem endsWithin_none (previous : Option (BitVec w × Nat)) :
    EndsWithin root se inc 1 none previous none := by
  intro fuel hfuel
  obtain ⟨f, rfl⟩ : ∃ f, fuel = f + 1 := ⟨fuel - 1, by omega⟩
  rfl

/-- An increment from a node of a subtree `S` ends at the first node after it
at which the loop stops, in the preorder of `S` followed by `rest`, the nodes
the loop passes once it comes up from `S`. The induction is on `S`, from the
top: the nodes after the left child's subtree are the right child's and then
`rest`. -/
theorem endsWithin_of_mem : ∀ (S : RadixTreeNode w α), Subtree root S → S ≠ nil →
    (∀ k ∈ S.keys, some k ≠ se) → ∀ (rest : List (BitVec w × Nat)) (bound : Nat),
    EndsWithin root se inc bound S.parent S.key?
      (rest.find? fun k => isDone root inc (some k)) →
    ∀ x ∈ S.keys, EndsWithin root se inc (bound + 2 * S.keys.length) (some x) none
      ((after x S.keys ++ rest).find? fun k => isDone root inc (some k)) := by
  intro S
  induction S with
  | nil => intro _ h; exact absurd rfl h
  | node ip ml v p l r ihl ihr =>
      intro hS hne hse rest bound hup x hx
      have hself : some (ip, ml) ≠ se := hse _ (by simp)
      have hsel : ∀ k ∈ l.keys, some k ≠ se := fun k hk => hse k (by simp [hk])
      have hser : ∀ k ∈ r.keys, some k ≠ se := fun k hk => hse k (by simp [hk])
      simp only [keys_node, List.length_cons, List.length_append] at hx ⊢
      by_cases hxs : x = (ip, ml)
      · -- the increment starts at this node
        subst hxs
        intro fuel hfuel
        obtain ⟨f, rfl⟩ : ∃ f, fuel = f + 2 * (l.keys.length + r.keys.length + 1) :=
          ⟨fuel - 2 * (l.keys.length + r.keys.length + 1), by omega⟩
        have hdown := @itrLoop_down w α root se inc (node ip ml v p l r) hS hne hse none (Or.inl rfl) f
        simp only [keys_node, List.length_cons, List.length_append, List.tail_cons] at hdown
        rw [after_cons_self, List.find?_append]
        refine hdown.trans ?_
        cases (l.keys ++ r.keys).find? (fun k => isDone root inc (some k)) with
        | some y => rfl
        | none => exact hup (f + 1) (by omega)
      · rw [after_cons_of_ne (Ne.symm hxs)] at ⊢
        have hxlr : x ∈ l.keys ∨ x ∈ r.keys := by simpa [hxs] using hx
        by_cases hxl : x ∈ l.keys
        · -- in the left child's subtree: then the right child's, then `rest`
          have hl : l ≠ nil := fun hl => by subst hl; simp at hxl
          obtain ⟨hSl, hpar, -⟩ := hS.left hl
          have hupl : EndsWithin root se inc (bound + 2 * r.keys.length + 1) l.parent l.key?
              ((r.keys ++ rest).find? fun k => isDone root inc (some k)) := by
            intro fuel hfuel
            obtain ⟨f, rfl⟩ : ∃ f, fuel = f + 2 * r.keys.length + 1 :=
              ⟨fuel - (2 * r.keys.length + 1), by omega⟩
            rw [hpar, itrLoop_up_left hS hself
              (fun hr => @itrLoop_down w α root se inc r (hS.right hr).1 hr hser _ (Or.inr rfl)) hl f,
              List.find?_append]
            cases r.keys.find? (fun k => isDone root inc (some k)) with
            | some y => rfl
            | none => exact hup f (by omega)
          have h := ihl hSl hl hsel (r.keys ++ rest) _ hupl x hxl
          rw [after_append_of_mem hxl, List.append_assoc]
          exact h.mono (by omega)
        · -- in the right child's subtree: then `rest`
          have hxr : x ∈ r.keys := hxlr.resolve_left hxl
          have hr : r ≠ nil := fun hr => by subst hr; simp at hxr
          obtain ⟨hSr, hpar, -⟩ := hS.right hr
          have hupr : EndsWithin root se inc (bound + 1) r.parent r.key?
              (rest.find? fun k => isDone root inc (some k)) := by
            intro fuel hfuel
            obtain ⟨f, rfl⟩ : ∃ f, fuel = f + 1 := ⟨fuel - 1, by omega⟩
            rw [hpar, itrLoop_up_right hS hself hr f]
            exact hup f (by omega)
          have h := ihr hSr hr hser rest _ hupr x hxr
          rw [after_append_of_not_mem hxl]
          exact h.mono (by omega)

/-- In a valid tree with a null root parent link, an increment from any node
ends, within `2 * size + 1` passes, at the first node after it in preorder at
which it stops, or at the end. -/
theorem endsWithin_increment (h : Valid root) (hroot : root.parent = none)
    {x : BitVec w × Nat} (hx : x ∈ root.keys) :
    EndsWithin root none inc (2 * root.keys.length + 1) (some x) none
      ((after x root.keys).find? fun k => isDone root inc (some k)) := by
  have hne : root ≠ nil := fun hnil => by subst hnil; simp at hx
  have hup : EndsWithin root none inc 1 root.parent root.key?
      (([] : List (BitVec w × Nat)).find? fun k => isDone root inc (some k)) := by
    rw [hroot]
    exact endsWithin_none _
  have h' := endsWithin_of_mem root (subtree_root h hroot) hne (fun k _ => by simp) [] 1 hup x hx
  rw [List.append_nil] at h'
  exact h'.mono (by omega)

end Increment

/-! ### A loop from `begin()` to `end()` -/

section Visit

variable {se : Option (BitVec w × Nat)} {inc : Bool}

/-- A loop `for (; it != end(); ++it)` from a node `x` of a list `L` of
distinct nodes, in which every increment moves to the first node after the
cursor that it stops at: the loop passes `x` and then those nodes, in order.
The induction is on the rounds. -/
theorem visitFrom_eq {L : List (BitVec w × Nat)} (hnd : L.Nodup) {bound : Nat}
    (hinc : ∀ x ∈ L, EndsWithin root se inc bound (some x) none
      ((after x L).find? fun k => isDone root inc (some k))) :
    ∀ rounds x, x ∈ L → (after x L).length + 2 ≤ rounds → ∀ fuel, bound ≤ fuel →
      visitFrom root fuel rounds ⟨some x, se, inc⟩ =
        some (x :: (after x L).filter fun k => isDone root inc (some k)) := by
  intro rounds
  induction rounds with
  | zero => intro x _ hr; omega
  | succ n ih =>
      intro x hx hr fuel hfuel
      have hstep : increment root fuel ⟨some x, se, inc⟩ =
          some (⟨(after x L).find? (fun k => isDone root inc (some k)), se, inc⟩ :
            RadixTreeIterator w).normalize := by
        simp [increment, hinc x hx fuel hfuel]
      simp only [visitFrom, hstep, Option.bind_some]
      cases hy : (after x L).find? (fun k => isDone root inc (some k)) with
      | none =>
          -- the increment reached the end
          obtain ⟨m, rfl⟩ : ∃ m, n = m + 1 := ⟨n - 1, by omega⟩
          simp [reset, visitFrom, filter_eq_nil_of_find?_eq_none hy]
      | some y =>
          have hyL : y ∈ L := by
            obtain ⟨pre, hpre⟩ := exists_eq_append_after hx
            rw [hpre]
            simp [List.mem_of_find?_eq_some hy]
          have hlen := length_after_lt hnd hx (List.mem_of_find?_eq_some hy)
          rw [normalize_some, ih y hyL (by omega) fuel hfuel, filter_after_of_find? hnd hx hy]
          rfl

/-- From `begin()` to `end()` a loop over a valid tree with a null root parent
link passes the nodes at which the iterator stops, in preorder, each once. -/
theorem visitFrom_makeItr (h : Valid root) (hroot : root.parent = none) {fuel rounds : Nat}
    (hfuel : 2 * root.keys.length + 1 ≤ fuel) (hrounds : root.keys.length + 2 ≤ rounds) :
    (makeItr root fuel root false).bind (visitFrom root fuel rounds) =
      some (root.keys.filter fun k => isDone root false (some k)) := by
  have hnd := h.nodup_keys
  have hinc : ∀ x ∈ root.keys, EndsWithin root none false (2 * root.keys.length + 1) (some x) none
      ((after x root.keys).find? fun k => isDone root false (some k)) :=
    fun x hx => endsWithin_increment h hroot hx
  have hvisit := visitFrom_eq hnd hinc
  cases root with
  | nil =>
      obtain ⟨m, rfl⟩ : ∃ m, rounds = m + 1 := ⟨rounds - 1, by omega⟩
      simp [makeItr, reset, visitFrom]
  | node ip ml v p l r =>
      have hD : isDone (node ip ml v p l r) false (some (ip, ml)) = v.isSome := by
        simp [isDone, RadixTreeNode.findNode_self]
      have hlen : (after (ip, ml) (node ip ml v p l r).keys).length + 2 ≤ rounds := by
        simp only [keys_node, after_cons_self, List.length_cons, List.length_append] at hrounds ⊢
        omega
      cases v with
      | some x =>
          -- a value root: the loop starts there
          simp only [makeItr, isNil_node, isValueNode_node, Option.isSome_some,
            Bool.not_false, Bool.not_true, Bool.and_false, Bool.false_eq_true, if_false,
            Option.bind_some]
          rw [normalize_some, hvisit rounds (ip, ml) (by simp) hlen fuel hfuel, keys_node,
            List.filter_cons_of_pos (by rw [hD]; rfl), after_cons_self]
      | none =>
          -- a non value root: the constructor moves on at once
          have hstep : increment (node ip ml none p l r) fuel ⟨some (ip, ml), none, false⟩ =
              some (⟨(after (ip, ml) (node ip ml none p l r).keys).find?
                (fun k => isDone (node ip ml none p l r) false (some k)), none, false⟩ :
                  RadixTreeIterator w).normalize := by
            simp [increment, hinc (ip, ml) (by simp) fuel hfuel]
          simp only [makeItr, isNil_node, isValueNode_node, Option.isSome_none,
            Bool.not_false, Bool.and_self, if_true, hstep, Option.map_some, Option.bind_some]
          have hfilter : (node ip ml none p l r).keys.filter
              (fun k => isDone (node ip ml none p l r) false (some k)) =
              (after (ip, ml) (node ip ml none p l r).keys).filter
                (fun k => isDone (node ip ml none p l r) false (some k)) := by
            rw [keys_node, after_cons_self, List.filter_cons_of_neg (by rw [hD]; simp)]
          rw [hfilter]
          cases hy : (after (ip, ml) (node ip ml none p l r).keys).find?
              (fun k => isDone (node ip ml none p l r) false (some k)) with
          | none =>
              obtain ⟨m, rfl⟩ : ∃ m, rounds = m + 1 := ⟨rounds - 1, by omega⟩
              rw [filter_eq_nil_of_find?_eq_none hy]
              simp [reset, visitFrom]
          | some y =>
              have hymem := List.mem_of_find?_eq_some hy
              have hyL : y ∈ (node ip ml none p l r).keys := by
                rw [keys_node, after_cons_self] at hymem
                simp [hymem]
              have hlen' := length_after_lt hnd (by simp) hymem
              rw [normalize_normalize, normalize_some, hvisit rounds y hyL (by omega) fuel hfuel,
                filter_after_of_find? hnd (by simp) hy]

/-- `begin()` to `end()`: the cursors of the loop are the keys of the value
nodes, in preorder. -/
theorem visitAll_eq {t : RadixTree w α} (h : Valid t.root) (hroot : t.root.parent = none)
    {fuel rounds : Nat} (hfuel : 2 * t.root.keys.length + 1 ≤ fuel)
    (hrounds : t.root.keys.length + 2 ≤ rounds) :
    t.visitAll fuel rounds = some (t.root.keys.filter fun k => isDone t.root false (some k)) :=
  visitFrom_makeItr h hroot hfuel hrounds

end Visit

/-! ### A loop over a subtree -/

section SubTree

variable {root : RadixTreeNode w α} {inc : Bool}

/-- The node of a key of a subtree is a subtree; the induction follows
`findNode` down from the subtree's top. -/
theorem Subtree.findNode_of_mem : ∀ {S : RadixTreeNode w α}, Subtree root S →
    ∀ {x : BitVec w × Nat}, x ∈ S.keys → Subtree root (S.findNode (some x))
  | nil, _, _, hx => by simp at hx
  | node ip ml v p l r, hS, x, hx => by
    by_cases hself : (ip, ml) = x
    · subst hself
      rw [RadixTreeNode.findNode_self rfl]
      exact hS
    · by_cases hl : x ∈ l.keys
      · have hlne : l ≠ nil := fun h => by subst h; simp at hl
        rw [hS.valid.findNode_of_mem_left hl]
        exact Subtree.findNode_of_mem (hS.left hlne).1 hl
      · have hr : x ∈ r.keys := by
          simp only [keys_node, List.mem_cons, List.mem_append] at hx
          rcases hx with h | h | h
          · exact absurd h.symm hself
          · exact absurd h hl
          · exact h
        have hrne : r ≠ nil := fun h => by subst h; simp at hr
        rw [hS.valid.findNode_of_mem_right hr]
        exact Subtree.findNode_of_mem (hS.right hrne).1 hr

/-- The parent link of a subtree's top is no key of the subtree: it is shorter
than the top, which covers every key below. -/
theorem Subtree.keys_ne_parent {S : RadixTreeNode w α} (hS : Subtree root S) :
    ∀ k ∈ S.keys, some k ≠ S.parent := by
  intro k hk hkp
  cases S with
  | nil => simp at hk
  | node ip ml v p l r =>
    have hlt := hS.parent_lt k hkp.symm
    have hle := (hS.valid.covers_of_mem_keys hk).1
    simp only [masklen_node] at hlt
    omega

/-- An increment of an iterator over the subtree `S` ends at the first node
after the cursor, in the preorder of `S`, at which it stops, or at the end of
the subtree. -/
theorem endsWithin_subtree {S : RadixTreeNode w α} (hS : Subtree root S) {x : BitVec w × Nat}
    (hx : x ∈ S.keys) :
    EndsWithin root S.parent inc (2 * S.keys.length + 1) (some x) none
      ((after x S.keys).find? fun k => isDone root inc (some k)) := by
  have hne : S ≠ nil := fun hnil => by subst hnil; simp at hx
  -- coming up from the top reaches the end of the subtree at once
  have hup : EndsWithin root S.parent inc 1 S.parent S.key?
      (([] : List (BitVec w × Nat)).find? fun k => isDone root inc (some k)) := by
    intro fuel hfuel
    obtain ⟨f, rfl⟩ : ∃ f, fuel = f + 1 := ⟨fuel - 1, by omega⟩
    cases hp : S.parent with
    | none => rfl
    | some pk => simp [itrLoop]
  have h := endsWithin_of_mem S hS hne hS.keys_ne_parent [] 1 hup x hx
  rw [List.append_nil] at h
  exact h.mono (by omega)

/-- `subTreeIterator()` of an iterator at a node: it ends at the node's parent. -/
theorem subTreeIterator_of_cursor {it : RadixTreeIterator w} {x : BitVec w × Nat}
    (hcur : it.cursor = some x) :
    subTreeIterator root it = ⟨some x, (root.findNode (some x)).parent, it.includeNonValueNodes⟩ := by
  obtain ⟨c, se, inc⟩ := it
  simp only at hcur
  subst hcur
  simp [subTreeIterator, RadixTreeIterator.normalize]

/-- `subTreeIterator()` of an iterator at a node `x` where it stops: the loop
to `end()` passes, in preorder and each once, the nodes of `x`'s subtree at
which the iterator stops. -/
theorem visitFrom_subTreeIterator (h : Valid root) (hroot : root.parent = none)
    {it : RadixTreeIterator w} {x : BitVec w × Nat} (hcur : it.cursor = some x)
    (hx : x ∈ root.keys) (hdone : isDone root it.includeNonValueNodes (some x))
    {fuel rounds : Nat} (hfuel : 2 * root.keys.length + 1 ≤ fuel)
    (hrounds : root.keys.length + 2 ≤ rounds) :
    visitFrom root fuel rounds (subTreeIterator root it) =
      some ((root.findNode (some x)).keys.filter
        fun k => isDone root it.includeNonValueNodes (some k)) := by
  have hS := (subtree_root h hroot).findNode_of_mem hx
  have hkey := key?_findNode_of_mem hx
  have hlen : (root.findNode (some x)).keys.length ≤ root.keys.length :=
    (hS.valid.nodup_keys.subperm (keys_findNode_subset _ root)).length_le
  rw [subTreeIterator_of_cursor hcur]
  generalize root.findNode (some x) = S at hS hkey hlen
  cases S with
  | nil => simp at hkey
  | node ip ml v p l r =>
    simp only [Option.some.injEq] at hkey
    subst hkey
    have hinc : ∀ y ∈ (node ip ml v p l r).keys,
        EndsWithin root p it.includeNonValueNodes (2 * (node ip ml v p l r).keys.length + 1)
          (some y) none ((after y (node ip ml v p l r).keys).find?
            fun k => isDone root it.includeNonValueNodes (some k)) :=
      fun y hy => endsWithin_subtree hS hy
    have hvisit := visitFrom_eq hS.valid.nodup_keys hinc rounds (ip, ml) (by simp)
      (by simp only [keys_node, after_cons_self, List.length_cons] at hlen ⊢; omega) fuel
      (by omega)
    rw [parent_node, hvisit, keys_node, after_cons_self,
      List.filter_cons_of_pos (p := fun k => isDone root it.includeNonValueNodes (some k)) hdone]

@[simp] theorem isDone_some (inc : Bool) (k : BitVec w × Nat) :
    isDone root inc (some k) = (inc || (root.findNode (some k)).isValueNode) := by
  simp [isDone]

/-- The nodes of a subtree at which an iterator stops: every node when non
value nodes are visited, else the value nodes, in preorder. -/
theorem Subtree.filter_isDone {S : RadixTreeNode w α} (hS : Subtree root S) :
    S.keys.filter (fun k => isDone root inc (some k)) =
      if inc then S.keys else S.entries.map Prod.fst := by
  cases inc with
  | true => simp
  | false =>
    -- a key of the subtree is read in the subtree
    rw [if_neg Bool.false_ne_true, ← hS.valid.keys_filter_isValueNode]
    refine List.filter_congr fun k hk => ?_
    rw [isDone_some, hS.findNode_eq k hk, Bool.false_or]

/-- A pass of the loop from a node of the tree moves to a child of the node,
to its parent, or stays: to a node of the tree or to the end. -/
theorem itrStep_mem_keys (hv : Valid root) (hroot : root.parent = none) {c : BitVec w × Nat}
    (hc : c ∈ root.keys) (previous : Option (BitVec w × Nat)) {y : BitVec w × Nat}
    (hy : (itrStep root c previous).1 = some y) : y ∈ root.keys := by
  -- the parent link of a node of the tree is null or a node of the tree
  have hpar : (root.findNode (some c)).parent = some y → y ∈ root.keys := by
    intro hp
    rcases hv.findNode_parent hroot hc with ⟨hnone, -⟩ | ⟨pk, hpk, hmem, -⟩
    · rw [hnone] at hp
      cases hp
    · rw [hpk] at hp
      cases hp
      exact hmem
  have hsub := keys_findNode_subset (some c) root
  -- the children of a node are in its subtree
  have hl : ∀ n : RadixTreeNode w α, ∀ k ∈ n.left.keys, k ∈ n.keys := by
    intro n k hk
    cases n with
    | nil => simp at hk
    | node ip ml v p l r => simp only [left_node] at hk; simp [hk]
  have hr : ∀ n : RadixTreeNode w α, ∀ k ∈ n.right.keys, k ∈ n.keys := by
    intro n k hk
    cases n with
    | nil => simp at hk
    | node ip ml v p l r => simp only [right_node] at hk; simp [hk]
  simp only [itrStep] at hy
  split_ifs at hy <;> simp only at hy
  all_goals first
    | exact hsub y (hl _ y (mem_keys_of_key? hy))
    | exact hsub y (hr _ y (mem_keys_of_key? hy))
    | exact hpar hy
    | exact Option.some.inj hy ▸ hc

/-- The loop from a node of the tree stops only at a node of the tree at which
it should stop. The induction is on the passes. -/
theorem itrLoop_stopsAt (hv : Valid root) (hroot : root.parent = none)
    {se : Option (BitVec w × Nat)} :
    ∀ (fuel : Nat) (cursor previous : Option (BitVec w × Nat)) (y : BitVec w × Nat),
      (∀ c ∈ cursor, c ∈ root.keys) → itrLoop root se inc fuel cursor previous = some (some y) →
        y ∈ root.keys ∧ isDone root inc (some y)
  | 0, _, _, _, _, h => by simp [itrLoop] at h
  | _ + 1, none, _, _, _, h => by simp [itrLoop] at h
  | fuel + 1, some c, previous, y, hc, h => by
    rcases hstep : itrStep root c previous with ⟨cursor', previous', test⟩
    have hc' : ∀ c' ∈ cursor', c' ∈ root.keys := fun c' hc' =>
      itrStep_mem_keys hv hroot (hc c rfl) previous (by rw [hstep]; exact hc')
    simp only [itrLoop, hstep] at h
    split_ifs at h with hse hstop
    · -- the end of the subtree ends the loop with no node
      simp at h
    · obtain rfl := Option.some.inj h
      exact ⟨hc' y rfl, (Bool.and_eq_true_iff.mp hstop).2⟩
    · exact itrLoop_stopsAt hv hroot fuel cursor' previous' y hc' h

/-- An increment from a node of the tree leaves the iterator at a node of the
tree where it stops, or at the end. -/
theorem increment_stopsAt (hv : Valid root) (hroot : root.parent = none) {fuel : Nat}
    {it it' : RadixTreeIterator w} (hc : ∀ c ∈ it.cursor, c ∈ root.keys)
    (h : increment root fuel it = some it') {y : BitVec w × Nat} (hy : it'.cursor = some y) :
    it'.includeNonValueNodes = it.includeNonValueNodes ∧ y ∈ root.keys ∧
      isDone root it.includeNonValueNodes (some y) := by
  simp only [increment, Option.map_eq_some_iff] at h
  obtain ⟨c, hloop, rfl⟩ := h
  rw [normalize_cursor] at hy
  subst hy
  exact ⟨by simp [RadixTreeIterator.normalize], itrLoop_stopsAt hv hroot fuel _ _ y hc hloop⟩

/-- The constructor at a node of the tree leaves the iterator at a node of the
tree where it stops, or at the end: at the node it is given, unless that is a
non value node not to be visited. -/
theorem makeItr_stopsAt (hv : Valid root) (hroot : root.parent = none) {fuel : Nat}
    {x : BitVec w × Nat} (hx : x ∈ root.keys) {inc : Bool} {it : RadixTreeIterator w}
    (h : makeItr root fuel (root.findNode (some x)) inc = some it)
    {y : BitVec w × Nat} (hy : it.cursor = some y) :
    it.includeNonValueNodes = inc ∧ y ∈ root.keys ∧ isDone root inc (some y) := by
  have hkey := key?_findNode_of_mem hx
  have hnil : (root.findNode (some x)).isNil = false := by
    cases hn : root.findNode (some x) with
    | nil => rw [hn] at hkey; simp at hkey
    | node => rfl
  unfold makeItr at h
  split_ifs at h with hskip
  · -- a non value node not to be visited: the constructor increments
    simp only [Option.map_eq_some_iff] at h
    obtain ⟨it', hinc, rfl⟩ := h
    rw [normalize_cursor] at hy
    obtain ⟨hsame, hmem, hdone⟩ :=
      increment_stopsAt hv hroot (fun c hc => by simp_all) hinc hy
    exact ⟨by simp [RadixTreeIterator.normalize, hy, hsame], hmem, hdone⟩
  · obtain rfl := Option.some.inj h
    rw [normalize_cursor] at hy
    simp only at hy
    rw [hkey] at hy
    obtain rfl := Option.some.inj hy
    refine ⟨by simp [RadixTreeIterator.normalize, hkey], hx, ?_⟩
    -- not skipped: the iterator visits non value nodes, or this one has a value
    rw [hnil] at hskip
    rw [isDone_some]
    cases inc <;> cases hv : (root.findNode (some x)).isValueNode <;> simp_all

/-- The iterators that the constructor at a node of the tree, `operator++` and
`subTreeIterator()` build. -/
inductive Built (root : RadixTreeNode w α) : RadixTreeIterator w → Prop
  | make {fuel : Nat} {x : BitVec w × Nat} {inc : Bool} {it : RadixTreeIterator w} :
      x ∈ root.keys → makeItr root fuel (root.findNode (some x)) inc = some it → Built root it
  | next {fuel : Nat} {it it' : RadixTreeIterator w} :
      Built root it → increment root fuel it = some it' → Built root it'
  | subTree {it : RadixTreeIterator w} : Built root it → Built root (subTreeIterator root it)

/-- A built iterator is at a node of the tree where it stops, or at the end. -/
theorem Built.stopsAt (hv : Valid root) (hroot : root.parent = none) {it : RadixTreeIterator w}
    (hb : Built root it) :
    ∀ y ∈ it.cursor, y ∈ root.keys ∧ isDone root it.includeNonValueNodes (some y) := by
  induction hb with
  | make hx hmk =>
    intro y hy
    obtain ⟨hinc, hmem, hdone⟩ := makeItr_stopsAt hv hroot hx hmk hy
    exact ⟨hmem, hinc ▸ hdone⟩
  | next _ hinc ih =>
    intro y hy
    obtain ⟨hsame, hmem, hdone⟩ := increment_stopsAt hv hroot (fun c hc => (ih c hc).1) hinc hy
    exact ⟨hmem, hsame ▸ hdone⟩
  | @subTree it _ ih =>
    intro y hy
    cases hcur : it.cursor with
    | none => simp [subTreeIterator, hcur] at hy
    | some x =>
      rw [subTreeIterator_of_cursor hcur] at hy ⊢
      obtain rfl := Option.some.inj hy
      exact ih x hcur

/-- In a well formed tree, with enough passes of each increment's loop and
enough rounds, the loop from `subTreeIterator()` of every iterator the API
builds at a node `x` ends, and passes each once and in preorder the value
nodes of the subtree of `x`, or all its nodes when the iterator visits non
value nodes; the loop from `begin()` passes the value nodes of the tree in
preorder. -/
theorem subTreeIterator_visits_subtree (t : RadixTree w α) (ht : t.WellFormed) :
    ∃ bound, ∀ fuel rounds, bound ≤ fuel → bound ≤ rounds →
      (∀ (it : RadixTreeIterator w) (x : BitVec w × Nat), Built t.root it →
        it.cursor = some x →
        ∃ L, visitFrom t.root fuel rounds (subTreeIterator t.root it) = some L ∧ L.Nodup ∧
          L = if it.includeNonValueNodes then (t.root.findNode (some x)).keys
            else (t.root.findNode (some x)).entries.map Prod.fst) ∧
      t.visitAll fuel rounds = some (t.root.entries.map Prod.fst) := by
  have hT := subtree_root ht.valid ht.root_parent
  refine ⟨2 * t.root.keys.length + 2, fun fuel rounds hfuel hrounds => ⟨?_, ?_⟩⟩
  · intro it x hb hcur
    obtain ⟨hx, hdone⟩ := hb.stopsAt ht.valid ht.root_parent x hcur
    have hS := hT.findNode_of_mem hx
    exact ⟨_, visitFrom_subTreeIterator ht.valid ht.root_parent hcur hx hdone (by omega)
      (by omega), hS.valid.nodup_keys.filter _, hS.filter_isDone⟩
  · rw [visitAll_eq ht.valid ht.root_parent (by omega) (by omega), hT.filter_isDone, if_neg (by simp)]

theorem subTreeIterator_visits_subtree_after_inserts :
    let t := Run.run applyOp empty [Op.insert (0b1010 : BitVec 4) 2 (), Op.insert 0b1100 4 (),
      Op.insert 0b1000 1 ()]
    ∃ bound, ∀ fuel rounds, bound ≤ fuel → bound ≤ rounds →
      t.visitAll fuel rounds = some (t.root.entries.map Prod.fst) :=
  let ⟨bound, h⟩ := subTreeIterator_visits_subtree _ (wellFormed_run _ (by decide))
  ⟨bound, fun fuel rounds hfuel hrounds => (h fuel rounds hfuel hrounds).2⟩

end SubTree

/-! ### The tree as a finite map -/

open Run PartialMap in
/-- A radix tree built by `insert` and `erase` from the empty tree refines the
finite map that the same operations build from the empty map: `exactMatch`
reads the map; `insert` adds a binding exactly when the prefix is unbound and
returns the node of the prefix, the tree being unchanged otherwise; `erase`
removes a binding exactly when there is one; `size_` counts the bindings; and a
loop from `begin()` to `end()` passes every bound prefix once and nothing else. -/
theorem radixTree_refines_map (ops : List (Op w α)) (hops : ∀ op ∈ ops, op.masklen ≤ w) :
    let t := run applyOp empty ops
    let M := run applyOpToMap PartialMap.empty ops
    t.toMap = M ∧
      (∀ ipaddr masklen,
        (∀ x, ((t.exactMatch ipaddr masklen).isValueNode = true ∧
            (t.exactMatch ipaddr masklen).value = some x) ↔
          M (IPAddress.mask ipaddr masklen, masklen) = some x) ∧
        (t.exactMatch ipaddr masklen = nil ↔ M (IPAddress.mask ipaddr masklen, masklen) = none)) ∧
      (∀ ipaddr mask value, mask ≤ w →
        let r := t.insert ipaddr mask value
        let k := (IPAddress.mask ipaddr mask, mask)
        r.2.2 = (M k).isNone ∧ r.1.toMap = insertIfAbsent M k value ∧
          r.2.1.key? = some k ∧ r.2.1.value = insertIfAbsent M k value k ∧
          (M k ≠ none → r.1 = t)) ∧
      (∀ ipaddr masklen,
        let r := t.erase ipaddr masklen
        let k := (IPAddress.mask ipaddr masklen, masklen)
        r.2 = (M k).isSome ∧ r.1.toMap = PartialMap.erase M k) ∧
      t.size = (support M).ncard ∧
      ∃ bound, ∀ fuel rounds, bound ≤ fuel → bound ≤ rounds →
        ∃ ks, t.visitAll fuel rounds = some ks ∧ ks.Nodup ∧
          (∀ k, k ∈ ks ↔ M k ≠ none) ∧ ∀ k ∈ ks, (t.root.findNode (some k)).value = M k := by
  intro t M
  have h : t.WellFormed := wellFormed_run ops hops
  have hM : t.toMap = M := toMap_run ops hops
  refine ⟨hM, ?_, ?_, ?_, ?_, ?_⟩
  · -- (a) exact matches read the map
    intro ipaddr masklen
    obtain ⟨hval, hnil⟩ := exactMatch_value h.valid ipaddr masklen
    rw [← hM]
    refine ⟨fun x => ⟨fun ⟨_, hx⟩ => hval.symm.trans hx, fun hx => ?_⟩, hnil⟩
    have hx' := hval.trans hx
    exact ⟨by simp [isValueNode, hx'], hx'⟩
  · -- (b) insertion
    intro ipaddr mask value hlen
    dsimp only
    obtain ⟨-, -, -, -, hnode, hres⟩ := insert_spec h.valid ipaddr mask hlen value
    have hins := toMap_insert h ipaddr mask hlen value
    rw [← hM]
    generalize hk : (IPAddress.mask ipaddr mask, mask) = k at hnode hres hins
    -- the prefix is bound in the new tree: it names the node returned
    have hbound : (t.insert ipaddr mask value).1.toMap k ≠ none := by
      rw [hins, insertIfAbsent_apply]
      by_cases hnone : t.toMap k = none <;> simp [hnone]
    refine ⟨hres, hins, ?_, ?_, fun hpresent => ?_⟩
    · rw [hnode]
      exact key?_findNode_of_mem ((toMap_ne_none_iff _ k).mp hbound).1
    · rw [hnode, ← hins]
      rfl
    · subst hk
      have hv : (t.root.findNode (some (IPAddress.mask ipaddr mask, mask))).isValueNode = true := by
        simpa [isValueNode, Option.isSome_iff_ne_none, toMap] using hpresent
      rw [insert_of_isValueNode h.valid ipaddr mask value hv]
  · -- (c) erasure
    intro ipaddr masklen
    obtain ⟨-, -, hres⟩ := erase_spec h ipaddr masklen
    rw [← hM]
    exact ⟨hres, toMap_erase h ipaddr masklen⟩
  · -- (d) the counter
    rw [← hM]
    exact h.size_eq_ncard
  · -- (e) iteration
    refine ⟨2 * t.root.keys.length + 2, fun fuel rounds hfuel hrounds => ?_⟩
    have hdone : (fun k => isDone t.root false (some k)) =
        fun k => (t.root.findNode (some k)).isValueNode := by
      funext k
      simp [isDone]
    refine ⟨t.root.entries.map Prod.fst, ?_, h.valid.nodup_entries_keys, fun k => ?_,
      fun k _ => by rw [← hM]; rfl⟩
    · rw [visitAll_eq h.valid h.root_parent (by omega) (by omega), hdone,
        h.valid.keys_filter_isValueNode]
    · rw [← h.enumerates.mem_support_iff k, ← hM]
      simp [support, Option.isSome_iff_ne_none]

theorem radixTree_refines_map_after_inserts :
    (Run.run applyOp empty [Op.insert (0b1010 : BitVec 4) 2 (), Op.insert 0b1100 4 (),
        Op.erase 0b1000 2]).toMap =
      Run.run applyOpToMap PartialMap.empty [Op.insert (0b1010 : BitVec 4) 2 (),
        Op.insert 0b1100 4 (), Op.erase 0b1000 2] :=
  (radixTree_refines_map _ (by decide)).1

end RadixTree

end Fboss
