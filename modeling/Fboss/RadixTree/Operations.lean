import Fboss.RadixTree.Node

/-!
# Radix tree lookups, insertion and erasure

The operations of `RadixTree-inl.h`, translated statement by statement.

`longestMatchImpl` walks down from the root. Its `while` loop becomes the
structural recursion `longestMatchLoop`, which carries the loop's `parent` and
`lastValueNodeSeen` pointers and the trail. `insert` asks it for the deepest
node covering the new prefix (non value nodes included) and then takes one of
the five structural cases of the source. `eraseNode` takes one of the six cases
of `erase(TreeNode*)`, reading the parent and grandparent through the parent
links as the source does.

A write through a raw pointer into the tree is `modifyNode` at the pointer's
key. Where the source first links a fresh node into the tree and then keeps
writing through its raw pointer (`internalNodeRaw->resetLeft(...)`), the
fresh node is built first and linked once: the resulting tree is the same.
The `CHECK`s of the source are not modelled; the invariant proofs show that
they hold.
-/

namespace Fboss

namespace RadixTree

open RadixTreeNode

variable {w : Nat} {α : Type}

/-- What `longestMatchImpl` hands back: the node it returns, its `foundExact`
out parameter, and the trail it appended to. -/
structure MatchResult (w : Nat) (α : Type) where
  node : RadixTreeNode w α
  foundExact : Bool
  trail : List (RadixTreeNode w α)

/-- `trailAppend`: record a node on the trail, unless it is a non value node and
those are not wanted. -/
def trailAppend (trail : List (RadixTreeNode w α)) (includeNonValueNodes : Bool)
    (n : RadixTreeNode w α) : List (RadixTreeNode w α) :=
  if includeNonValueNodes || n.isValueNode then trail ++ [n] else trail

/-- The `while (curNode && !done)` loop of `longestMatchImpl`, entered at
`curNode` with the loop's `parent` and `lastValueNodeSeen` pointers and the
trail so far. It returns `curNode` and `lastValueNodeSeen` as the loop leaves
them, `foundExact`, and the trail. -/
def longestMatchLoop (toMatch : BitVec w) (masklen : Nat) (includeNonValueNodes : Bool) :
    RadixTreeNode w α → RadixTreeNode w α → RadixTreeNode w α → List (RadixTreeNode w α) →
      RadixTreeNode w α × RadixTreeNode w α × Bool × List (RadixTreeNode w α)
  | nil, _, lastValueNodeSeen, trail => (nil, lastValueNodeSeen, false, trail)
  | curNode@(node _ _ _ _ l r), parent, lastValueNodeSeen, trail =>
    let seen := if curNode.isValueNode then curNode else lastValueNodeSeen
    let trail' := trailAppend trail includeNonValueNodes curNode
    match curNode.searchDirection toMatch masklen with
    | .thisNode => (curNode, seen, curNode.isValueNode || includeNonValueNodes, trail')
    | .left =>
      if l.isNil then (curNode, seen, false, trail')
      else longestMatchLoop toMatch masklen includeNonValueNodes l curNode seen trail'
    | .right =>
      if r.isNil then (curNode, seen, false, trail')
      else longestMatchLoop toMatch masklen includeNonValueNodes r curNode seen trail'
    -- one step too far: back up to the parent
    | .parent => (parent, lastValueNodeSeen, false, trail)

/-- `longestMatchImpl(ipaddr, masklen, foundExact, includeNonValueNodes, trail)`. -/
def longestMatchImpl (t : RadixTree w α) (ipaddr : BitVec w) (masklen : Nat)
    (includeNonValueNodes : Bool) : MatchResult w α :=
  let toMatch := IPAddress.mask ipaddr masklen
  match longestMatchLoop toMatch masklen includeNonValueNodes t.root nil nil [] with
  | (curNode, lastValueNodeSeen, foundExact, trail) =>
    ⟨if includeNonValueNodes then curNode else lastValueNodeSeen, foundExact, trail⟩

/-- `longestMatch(ipaddr, masklen)`: the value node with the longest prefix
covering the query, `nil` for `end()`. -/
def longestMatch (t : RadixTree w α) (ipaddr : BitVec w) (masklen : Nat) : RadixTreeNode w α :=
  (t.longestMatchImpl ipaddr masklen false).node

/-- `exactMatch(ipaddr, masklen)`: the value node holding exactly this prefix,
`nil` for `end()`. -/
def exactMatch (t : RadixTree w α) (ipaddr : BitVec w) (masklen : Nat) : RadixTreeNode w α :=
  let r := t.longestMatchImpl ipaddr masklen false
  if r.foundExact then r.node else nil

/-- The part of `insert` after the lookup found no node for the prefix: link
`newNode` (holding `toAdd/mask`) under `bestMatch`, the deepest node covering
it, or above the root when there is none. -/
def linkNewNode (t : RadixTree w α) (toAdd : BitVec w) (mask : Nat)
    (newNode bestMatch : RadixTreeNode w α) : RadixTree w α :=
  match bestMatch with
  | nil =>
    match t.root with
    -- empty tree, make this the root
    | nil => t.makeRoot newNode
    -- the root does not cover the prefix: a less specific root is needed
    | oldRoot@(node rootIp rootMasklen _ _ _ _) =>
      let pfx := IPAddress.longestCommonPrefix (rootIp, rootMasklen) (toAdd, mask)
      if pfx.1 = toAdd ∧ pfx.2 = mask then
        -- the node to add is the new root
        if newNode.searchDirection rootIp rootMasklen = .left then
          t.makeRoot (newNode.resetLeft oldRoot)
        else
          t.makeRoot (newNode.resetRight oldRoot)
      else
        -- a new non value root over the old root and the new node
        let newRoot : RadixTreeNode w α := makeNode pfx.1 pfx.2 none
        if newRoot.searchDirection rootIp rootMasklen = .left then
          t.makeRoot ((newRoot.resetLeft oldRoot).resetRight newNode)
        else
          t.makeRoot ((newRoot.resetRight oldRoot).resetLeft newNode)
  | node _ _ _ _ bestLeft bestRight =>
    let toAddDirection := bestMatch.searchDirection toAdd mask
    -- `bestMatch->resetLeft` or `bestMatch->resetRight`, on the side of the new node
    let relink (child : RadixTreeNode w α) : RadixTree w α :=
      { t with root := t.root.modifyNode bestMatch.key? fun n =>
          if toAddDirection = .left then n.resetLeft child else n.resetRight child }
    let bestMatchChild := if toAddDirection = .left then bestLeft else bestRight
    match bestMatchChild with
    -- a free slot: attach the new node as a leaf
    | nil => relink newNode
    | node childIp childMasklen _ _ _ _ =>
      let pfx := IPAddress.longestCommonPrefix (childIp, childMasklen) (toAdd, mask)
      if pfx.1 ≠ toAdd ∨ pfx.2 ≠ mask then
        -- a non value internal node as the parent of the child and the new node
        let internalNode : RadixTreeNode w α := makeNode pfx.1 pfx.2 none
        if internalNode.searchDirection toAdd mask = .left then
          relink ((internalNode.resetLeft newNode).resetRight bestMatchChild)
        else
          relink ((internalNode.resetRight newNode).resetLeft bestMatchChild)
      else
        -- the new node goes between `bestMatch` and its child
        if newNode.searchDirection childIp childMasklen = .left then
          relink (newNode.resetLeft bestMatchChild)
        else
          relink (newNode.resetRight bestMatchChild)

/-- `insert(ipaddr, mask, value)`: the tree, the node holding the prefix, and
whether the value was added. An existing value is left in place. -/
def insert (t : RadixTree w α) (ipaddr : BitVec w) (mask : Nat) (value : α) :
    RadixTree w α × RadixTreeNode w α × Bool :=
  let toAdd := IPAddress.mask ipaddr mask
  let r := t.longestMatchImpl toAdd mask true
  let bestMatch := r.node
  if r.foundExact then
    if bestMatch.isValueNode then
      -- the prefix already exists in the tree
      (t, bestMatch, false)
    else
      -- a non value node holds the prefix: give it the value
      let root := t.root.modifyNode bestMatch.key? (setValue value)
      (⟨root, t.size + 1⟩, root.findNode bestMatch.key?, true)
  else
    let newNode : RadixTreeNode w α := makeNode toAdd mask (some value)
    let t' := linkNewNode t toAdd mask newNode bestMatch
    (⟨t'.root, t.size + 1⟩, t'.root.findNode (some (toAdd, mask)), true)

/-- `erase(TreeNode* toDelete)`: remove a value node and keep every non value
node with two children. The six cases of the source are: two children; one
child with or without a parent; a leaf under a value parent; a leaf under a
non value parent, with or without a grandparent; and the root alone. -/
def eraseNode (t : RadixTree w α) (toDelete : RadixTreeNode w α) : RadixTree w α × Bool :=
  match toDelete with
  | nil => (t, false)
  | node _ _ _ parentPtr left right =>
    let root :=
      if !left.isNil && !right.isNil then
        -- keep the node as the longest common prefix of its children
        t.root.modifyNode toDelete.key? makeNonValueNode
      else if !left.isNil || !right.isNil then
        -- the only child is adopted by the grandparent, or becomes the root
        let child := if !left.isNil then left else right
        match parentPtr with
        | some _ =>
          let parent := t.root.findNode parentPtr
          t.root.modifyNode parentPtr fun p =>
            if parent.left.key? = toDelete.key? then p.resetLeft child else p.resetRight child
        | none => child.setParent none
      else
        match parentPtr with
        | some _ =>
          let parent := t.root.findNode parentPtr
          -- free `toDelete`
          let parent' :=
            if parent.left.key? = toDelete.key? then parent.resetLeft nil
            else parent.resetRight nil
          if parent'.isValueNode then
            t.root.modifyNode parentPtr fun _ => parent'
          else
            -- a non value parent would keep one child: it goes too, and the
            -- grandparent (or the root pointer) adopts the sibling
            let grandParentPtr := parent'.parent
            let toDeleteSibling := if !parent'.left.isNil then parent'.left else parent'.right
            match grandParentPtr with
            | some _ =>
              let grandParent := t.root.findNode grandParentPtr
              t.root.modifyNode grandParentPtr fun g =>
                if grandParent.left.key? = parentPtr then g.resetLeft toDeleteSibling
                else g.resetRight toDeleteSibling
            | none => toDeleteSibling.setParent none
        -- the only node of the tree
        | none => nil
    (⟨root, t.size - 1⟩, true)

/-- `erase(ipaddr, masklen)`: erase the exact match, if any. -/
def erase (t : RadixTree w α) (ipaddr : BitVec w) (masklen : Nat) : RadixTree w α × Bool :=
  t.eraseNode (t.exactMatch ipaddr masklen)

end RadixTree

end Fboss
