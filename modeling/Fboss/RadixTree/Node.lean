import Fboss.Lib.BitPrefix

/-!
# Radix tree nodes

The radix tree of `fboss/lib/RadixTree.h` is generic in the address type; it
is used with `folly::IPAddressV4` and `folly::IPAddressV6`. Both are modelled
here as `BitVec w` (`w = 32` and `w = 128`), and the three address operations
the tree calls are the folly ones: `mask`, `getNthMSBit` and
`longestCommonPrefix`. Folly is not part of the repository, so these follow
its documented behaviour, through the bit-prefix library.

A `RadixTreeNode` value stands for a possibly null `unique_ptr<RadixTreeNode>`:
`nil` is `nullptr` and `node` owns its two children, as the `left_` and
`right_` links do. The raw `parent_` link is kept as the address and mask
length of the parent. In a well-formed tree these identify a node, so a
pointer is read as the node with that key (`findNode`), and a write through a
pointer is `modifyNode` at that key. The links are set only where the source
sets them: by `resetLeft`, `resetRight` and `makeRoot`.

The delete callback and the tree traits are not modelled: no function of the
tree reads them.
-/

namespace Fboss

open BitPrefix

/-- An IPv4 address, as the 32 bits of `folly::IPAddressV4`. -/
abbrev IPAddressV4 := BitVec 32

/-- An IPv6 address, as the 128 bits of `folly::IPAddressV6`. -/
abbrev IPAddressV6 := BitVec 128

namespace IPAddress

variable {w : Nat}

/-- `IPAddressV4::mask` and `IPAddressV6::mask`: the address with every bit
after the first `numBits` cleared. Callers pass `numBits ≤ bitCount()`. -/
abbrev mask (a : BitVec w) (numBits : Nat) : BitVec w :=
  maskMsb a numBits

/-- `getNthMSBit`: bit `bitIndex` counted from the most significant bit. -/
abbrev getNthMSBit (a : BitVec w) (bitIndex : Nat) : Bool :=
  a.getMsbD bitIndex

/-- `longestCommonPrefix({a, l}, {b, m})`: the longest prefix shared by the
two prefixes, as the first address masked to its length. -/
abbrev longestCommonPrefix (one two : BitVec w × Nat) : BitVec w × Nat :=
  commonPrefix one.1 one.2 two.1 two.2

@[simp] theorem mask_eq (a : BitVec w) (n : Nat) : mask a n = maskMsb a n := rfl

@[simp] theorem getNthMSBit_eq (a : BitVec w) (i : Nat) : getNthMSBit a i = a.getMsbD i := rfl

@[simp] theorem longestCommonPrefix_eq (a : BitVec w) (l : Nat) (b : BitVec w) (m : Nat) :
    longestCommonPrefix (a, l) (b, m) = commonPrefix a l b m := rfl

end IPAddress

/-- `RadixTreeNode::TreeDirection`: where a searched prefix lies relative to a
node. -/
inductive TreeDirection where
  | left
  | right
  | parent
  | thisNode
  deriving DecidableEq, Repr

/-- A possibly null owning pointer to a radix tree node. A node holds its
address, its mask length, its value (`none` for the non value nodes that the
tree creates itself), its parent link and its two children. -/
inductive RadixTreeNode (w : Nat) (α : Type) where
  | nil
  | node (ipAddress : BitVec w) (masklen : Nat) (value : Option α)
      (parent : Option (BitVec w × Nat)) (left right : RadixTreeNode w α)
  deriving DecidableEq, Repr

namespace RadixTreeNode

variable {w : Nat} {α : Type}

/-- The identity of the node a pointer points to, `none` for `nullptr`. -/
@[reducible] def key? : RadixTreeNode w α → Option (BitVec w × Nat)
  | nil => none
  | node ip ml _ _ _ _ => some (ip, ml)

def ipAddress : RadixTreeNode w α → BitVec w
  | nil => 0
  | node ip _ _ _ _ _ => ip

def masklen : RadixTreeNode w α → Nat
  | nil => 0
  | node _ ml _ _ _ _ => ml

def left : RadixTreeNode w α → RadixTreeNode w α
  | nil => nil
  | node _ _ _ _ l _ => l

def right : RadixTreeNode w α → RadixTreeNode w α
  | nil => nil
  | node _ _ _ _ _ r => r

def parent : RadixTreeNode w α → Option (BitVec w × Nat)
  | nil => none
  | node _ _ _ p _ _ => p

def value : RadixTreeNode w α → Option α
  | nil => none
  | node _ _ v _ _ _ => v

def isValueNode (n : RadixTreeNode w α) : Bool :=
  n.value.isSome

def isLeaf (n : RadixTreeNode w α) : Bool :=
  n.left.key?.isNone && n.right.key?.isNone

@[simp] theorem key?_nil : (nil : RadixTreeNode w α).key? = none := rfl
@[simp] theorem key?_node (ip : BitVec w) (ml : Nat) (v : Option α) (p) (l r : RadixTreeNode w α) :
    (node ip ml v p l r).key? = some (ip, ml) := rfl
@[simp] theorem ipAddress_node (ip : BitVec w) (ml : Nat) (v : Option α) (p)
    (l r : RadixTreeNode w α) : (node ip ml v p l r).ipAddress = ip := rfl
@[simp] theorem masklen_node (ip : BitVec w) (ml : Nat) (v : Option α) (p)
    (l r : RadixTreeNode w α) : (node ip ml v p l r).masklen = ml := rfl
@[simp] theorem left_nil : (nil : RadixTreeNode w α).left = nil := rfl
@[simp] theorem left_node (ip : BitVec w) (ml : Nat) (v : Option α) (p) (l r : RadixTreeNode w α) :
    (node ip ml v p l r).left = l := rfl
@[simp] theorem right_nil : (nil : RadixTreeNode w α).right = nil := rfl
@[simp] theorem right_node (ip : BitVec w) (ml : Nat) (v : Option α) (p) (l r : RadixTreeNode w α) :
    (node ip ml v p l r).right = r := rfl
@[simp] theorem parent_nil : (nil : RadixTreeNode w α).parent = none := rfl
@[simp] theorem parent_node (ip : BitVec w) (ml : Nat) (v : Option α) (p) (l r : RadixTreeNode w α) :
    (node ip ml v p l r).parent = p := rfl
@[simp] theorem value_nil : (nil : RadixTreeNode w α).value = none := rfl
@[simp] theorem value_node (ip : BitVec w) (ml : Nat) (v : Option α) (p) (l r : RadixTreeNode w α) :
    (node ip ml v p l r).value = v := rfl
@[simp] theorem isValueNode_nil : (nil : RadixTreeNode w α).isValueNode = false := rfl
@[simp] theorem isValueNode_node (ip : BitVec w) (ml : Nat) (v : Option α) (p)
    (l r : RadixTreeNode w α) : (node ip ml v p l r).isValueNode = v.isSome := rfl

theorem key?_eq_none_iff {n : RadixTreeNode w α} : n.key? = none ↔ n = nil := by
  cases n <;> simp

theorem key?_of_ne_nil {n : RadixTreeNode w α} (h : n ≠ nil) :
    n.key? = some (n.ipAddress, n.masklen) := by
  cases n with
  | nil => exact absurd rfl h
  | node ip ml v p l r => rfl

theorem key?_eq_some {n : RadixTreeNode w α} {k : BitVec w × Nat} (h : n.key? = some k) :
    n.ipAddress = k.1 ∧ n.masklen = k.2 := by
  cases n with
  | nil => simp at h
  | node ip ml v p l r =>
      cases h
      exact ⟨rfl, rfl⟩

/-- `searchDirection(toSearch, toSearchMasklen)`: a node whose prefix covers the
searched one sends the search to the child selected by the next bit; the node
itself when the prefixes are equal; up to the parent otherwise. -/
def searchDirection : RadixTreeNode w α → BitVec w → Nat → TreeDirection
  | nil, _, _ => .parent
  | node ipAddress masklen _ _ _ _, toSearch, toSearchMasklen =>
    if masklen < toSearchMasklen then
      if IPAddress.mask toSearch masklen = ipAddress then
        if IPAddress.getNthMSBit toSearch masklen then .right else .left
      else .parent
    else if masklen = toSearchMasklen ∧ ipAddress = toSearch then .thisNode
    else .parent

/-- `setParent`: repoint the parent link of the node, if there is one. -/
def setParent (newParent : Option (BitVec w × Nat)) : RadixTreeNode w α → RadixTreeNode w α
  | nil => nil
  | node ip ml v _ l r => node ip ml v newParent l r

/-- `resetLeft(newLeft)`: install `newLeft` as the left child and point its parent
link here. The child it replaces is `n.left`, read before the call. -/
def resetLeft : RadixTreeNode w α → RadixTreeNode w α → RadixTreeNode w α
  | nil, _ => nil
  | node ip ml v p _ r, newLeft => node ip ml v p (newLeft.setParent (some (ip, ml))) r

/-- `resetRight(newRight)`, the mirror image of `resetLeft`. -/
def resetRight : RadixTreeNode w α → RadixTreeNode w α → RadixTreeNode w α
  | nil, _ => nil
  | node ip ml v p l _, newRight => node ip ml v p l (newRight.setParent (some (ip, ml)))

/-- `setValue(value)`. -/
def setValue (newValue : α) : RadixTreeNode w α → RadixTreeNode w α
  | nil => nil
  | node ip ml _ p l r => node ip ml (some newValue) p l r

/-- `makeNonValueNode()`: drop the value and keep the links. -/
def makeNonValueNode : RadixTreeNode w α → RadixTreeNode w α
  | nil => nil
  | node ip ml _ p l r => node ip ml none p l r

@[simp] theorem setParent_nil (p : Option (BitVec w × Nat)) :
    (nil : RadixTreeNode w α).setParent p = nil := rfl
@[simp] theorem setParent_node (p' : Option (BitVec w × Nat)) (ip : BitVec w) (ml : Nat)
    (v : Option α) (p) (l r : RadixTreeNode w α) :
    (node ip ml v p l r).setParent p' = node ip ml v p' l r := rfl
@[simp] theorem resetLeft_node (ip : BitVec w) (ml : Nat) (v : Option α) (p)
    (l r c : RadixTreeNode w α) :
    (node ip ml v p l r).resetLeft c = node ip ml v p (c.setParent (some (ip, ml))) r := rfl
@[simp] theorem resetRight_node (ip : BitVec w) (ml : Nat) (v : Option α) (p)
    (l r c : RadixTreeNode w α) :
    (node ip ml v p l r).resetRight c = node ip ml v p l (c.setParent (some (ip, ml))) := rfl
@[simp] theorem setValue_node (x : α) (ip : BitVec w) (ml : Nat) (v : Option α) (p)
    (l r : RadixTreeNode w α) :
    (node ip ml v p l r).setValue x = node ip ml (some x) p l r := rfl
@[simp] theorem makeNonValueNode_node (ip : BitVec w) (ml : Nat) (v : Option α) (p)
    (l r : RadixTreeNode w α) :
    (node ip ml v p l r).makeNonValueNode = node ip ml none p l r := rfl

@[simp] theorem key?_setParent (p : Option (BitVec w × Nat)) (n : RadixTreeNode w α) :
    (n.setParent p).key? = n.key? := by
  cases n <;> rfl

@[simp] theorem setParent_setParent (p p' : Option (BitVec w × Nat)) (n : RadixTreeNode w α) :
    (n.setParent p).setParent p' = n.setParent p' := by
  cases n <;> rfl

@[simp] theorem parent_setParent_none (n : RadixTreeNode w α) : (n.setParent none).parent = none := by
  cases n <;> rfl
@[simp] theorem parent_resetLeft (n c : RadixTreeNode w α) : (n.resetLeft c).parent = n.parent := by
  cases n <;> rfl
@[simp] theorem parent_resetRight (n c : RadixTreeNode w α) :
    (n.resetRight c).parent = n.parent := by
  cases n <;> rfl
@[simp] theorem isValueNode_resetLeft (n c : RadixTreeNode w α) :
    (n.resetLeft c).isValueNode = n.isValueNode := by
  cases n <;> rfl
@[simp] theorem isValueNode_resetRight (n c : RadixTreeNode w α) :
    (n.resetRight c).isValueNode = n.isValueNode := by
  cases n <;> rfl

/-- `true` for `nullptr`. -/
def isNil : RadixTreeNode w α → Bool
  | nil => true
  | node .. => false

@[simp] theorem isNil_nil : (nil : RadixTreeNode w α).isNil = true := rfl
@[simp] theorem isNil_node (ip : BitVec w) (ml : Nat) (v : Option α) (p) (l r : RadixTreeNode w α) :
    (node ip ml v p l r).isNil = false := rfl

theorem isNil_eq_false {n : RadixTreeNode w α} (h : n ≠ nil) : n.isNil = false := by
  cases n with
  | nil => exact absurd rfl h
  | node ip ml v p l r => rfl

/-- The first of two pointers that is not null. -/
def orElse : RadixTreeNode w α → RadixTreeNode w α → RadixTreeNode w α
  | nil, other => other
  | n@(node ..), _ => n

@[simp] theorem nil_orElse (n : RadixTreeNode w α) : nil.orElse n = n := rfl
@[simp] theorem node_orElse (ip : BitVec w) (ml : Nat) (v : Option α) (p) (l r n : RadixTreeNode w α) :
    (node ip ml v p l r).orElse n = node ip ml v p l r := rfl

/-- Dereferencing a pointer `ptr` (`none` is `nullptr`): the node with that key,
searched in preorder. -/
def findNode (ptr : Option (BitVec w × Nat)) : RadixTreeNode w α → RadixTreeNode w α
  | nil => nil
  | n@(node ip ml _ _ l r) =>
    if some (ip, ml) = ptr then n else (findNode ptr l).orElse (findNode ptr r)

/-- A write through the pointer `ptr`: apply `f` to the node with that key. -/
def modifyNode (ptr : Option (BitVec w × Nat)) (f : RadixTreeNode w α → RadixTreeNode w α) :
    RadixTreeNode w α → RadixTreeNode w α
  | nil => nil
  | n@(node ip ml v p l r) =>
    if some (ip, ml) = ptr then f n
    else node ip ml v p (modifyNode ptr f l) (modifyNode ptr f r)

end RadixTreeNode

/-- `RadixTree`: the owning root pointer and the `size_` counter. -/
structure RadixTree (w : Nat) (α : Type) where
  root : RadixTreeNode w α
  size : Nat
  deriving DecidableEq, Repr

namespace RadixTree

variable {w : Nat} {α : Type}

open RadixTreeNode

/-- The empty tree a default constructed `RadixTree` holds. -/
def empty : RadixTree w α :=
  ⟨nil, 0⟩

/-- `makeRoot(newRoot)`: the new root's parent link is cleared. -/
def makeRoot (t : RadixTree w α) (newRoot : RadixTreeNode w α) : RadixTree w α :=
  { t with root := newRoot.setParent none }

/-- `makeNode(ip, masklen[, value])`: a fresh node with no links. -/
def makeNode (ip : BitVec w) (masklen : Nat) (value : Option α) : RadixTreeNode w α :=
  .node ip masklen value none .nil .nil

@[simp] theorem makeRoot_root (t : RadixTree w α) (r : RadixTreeNode w α) :
    (t.makeRoot r).root = r.setParent none := rfl
@[simp] theorem makeRoot_size (t : RadixTree w α) (r : RadixTreeNode w α) :
    (t.makeRoot r).size = t.size := rfl

end RadixTree

end Fboss
