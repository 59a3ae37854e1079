import Mathlib.Logic.Function.Basic

/-!
# Heaps of copy-on-write nodes

A heap maps addresses to nodes and allocates at increasing addresses. A node
holds its fields and whether it is published. A published node is frozen: it
may be shared, and a change to it is made on a copy. `publish` freezes a node,
`clone` allocates an unpublished copy of one, `modify` is copy-on-write (a
copy of a published node, the node itself otherwise), and `write` changes the
fields of an unpublished node and fails on a published one.

What these operations keep is `Extends`: no address is freed and no published
node changes. Every one of them extends the heap, so a published node reads
the same after any run of them (`Extends.mem_eq`).
-/

namespace CowHeap

/-- A node: its fields, and whether it is published. -/
structure Node (F : Type*) where
  fields : F
  published : Bool

/-- A heap: the node at each address, and the next address to allocate. The
addresses below `next` are allocated. -/
structure Heap (F : Type*) where
  mem : Nat → Node F
  next : Nat

namespace Heap

variable {F : Type*}

/-- The heap whose one allocated node, at 0, is `n`. -/
def singleton (n : Node F) : Heap F :=
  ⟨fun _ => n, 1⟩

/-- The fields of the node at an address. -/
def fields (h : Heap F) (p : Nat) : F :=
  (h.mem p).fields

/-- Whether the node at an address is published. -/
def published (h : Heap F) (p : Nat) : Bool :=
  (h.mem p).published

/-- The node `n` at address `p`. -/
def set (h : Heap F) (p : Nat) (n : Node F) : Heap F :=
  { h with mem := Function.update h.mem p n }

/-- A new node `n` at the next address, and that address. -/
def alloc (h : Heap F) (n : Node F) : Heap F × Nat :=
  ({ mem := Function.update h.mem h.next n, next := h.next + 1 }, h.next)

/-- The node at `p`, published. -/
def publish (h : Heap F) (p : Nat) : Heap F :=
  h.set p ⟨h.fields p, true⟩

/-- An unpublished copy of the node at `p`, and its address. -/
def clone (h : Heap F) (p : Nat) : Heap F × Nat :=
  h.alloc ⟨h.fields p, false⟩

/-- Copy-on-write: a copy of the node at `p` if it is published, the node
itself otherwise. -/
def modify (h : Heap F) (p : Nat) : Heap F × Nat :=
  if h.published p then h.clone p else (h, p)

/-- The fields of the unpublished node at `p` changed by `f`; `none` for a
published node. -/
def write (h : Heap F) (p : Nat) (f : F → F) : Option (Heap F) :=
  if h.published p then none else some (h.set p ⟨f (h.fields p), false⟩)

/-! ### What each operation leaves at each address -/

@[simp] theorem next_set (h : Heap F) (p : Nat) (n : Node F) : (h.set p n).next = h.next := rfl

theorem mem_set (h : Heap F) (p : Nat) (n : Node F) (q : Nat) :
    (h.set p n).mem q = if q = p then n else h.mem q := by
  simp [set, Function.update_apply]

@[simp] theorem fields_set_self (h : Heap F) (p : Nat) (n : Node F) : (h.set p n).fields p = n.fields := by
  simp [fields, mem_set]

@[simp] theorem published_set_self (h : Heap F) (p : Nat) (n : Node F) :
    (h.set p n).published p = n.published := by
  simp [published, mem_set]

theorem mem_set_of_ne (h : Heap F) {p q : Nat} (n : Node F) (hq : q ≠ p) : (h.set p n).mem q = h.mem q := by
  simp [mem_set, hq]

@[simp] theorem alloc_snd (h : Heap F) (n : Node F) : (h.alloc n).2 = h.next := rfl

@[simp] theorem next_alloc (h : Heap F) (n : Node F) : (h.alloc n).1.next = h.next + 1 := rfl

@[simp] theorem mem_alloc_self (h : Heap F) (n : Node F) : (h.alloc n).1.mem h.next = n := by
  simp [alloc]

theorem mem_alloc_of_ne (h : Heap F) (n : Node F) {q : Nat} (hq : q ≠ h.next) :
    (h.alloc n).1.mem q = h.mem q := by
  simp [alloc, hq]

@[simp] theorem fields_alloc_self (h : Heap F) (n : Node F) : (h.alloc n).1.fields h.next = n.fields := by
  simp [fields]

@[simp] theorem published_alloc_self (h : Heap F) (n : Node F) :
    (h.alloc n).1.published h.next = n.published := by
  simp [published]

theorem fields_alloc_of_lt (h : Heap F) (n : Node F) {q : Nat} (hq : q < h.next) :
    (h.alloc n).1.fields q = h.fields q := by
  rw [fields, mem_alloc_of_ne h n (Nat.ne_of_lt hq), fields]

@[simp] theorem fields_publish (h : Heap F) (p q : Nat) : (h.publish p).fields q = h.fields q := by
  by_cases hq : q = p
  · subst hq
    simp [publish]
  · simp [publish, fields, mem_set_of_ne _ _ hq]

@[simp] theorem next_publish (h : Heap F) (p : Nat) : (h.publish p).next = h.next := rfl

@[simp] theorem published_publish_self (h : Heap F) (p : Nat) : (h.publish p).published p = true := by
  simp [publish]

/-- Publishing a published node changes nothing. -/
theorem publish_of_published {h : Heap F} {p : Nat} (hp : h.published p = true) : h.publish p = h := by
  have hmem : (⟨h.fields p, true⟩ : Node F) = h.mem p := by
    rw [← hp]
    rfl
  simp only [publish, set, hmem, Function.update_eq_self]

@[simp] theorem clone_snd (h : Heap F) (p : Nat) : (h.clone p).2 = h.next := rfl

@[simp] theorem next_clone (h : Heap F) (p : Nat) : (h.clone p).1.next = h.next + 1 := rfl

@[simp] theorem fields_clone_self (h : Heap F) (p : Nat) : (h.clone p).1.fields h.next = h.fields p := by
  simp [clone, fields]

@[simp] theorem published_clone_self (h : Heap F) (p : Nat) : (h.clone p).1.published h.next = false := by
  simp [clone, published]

theorem mem_clone_of_ne (h : Heap F) (p : Nat) {q : Nat} (hq : q ≠ h.next) : (h.clone p).1.mem q = h.mem q :=
  mem_alloc_of_ne h _ hq

theorem modify_of_published {h : Heap F} {p : Nat} (hp : h.published p = true) : h.modify p = h.clone p := by
  simp [modify, hp]

theorem modify_of_not_published {h : Heap F} {p : Nat} (hp : h.published p = false) : h.modify p = (h, p) := by
  simp [modify, hp]

theorem write_of_published {h : Heap F} {p : Nat} (hp : h.published p = true) (f : F → F) :
    h.write p f = none := by
  simp [write, hp]

theorem write_of_not_published {h : Heap F} {p : Nat} (hp : h.published p = false) (f : F → F) :
    h.write p f = some (h.set p ⟨f (h.fields p), false⟩) := by
  simp [write, hp]

/-! ### Extending a heap -/

/-- `h'` comes from `h` without freeing an address or changing a published
node. -/
structure Extends (h h' : Heap F) : Prop where
  next_le : h.next ≤ h'.next
  frozen : ∀ p < h.next, h.published p = true → h'.mem p = h.mem p

namespace Extends

theorem refl (h : Heap F) : h.Extends h :=
  ⟨Nat.le_refl _, fun _ _ _ => rfl⟩

theorem trans {h h' h'' : Heap F} (h₁ : h.Extends h') (h₂ : h'.Extends h'') : h.Extends h'' := by
  refine ⟨Nat.le_trans h₁.next_le h₂.next_le, fun p hp hpub => ?_⟩
  have hmem := h₁.frozen p hp hpub
  -- the node is still published in the middle heap, so the second step keeps it too
  have hpub' : h'.published p = true := by
    rw [published, hmem]
    exact hpub
  rw [h₂.frozen p (Nat.lt_of_lt_of_le hp h₁.next_le) hpub', hmem]

/-- A published node of the first heap is the same node in the second. -/
theorem mem_eq {h h' : Heap F} (hh : h.Extends h') {p : Nat} (hp : p < h.next)
    (hpub : h.published p = true) : h'.mem p = h.mem p :=
  hh.frozen p hp hpub

theorem fields_eq {h h' : Heap F} (hh : h.Extends h') {p : Nat} (hp : p < h.next)
    (hpub : h.published p = true) : h'.fields p = h.fields p := by
  rw [fields, hh.mem_eq hp hpub, fields]

theorem published_eq {h h' : Heap F} (hh : h.Extends h') {p : Nat} (hp : p < h.next)
    (hpub : h.published p = true) : h'.published p = true := by
  rw [published, hh.mem_eq hp hpub]
  exact hpub

/-- Changing an unpublished node, or one not yet allocated, extends the heap. -/
theorem set {h : Heap F} {p : Nat} (hp : h.published p = false ∨ h.next ≤ p) (n : Node F) :
    h.Extends (h.set p n) := by
  refine ⟨Nat.le_refl _, fun q hq hpub => mem_set_of_ne _ _ fun hqp => ?_⟩
  subst hqp
  rcases hp with hp | hp
  · rw [hp] at hpub
    cases hpub
  · omega

theorem alloc (h : Heap F) (n : Node F) : h.Extends (h.alloc n).1 :=
  ⟨Nat.le_succ _, fun _ hq _ => mem_alloc_of_ne h n (Nat.ne_of_lt hq)⟩

theorem clone (h : Heap F) (p : Nat) : h.Extends (h.clone p).1 :=
  alloc h _

theorem modify (h : Heap F) (p : Nat) : h.Extends (h.modify p).1 := by
  unfold Heap.modify
  split
  · exact clone h p
  · exact refl h

theorem publish (h : Heap F) (p : Nat) : h.Extends (h.publish p) := by
  cases hp : h.published p
  · exact set (.inl hp) _
  · rw [publish_of_published hp]
    exact refl h

end Extends

end Heap

end CowHeap
