import Mathlib.Data.List.Basic
import Mathlib.Order.Basic

/-!
# Bounded circular buffers

A circular buffer (`boost::circular_buffer`) holds at most `capacity`
elements, in order. Adding to a full buffer makes room by dropping its first
element: `pushBack` drops it and appends; `insert` at a position drops it and
inserts one place earlier, and an `insert` at the front of a full buffer
inserts nothing, since the element would be the one dropped. A buffer of
capacity 0 holds nothing.

The bound is a field of the structure, so that every buffer built by these
operations keeps it.
-/

/-- A circular buffer: its elements, first to last, and its capacity. -/
structure CircularBuffer (α : Type*) where
  capacity : Nat
  items : List α
  length_le : items.length ≤ capacity

namespace CircularBuffer

variable {α : Type*}

/-- An empty buffer of the given capacity. -/
def empty (capacity : Nat) : CircularBuffer α :=
  ⟨capacity, [], Nat.zero_le _⟩

/-- `full()`. -/
def full (b : CircularBuffer α) : Bool :=
  b.items.length == b.capacity

/-- `push_back(x)`. -/
def pushBack (b : CircularBuffer α) (x : α) : CircularBuffer α :=
  if h : b.capacity = 0 then b
  else if hf : b.full then
    ⟨b.capacity, b.items.tail ++ [x], by
      simp only [List.length_append, List.length_tail, List.length_singleton]
      have := b.length_le
      omega⟩
  else
    ⟨b.capacity, b.items ++ [x], by
      have hlt : b.items.length ≠ b.capacity := by simpa [full] using hf
      have := b.length_le
      simp only [List.length_append, List.length_singleton]
      omega⟩

/-- `insert(begin() + pos, x)`. -/
def insert (b : CircularBuffer α) (pos : Nat) (x : α) : CircularBuffer α :=
  if h : b.capacity = 0 then b
  else if hf : b.full then
    if pos = 0 then b
    else
      ⟨b.capacity, b.items.tail.insertIdx (pos - 1) x, by
        have := b.length_le
        have hins : (b.items.tail.insertIdx (pos - 1) x).length ≤ b.items.tail.length + 1 :=
          List.length_insertIdx_le_succ
        simp only [List.length_tail] at hins
        omega⟩
  else
    ⟨b.capacity, b.items.insertIdx pos x, by
      have hlt : b.items.length ≠ b.capacity := by simpa [full] using hf
      have := b.length_le
      have hins : (b.items.insertIdx pos x).length ≤ b.items.length + 1 := List.length_insertIdx_le_succ
      omega⟩

/-- `at(i) = x`: the element at a place, replaced. -/
def set (b : CircularBuffer α) (i : Nat) (x : α) : CircularBuffer α :=
  ⟨b.capacity, b.items.set i x, by rw [List.length_set]; exact b.length_le⟩

/-- `erase(remove_if(begin(), end(), p), end())`: the elements that do not
satisfy `p`, in order. -/
def eraseIf (b : CircularBuffer α) (p : α → Bool) : CircularBuffer α :=
  ⟨b.capacity, b.items.filter (fun x => !p x), Nat.le_trans (List.length_filter_le _ _) b.length_le⟩

@[simp] theorem items_empty (capacity : Nat) : (empty capacity : CircularBuffer α).items = [] := rfl

@[simp] theorem items_set (b : CircularBuffer α) (i : Nat) (x : α) :
    (b.set i x).items = b.items.set i x := rfl

@[simp] theorem items_eraseIf (b : CircularBuffer α) (p : α → Bool) :
    (b.eraseIf p).items = b.items.filter (fun x => !p x) := rfl

/-- A buffer that is not full takes the element at its end. -/
theorem items_pushBack_of_lt (b : CircularBuffer α) (x : α) (h : b.items.length < b.capacity) :
    (b.pushBack x).items = b.items ++ [x] := by
  have hfull : ¬b.full = true := by
    simp only [full, beq_iff_eq]
    omega
  rw [pushBack, dif_neg (by omega), dif_neg hfull]

/-- A buffer that is not full takes the element at its place. -/
theorem items_insert_of_lt (b : CircularBuffer α) (pos : Nat) (x : α) (h : b.items.length < b.capacity) :
    (b.insert pos x).items = b.items.insertIdx pos x := by
  have hfull : ¬b.full = true := by
    simp only [full, beq_iff_eq]
    omega
  rw [insert, dif_neg (by omega), dif_neg hfull]

/-- Whatever room `pushBack` makes, what it leaves is a part of the buffer
followed by the new element. -/
theorem items_pushBack_sublist (b : CircularBuffer α) (x : α) :
    (b.pushBack x).items.Sublist (b.items ++ [x]) := by
  unfold pushBack
  split_ifs with h hf
  · exact List.sublist_append_left _ _
  · exact (List.tail_sublist _).append_right _
  · exact List.Sublist.refl _

end CircularBuffer
