import Mathlib.Data.Fin.Tuple.Basic
import Fboss.Lib.CowHeap

/-!
# What an update function does to the nodes of the switch state

A `StateUpdateFn` gets a `shared_ptr` to the current `SwitchState` and returns
a new state or `nullptr`. It reaches the nodes of the state only through the
API of `NodeBase`: it reads a node's fields, it makes a pointer of its own
point to a node it may change (`SwitchState::modify`, which clones a published
node and leaves an unpublished one), it clones a node into a new pointer
(`clone()`), and it changes a node's fields through `writableFields()`, which
`CHECK`s that the node is not published. A state is one node here, whose
fields are the whole state; the children a `publish()` reaches and the
generation number are not modelled.

An update function is a program over that API (`UpdateProg`), run on a heap of
nodes (`exec`). Its meaning is what it computes from the fields alone
(`eval`), where a pointer remembers only whether it still points to the
published node the function was given. On a published state the run matches
the meaning (`exec_matches`): it aborts exactly when the meaning says a write
fails its `CHECK`, it leaves every published node as it was whatever it does,
and it returns `nullptr` or the state it was given when the meaning is no
change, and otherwise a new unpublished node holding the meaning's fields.
-/

namespace Fboss

open CowHeap

/-- The body of an update function, over `n` local pointers (`shared_ptr`s to
nodes), the first of which is the state it was given. -/
inductive UpdateProg (F E : Type) : Nat → Type where
  /-- `return ptr;` or `return nullptr;` -/
  | done {n : Nat} (result : Option (Fin n)) : UpdateProg F E n
  /-- `throw ex;` -/
  | throw {n : Nat} (ex : E) : UpdateProg F E n
  /-- `ptr->getFields()`: the rest of the body may depend on what it reads. -/
  | read {n : Nat} (x : Fin n) (k : F → UpdateProg F E n) : UpdateProg F E n
  /-- `SwitchState::modify(&ptr)` -/
  | modify {n : Nat} (x : Fin n) (k : UpdateProg F E n) : UpdateProg F E n
  /-- `auto ptr' = ptr->clone();` -/
  | clone {n : Nat} (x : Fin n) (k : UpdateProg F E (n + 1)) : UpdateProg F E n
  /-- `*ptr->writableFields() = f(...)`, which `CHECK`s `!isPublished()`. -/
  | write {n : Nat} (x : Fin n) (f : F → F) (k : UpdateProg F E n) : UpdateProg F E n

/-- How a run of an update function ends: a `CHECK` failed and the agent
aborts, or the function threw, or it returned the state at an address or
`nullptr`; with the heap it leaves. -/
inductive Outcome (F E : Type) where
  | abort
  | error (ex : E) (heap : Heap F)
  | ok (result : Option Nat) (heap : Heap F)

namespace UpdateProg

variable {F E : Type}

/-- A run of the body on a heap, each local pointer holding an address. -/
def exec : {n : Nat} → UpdateProg F E n → Heap F → (Fin n → Nat) → Outcome F E
  | _, done r, heap, env => .ok (r.map env) heap
  | _, throw ex, heap, _ => .error ex heap
  | _, read x k, heap, env => (k (heap.fields (env x))).exec heap env
  | _, modify x k, heap, env => k.exec (heap.modify (env x)).1 (Function.update env x (heap.modify (env x)).2)
  | _, clone x k, heap, env => k.exec (heap.clone (env x)).1 (Fin.snoc env (heap.clone (env x)).2)
  | _, write x f k, heap, env =>
    match heap.write (env x) f with
    | none => .abort
    | some heap => k.exec heap env

/-- What the body computes from the fields its pointers point to, and whether
each pointer still points to the published state the function was given:
`none` when a write fails its `CHECK`, and no change when the function
returns `nullptr` or the state it was given. -/
def eval : {n : Nat} → UpdateProg F E n → (Fin n → F) → (Fin n → Bool) → Option (Except E (Option F))
  | _, done none, _, _ => some (.ok none)
  | _, done (some x), v, shared => some (.ok (if shared x then none else some (v x)))
  | _, throw ex, _, _ => some (.error ex)
  | _, read x k, v, shared => (k (v x)).eval v shared
  | _, modify x k, v, shared => k.eval v (Function.update shared x false)
  | _, clone x k, v, shared => k.eval (Fin.snoc v (v x)) (Fin.snoc shared false)
  | _, write x f k, v, shared =>
    if shared x then none else k.eval (Function.update v x (f (v x))) shared

end UpdateProg

/-! ### A run matches the meaning -/

namespace UpdateProg

variable {F E : Type}

/-- The local pointers of a run hold what the meaning's values say, from the
heap `h`, for a function given the published state at `p`: each points to an
allocated node with those fields, published exactly when the pointer is
shared, and a shared pointer points to `p`; two pointers to one unpublished
node are one pointer. -/
structure Corr {n : Nat} (h : Heap F) (p : Nat) (env : Fin n → Nat) (v : Fin n → F)
    (shared : Fin n → Bool) : Prop where
  lt_next : ∀ x, env x < h.next
  fields_eq : ∀ x, h.fields (env x) = v x
  published_eq : ∀ x, h.published (env x) = shared x
  eq_of_shared : ∀ x, shared x = true → env x = p
  inj : ∀ x y, shared x = false → env x = env y → x = y

/-- The heap outcome `o` of a run from `h`, for a function given the published
state at `p`, matches the meaning `r`: both abort; or both throw the same
exception and the run changed no published node; or the meaning is no change
and the run returned `nullptr` or `p`, changing no published node; or the
run returned a new unpublished node holding the meaning's fields. -/
def Matches (h : Heap F) (p : Nat) : Outcome F E → Option (Except E (Option F)) → Prop
  | .abort, none => True
  | .error ex h', some (.error ex') => ex = ex' ∧ h.Extends h'
  | .ok r h', some (.ok none) => (r = none ∨ r = some p) ∧ h.Extends h'
  | .ok (some q) h', some (.ok (some s)) =>
    h.Extends h' ∧ q < h'.next ∧ h'.fields q = s ∧ h'.published q = false
  | _, _ => False

/-- Matching from a heap that the run's heap extends. -/
theorem Matches.of_extends {h h₁ : Heap F} {p : Nat} (hh : h.Extends h₁) :
    ∀ {o : Outcome F E} {r : Option (Except E (Option F))}, Matches h₁ p o r → Matches h p o r
  | .abort, none, _ => trivial
  | .error _ _, some (.error _), ⟨hex, hh₁⟩ => ⟨hex, hh.trans hh₁⟩
  | .ok _ _, some (.ok none), ⟨hr, hh₁⟩ => ⟨hr, hh.trans hh₁⟩
  | .ok (some _) _, some (.ok (some _)), ⟨hh₁, hq⟩ => ⟨hh.trans hh₁, hq⟩

/-- A run that throws changed no published node. -/
theorem Matches.extends_of_error {h h' : Heap F} {p : Nat} {ex : E} :
    ∀ {r : Option (Except E (Option F))}, Matches h p (.error ex h') r → h.Extends h'
  | some (.error _), ⟨_, hh⟩ => hh
  | none, hm => hm.elim
  | some (.ok _), hm => hm.elim

/-- A shared pointer points to a published node, which `modify` leaves. -/
theorem Corr.modify_shared {n : Nat} {h : Heap F} {p : Nat} {env : Fin n → Nat} {v : Fin n → F}
    {shared : Fin n → Bool} (hc : Corr h p env v shared) {x : Fin n} (hx : shared x = false) :
    Corr (h.modify (env x)).1 p (Function.update env x (h.modify (env x)).2) v
      (Function.update shared x false) := by
  rw [Heap.modify_of_not_published (by rw [hc.published_eq]; exact hx), Function.update_eq_self,
    show Function.update shared x false = shared by rw [← hx, Function.update_eq_self]]
  exact hc

/-- A pointer to a new node: what `clone` and the copy of `modify` add. -/
theorem Corr.fresh {n : Nat} {h : Heap F} {p : Nat} {env : Fin n → Nat} {v : Fin n → F}
    {shared : Fin n → Bool} (hc : Corr h p env v shared) (q : Nat) :
    ∀ x, (h.clone q).1.mem (env x) = h.mem (env x) :=
  fun x => h.mem_clone_of_ne q (Nat.ne_of_lt (hc.lt_next x))

/-- `modify` of a published node points the pointer to a new unpublished copy. -/
theorem Corr.modify_published {n : Nat} {h : Heap F} {p : Nat} {env : Fin n → Nat} {v : Fin n → F}
    {shared : Fin n → Bool} (hc : Corr h p env v shared) {x : Fin n} (hx : shared x = true) :
    Corr (h.clone (env x)).1 p (Function.update env x h.next) v (Function.update shared x false) := by
  have hold := hc.fresh (env x)
  constructor
  · intro y
    by_cases hy : y = x
    · subst hy
      simp
    · simpa [Function.update_of_ne hy] using Nat.lt_succ_of_lt (hc.lt_next y)
  · intro y
    by_cases hy : y = x
    · subst hy
      simpa using hc.fields_eq y
    · simpa [Function.update_of_ne hy, Heap.fields, hold y] using hc.fields_eq y
  · intro y
    by_cases hy : y = x
    · subst hy
      simp
    · simpa [Function.update_of_ne hy, Heap.published, hold y] using hc.published_eq y
  · intro y hy
    by_cases hyx : y = x
    · subst hyx
      simp at hy
    · rw [Function.update_of_ne hyx] at hy ⊢
      exact hc.eq_of_shared y hy
  · -- the copy is new, so no other pointer points to it
    intro y z hy hyz
    by_cases hyx : y = x
    · by_cases hzx : z = x
      · rw [hyx, hzx]
      · rw [hyx, Function.update_self, Function.update_of_ne hzx] at hyz
        exact absurd hyz.symm (Nat.ne_of_lt (hc.lt_next z))
    · by_cases hzx : z = x
      · rw [hzx, Function.update_self, Function.update_of_ne hyx] at hyz
        exact absurd hyz (Nat.ne_of_lt (hc.lt_next y))
      · rw [Function.update_of_ne hyx] at hy hyz
        rw [Function.update_of_ne hzx] at hyz
        exact hc.inj y z hy hyz

/-- `clone` adds a pointer to a new unpublished copy. -/
theorem Corr.clone {n : Nat} {h : Heap F} {p : Nat} {env : Fin n → Nat} {v : Fin n → F}
    {shared : Fin n → Bool} (hc : Corr h p env v shared) (x : Fin n) :
    Corr (h.clone (env x)).1 p (Fin.snoc env h.next) (Fin.snoc v (v x)) (Fin.snoc shared false) := by
  have hold := hc.fresh (env x)
  constructor
  · intro y
    induction y using Fin.lastCases with
    | last => simp
    | cast y => simpa using Nat.lt_succ_of_lt (hc.lt_next y)
  · intro y
    induction y using Fin.lastCases with
    | last => simpa using hc.fields_eq x
    | cast y => simpa [Heap.fields, hold y] using hc.fields_eq y
  · intro y
    induction y using Fin.lastCases with
    | last => simp
    | cast y => simpa [Heap.published, hold y] using hc.published_eq y
  · intro y hy
    induction y using Fin.lastCases with
    | last => simp at hy
    | cast y =>
      simp only [Fin.snoc_castSucc] at hy ⊢
      exact hc.eq_of_shared y hy
  · -- the copy is new, so no old pointer points to it
    intro y z hy hyz
    induction y using Fin.lastCases with
    | last =>
      induction z using Fin.lastCases with
      | last => rfl
      | cast z =>
        simp only [Fin.snoc_last, Fin.snoc_castSucc] at hyz
        exact absurd hyz.symm (Nat.ne_of_lt (hc.lt_next z))
    | cast y =>
      induction z using Fin.lastCases with
      | last =>
        simp only [Fin.snoc_last, Fin.snoc_castSucc] at hyz
        exact absurd hyz (Nat.ne_of_lt (hc.lt_next y))
      | cast z =>
        simp only [Fin.snoc_castSucc] at hy hyz
        rw [hc.inj y z hy hyz]

/-- A write through an unshared pointer changes its node alone. -/
theorem Corr.write {n : Nat} {h : Heap F} {p : Nat} {env : Fin n → Nat} {v : Fin n → F}
    {shared : Fin n → Bool} (hc : Corr h p env v shared) {x : Fin n} (hx : shared x = false) (f : F → F) :
    Corr (h.set (env x) ⟨f (h.fields (env x)), false⟩) p env (Function.update v x (f (v x))) shared := by
  -- no other pointer points to the node written
  have hother : ∀ y, y ≠ x → (h.set (env x) ⟨f (h.fields (env x)), false⟩).mem (env y) = h.mem (env y) :=
    fun y hy => Heap.mem_set_of_ne _ _ fun hxy => hy (hc.inj x y hx hxy.symm).symm
  constructor
  · exact hc.lt_next
  · intro y
    by_cases hy : y = x
    · subst hy
      simp [hc.fields_eq]
    · rw [Function.update_of_ne hy, ← hc.fields_eq y]
      exact congrArg Node.fields (hother y hy)
  · intro y
    by_cases hy : y = x
    · subst hy
      simp [hx]
    · rw [← hc.published_eq y]
      exact congrArg Node.published (hother y hy)
  · exact hc.eq_of_shared
  · exact hc.inj

/-- A run of the body matches its meaning, from any heap and pointers that
hold what the meaning's values say. -/
theorem exec_matches {n : Nat} (prog : UpdateProg F E n) :
    ∀ {h : Heap F} {p : Nat} {env : Fin n → Nat} {v : Fin n → F} {shared : Fin n → Bool},
      Corr h p env v shared → Matches h p (prog.exec h env) (prog.eval v shared) := by
  induction prog with
  | done r =>
    intro h p env v shared hc
    cases r with
    | none => exact ⟨.inl rfl, Heap.Extends.refl h⟩
    | some x =>
      cases hx : shared x
      · -- a pointer the function made: a new node with the meaning's fields
        simp only [exec, eval, hx, Option.map_some, Bool.false_eq_true, if_false]
        exact ⟨Heap.Extends.refl h, hc.lt_next x, hc.fields_eq x, by rw [hc.published_eq, hx]⟩
      · -- the state it was given
        simp only [exec, eval, hx, Option.map_some, if_true]
        exact ⟨.inr (by rw [hc.eq_of_shared x hx]), Heap.Extends.refl h⟩
  | throw ex =>
    intro h p env v shared _
    exact ⟨rfl, Heap.Extends.refl h⟩
  | read x k ih =>
    intro h p env v shared hc
    simp only [exec, eval]
    rw [hc.fields_eq x]
    exact ih (v x) hc
  | modify x k ih =>
    intro h p env v shared hc
    simp only [exec, eval]
    cases hx : shared x
    · exact Matches.of_extends (Heap.Extends.modify h _) (ih (hc.modify_shared hx))
    · have hpub : h.published (env x) = true := by rw [hc.published_eq, hx]
      rw [Heap.modify_of_published hpub]
      exact Matches.of_extends (Heap.Extends.clone h _) (ih (hc.modify_published hx))
  | clone x k ih =>
    intro h p env v shared hc
    simp only [exec, eval, Heap.clone_snd]
    exact Matches.of_extends (Heap.Extends.clone h _) (ih (hc.clone x))
  | write x f k ih =>
    intro h p env v shared hc
    cases hx : shared x
    · -- the node is not published: the write goes to it
      have hpub : h.published (env x) = false := by rw [hc.published_eq, hx]
      simp only [exec, eval, hx, Heap.write_of_not_published hpub, Bool.false_eq_true, if_false]
      exact Matches.of_extends (Heap.Extends.set (.inl hpub) _) (ih (hc.write hx f))
    · -- the `CHECK` of `writableFields()` fails
      have hpub : h.published (env x) = true := by rw [hc.published_eq, hx]
      simp only [exec, eval, hx, Heap.write_of_published hpub, if_true]
      trivial

end UpdateProg

/-! ### Update functions -/

/-- An update function (`StateUpdateFn`): a body over the pointer to the state
it is given, whose writes pass their `CHECK` whatever the state's fields, as
the functions the agent queues do. -/
structure StateUpdateFn (F E : Type) where
  body : UpdateProg F E 1
  checked : ∀ s, (body.eval (fun _ => s) (fun _ => true)).isSome

namespace StateUpdateFn

variable {F E : Type}

/-- What the function computes from the fields of the published state it is
given: an exception, no change, or the fields of a new state. -/
def apply (fn : StateUpdateFn F E) (s : F) : Except E (Option F) :=
  (fn.body.eval (fun _ => s) (fun _ => true)).get (fn.checked s)

/-- The function run on the published state at `p`. -/
def exec (fn : StateUpdateFn F E) (heap : Heap F) (p : Nat) : Outcome F E :=
  fn.body.exec heap fun _ => p

/-- Run on a published state, an update function does what its meaning says
and changes no published node. -/
theorem exec_matches (fn : StateUpdateFn F E) {h : Heap F} {p : Nat} (hp : p < h.next)
    (hpub : h.published p = true) : UpdateProg.Matches h p (fn.exec h p) (some (fn.apply (h.fields p))) := by
  have hc : UpdateProg.Corr h p (fun _ : Fin 1 => p) (fun _ => h.fields p) (fun _ => true) :=
    ⟨fun _ => hp, fun _ => rfl, fun _ => hpub, fun _ _ => rfl, fun _ _ h => absurd h (by simp)⟩
  have hsome := Option.some_get (fn.checked (h.fields p))
  rw [apply, hsome]
  exact fn.body.exec_matches hc

end StateUpdateFn

end Fboss
