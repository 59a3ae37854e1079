import Mathlib.Data.List.Perm.Basic
import Mathlib.Data.List.Sort

/-!
# The pending updates of the switch

`pendingUpdates_` (`SwSwitch.cpp`) holds the updates queued for the update
thread. A function update (`FunctionStateUpdate` or `BlockingStateUpdate`)
carries its function and whether it allows coalescing; the update of
`queueStateUpdateForGettingHwInSync` carries the desired state the hardware
failed to apply and allows coalescing. A call of `handlePendingUpdates()`
takes the updates at the front up to and including the first that does not
allow coalescing (`takeUpdates`).

What a function is and how a state is held differ between the model of the
switch on its heap of nodes (`SwSwitch`) and the model over state values
(`UpdateQueue`), so an update is generic in both (`Fn`, `D`); the list
operations and their lemmas are shared, and `StateUpdate.map` carries one
kind of update to the other. The function updates are numbered in the order
they are enqueued, so that their callbacks can be told apart.
-/

namespace Fboss

variable {Fn D Fn' D' E : Type}

/-- A pending update (`StateUpdate`): a function update with its number, or
the update of `queueStateUpdateForGettingHwInSync` with the desired state it
brings back. -/
inductive StateUpdate (Fn D : Type) where
  | function (id : Nat) (fn : Fn) (allowCoalesce : Bool)
  | gettingHwInSync (newDesiredState : D)

namespace StateUpdate

/-- `allowsCoalescing()`: the update of `queueStateUpdateForGettingHwInSync` is
built with the default, which allows it. -/
def allowsCoalescing : StateUpdate Fn D → Bool
  | function _ _ allowCoalesce => allowCoalesce
  | gettingHwInSync _ => true

/-- The number of a function update. -/
def id? : StateUpdate Fn D → Option Nat
  | function id _ _ => some id
  | gettingHwInSync _ => none

/-- The update with its function and its desired state carried over. -/
def map (f : Fn → Fn') (g : D → D') : StateUpdate Fn D → StateUpdate Fn' D'
  | function id fn allowCoalesce => function id (f fn) allowCoalesce
  | gettingHwInSync d => gettingHwInSync (g d)

@[simp] theorem allowsCoalescing_map (f : Fn → Fn') (g : D → D') (u : StateUpdate Fn D) :
    (u.map f g).allowsCoalescing = u.allowsCoalescing := by
  cases u <;> rfl

@[simp] theorem id?_map (f : Fn → Fn') (g : D → D') (u : StateUpdate Fn D) : (u.map f g).id? = u.id? := by
  cases u <;> rfl

end StateUpdate

/-- What an update is told once its batch ran. -/
inductive Callback (E : Type) where
  | onSuccess
  | onError (ex : E)

/-- The callback of an update, by its number: the update of
`queueStateUpdateForGettingHwInSync` is told `onSuccess()`, which does nothing,
and its function never throws. -/
def StateUpdate.callback (u : StateUpdate Fn D) (c : Callback E) : List (Nat × Callback E) :=
  (u.id?.map fun id => (id, c)).toList

/-- The numbers of the function updates of a list. -/
def pendingIds (us : List (StateUpdate Fn D)) : List Nat :=
  us.filterMap StateUpdate.id?

/-- The updates a call takes off the queue, and the rest: up to and including
the first update that does not allow coalescing. -/
def takeUpdates : List (StateUpdate Fn D) → List (StateUpdate Fn D) × List (StateUpdate Fn D)
  | [] => ([], [])
  | u :: us =>
    if u.allowsCoalescing then
      let r := takeUpdates us
      (u :: r.1, r.2)
    else ([u], us)

/-! ### Numbers and callbacks -/

@[simp] theorem pendingIds_nil : pendingIds ([] : List (StateUpdate Fn D)) = [] := rfl

@[simp] theorem pendingIds_cons (u : StateUpdate Fn D) (us : List (StateUpdate Fn D)) :
    pendingIds (u :: us) = u.id?.toList ++ pendingIds us := by
  cases h : u.id? <;> simp [pendingIds, h]

@[simp] theorem pendingIds_append (us vs : List (StateUpdate Fn D)) :
    pendingIds (us ++ vs) = pendingIds us ++ pendingIds vs :=
  List.filterMap_append

@[simp] theorem pendingIds_map (f : Fn → Fn') (g : D → D') (us : List (StateUpdate Fn D)) :
    pendingIds (us.map (StateUpdate.map f g)) = pendingIds us := by
  induction us with
  | nil => rfl
  | cons u us ih => simp [ih]

@[simp] theorem callback_ids (u : StateUpdate Fn D) (c : Callback E) :
    (u.callback c).map Prod.fst = u.id?.toList := by
  cases h : u.id? <;> simp [StateUpdate.callback, h]

@[simp] theorem callback_map (f : Fn → Fn') (g : D → D') (u : StateUpdate Fn D) (c : Callback E) :
    (u.map f g).callback c = u.callback c := by
  simp [StateUpdate.callback]

/-- The callbacks made to a list of updates are one for each function update. -/
theorem flatMap_callback_ids (us : List (StateUpdate Fn D)) (c : Callback E) :
    (us.flatMap (·.callback c)).map Prod.fst = pendingIds us := by
  induction us with
  | nil => rfl
  | cons u us ih => simp [ih]

/-! ### The batch a call takes -/

theorem takeUpdates_append (us : List (StateUpdate Fn D)) :
    (takeUpdates us).1 ++ (takeUpdates us).2 = us := by
  induction us with
  | nil => rfl
  | cons u us ih =>
    unfold takeUpdates
    split <;> simp [ih]

/-- The batch is cut where the queue's updates say, whatever they carry. -/
theorem takeUpdates_map (f : Fn → Fn') (g : D → D') (us : List (StateUpdate Fn D)) :
    takeUpdates (us.map (StateUpdate.map f g)) =
      ((takeUpdates us).1.map (StateUpdate.map f g), (takeUpdates us).2.map (StateUpdate.map f g)) := by
  induction us with
  | nil => rfl
  | cons u us ih =>
    simp only [List.map_cons, takeUpdates, StateUpdate.allowsCoalescing_map]
    split <;> simp [ih]

/-- A call takes the front update, whatever it is. -/
theorem takeUpdates_cons (u : StateUpdate Fn D) (us : List (StateUpdate Fn D)) :
    ∃ batch, (takeUpdates (u :: us)).1 = u :: batch := by
  unfold takeUpdates
  split
  · exact ⟨_, rfl⟩
  · exact ⟨[], rfl⟩

/-- An update of the batch that does not allow coalescing is its last. -/
theorem takeUpdates_eq_append_of_not_allowsCoalescing {us : List (StateUpdate Fn D)}
    {u : StateUpdate Fn D} (hu : u ∈ (takeUpdates us).1) (hc : u.allowsCoalescing = false) :
    ∃ pre, (takeUpdates us).1 = pre ++ [u] := by
  induction us with
  | nil => simp [takeUpdates] at hu
  | cons v vs ih =>
    by_cases hv : v.allowsCoalescing = true
    · simp only [takeUpdates, hv, if_true] at hu ⊢
      rcases List.mem_cons.mp hu with rfl | hu
      · rw [hc] at hv
        exact absurd hv (by simp)
      · obtain ⟨pre, hpre⟩ := ih hu
        exact ⟨v :: pre, by simp [hpre]⟩
    · simp only [takeUpdates, hv] at hu ⊢
      rw [List.mem_singleton.mp hu]
      exact ⟨[], rfl⟩

/-- With at most the front update not a function update, a queue holding a
function update gives a batch holding one. -/
theorem pendingIds_takeUpdates_ne_nil {us : List (StateUpdate Fn D)}
    (htail : ∀ u ∈ us.tail, u.id?.isSome) (h : pendingIds us ≠ []) :
    pendingIds (takeUpdates us).1 ≠ [] := by
  cases us with
  | nil => simp at h
  | cons u us =>
    obtain ⟨batch, hbatch⟩ := takeUpdates_cons u us
    rw [hbatch, pendingIds_cons]
    cases hu : u.id? with
    | some id => simp
    | none =>
      -- the front is the hardware's update, which allows coalescing
      cases u with
      | function => simp [StateUpdate.id?] at hu
      | gettingHwInSync d =>
        cases us with
        | nil => simp [StateUpdate.id?] at h
        | cons v vs =>
          have hv : v.id?.isSome := htail v (by simp)
          have hb : batch = (takeUpdates (v :: vs)).1 := by
            simp only [takeUpdates, StateUpdate.allowsCoalescing, if_true] at hbatch
            exact (List.cons.inj hbatch).2.symm
          obtain ⟨batch', hbatch'⟩ := takeUpdates_cons v vs
          rw [hb, hbatch']
          cases hvid : v.id? with
          | none => simp [hvid] at hv
          | some id => simp [hvid]

/-- What a call leaves queued lay behind the front update. -/
theorem mem_tail_of_mem_takeUpdates_snd {us : List (StateUpdate Fn D)} {u : StateUpdate Fn D}
    (hu : u ∈ (takeUpdates us).2) : u ∈ us.tail := by
  cases us with
  | nil => simp [takeUpdates] at hu
  | cons v vs =>
    obtain ⟨batch, hb⟩ := takeUpdates_cons v vs
    have happ := takeUpdates_append (v :: vs)
    rw [hb, List.cons_append, List.cons.injEq] at happ
    rw [List.tail_cons, ← happ.2]
    exact List.mem_append_right _ hu

/-- In a batch of a queue in enqueue order, no update was enqueued after one
that does not allow coalescing. -/
theorem takeUpdates_ordered {us : List (StateUpdate Fn D)}
    (hsorted : (pendingIds us).Pairwise (· < ·)) {u : StateUpdate Fn D}
    (hu : u ∈ (takeUpdates us).1) (hc : u.allowsCoalescing = false) :
    ∀ v ∈ (takeUpdates us).1, ∀ i j, u.id? = some i → v.id? = some j → j ≤ i := by
  intro v hv i j hi hj
  obtain ⟨pre, hpre⟩ := takeUpdates_eq_append_of_not_allowsCoalescing hu hc
  -- the batch's numbers are a prefix of the queue's, so they increase too
  have hbatch : (pendingIds (pre ++ [u])).Pairwise (· < ·) := by
    rw [← hpre]
    refine hsorted.sublist ?_
    conv_rhs => rw [← takeUpdates_append us]
    rw [pendingIds_append]
    exact List.sublist_append_left _ _
  rw [pendingIds_append, pendingIds_cons, hi] at hbatch
  rw [hpre] at hv
  rcases List.mem_append.mp hv with hv | hv
  · have hjmem : j ∈ pendingIds pre := List.mem_filterMap.mpr ⟨v, hv, hj⟩
    exact (List.pairwise_append.mp hbatch).2.2 j hjmem i (by simp) |>.le
  · rw [List.mem_singleton.mp hv, hi] at hj
    exact (Option.some.inj hj).ge

end Fboss
