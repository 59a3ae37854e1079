import Fboss.Agent.StateUpdate
import Fboss.Lib.Run

/-!
# The update queue over state values

This is the update queue of the switch with the states as values: an update
function maps the state it is given to an exception, no change (`nullptr`) or
a new state, and the hardware answers the state it applied. It is what the
model of the switch on its heap of nodes (`SwSwitch`) computes, once the
fields of each node are read off (`SwSwitch.HeapInv.step_abs`), and the place where
the queue's own invariant is proved.

Every change to the switch state is a function of the state, queued on
`pendingUpdates_` and applied on the update thread. Each `updateState()` puts
an update at the back of the queue and schedules one call of
`handlePendingUpdates()`. A call takes the updates at the front of the queue
up to and including the first that does not allow coalescing, runs their
functions in turn from the applied state, hands the result to the hardware,
and tells each update `onError` (its function threw) or `onSuccess`. When the
hardware applied less than the new desired state, an update that brings the
desired state back is put at the front of the queue, without scheduling a
call: it runs with the next batch.

Over every run of enqueues and calls (`QueueInv`): each update is still queued
or was told exactly one of `onSuccess` and `onError`, no function update
waits once every scheduled call has run, and the desired state after a call is
the fold of its batch over the applied state before it
(`QueueInv.handlePendingUpdates_desiredState`).
-/

namespace Fboss

namespace UpdateQueue

variable {S E : Type}

/-- A pending update over state values: the function maps the state it is
given to an exception, no change or a new state; the hardware's update brings
back a desired state. -/
abbrev Update (S E : Type) := StateUpdate (S → Except E (Option S)) S

/-- `applyUpdate()`: the new state, `none` for `nullptr`. -/
def Update.applyUpdate : Update S E → S → Except E (Option S)
  | .function _ fn _, s => fn s
  | .gettingHwInSync newDesiredState, _ => pure (some newDesiredState)

/-- The part of `SwSwitch` the update thread works on: the applied and the
desired state, `pendingUpdates_`, the calls of `handlePendingUpdates()`
scheduled on the update event base, the callbacks made so far, the number of
the next update, and whether the switch is exiting. -/
structure SwSwitch (S E : Type) where
  appliedState : S
  desiredState : S
  pendingUpdates : List (Update S E)
  scheduledCalls : Nat
  callbacks : List (Nat × Callback E)
  nextId : Nat
  exiting : Bool

namespace SwSwitch

/-- A switch whose applied and desired state is `s`, with nothing queued. -/
def init (s : S) : SwSwitch S E :=
  ⟨s, s, [], 0, [], 0, false⟩

/-- `updateState(update)`: the update goes to the back of the queue, and a call
of `handlePendingUpdates()` is scheduled. `updateState(name, fn)`,
`updateStateNoCoalescing` and `updateStateBlocking` differ in `allowCoalesce`
and in what the callbacks do. -/
def updateState (sw : SwSwitch S E) (fn : S → Except E (Option S)) (allowCoalesce : Bool) :
    SwSwitch S E :=
  { sw with
    pendingUpdates := sw.pendingUpdates ++ [.function sw.nextId fn allowCoalesce]
    scheduledCalls := sw.scheduledCalls + 1
    nextId := sw.nextId + 1 }

/-- `queueStateUpdateForGettingHwInSync`: to the front of the queue, with no
call scheduled. -/
def queueStateUpdateForGettingHwInSync (sw : SwSwitch S E) (newDesiredState : S) :
    SwSwitch S E :=
  { sw with pendingUpdates := .gettingHwInSync newDesiredState :: sw.pendingUpdates }

/-- The loop of `handlePendingUpdates()` over the updates taken: each function
runs on the state so far. One that throws is told `onError` at once and
dropped; one that returns a new state moves the state on. The result: the new
desired state, whether it changed, the updates kept, and the errors told. -/
def applyUpdates (newDesiredState : S) (changed : Bool) :
    List (Update S E) → S × Bool × List (Update S E) × List (Nat × Callback E)
  | [] => (newDesiredState, changed, [], [])
  | u :: us =>
    match u.applyUpdate newDesiredState with
    | .error ex =>
      let r := applyUpdates newDesiredState changed us
      (r.1, r.2.1, r.2.2.1, u.callback (.onError ex) ++ r.2.2.2)
    | .ok none =>
      let r := applyUpdates newDesiredState changed us
      (r.1, r.2.1, u :: r.2.2.1, r.2.2.2)
    | .ok (some intermediateState) =>
      let r := applyUpdates intermediateState true us
      (r.1, r.2.1, u :: r.2.2.1, r.2.2.2)

/-- `applyUpdate(oldState, newState)`: the hardware is told the change and
answers the state it applied, which becomes the applied state, with the new
state as the desired one. An exiting switch records nothing and answers the old
state. The answer is `none` for the new state itself. -/
def applyUpdate (sw : SwSwitch S E) (newState : S) (stateChanged : S → S → Option S) :
    SwSwitch S E × Option S :=
  if sw.exiting then (sw, some sw.appliedState)
  else
    match stateChanged sw.appliedState newState with
    | none => ({ sw with appliedState := newState, desiredState := newState }, none)
    | some newAppliedState =>
      ({ sw with appliedState := newAppliedState, desiredState := newState }, some newAppliedState)

/-- `handlePendingUpdates()`: the batch is taken and run from the applied
state; a new desired state goes to the hardware, and when the hardware applied
another state the desired one is queued again at the front; then the updates
kept are told `onSuccess`, in order. -/
def handlePendingUpdates (sw : SwSwitch S E) (stateChanged : S → S → Option S) :
    SwSwitch S E :=
  let taken := takeUpdates sw.pendingUpdates
  let sw := { sw with pendingUpdates := taken.2 }
  if taken.1.isEmpty then sw
  else
    let r := applyUpdates sw.appliedState false taken.1
    let sw := { sw with callbacks := sw.callbacks ++ r.2.2.2 }
    let sw :=
      if r.2.1 then
        let applied := applyUpdate sw r.1 stateChanged
        match applied.2 with
        | none => applied.1
        | some _ => queueStateUpdateForGettingHwInSync applied.1 r.1
      else sw
    { sw with callbacks := sw.callbacks ++ r.2.2.1.flatMap (·.callback .onSuccess) }

end SwSwitch

/-- What happens to the update queue: an update is enqueued, a scheduled call
of `handlePendingUpdates()` runs with the hardware's answers, or the switch
starts to exit (`stop()`). -/
inductive SwitchEvent (S E : Type) where
  | updateState (fn : S → Except E (Option S)) (allowCoalesce : Bool)
  | handlePendingUpdates (stateChanged : S → S → Option S)
  | stop

/-- Whether an event is `stop()`. -/
def SwitchEvent.isStop : SwitchEvent S E → Bool
  | .stop => true
  | _ => false

namespace SwSwitch

/-- One event; a call that runs is no longer scheduled. -/
def step (sw : SwSwitch S E) : SwitchEvent S E → SwSwitch S E
  | .updateState fn allowCoalesce => sw.updateState fn allowCoalesce
  | .handlePendingUpdates stateChanged =>
    { sw with scheduledCalls := sw.scheduledCalls - 1 }.handlePendingUpdates stateChanged
  | .stop => { sw with exiting := true }

/-- A call runs only when one is scheduled. -/
def Allowed (sw : SwSwitch S E) : SwitchEvent S E → Prop
  | .handlePendingUpdates _ => 0 < sw.scheduledCalls
  | _ => True

instance (sw : SwSwitch S E) (e : SwitchEvent S E) : Decidable (sw.Allowed e) :=
  match e with
  | .handlePendingUpdates _ => inferInstanceAs (Decidable (0 < sw.scheduledCalls))
  | .updateState _ _ | .stop => isTrue trivial

end SwSwitch

/-! ### What the batch loop computes -/

/-- The state reached from `s` by running the functions of `us` in turn: one
that throws or answers `nullptr` leaves the state as it was. -/
def foldUpdates (s : S) : List (Update S E) → S
  | [] => s
  | u :: us =>
    match u.applyUpdate s with
    | .ok (some s') => foldUpdates s' us
    | _ => foldUpdates s us

namespace SwSwitch

/-- The loop ends in the fold of the batch. -/
theorem applyUpdates_fst (s : S) (changed : Bool) (us : List (Update S E)) :
    (applyUpdates s changed us).1 = foldUpdates s us := by
  induction us generalizing s changed with
  | nil => rfl
  | cons u us ih =>
    simp only [applyUpdates, foldUpdates]
    split <;> rename_i hu <;> simp [hu, ih]

/-- A loop that made no new state object started unchanged, ended where it
started, and ran no update of `queueStateUpdateForGettingHwInSync`, whose
function always answers a new state. -/
theorem applyUpdates_unchanged {s : S} {changed : Bool} {us : List (Update S E)}
    (h : (applyUpdates s changed us).2.1 = false) :
    changed = false ∧ (applyUpdates s changed us).1 = s ∧
      ∀ u ∈ us, ∀ d, u ≠ .gettingHwInSync d := by
  induction us generalizing s changed with
  | nil => exact ⟨h, rfl, by simp⟩
  | cons u us ih =>
    simp only [applyUpdates] at h ⊢
    split at h
    · next ex hu =>
      obtain ⟨hc, hs, hus⟩ := ih h
      refine ⟨hc, by simpa [hu] using hs, ?_⟩
      intro v hv d hvd
      rcases List.mem_cons.mp hv with rfl | hv
      · subst hvd
        cases hu
      · exact hus v hv d hvd
    · next hu =>
      obtain ⟨hc, hs, hus⟩ := ih h
      refine ⟨hc, by simpa [hu] using hs, ?_⟩
      intro v hv d hvd
      rcases List.mem_cons.mp hv with rfl | hv
      · subst hvd
        cases hu
      · exact hus v hv d hvd
    · next s' hu =>
      -- a new state marks the loop changed for good
      have hchanged : ∀ (t : S) (l : List (Update S E)),
          (applyUpdates t true l).2.1 = true := by
        intro t l
        induction l generalizing t with
        | nil => rfl
        | cons v l ihl => simp only [applyUpdates]; split <;> simp [ihl]
      rw [hchanged] at h
      exact absurd h (by simp)

end SwSwitch

/-! ### Numbers and callbacks -/

namespace SwSwitch

/-- The loop keeps or tells `onError` each function update of the batch, once. -/
theorem applyUpdates_ids (s : S) (changed : Bool) (us : List (Update S E)) :
    (pendingIds (applyUpdates s changed us).2.2.1 ++
      (applyUpdates s changed us).2.2.2.map Prod.fst).Perm (pendingIds us) := by
  induction us generalizing s changed with
  | nil => simp [applyUpdates]
  | cons u us ih =>
    simp only [applyUpdates]
    split
    · -- the update threw: its `onError` stands before the later ones
      simp only [List.map_append, callback_ids, pendingIds_cons]
      exact (List.perm_append_comm_assoc _ _ _).trans ((ih s changed).append_left _)
    · simpa using (ih s changed).append_left u.id?.toList
    · simpa using (ih _ true).append_left u.id?.toList
end SwSwitch

/-! ### What one call does -/

namespace SwSwitch

/-- The outcomes of a call of a switch that is not exiting: the errors and then
the successes are told, and either nothing changed, or the hardware applied the
new desired state, or it applied another state and the desired one is queued
again at the front. -/
theorem handlePendingUpdates_cases {sw : SwSwitch S E} (hex : sw.exiting = false)
    (stateChanged : S → S → Option S) {taken : List (Update S E) × List (Update S E)}
    (ht : takeUpdates sw.pendingUpdates = taken)
    {r : S × Bool × List (Update S E) × List (Nat × Callback E)}
    (hr : applyUpdates sw.appliedState false taken.1 = r) :
    (sw.handlePendingUpdates stateChanged).callbacks =
        sw.callbacks ++ r.2.2.2 ++ r.2.2.1.flatMap (·.callback .onSuccess) ∧
      (sw.handlePendingUpdates stateChanged).scheduledCalls = sw.scheduledCalls ∧
      (sw.handlePendingUpdates stateChanged).nextId = sw.nextId ∧
      (sw.handlePendingUpdates stateChanged).exiting = sw.exiting ∧
      ((r.2.1 = false ∧ (sw.handlePendingUpdates stateChanged).appliedState = sw.appliedState ∧
          (sw.handlePendingUpdates stateChanged).desiredState = sw.desiredState ∧
          (sw.handlePendingUpdates stateChanged).pendingUpdates = taken.2) ∨
        ((sw.handlePendingUpdates stateChanged).appliedState = r.1 ∧
          (sw.handlePendingUpdates stateChanged).desiredState = r.1 ∧
          (sw.handlePendingUpdates stateChanged).pendingUpdates = taken.2) ∨
        ((sw.handlePendingUpdates stateChanged).desiredState = r.1 ∧
          (sw.handlePendingUpdates stateChanged).pendingUpdates =
            .gettingHwInSync r.1 :: taken.2)) := by
  subst ht hr
  by_cases hb : (takeUpdates sw.pendingUpdates).1 = []
  · -- nothing to take: the loop runs over nothing
    simp [handlePendingUpdates, hb, applyUpdates]
  · have hne : (takeUpdates sw.pendingUpdates).1.isEmpty = false := by simpa using hb
    cases hc : (applyUpdates sw.appliedState false (takeUpdates sw.pendingUpdates).1).2.1 with
    | false => simp [handlePendingUpdates, hne, hc]
    | true =>
      cases hsc : stateChanged sw.appliedState
          (applyUpdates sw.appliedState false (takeUpdates sw.pendingUpdates).1).1 with
      | none =>
        simp [handlePendingUpdates, hne, hc, applyUpdate, hex, hsc]
      | some newAppliedState =>
        simp [handlePendingUpdates, hne, hc, applyUpdate, hex, hsc,
          queueStateUpdateForGettingHwInSync]

end SwSwitch

/-! ### The invariant of the queue -/

namespace SwSwitch

/-- What holds of the update queue over every run of enqueues and calls. -/
structure QueueInv (sw : SwSwitch S E) : Prop where
  notExiting : sw.exiting = false
  -- every update made so far is queued or was called back, once
  callbacks_perm :
    (sw.callbacks.map Prod.fst ++ pendingIds sw.pendingUpdates).Perm (List.range sw.nextId)
  -- each queued function update has a call scheduled
  pending_le : (pendingIds sw.pendingUpdates).length ≤ sw.scheduledCalls
  -- only the front update may be the hardware's
  tail_functions : ∀ u ∈ sw.pendingUpdates.tail, u.id?.isSome
  -- the function updates wait in the order they were enqueued
  sorted : (pendingIds sw.pendingUpdates).Pairwise (· < ·)
  -- the desired state is applied, or the update at the front brings it back
  inSync : sw.desiredState = sw.appliedState ∨
    sw.pendingUpdates.head? = some (.gettingHwInSync sw.desiredState)

theorem queueInv_init (s : S) : (init s : SwSwitch S E).QueueInv :=
  ⟨rfl, by simp [init], by simp [init], by simp [init], by simp [init], Or.inl rfl⟩

/-- The numbers of the queued function updates are below the next number. -/
theorem QueueInv.lt_nextId {sw : SwSwitch S E} (h : sw.QueueInv) {i : Nat}
    (hi : i ∈ pendingIds sw.pendingUpdates) : i < sw.nextId :=
  List.mem_range.mp (h.callbacks_perm.subset (List.mem_append_right _ hi))

/-- An enqueue keeps the invariant. -/
theorem QueueInv.updateState {sw : SwSwitch S E} (h : sw.QueueInv)
    (fn : S → Except E (Option S)) (allowCoalesce : Bool) :
    (sw.updateState fn allowCoalesce).QueueInv where
  notExiting := h.notExiting
  callbacks_perm := by
    simpa [SwSwitch.updateState, StateUpdate.id?, List.range_succ] using
      h.callbacks_perm.append_right [sw.nextId]
  pending_le := by
    simpa [SwSwitch.updateState, StateUpdate.id?] using h.pending_le
  tail_functions := by
    intro u hu
    cases hq : sw.pendingUpdates with
    | nil => simp [SwSwitch.updateState, hq] at hu
    | cons v vs =>
      simp only [SwSwitch.updateState, hq, List.cons_append, List.tail_cons, List.mem_append,
        List.mem_singleton] at hu
      rcases hu with hu | rfl
      · exact h.tail_functions u (by simp [hq, hu])
      · rfl
  sorted := by
    simp only [SwSwitch.updateState, pendingIds_append, pendingIds_cons, StateUpdate.id?,
      Option.toList_some, pendingIds_nil, List.append_nil]
    exact List.pairwise_append.mpr ⟨h.sorted, List.pairwise_singleton _ _,
      fun i hi j hj => (List.mem_singleton.mp hj) ▸ h.lt_nextId hi⟩
  inSync := by
    rcases h.inSync with hs | hs
    · exact Or.inl hs
    · right
      cases hq : sw.pendingUpdates with
      | nil => simp [hq] at hs
      | cons v vs => simpa [SwSwitch.updateState, hq] using hs

/-- A call that made no new state object found the desired state applied: the
update at the front that would bring it back makes one. -/
theorem QueueInv.desiredState_eq_of_unchanged {sw : SwSwitch S E} (h : sw.QueueInv)
    (hc : (applyUpdates sw.appliedState false (takeUpdates sw.pendingUpdates).1).2.1 = false) :
    sw.desiredState = sw.appliedState := by
  rcases h.inSync with hs | hs
  · exact hs
  · cases hq : sw.pendingUpdates with
    | nil => simp [hq] at hs
    | cons v vs =>
      simp only [hq, List.head?_cons, Option.some.injEq] at hs
      obtain ⟨batch, hb⟩ := takeUpdates_cons v vs
      rw [hq, hb] at hc
      exact absurd hs ((applyUpdates_unchanged hc).2.2 v List.mem_cons_self _)

/-- A scheduled call keeps the invariant. -/
theorem QueueInv.handlePendingUpdates {sw : SwSwitch S E} (h : sw.QueueInv)
    (hs : 0 < sw.scheduledCalls) (stateChanged : S → S → Option S) :
    ({ sw with scheduledCalls := sw.scheduledCalls - 1 }.handlePendingUpdates
      stateChanged).QueueInv := by
  obtain ⟨hcb, hsc, hid, hex, hcases⟩ :=
    @handlePendingUpdates_cases _ _ { sw with scheduledCalls := sw.scheduledCalls - 1 }
      h.notExiting stateChanged _ rfl _ rfl
  simp only at hcb hsc hid hex hcases
  have happ := takeUpdates_append sw.pendingUpdates
  have hids : pendingIds sw.pendingUpdates =
      pendingIds (takeUpdates sw.pendingUpdates).1 ++ pendingIds (takeUpdates sw.pendingUpdates).2 := by
    rw [← pendingIds_append, happ]
  -- in every outcome the queue left holds the same function updates
  have hpending : pendingIds ({ sw with scheduledCalls := sw.scheduledCalls - 1 }.handlePendingUpdates
      stateChanged).pendingUpdates = pendingIds (takeUpdates sw.pendingUpdates).2 := by
    rcases hcases with ⟨-, -, -, hq⟩ | ⟨-, -, hq⟩ | ⟨-, hq⟩ <;> simp [hq, StateUpdate.id?]
  refine ⟨hex.trans h.notExiting, ?_, ?_, ?_, ?_, ?_⟩
  · -- callbacks: the batch's updates moved from the queue to the callbacks
    rw [hcb, hid, hpending]
    have hloop := applyUpdates_ids sw.appliedState false (takeUpdates sw.pendingUpdates).1
    have hperm := h.callbacks_perm
    rw [hids] at hperm
    refine List.Perm.trans ?_ hperm
    simp only [List.map_append, flatMap_callback_ids, List.append_assoc]
    refine List.Perm.append_left _ ?_
    rw [← List.append_assoc]
    exact List.Perm.append_right _ (List.perm_append_comm.trans hloop)
  · -- the batch took a function update, unless none was queued
    rw [hsc, hpending]
    have hle := h.pending_le
    rw [hids, List.length_append] at hle
    by_cases hq : pendingIds sw.pendingUpdates = []
    · rw [hids, List.append_eq_nil_iff] at hq
      simp [hq.2]
    · have hpos := List.length_pos_of_ne_nil
        (pendingIds_takeUpdates_ne_nil h.tail_functions hq)
      omega
  · intro u hu
    have hrest : ∀ v ∈ (takeUpdates sw.pendingUpdates).2, v.id?.isSome := fun v hv =>
      h.tail_functions v (mem_tail_of_mem_takeUpdates_snd hv)
    rcases hcases with ⟨-, -, -, hq⟩ | ⟨-, -, hq⟩ | ⟨-, hq⟩ <;> rw [hq] at hu
    · exact hrest u (List.mem_of_mem_tail hu)
    · exact hrest u (List.mem_of_mem_tail hu)
    · exact hrest u hu
  · rw [hpending]
    have hsorted := h.sorted
    rw [hids] at hsorted
    exact hsorted.sublist (List.sublist_append_right _ _)
  · rcases hcases with ⟨hc, happlied, hdesired, -⟩ | ⟨happlied, hdesired, -⟩ | ⟨hdesired, hq⟩
    · exact Or.inl (by rw [happlied, hdesired]; exact h.desiredState_eq_of_unchanged hc)
    · exact Or.inl (by rw [happlied, hdesired])
    · exact Or.inr (by rw [hq, hdesired]; rfl)

/-- The run of a call ends in the fold of its batch over the applied state. -/
theorem QueueInv.handlePendingUpdates_desiredState {sw : SwSwitch S E} (h : sw.QueueInv)
    (stateChanged : S → S → Option S) :
    ({ sw with scheduledCalls := sw.scheduledCalls - 1 }.handlePendingUpdates
      stateChanged).desiredState = foldUpdates sw.appliedState (takeUpdates sw.pendingUpdates).1 := by
  obtain ⟨-, -, -, -, hcases⟩ :=
    @handlePendingUpdates_cases _ _ { sw with scheduledCalls := sw.scheduledCalls - 1 }
      h.notExiting stateChanged _ rfl _ rfl
  simp only at hcases
  rw [← applyUpdates_fst sw.appliedState false]
  rcases hcases with ⟨hc, -, hdesired, -⟩ | ⟨-, hdesired, -⟩ | ⟨hdesired, -⟩
  · -- nothing changed: the desired state was applied, and the loop ended there
    rw [hdesired, h.desiredState_eq_of_unchanged hc, (applyUpdates_unchanged hc).2.1]
  · exact hdesired
  · exact hdesired

/-- Once every scheduled call has run, no function update waits. -/
theorem QueueInv.pendingIds_eq_nil {sw : SwSwitch S E} (h : sw.QueueInv)
    (hcalls : sw.scheduledCalls = 0) : pendingIds sw.pendingUpdates = [] :=
  List.eq_nil_of_length_eq_zero (Nat.le_zero.mp (hcalls ▸ h.pending_le))

/-- The events of the update queue alone keep its invariant. -/
theorem QueueInv.step {sw : SwSwitch S E} (h : sw.QueueInv) {e : SwitchEvent S E}
    (he : sw.Allowed e ∧ e.isStop = false) : (sw.step e).QueueInv := by
  cases e with
  | updateState fn allowCoalesce => exact h.updateState fn allowCoalesce
  | handlePendingUpdates stateChanged => exact h.handlePendingUpdates he.1 stateChanged
  | stop => simp [SwitchEvent.isStop] at he

end SwSwitch

end UpdateQueue

end Fboss
