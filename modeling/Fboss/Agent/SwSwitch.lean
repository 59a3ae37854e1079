import Fboss.Agent.UpdateQueue
import Fboss.State.NodeBase

/-!
# The update queue of the switch, on its heap of nodes

The switch holds its applied and its desired state as pointers to published
nodes (`setStateInternal` `CHECK`s that both are published). A call of
`handlePendingUpdates()` takes a batch off `pendingUpdates_` and runs the
batch's functions in turn, the first on the applied state. A function may
throw, return `nullptr`, or return a state; a state returned is published
(`intermediateState->publish()`) before the next function runs on it, so that
a function that changes its state must change a copy, and one that throws
part of the way through leaves the state the next function sees as it was. A
new desired state goes to the hardware (`applyUpdate`), and when the hardware
applied another state, an update that brings back a clone of the desired
state is put at the front of the queue (`queueStateUpdateForGettingHwInSync`).

Read through the fields of its nodes, the switch is the update queue over
state values (`UpdateQueue`): each step of the switch is the step of the queue
on the fields (`HeapInv.step_abs`), and so is every run (`run_abs`). Over every run of enqueues and calls
(`updateQueue_semantics`): every update enqueued is queued or was told exactly
one of `onSuccess` and `onError`, and no `CHECK` fails; the desired state
after a call holds the fold of the batch's functions over the applied state,
and each function of the batch runs on a published state; a batch takes no
update enqueued after one of its updates that does not allow coalescing; and a
function that throws leaves the state the next function runs on as it was.
-/

namespace Fboss

open CowHeap

variable {F E : Type}

/-- A pending update of the switch: a function update holds its function; the
update of `queueStateUpdateForGettingHwInSync` holds the address of the
desired state the hardware failed to apply. -/
abbrev PendingUpdate (F E : Type) := StateUpdate (StateUpdateFn F E) Nat

/-- `applyUpdate(state)`: the function run on the state at `p`. The update of
`queueStateUpdateForGettingHwInSync` returns a clone of the desired state it
holds (the generation it takes from the applied state is not modelled). -/
def PendingUpdate.applyUpdate : PendingUpdate F E → Heap F → Nat → Outcome F E
  | .function _ fn _, heap, p => fn.exec heap p
  | .gettingHwInSync newDesiredState, heap, _ =>
    .ok (some (heap.clone newDesiredState).2) (heap.clone newDesiredState).1

/-- The state of the loop of `handlePendingUpdates()` over the updates taken:
the heap, the address of the state the next function runs on, the updates
kept, the errors told, and whether a `CHECK` failed. -/
structure Batch (F E : Type) where
  heap : Heap F
  newDesiredState : Nat
  kept : List (PendingUpdate F E)
  errors : List (Nat × Callback E)
  aborted : Bool

namespace Batch

/-- One turn of the loop: the update's function runs on the state so far. One
that throws is told `onError` at once and dropped (`delete update`); a state
returned is published and is the state the next function runs on. A `CHECK`
that fails aborts the agent, and nothing runs after it. -/
def step (b : Batch F E) (u : PendingUpdate F E) : Batch F E :=
  if b.aborted then b
  else
    match u.applyUpdate b.heap b.newDesiredState with
    | .abort => { b with aborted := true }
    | .error ex heap => { b with heap := heap, errors := b.errors ++ u.callback (.onError ex) }
    | .ok none heap => { b with heap := heap, kept := b.kept ++ [u] }
    | .ok (some intermediateState) heap =>
      { b with
        heap := heap.publish intermediateState
        newDesiredState := intermediateState
        kept := b.kept ++ [u] }

/-- The loop over `us`, from `newDesiredState = oldAppliedState`. -/
def run (heap : Heap F) (oldAppliedState : Nat) (us : List (PendingUpdate F E)) : Batch F E :=
  us.foldl step ⟨heap, oldAppliedState, [], [], false⟩

end Batch

/-- The part of `SwSwitch` the update thread works on: the heap of state
nodes, the addresses of the applied and the desired state, `pendingUpdates_`,
the calls of `handlePendingUpdates()` scheduled, the callbacks made so far,
the number of the next update, whether the switch is exiting, and whether a
`CHECK` failed, which aborts the agent. -/
structure SwSwitch (F E : Type) where
  heap : Heap F
  appliedState : Nat
  desiredState : Nat
  pendingUpdates : List (PendingUpdate F E)
  scheduledCalls : Nat
  callbacks : List (Nat × Callback E)
  nextId : Nat
  exiting : Bool
  aborted : Bool

namespace SwSwitch

/-- A switch whose applied and desired state is the published state `s`, with
nothing queued. -/
def init (s : F) : SwSwitch F E :=
  ⟨Heap.singleton ⟨s, true⟩, 0, 0, [], 0, [], 0, false, false⟩

/-- `updateState(update)`: the update goes to the back of the queue, and a call
of `handlePendingUpdates()` is scheduled. -/
def updateState (sw : SwSwitch F E) (fn : StateUpdateFn F E) (allowCoalesce : Bool) : SwSwitch F E :=
  { sw with
    pendingUpdates := sw.pendingUpdates ++ [.function sw.nextId fn allowCoalesce]
    scheduledCalls := sw.scheduledCalls + 1
    nextId := sw.nextId + 1 }

/-- `queueStateUpdateForGettingHwInSync`: to the front of the queue, with no
call scheduled. -/
def queueStateUpdateForGettingHwInSync (sw : SwSwitch F E) (newDesiredState : Nat) : SwSwitch F E :=
  { sw with pendingUpdates := .gettingHwInSync newDesiredState :: sw.pendingUpdates }

/-- `setStateInternal(newAppliedState, newDesiredState)`, which `CHECK`s that
both states are published. -/
def setStateInternal (sw : SwSwitch F E) (newAppliedState newDesiredState : Nat) : SwSwitch F E :=
  if sw.heap.published newAppliedState && sw.heap.published newDesiredState then
    { sw with appliedState := newAppliedState, desiredState := newDesiredState }
  else { sw with aborted := true }

/-- `applyUpdate(oldState, newState)`: the hardware is told the change and
answers the state it applied, `none` for the new state itself or the fields
of another state, which it returns published. An exiting switch answers the
old state. -/
def applyUpdate (sw : SwSwitch F E) (oldState newState : Nat) (stateChanged : F → F → Option F) :
    SwSwitch F E × Nat :=
  if sw.exiting then (sw, oldState)
  else
    match stateChanged (sw.heap.fields oldState) (sw.heap.fields newState) with
    | none => (sw.setStateInternal newState newState, newState)
    | some applied =>
      let r := sw.heap.alloc ⟨applied, true⟩
      ({ sw with heap := r.1 }.setStateInternal r.2 newState, r.2)

/-- `handlePendingUpdates()`: the batch is taken and its functions run from
the applied state; when the state the loop ends on is not the applied one, it
goes to the hardware, and when the hardware applied another state the desired
one is queued again at the front; then the updates kept are told `onSuccess`,
in order. -/
def handlePendingUpdates (sw : SwSwitch F E) (stateChanged : F → F → Option F) : SwSwitch F E :=
  let taken := takeUpdates sw.pendingUpdates
  let sw := { sw with pendingUpdates := taken.2 }
  if taken.1.isEmpty then sw
  else
    let oldAppliedState := sw.appliedState
    let b := Batch.run sw.heap oldAppliedState taken.1
    if b.aborted then { sw with heap := b.heap, aborted := true }
    else
      let sw := { sw with heap := b.heap, callbacks := sw.callbacks ++ b.errors }
      let sw :=
        if b.newDesiredState ≠ oldAppliedState then
          let applied := sw.applyUpdate oldAppliedState b.newDesiredState stateChanged
          if applied.2 ≠ b.newDesiredState then
            queueStateUpdateForGettingHwInSync applied.1 b.newDesiredState
          else applied.1
        else sw
      { sw with callbacks := sw.callbacks ++ b.kept.flatMap (·.callback .onSuccess) }

end SwSwitch

/-- What happens to the update queue: an update is enqueued, a scheduled call
of `handlePendingUpdates()` runs with the hardware's answers, or the switch
starts to exit (`stop()`). -/
inductive SwitchEvent (F E : Type) where
  | updateState (fn : StateUpdateFn F E) (allowCoalesce : Bool)
  | handlePendingUpdates (stateChanged : F → F → Option F)
  | stop

/-- Whether an event is `stop()`. -/
def SwitchEvent.isStop : SwitchEvent F E → Bool
  | .stop => true
  | _ => false

namespace SwSwitch

/-- One event; a call that runs is no longer scheduled. -/
def step (sw : SwSwitch F E) : SwitchEvent F E → SwSwitch F E
  | .updateState fn allowCoalesce => sw.updateState fn allowCoalesce
  | .handlePendingUpdates stateChanged =>
    { sw with scheduledCalls := sw.scheduledCalls - 1 }.handlePendingUpdates stateChanged
  | .stop => { sw with exiting := true }

/-- A call runs only when one is scheduled. -/
def Allowed (sw : SwSwitch F E) : SwitchEvent F E → Prop
  | .handlePendingUpdates _ => 0 < sw.scheduledCalls
  | _ => True

instance (sw : SwSwitch F E) (e : SwitchEvent F E) : Decidable (sw.Allowed e) :=
  match e with
  | .handlePendingUpdates _ => inferInstanceAs (Decidable (0 < sw.scheduledCalls))
  | .updateState _ _ | .stop => isTrue trivial

end SwSwitch

/-! ### The switch read through the fields of its nodes -/

/-- A state the switch holds on to: an allocated, published node. -/
def Frozen (heap : Heap F) (p : Nat) : Prop :=
  p < heap.next ∧ heap.published p = true

theorem Frozen.extends {h h' : Heap F} {p : Nat} (hp : Frozen h p) (hh : h.Extends h') : Frozen h' p :=
  ⟨Nat.lt_of_lt_of_le hp.1 hh.next_le, hh.published_eq hp.1 hp.2⟩

/-- An update whose desired state, if it holds one, is frozen. -/
def PendingUpdate.Good (heap : Heap F) : PendingUpdate F E → Prop
  | .function _ _ _ => True
  | .gettingHwInSync d => Frozen heap d

theorem PendingUpdate.Good.extends {h h' : Heap F} {u : PendingUpdate F E} (hu : u.Good h)
    (hh : h.Extends h') : u.Good h' := by
  cases u with
  | function => trivial
  | gettingHwInSync d => exact Frozen.extends hu hh

/-- An update over state values: its function's meaning, and the fields of the
desired state it brings back. -/
def PendingUpdate.abs (heap : Heap F) (u : PendingUpdate F E) : UpdateQueue.Update F E :=
  u.map StateUpdateFn.apply heap.fields

/-- An update reads the same from a heap that extends the one it is good in. -/
theorem PendingUpdate.abs_extends {h h' : Heap F} {u : PendingUpdate F E} (hu : u.Good h)
    (hh : h.Extends h') : u.abs h' = u.abs h := by
  cases u with
  | function => rfl
  | gettingHwInSync d =>
    simp only [PendingUpdate.abs, StateUpdate.map]
    rw [hh.fields_eq hu.1 hu.2]

@[simp] theorem PendingUpdate.callback_abs (h : Heap F) (u : PendingUpdate F E) (c : Callback E) :
    (u.abs h).callback c = u.callback c :=
  callback_map _ _ u c

theorem PendingUpdate.map_abs_extends {h h' : Heap F} {us : List (PendingUpdate F E)}
    (hus : ∀ u ∈ us, u.Good h) (hh : h.Extends h') : us.map (PendingUpdate.abs h') = us.map (PendingUpdate.abs h) :=
  List.map_congr_left fun u hu => PendingUpdate.abs_extends (hus u hu) hh

/-- The switch over state values: the fields of its states. -/
def SwSwitch.abs (sw : SwSwitch F E) : UpdateQueue.SwSwitch F E :=
  ⟨sw.heap.fields sw.appliedState, sw.heap.fields sw.desiredState, sw.pendingUpdates.map (PendingUpdate.abs sw.heap),
    sw.scheduledCalls, sw.callbacks, sw.nextId, sw.exiting⟩

/-- An event over state values: a function's meaning. -/
def SwitchEvent.abs : SwitchEvent F E → UpdateQueue.SwitchEvent F E
  | .updateState fn allowCoalesce => .updateState fn.apply allowCoalesce
  | .handlePendingUpdates stateChanged => .handlePendingUpdates stateChanged
  | .stop => .stop

/-! ### One turn of the loop -/

/-- An update run on a frozen state does what it means over the state's fields
(`UpdateProg.Matches`). -/
theorem PendingUpdate.applyUpdate_matches {h : Heap F} {p : Nat} {u : PendingUpdate F E} (hu : u.Good h)
    (hp : Frozen h p) : UpdateProg.Matches h p (u.applyUpdate h p) (some ((u.abs h).applyUpdate (h.fields p))) := by
  cases u with
  | function id fn allowCoalesce => exact fn.exec_matches hp.1 hp.2
  | gettingHwInSync d =>
    -- a clone of the desired state: a new unpublished node holding its fields
    exact ⟨Heap.Extends.clone h d, Nat.lt_succ_self _, Heap.fields_clone_self h d, Heap.published_clone_self h d⟩

namespace Batch

/-- A turn of the loop on a frozen state, by what the update means over the
state's fields: it throws and is told `onError`, or it changes nothing and is
kept, or it returns a new state, published for the next turn. The heap only
grows, and no published node changes. -/
theorem step_cases {b : Batch F E} (hb : b.aborted = false) (hfr : Frozen b.heap b.newDesiredState)
    {u : PendingUpdate F E} (hu : u.Good b.heap) :
    (∃ ex h', (u.abs b.heap).applyUpdate (b.heap.fields b.newDesiredState) = .error ex ∧
        b.heap.Extends h' ∧ b.step u = { b with heap := h', errors := b.errors ++ u.callback (.onError ex) }) ∨
      (∃ h', (u.abs b.heap).applyUpdate (b.heap.fields b.newDesiredState) = .ok none ∧
        b.heap.Extends h' ∧ b.step u = { b with heap := h', kept := b.kept ++ [u] }) ∨
      (∃ s q h', (u.abs b.heap).applyUpdate (b.heap.fields b.newDesiredState) = .ok (some s) ∧
        b.heap.Extends h' ∧ q < h'.next ∧ h'.fields q = s ∧ h'.published q = false ∧
        b.step u = { b with heap := h'.publish q, newDesiredState := q, kept := b.kept ++ [u] }) := by
  have hm := u.applyUpdate_matches hu hfr
  have hstep : ∀ o, u.applyUpdate b.heap b.newDesiredState = o → b.step u = (match o with
      | .abort => { b with aborted := true }
      | .error ex heap => { b with heap := heap, errors := b.errors ++ u.callback (.onError ex) }
      | .ok none heap => { b with heap := heap, kept := b.kept ++ [u] }
      | .ok (some q) heap => { b with heap := heap.publish q, newDesiredState := q, kept := b.kept ++ [u] }) := by
    intro o ho
    simp only [step, hb, Bool.false_eq_true, if_false, ho]
  cases hr : (u.abs b.heap).applyUpdate (b.heap.fields b.newDesiredState) with
  | error ex =>
    rw [hr] at hm
    cases ho : u.applyUpdate b.heap b.newDesiredState with
    | error ex' h' =>
      rw [ho] at hm
      obtain ⟨rfl, hh⟩ := hm
      exact .inl ⟨ex', h', rfl, hh, hstep _ ho⟩
    | abort => rw [ho] at hm; exact hm.elim
    | ok r h' => rw [ho] at hm; cases r <;> exact hm.elim
  | ok r =>
    cases r with
    | none =>
      rw [hr] at hm
      cases ho : u.applyUpdate b.heap b.newDesiredState with
      | ok r h' =>
        rw [ho] at hm
        obtain ⟨hr', hh⟩ := hm
        refine .inr (.inl ⟨h', rfl, hh, ?_⟩)
        rw [hstep _ ho]
        -- `nullptr`, or the state it was given, which is already published
        rcases hr' with rfl | rfl
        · rfl
        · dsimp only
          rw [Heap.publish_of_published (hh.published_eq hfr.1 hfr.2)]
      | abort => rw [ho] at hm; exact hm.elim
      | error _ _ => rw [ho] at hm; exact hm.elim
    | some s =>
      rw [hr] at hm
      cases ho : u.applyUpdate b.heap b.newDesiredState with
      | ok r h' =>
        rw [ho] at hm
        cases r with
        | none => exact hm.elim
        | some q =>
          obtain ⟨hh, hq, hfields, hpub⟩ := hm
          exact .inr (.inr ⟨s, q, h', rfl, hh, hq, hfields, hpub, hstep _ ho⟩)
      | abort => rw [ho] at hm; exact hm.elim
      | error _ _ => rw [ho] at hm; exact hm.elim

/-- A function that throws leaves the loop on the state it ran on. -/
theorem step_of_applyUpdate_error {b : Batch F E} (hb : b.aborted = false) {u : PendingUpdate F E}
    {ex : E} {heap : Heap F} (h : u.applyUpdate b.heap b.newDesiredState = .error ex heap) :
    b.step u = { b with heap := heap, errors := b.errors ++ u.callback (.onError ex) } := by
  simp only [step, hb, Bool.false_eq_true, if_false, h]

/-- What the loop keeps from a start heap `h₀` whose applied state `p₀` is
frozen: no `CHECK` failed, the heap only grew, and the state the next
function runs on is frozen. -/
structure Inv (h₀ : Heap F) (b : Batch F E) : Prop where
  notAborted : b.aborted = false
  extends_ : h₀.Extends b.heap
  frozen : Frozen b.heap b.newDesiredState

/-- A turn from a state that keeps `Inv` keeps it, and only grows the heap. -/
theorem Inv.step {h₀ : Heap F} {b : Batch F E} (hb : b.Inv h₀) {u : PendingUpdate F E} (hu : u.Good b.heap) :
    (b.step u).Inv h₀ ∧ b.heap.Extends (b.step u).heap := by
  rcases step_cases hb.notAborted hb.frozen hu with
    ⟨_, h', _, hh, hstep⟩ | ⟨h', _, hh, hstep⟩ | ⟨_, q, h', _, hh, hq, _, _, hstep⟩
  · rw [hstep]
    exact ⟨⟨hb.notAborted, hb.extends_.trans hh, hb.frozen.extends hh⟩, hh⟩
  · rw [hstep]
    exact ⟨⟨hb.notAborted, hb.extends_.trans hh, hb.frozen.extends hh⟩, hh⟩
  · -- the new state is published as the turn ends
    have hh' : b.heap.Extends (h'.publish q) := hh.trans (Heap.Extends.publish h' q)
    rw [hstep]
    exact ⟨⟨hb.notAborted, hb.extends_.trans hh', hq, Heap.published_publish_self h' q⟩, hh'⟩

/-- The loop over the updates left, from a state that keeps `Inv`, computes
over the heap what the loop over state values computes over the fields: it
keeps `Inv` and ends on a state whose fields are the loop's result, which
differs from the applied state exactly when the loop's state changed; it keeps
the updates the loop keeps, and tells the errors it tells. -/
theorem foldl_step {h₀ : Heap F} {p₀ : Nat} (hp₀ : Frozen h₀ p₀) :
    ∀ (us : List (PendingUpdate F E)) (b : Batch F E), b.Inv h₀ → (∀ u ∈ us, u.Good b.heap) →
      (us.foldl step b).Inv h₀ ∧
        (us.foldl step b).heap.fields (us.foldl step b).newDesiredState =
          (UpdateQueue.SwSwitch.applyUpdates (b.heap.fields b.newDesiredState) (decide (b.newDesiredState ≠ p₀))
            (us.map (PendingUpdate.abs b.heap))).1 ∧
        decide ((us.foldl step b).newDesiredState ≠ p₀) =
          (UpdateQueue.SwSwitch.applyUpdates (b.heap.fields b.newDesiredState) (decide (b.newDesiredState ≠ p₀))
            (us.map (PendingUpdate.abs b.heap))).2.1 ∧
        (∃ kept, (us.foldl step b).kept = b.kept ++ kept ∧ kept.Sublist us ∧
          kept.map (PendingUpdate.abs b.heap) = (UpdateQueue.SwSwitch.applyUpdates (b.heap.fields b.newDesiredState)
            (decide (b.newDesiredState ≠ p₀)) (us.map (PendingUpdate.abs b.heap))).2.2.1) ∧
        (us.foldl step b).errors = b.errors ++
          (UpdateQueue.SwSwitch.applyUpdates (b.heap.fields b.newDesiredState) (decide (b.newDesiredState ≠ p₀))
            (us.map (PendingUpdate.abs b.heap))).2.2.2
  | [], b, hb, _ => ⟨hb, rfl, rfl, ⟨[], by simp, List.Sublist.slnil, rfl⟩, by simp [UpdateQueue.SwSwitch.applyUpdates]⟩
  | u :: us, b, hb, hgood => by
    have hu := hgood u List.mem_cons_self
    have hus : ∀ v ∈ us, v.Good b.heap := fun v hv => hgood v (List.mem_cons_of_mem u hv)
    -- the loop goes on from the turn's state, where the updates left mean what they meant
    obtain ⟨hb', hext⟩ := hb.step hu
    obtain ⟨hinv, hres, hchanged, ⟨kept, hkept, hsub, hkeptabs⟩, herrors⟩ :=
      foldl_step hp₀ us (b.step u) hb' (fun v hv => (hus v hv).extends hext)
    have hmap : ∀ vs : List (PendingUpdate F E), (∀ v ∈ vs, v.Good b.heap) →
        vs.map (PendingUpdate.abs (b.step u).heap) = vs.map (PendingUpdate.abs b.heap) :=
      fun vs hvs => PendingUpdate.map_abs_extends hvs hext
    rw [hmap us hus] at hres hchanged hkeptabs herrors
    rw [hmap kept fun v hv => hus v (hsub.subset hv)] at hkeptabs
    rw [List.foldl_cons, List.map_cons]
    rcases step_cases hb.notAborted hb.frozen hu with
      ⟨ex, h', hr, hh, hstep⟩ | ⟨h', hr, hh, hstep⟩ | ⟨s, q, h', hr, hh, hq, hfields, hpub, hstep⟩
    · -- the function threw: it is told `onError`, and the loop goes on from the same state
      have hfield : (b.step u).heap.fields (b.step u).newDesiredState = b.heap.fields b.newDesiredState := by
        rw [hstep]
        exact hh.fields_eq hb.frozen.1 hb.frozen.2
      have hsame : (b.step u).newDesiredState = b.newDesiredState := by rw [hstep]
      simp only [UpdateQueue.SwSwitch.applyUpdates, hr]
      rw [hfield, hsame] at hres hchanged hkeptabs herrors
      refine ⟨hinv, hres, hchanged, ⟨kept, ?_, hsub.cons u, hkeptabs⟩, ?_⟩
      · rw [hkept, hstep]
      · rw [herrors, hstep, List.append_assoc, PendingUpdate.callback_abs]
    · -- the function changed nothing: it is kept, and the loop goes on from the same state
      have hfield : (b.step u).heap.fields (b.step u).newDesiredState = b.heap.fields b.newDesiredState := by
        rw [hstep]
        exact hh.fields_eq hb.frozen.1 hb.frozen.2
      have hsame : (b.step u).newDesiredState = b.newDesiredState := by rw [hstep]
      simp only [UpdateQueue.SwSwitch.applyUpdates, hr]
      rw [hfield, hsame] at hres hchanged hkeptabs herrors
      refine ⟨hinv, hres, hchanged, ⟨u :: kept, ?_, hsub.cons_cons u, ?_⟩, ?_⟩
      · rw [hkept, hstep, List.append_assoc, List.singleton_append]
      · rw [List.map_cons, hkeptabs]
      · rw [herrors, hstep]
    · -- the function returned a new state: it is published and the loop goes on from it
      have hfield : (b.step u).heap.fields (b.step u).newDesiredState = s := by
        rw [hstep]
        exact (Heap.fields_publish h' q q).trans hfields
      -- the new state is unpublished and the applied state published, so they differ
      have hne : decide ((b.step u).newDesiredState ≠ p₀) = true := by
        have hp₀' := (hp₀.extends hb.extends_).extends hh
        rw [hstep]
        refine decide_eq_true fun hq₀ => ?_
        dsimp only at hq₀
        rw [hq₀, hp₀'.2] at hpub
        cases hpub
      simp only [UpdateQueue.SwSwitch.applyUpdates, hr]
      rw [hfield, hne] at hres hchanged hkeptabs herrors
      refine ⟨hinv, hres, hchanged, ⟨u :: kept, ?_, hsub.cons_cons u, ?_⟩, ?_⟩
      · rw [hkept, hstep, List.append_assoc, List.singleton_append]
      · rw [List.map_cons, hkeptabs]
      · rw [herrors, hstep]

/-- The loop of a call, from the frozen applied state `p`, computes over the
heap what the loop over state values computes over the fields: it keeps
`Inv`, ends on a state holding the loop's result, other than `p` exactly when
the loop's state changed, keeps the updates the loop keeps and tells the
errors it tells. -/
theorem run_spec {h : Heap F} {p : Nat} (hp : Frozen h p) {us : List (PendingUpdate F E)}
    (hus : ∀ u ∈ us, PendingUpdate.Good h u) :
    (run h p us).Inv h ∧
      (run h p us).heap.fields (run h p us).newDesiredState =
        (UpdateQueue.SwSwitch.applyUpdates (h.fields p) false (us.map (PendingUpdate.abs h))).1 ∧
      decide ((run h p us).newDesiredState ≠ p) =
        (UpdateQueue.SwSwitch.applyUpdates (h.fields p) false (us.map (PendingUpdate.abs h))).2.1 ∧
      (run h p us).kept.Sublist us ∧
      (run h p us).kept.map (PendingUpdate.abs h) =
        (UpdateQueue.SwSwitch.applyUpdates (h.fields p) false (us.map (PendingUpdate.abs h))).2.2.1 ∧
      (run h p us).errors = (UpdateQueue.SwSwitch.applyUpdates (h.fields p) false (us.map (PendingUpdate.abs h))).2.2.2 := by
  obtain ⟨hinv, hres, hchanged, ⟨kept, hkept, hsub, hkeptabs⟩, herrors⟩ :=
    foldl_step hp us ⟨h, p, [], [], false⟩ ⟨rfl, .refl h, hp⟩ hus
  simp only [ne_eq, not_true_eq_false, decide_false, List.nil_append] at hres hchanged hkept hkeptabs herrors
  exact ⟨hinv, hres, hchanged, hkept ▸ hsub, hkept ▸ hkeptabs, herrors⟩

/-- The loop over a batch with one more update is one more turn. -/
theorem run_append_singleton (heap : Heap F) (p : Nat) (pre : List (PendingUpdate F E)) (u : PendingUpdate F E) :
    run heap p (pre ++ [u]) = (run heap p pre).step u := by
  rw [run, List.foldl_append, List.foldl_cons, List.foldl_nil, run]

/-- A function that throws leaves the loop on the state it ran on, and leaves
that state's node as it was. -/
theorem step_of_error {h₀ : Heap F} {b : Batch F E} (hb : b.Inv h₀) {u : PendingUpdate F E}
    (hu : u.Good b.heap) {ex : E} {heap : Heap F} (herr : u.applyUpdate b.heap b.newDesiredState = .error ex heap) :
    (b.step u).newDesiredState = b.newDesiredState ∧
      (b.step u).heap.mem b.newDesiredState = b.heap.mem b.newDesiredState := by
  have hm := u.applyUpdate_matches hu hb.frozen
  rw [herr] at hm
  rw [step_of_applyUpdate_error hb.notAborted herr]
  exact ⟨rfl, hm.extends_of_error.mem_eq hb.frozen.1 hb.frozen.2⟩

end Batch

/-! ### One step of the switch -/

theorem takeUpdates_map_abs (h : Heap F) (us : List (PendingUpdate F E)) :
    takeUpdates (us.map (PendingUpdate.abs h)) = ((takeUpdates us).1.map (PendingUpdate.abs h), (takeUpdates us).2.map (PendingUpdate.abs h)) :=
  takeUpdates_map _ _ us

namespace SwSwitch

/-- What the switch keeps on its heap: no `CHECK` failed, the applied and the
desired state are frozen, and so is every desired state queued to be brought
back. -/
structure HeapInv (sw : SwSwitch F E) : Prop where
  notAborted : sw.aborted = false
  applied : Frozen sw.heap sw.appliedState
  desired : Frozen sw.heap sw.desiredState
  pending : ∀ u ∈ sw.pendingUpdates, u.Good sw.heap

theorem heapInv_init (s : F) : (init s : SwSwitch F E).HeapInv :=
  ⟨rfl, ⟨Nat.zero_lt_one, rfl⟩, ⟨Nat.zero_lt_one, rfl⟩, by simp [init]⟩

/-- The hardware's part of a call, for a new desired state `q` that is frozen:
the state goes to the hardware, and the desired state is queued again when
the hardware applied another one. The switch keeps `HeapInv`, and over state
values this is the queue's hardware part for the fields of `q`. -/
theorem HeapInv.applyUpdate_abs {sw : SwSwitch F E} (h : sw.HeapInv) {q : Nat} (hq : Frozen sw.heap q)
    (hne : q ≠ sw.appliedState) (stateChanged : F → F → Option F) :
    (if (sw.applyUpdate sw.appliedState q stateChanged).2 ≠ q then
        queueStateUpdateForGettingHwInSync (sw.applyUpdate sw.appliedState q stateChanged).1 q
      else (sw.applyUpdate sw.appliedState q stateChanged).1).HeapInv ∧
      (if (sw.applyUpdate sw.appliedState q stateChanged).2 ≠ q then
          queueStateUpdateForGettingHwInSync (sw.applyUpdate sw.appliedState q stateChanged).1 q
        else (sw.applyUpdate sw.appliedState q stateChanged).1).abs =
        (match (sw.abs.applyUpdate (sw.heap.fields q) stateChanged).2 with
          | none => (sw.abs.applyUpdate (sw.heap.fields q) stateChanged).1
          | some _ => UpdateQueue.SwSwitch.queueStateUpdateForGettingHwInSync
              (sw.abs.applyUpdate (sw.heap.fields q) stateChanged).1 (sw.heap.fields q)) := by
  have hpending : ∀ u ∈ (StateUpdate.gettingHwInSync q :: sw.pendingUpdates : List (PendingUpdate F E)),
      u.Good sw.heap := by
    intro u hu
    rcases List.mem_cons.mp hu with rfl | hu
    · exact hq
    · exact h.pending u hu
  unfold applyUpdate UpdateQueue.SwSwitch.applyUpdate
  cases hex : sw.exiting
  · simp only [Bool.false_eq_true, if_false, SwSwitch.abs]
    cases hsc : stateChanged (sw.heap.fields sw.appliedState) (sw.heap.fields q) with
    | none =>
      -- the hardware applied the new state, which is published
      simp only [setStateInternal, hq.2, Bool.and_self, if_true, ne_eq, not_true_eq_false, if_false]
      exact ⟨⟨h.notAborted, hq, hq, h.pending⟩, by simp [hex]⟩
    | some applied =>
      -- the hardware answers another state, published at a new address
      have hlt := hq.1
      have hnew : Frozen (sw.heap.alloc ⟨applied, true⟩).1 sw.heap.next :=
        ⟨Nat.lt_succ_self _, Heap.published_alloc_self _ _⟩
      have hh := Heap.Extends.alloc sw.heap ⟨applied, true⟩
      have hq' : Frozen (sw.heap.alloc ⟨applied, true⟩).1 q := hq.extends hh
      simp only [setStateInternal, hnew.2, hq'.2, Bool.and_self, if_true, Heap.alloc_snd, ne_eq,
        Nat.ne_of_gt hlt, not_false_eq_true]
      refine ⟨⟨h.notAborted, hnew, hq', fun u hu => (hpending u hu).extends hh⟩, ?_⟩
      simp [queueStateUpdateForGettingHwInSync,
        UpdateQueue.SwSwitch.queueStateUpdateForGettingHwInSync, hex, Heap.fields_alloc_of_lt _ _ hlt,
        PendingUpdate.map_abs_extends h.pending hh, PendingUpdate.abs, StateUpdate.map]
  · -- an exiting switch answers the applied state, and the desired one is queued again
    simp only [if_true, ne_eq, Ne.symm hne, not_false_eq_true]
    refine ⟨⟨h.notAborted, h.applied, h.desired, hpending⟩, ?_⟩
    simp [SwSwitch.abs, queueStateUpdateForGettingHwInSync, UpdateQueue.SwSwitch.queueStateUpdateForGettingHwInSync,
      hex, PendingUpdate.abs, StateUpdate.map]

/-- The end of a call: the updates kept are told `onSuccess`, on the heap as
over state values. -/
theorem HeapInv.tellSuccess {sw : SwSwitch F E} {q : UpdateQueue.SwSwitch F E} (h : sw.HeapInv) (habs : sw.abs = q)
    {heap : Heap F} {kept : List (PendingUpdate F E)} {kept' : List (UpdateQueue.Update F E)}
    (hkept : kept.map (PendingUpdate.abs heap) = kept') :
    ({ sw with callbacks := sw.callbacks ++ kept.flatMap (·.callback .onSuccess) } : SwSwitch F E).HeapInv ∧
      ({ sw with callbacks := sw.callbacks ++ kept.flatMap (·.callback .onSuccess) } : SwSwitch F E).abs =
        { q with callbacks := q.callbacks ++ kept'.flatMap (·.callback .onSuccess) } := by
  subst habs hkept
  refine ⟨⟨h.notAborted, h.applied, h.desired, h.pending⟩, ?_⟩
  simp [SwSwitch.abs, List.flatMap_map]

/-- A call keeps `HeapInv`, and over state values it is the queue's call. -/
theorem HeapInv.handlePendingUpdates_abs {sw : SwSwitch F E} (h : sw.HeapInv) (stateChanged : F → F → Option F) :
    (sw.handlePendingUpdates stateChanged).HeapInv ∧
      (sw.handlePendingUpdates stateChanged).abs = sw.abs.handlePendingUpdates stateChanged := by
  have happ := takeUpdates_append sw.pendingUpdates
  have hgood₁ : ∀ u ∈ (takeUpdates sw.pendingUpdates).1, PendingUpdate.Good sw.heap u := fun u hu =>
    h.pending u (happ ▸ List.mem_append_left _ hu)
  have hgood₂ : ∀ u ∈ (takeUpdates sw.pendingUpdates).2, PendingUpdate.Good sw.heap u := fun u hu =>
    h.pending u (happ ▸ List.mem_append_right _ hu)
  have htake := takeUpdates_map_abs sw.heap sw.pendingUpdates
  by_cases hempty : (takeUpdates sw.pendingUpdates).1 = []
  · -- nothing to take: the queue loses its front, which held no update
    simp only [handlePendingUpdates, UpdateQueue.SwSwitch.handlePendingUpdates, SwSwitch.abs, htake, hempty,
      List.isEmpty_nil, if_true, List.map_nil]
    exact ⟨⟨h.notAborted, h.applied, h.desired, hgood₂⟩, trivial⟩
  · obtain ⟨hinv, hres, hchanged, hsub, hkeptabs, herrors⟩ := Batch.run_spec h.applied hgood₁
    have hne : (takeUpdates sw.pendingUpdates).1.isEmpty = false := List.isEmpty_eq_false_iff.mpr hempty
    dsimp only [SwSwitch.handlePendingUpdates, UpdateQueue.SwSwitch.handlePendingUpdates, SwSwitch.abs]
    rw [htake]
    dsimp only
    rw [List.isEmpty_map, hne, if_neg Bool.false_ne_true, if_neg Bool.false_ne_true]
    generalize Batch.run sw.heap sw.appliedState (takeUpdates sw.pendingUpdates).1 = b at hinv hres hchanged hsub hkeptabs herrors ⊢
    generalize UpdateQueue.SwSwitch.applyUpdates (sw.heap.fields sw.appliedState) false
      (List.map (PendingUpdate.abs sw.heap) (takeUpdates sw.pendingUpdates).1) = r at hres hchanged hkeptabs herrors ⊢
    rw [hinv.notAborted, if_neg Bool.false_ne_true]
    -- the switch after the loop, on its heap and over state values
    set sw₁ : SwSwitch F E := ⟨b.heap, sw.appliedState, sw.desiredState, (takeUpdates sw.pendingUpdates).2,
      sw.scheduledCalls, sw.callbacks ++ b.errors, sw.nextId, sw.exiting, sw.aborted⟩ with hsw₁
    have h₁ : sw₁.HeapInv :=
      ⟨h.notAborted, h.applied.extends hinv.extends_, h.desired.extends hinv.extends_,
        fun u hu => (hgood₂ u hu).extends hinv.extends_⟩
    have habs₁ : sw₁.abs =
        ⟨sw.heap.fields sw.appliedState, sw.heap.fields sw.desiredState,
          (takeUpdates sw.pendingUpdates).2.map (PendingUpdate.abs sw.heap), sw.scheduledCalls,
          sw.callbacks ++ r.2.2.2, sw.nextId, sw.exiting⟩ := by
      simp only [hsw₁, SwSwitch.abs, hinv.extends_.fields_eq h.applied.1 h.applied.2,
        hinv.extends_.fields_eq h.desired.1 h.desired.2, PendingUpdate.map_abs_extends hgood₂ hinv.extends_, herrors]
    rw [← habs₁]
    by_cases hq : b.newDesiredState = sw.appliedState
    · -- the loop ended on the applied state: nothing goes to the hardware
      have hr : r.2.1 = false := by rw [← hchanged, hq]; simp
      simp only [hq, ne_eq, not_true_eq_false, if_false, hr, Bool.false_eq_true]
      exact h₁.tellSuccess rfl hkeptabs
    · -- the loop ended on a new state: it goes to the hardware
      have hr : r.2.1 = true := by rw [← hchanged]; simpa using hq
      obtain ⟨h₂, habs₂⟩ := h₁.applyUpdate_abs (q := b.newDesiredState) hinv.frozen hq stateChanged
      rw [show sw₁.heap = b.heap from rfl, hres] at habs₂
      simp only [hq, ne_eq, not_false_eq_true, if_true, hr]
      exact h₂.tellSuccess habs₂ hkeptabs

/-- Every event keeps `HeapInv`, and over state values it is the queue's
event. -/
theorem HeapInv.step_abs {sw : SwSwitch F E} (h : sw.HeapInv) (e : SwitchEvent F E) :
    (sw.step e).HeapInv ∧ (sw.step e).abs = sw.abs.step e.abs := by
  cases e with
  | updateState fn allowCoalesce =>
    -- the update enqueued is a function update, good in every heap
    refine ⟨⟨h.notAborted, h.applied, h.desired, fun u hu => ?_⟩, ?_⟩
    · rcases List.mem_append.mp hu with hu | hu
      · exact h.pending u hu
      · rw [List.mem_singleton.mp hu]
        trivial
    · simp [SwSwitch.step, updateState, SwSwitch.abs, SwitchEvent.abs, UpdateQueue.SwSwitch.step,
        UpdateQueue.SwSwitch.updateState, PendingUpdate.abs, StateUpdate.map]
  | handlePendingUpdates stateChanged =>
    have h' : ({ sw with scheduledCalls := sw.scheduledCalls - 1 } : SwSwitch F E).HeapInv :=
      ⟨h.notAborted, h.applied, h.desired, h.pending⟩
    exact h'.handlePendingUpdates_abs stateChanged
  | stop => exact ⟨⟨h.notAborted, h.applied, h.desired, h.pending⟩, rfl⟩

/-- Over every run of events, the switch keeps `HeapInv`, and read through the
fields of its nodes it runs as the update queue over state values. -/
theorem run_abs (s₀ : F) (es : List (SwitchEvent F E)) :
    (Run.run step (init s₀) es).HeapInv ∧
      (Run.run step (init s₀) es).abs =
        Run.run UpdateQueue.SwSwitch.step (UpdateQueue.SwSwitch.init s₀) (es.map SwitchEvent.abs) :=
  Run.run_refines HeapInv SwSwitch.abs SwitchEvent.abs (fun _ e h => h.step_abs e) es (heapInv_init s₀)

theorem Allowed.abs {sw : SwSwitch F E} {e : SwitchEvent F E} (he : sw.Allowed e) : sw.abs.Allowed e.abs := by
  cases e <;> exact he

theorem isStop_abs (e : SwitchEvent F E) : e.abs.isStop = e.isStop := by
  cases e <;> rfl

/-- Over every run of enqueues and scheduled calls, the switch keeps
`HeapInv`, and the queue it is read as keeps `QueueInv`. -/
theorem run_inv (s₀ : F) {es : List (SwitchEvent F E)}
    (hes : Run.Guarded step (fun sw e => sw.Allowed e ∧ e.isStop = false) (init s₀) es) :
    (Run.run step (init s₀) es).HeapInv ∧ (Run.run step (init s₀) es).abs.QueueInv := by
  refine Run.run_invariant_guarded (fun sw => sw.HeapInv ∧ sw.abs.QueueInv) ?_ hes
    ⟨heapInv_init s₀, UpdateQueue.SwSwitch.queueInv_init s₀⟩
  rintro sw e ⟨hallowed, hstop⟩ ⟨h, hq⟩
  obtain ⟨h', habs⟩ := h.step_abs e
  refine ⟨h', habs ▸ hq.step ⟨hallowed.abs, ?_⟩⟩
  rw [isStop_abs, hstop]

theorem pendingIds_map_abs (h : Heap F) (us : List (PendingUpdate F E)) :
    pendingIds (us.map (PendingUpdate.abs h)) = pendingIds us :=
  pendingIds_map _ _ us

/-- Over every run of enqueues and scheduled calls from a switch whose state
is published: every update made is still queued or was told exactly one of
`onSuccess` and `onError`, none is queued once every scheduled call has run,
and no `CHECK` failed. The next call fails no `CHECK` and leaves as desired
state one holding the fold of its batch over the applied state; each function
of the batch runs on a published state, and one that throws leaves the state
the next function runs on as it was, pointer and node. The batch is a prefix
of the queue in which no update was enqueued after one that does not allow
coalescing. -/
theorem updateQueue_semantics (s₀ : F) (es : List (SwitchEvent F E))
    (hes : Run.Guarded step (fun sw e => sw.Allowed e ∧ e.isStop = false) (init s₀) es) :
    let sw := Run.run step (init s₀) es
    let batch := (takeUpdates sw.pendingUpdates).1
    (sw.callbacks.map Prod.fst ++ pendingIds sw.pendingUpdates).Perm (List.range sw.nextId) ∧
      (sw.scheduledCalls = 0 → pendingIds sw.pendingUpdates = []) ∧
      sw.aborted = false ∧
      ∀ stateChanged : F → F → Option F, 0 < sw.scheduledCalls →
        (sw.step (.handlePendingUpdates stateChanged)).aborted = false ∧
        (sw.step (.handlePendingUpdates stateChanged)).heap.fields
            (sw.step (.handlePendingUpdates stateChanged)).desiredState =
          UpdateQueue.foldUpdates (sw.heap.fields sw.appliedState) (batch.map (PendingUpdate.abs sw.heap)) ∧
        (∀ pre u post, batch = pre ++ u :: post →
          (Batch.run sw.heap sw.appliedState pre).aborted = false ∧
          Frozen (Batch.run sw.heap sw.appliedState pre).heap (Batch.run sw.heap sw.appliedState pre).newDesiredState ∧
          ∀ ex heap, u.applyUpdate (Batch.run sw.heap sw.appliedState pre).heap
              (Batch.run sw.heap sw.appliedState pre).newDesiredState = .error ex heap →
            (Batch.run sw.heap sw.appliedState (pre ++ [u])).newDesiredState =
                (Batch.run sw.heap sw.appliedState pre).newDesiredState ∧
              (Batch.run sw.heap sw.appliedState (pre ++ [u])).heap.mem
                  (Batch.run sw.heap sw.appliedState pre).newDesiredState =
                (Batch.run sw.heap sw.appliedState pre).heap.mem (Batch.run sw.heap sw.appliedState pre).newDesiredState) ∧
        batch <+: sw.pendingUpdates ∧
        ∀ u ∈ batch, u.allowsCoalescing = false →
          ∀ v ∈ batch, ∀ i j, u.id? = some i → v.id? = some j → j ≤ i := by
  intro sw batch
  obtain ⟨h, hq⟩ := run_inv s₀ hes
  have hsorted : (pendingIds sw.pendingUpdates).Pairwise (· < ·) := by
    simpa only [SwSwitch.abs, pendingIds_map_abs] using hq.sorted
  have hgood : ∀ u ∈ batch, PendingUpdate.Good sw.heap u := fun u hu =>
    h.pending u (takeUpdates_append sw.pendingUpdates ▸ List.mem_append_left _ hu)
  refine ⟨?_, fun hcalls => ?_, h.notAborted, fun stateChanged hcalls => ⟨?_, ?_, ?_, ?_, ?_⟩⟩
  · simpa only [SwSwitch.abs, pendingIds_map_abs] using hq.callbacks_perm
  · simpa only [SwSwitch.abs, pendingIds_map_abs] using hq.pendingIds_eq_nil hcalls
  · exact (h.step_abs (.handlePendingUpdates stateChanged)).1.notAborted
  · -- the call over state values leaves the fold of the batch read through the heap
    have habs := congrArg UpdateQueue.SwSwitch.desiredState (h.step_abs (.handlePendingUpdates stateChanged)).2
    have hfold := hq.handlePendingUpdates_desiredState stateChanged
    rw [SwSwitch.abs, takeUpdates_map_abs] at hfold
    exact habs.trans hfold
  · -- each function runs after the ones before it, on the state the loop reached
    intro pre u post hbatch
    have hpre : ∀ v ∈ pre, PendingUpdate.Good sw.heap v := fun v hv => hgood v (hbatch ▸ List.mem_append_left _ hv)
    have hu : PendingUpdate.Good sw.heap u := hgood u (hbatch ▸ List.mem_append_right _ List.mem_cons_self)
    have hinv := (Batch.run_spec h.applied hpre).1
    refine ⟨hinv.notAborted, hinv.frozen, fun ex heap herr => ?_⟩
    rw [Batch.run_append_singleton]
    exact Batch.step_of_error hinv (hu.extends hinv.extends_) herr
  · exact ⟨_, takeUpdates_append sw.pendingUpdates⟩
  · exact fun u hu hc => takeUpdates_ordered hsorted hu hc

/-- A function that adds one to the state, through a copy: `modify`, then
`writableFields()`. -/
def incr : StateUpdateFn Nat String :=
  ⟨.modify 0 (.read 0 fun n => .write 0 (fun _ => n + 1) (.done (some 0))), fun _ => rfl⟩

/-- A function that changes its copy of the state, then throws. -/
def bad : StateUpdateFn Nat String :=
  ⟨.modify 0 (.write 0 (· + 100) (.throw "bad")), fun _ => rfl⟩

/-- Two updates, the second throwing after it changed its copy and not
coalescing, before the call that takes both. -/
theorem updateQueue_semantics_incr_bad :
    Run.Guarded step (fun sw e => sw.Allowed e ∧ e.isStop = false) (init 0)
        [.updateState incr true, .updateState bad false] ∧
      let sw := Run.run step (init 0) [.updateState incr true, .updateState bad false]
      let batch := (takeUpdates sw.pendingUpdates).1
      (sw.callbacks.map Prod.fst ++ pendingIds sw.pendingUpdates).Perm (List.range sw.nextId) ∧
        (sw.scheduledCalls = 0 → pendingIds sw.pendingUpdates = []) ∧
        sw.aborted = false ∧
        ∀ stateChanged : Nat → Nat → Option Nat, 0 < sw.scheduledCalls →
          (sw.step (.handlePendingUpdates stateChanged)).aborted = false ∧
          (sw.step (.handlePendingUpdates stateChanged)).heap.fields
              (sw.step (.handlePendingUpdates stateChanged)).desiredState =
            UpdateQueue.foldUpdates (sw.heap.fields sw.appliedState) (batch.map (PendingUpdate.abs sw.heap)) ∧
          (∀ pre u post, batch = pre ++ u :: post →
            (Batch.run sw.heap sw.appliedState pre).aborted = false ∧
            Frozen (Batch.run sw.heap sw.appliedState pre).heap
              (Batch.run sw.heap sw.appliedState pre).newDesiredState ∧
            ∀ ex heap, u.applyUpdate (Batch.run sw.heap sw.appliedState pre).heap
                (Batch.run sw.heap sw.appliedState pre).newDesiredState = .error ex heap →
              (Batch.run sw.heap sw.appliedState (pre ++ [u])).newDesiredState =
                  (Batch.run sw.heap sw.appliedState pre).newDesiredState ∧
                (Batch.run sw.heap sw.appliedState (pre ++ [u])).heap.mem
                    (Batch.run sw.heap sw.appliedState pre).newDesiredState =
                  (Batch.run sw.heap sw.appliedState pre).heap.mem
                    (Batch.run sw.heap sw.appliedState pre).newDesiredState) ∧
          batch <+: sw.pendingUpdates ∧
          ∀ u ∈ batch, u.allowsCoalescing = false →
            ∀ v ∈ batch, ∀ i j, u.id? = some i → v.id? = some j → j ≤ i :=
  ⟨by decide, updateQueue_semantics 0 _ (by decide)⟩

end SwSwitch

end Fboss
