import Fboss.Lib.Run
import Fboss.State.Neighbor

/-!
# LACP: the mux machine

Each member port of an aggregate port runs the LACP machines of IEEE 802.1AX
(`LacpMachines.cpp`). The mux machine of a port attaches it to the aggregate
port and detaches it, and turns forwarding through the port on and off
(`enableForwarding`, `disableForwarding`) as the selector's signals
(selected, unselected, standby), the receive machine's signals (matched, not
matched) and the expiry of its `AGGREGATE_WAIT` timer arrive. The timer is
scheduled when a selected port starts waiting, and nothing cancels it.

The model is the machine with the actor state flags it sets on its
controller and the calls it makes, in order (`effects`). The machine is
consistent over every run: it is in `COLLECTING_DISTRIBUTING` exactly when the
last forwarding call enabled forwarding (`run_consistent`), and only when the
last match signal was matched (`run_collectingDistributing_matched`). What the
last selection signal was does not enter: a stale timer, or a match after an
unselected signal, takes the port to `COLLECTING_DISTRIBUTING`
(`collectingDistributing_after_unselected`).
-/

namespace Fboss

namespace Lacp

/-! The flags of `LacpState`, as bits of the state octet. -/

namespace LacpState

def ACTIVE : UInt8 := 0x01
def SHORT_TIMEOUT : UInt8 := 0x02
def AGGREGATABLE : UInt8 := 0x04
def IN_SYNC : UInt8 := 0x08
def COLLECTING : UInt8 := 0x10
def DISTRIBUTING : UInt8 := 0x20

end LacpState

/-- `MuxMachine::MuxState`. -/
inductive MuxState where
  | DETACHED
  | WAITING
  | ATTACHED
  | COLLECTING_DISTRIBUTING
  deriving DecidableEq, Repr

/-- A call the mux machine makes: forwarding through the port for the
aggregate port it selected is enabled or disabled (`LacpServicerIf`), or a
PDU is to be sent (`LacpController::ntt`). -/
inductive MuxEffect where
  | enableForwarding (port : PortID) (aggPort : AggregatePortID)
  | disableForwarding (port : PortID) (aggPort : AggregatePortID)
  | ntt
  deriving DecidableEq, Repr

/-- The mux machine of a port: its state and previous state, whether the
partner matched, the aggregate port it was selected for, whether its
`AGGREGATE_WAIT` timer is scheduled, the actor state of its controller, and
the calls it made. -/
structure MuxMachine where
  portID : PortID
  state : MuxState
  prevState : MuxState
  matched : Bool
  selection : AggregatePortID
  timeoutScheduled : Bool
  actorState : UInt8
  effects : List MuxEffect
  deriving DecidableEq, Repr

/-- Whether the last forwarding call of `effects` enabled forwarding. -/
def forwardingEnabled (effects : List MuxEffect) : Bool :=
  effects.foldl (fun enabled e => match e with
    | .enableForwarding _ _ => true
    | .disableForwarding _ _ => false
    | .ntt => enabled) false

namespace MuxMachine

/-- A new machine of a port: `DETACHED`, not matched, no timer. -/
def init (portID : PortID) (selection : AggregatePortID) (actorState : UInt8) : MuxMachine :=
  ⟨portID, .DETACHED, .DETACHED, false, selection, false, actorState, []⟩

def updateState (m : MuxMachine) (nextState : MuxState) : MuxMachine :=
  { m with prevState := m.state, state := nextState }

def setActorState (m : MuxMachine) (actorState : UInt8) : MuxMachine :=
  { m with actorState }

def ntt (m : MuxMachine) : MuxMachine :=
  { m with effects := m.effects ++ [.ntt] }

def enableCollectingDistributing (m : MuxMachine) : MuxMachine :=
  { m with effects := m.effects ++ [.enableForwarding m.portID m.selection] }

def disableCollectingDistributing (m : MuxMachine) : MuxMachine :=
  { m with effects := m.effects ++ [.disableForwarding m.portID m.selection] }

/-- `detached()`. -/
def detached (m : MuxMachine) : MuxMachine :=
  let m := m.updateState .DETACHED
  let m := m.setActorState (m.actorState &&& ~~~(LacpState.IN_SYNC ||| LacpState.COLLECTING))
  let m := m.disableCollectingDistributing
  let m := m.setActorState (m.actorState &&& ~~~LacpState.DISTRIBUTING)
  m.ntt

/-- `waiting(shouldScheduleTimeout)`. -/
def waiting (m : MuxMachine) (shouldScheduleTimeout : Bool) : MuxMachine :=
  let m := m.updateState .WAITING
  if shouldScheduleTimeout then { m with timeoutScheduled := true } else m

/-- `attached()`. -/
def attached (m : MuxMachine) : MuxMachine :=
  let m := m.updateState .ATTACHED
  let m := m.setActorState (m.actorState ||| LacpState.IN_SYNC)
  let m := m.setActorState (m.actorState &&& ~~~LacpState.COLLECTING)
  let m := m.disableCollectingDistributing
  let m := m.setActorState (m.actorState &&& ~~~LacpState.DISTRIBUTING)
  m.ntt

/-- `collectingDistributing()`. -/
def collectingDistributing (m : MuxMachine) : MuxMachine :=
  let m := m.updateState .COLLECTING_DISTRIBUTING
  let m := m.setActorState (m.actorState ||| LacpState.DISTRIBUTING)
  let m := m.enableCollectingDistributing
  let m := m.setActorState (m.actorState ||| LacpState.COLLECTING)
  m.ntt

/-- `timeoutExpired()`: attached, whatever the state, then collecting and
distributing if matched. -/
def timeoutExpired (m : MuxMachine) : MuxMachine :=
  let m := m.attached
  if m.matched then m.collectingDistributing else m

/-- `selected(selection)`. In `WAITING` the machine attaches (and falls
through to the `ATTACHED` case, which only logs). -/
def selected (m : MuxMachine) (selection : AggregatePortID) : MuxMachine :=
  let m := { m with selection }
  match m.state with
  | .DETACHED => m.waiting true
  | .WAITING => m.attached
  | .ATTACHED | .COLLECTING_DISTRIBUTING => m

/-- `unselected()`. -/
def unselected (m : MuxMachine) : MuxMachine :=
  match m.state with
  | .DETACHED => m
  | .WAITING | .ATTACHED => m.detached
  | .COLLECTING_DISTRIBUTING => m.attached

/-- `standby()`. -/
def standby (m : MuxMachine) : MuxMachine :=
  match m.state with
  | .DETACHED => m.waiting false
  | .WAITING => m
  | .ATTACHED | .COLLECTING_DISTRIBUTING => m.detached

/-- `matched()`. -/
def matchedSignal (m : MuxMachine) : MuxMachine :=
  let m := { m with matched := true }
  match m.state with
  | .ATTACHED => m.collectingDistributing
  | .DETACHED | .WAITING | .COLLECTING_DISTRIBUTING => m

/-- `notMatched()`. -/
def notMatched (m : MuxMachine) : MuxMachine :=
  let m := { m with matched := false }
  match m.state with
  | .COLLECTING_DISTRIBUTING => m.attached
  | .DETACHED | .WAITING | .ATTACHED => m

end MuxMachine

/-- What the mux machine of a port is told: a signal of the selector or of
the receive machine, or the expiry of its timer. -/
inductive MuxEvent where
  | selected (selection : AggregatePortID)
  | unselected
  | standby
  | matched
  | notMatched
  | timeoutExpired
  deriving DecidableEq, Repr

namespace MuxMachine

/-- One event; an expired timer is no longer scheduled. -/
def step (m : MuxMachine) : MuxEvent → MuxMachine
  | .selected selection => m.selected selection
  | .unselected => m.unselected
  | .standby => m.standby
  | .matched => m.matchedSignal
  | .notMatched => m.notMatched
  | .timeoutExpired => { m with timeoutScheduled := false }.timeoutExpired

/-- The events that can happen: the timer expires only when it is
scheduled. -/
def Allowed (m : MuxMachine) : MuxEvent → Prop
  | .timeoutExpired => m.timeoutScheduled = true
  | _ => True

instance (m : MuxMachine) (e : MuxEvent) : Decidable (m.Allowed e) :=
  match e with
  | .timeoutExpired => inferInstanceAs (Decidable (m.timeoutScheduled = true))
  | .selected _ | .unselected | .standby | .matched | .notMatched => isTrue trivial

end MuxMachine

/-! ### What each action does to the state and the forwarding calls -/

@[simp] theorem forwardingEnabled_append_enable (es : List MuxEffect) (p : PortID)
    (a : AggregatePortID) : forwardingEnabled (es ++ [.enableForwarding p a]) = true := by
  simp [forwardingEnabled]

@[simp] theorem forwardingEnabled_append_disable (es : List MuxEffect) (p : PortID)
    (a : AggregatePortID) : forwardingEnabled (es ++ [.disableForwarding p a]) = false := by
  simp [forwardingEnabled]

@[simp] theorem forwardingEnabled_append_ntt (es : List MuxEffect) :
    forwardingEnabled (es ++ [.ntt]) = forwardingEnabled es := by
  simp [forwardingEnabled]

/-- Each action ends with `ntt()`, after its forwarding call. -/
@[simp] theorem forwardingEnabled_append_pair_ntt (es : List MuxEffect) (e : MuxEffect) :
    forwardingEnabled (es ++ [e, .ntt]) = forwardingEnabled (es ++ [e]) := by
  simp [forwardingEnabled]

namespace MuxMachine

variable (m : MuxMachine)

@[simp] theorem detached_state : m.detached.state = .DETACHED := rfl
@[simp] theorem detached_matched : m.detached.matched = m.matched := rfl
@[simp] theorem forwardingEnabled_detached : forwardingEnabled m.detached.effects = false := by
  simp [detached, ntt, disableCollectingDistributing, setActorState, updateState]

@[simp] theorem attached_state : m.attached.state = .ATTACHED := rfl
@[simp] theorem attached_matched : m.attached.matched = m.matched := rfl
@[simp] theorem forwardingEnabled_attached : forwardingEnabled m.attached.effects = false := by
  simp [attached, ntt, disableCollectingDistributing, setActorState, updateState]

@[simp] theorem collectingDistributing_state :
    m.collectingDistributing.state = .COLLECTING_DISTRIBUTING := rfl
@[simp] theorem collectingDistributing_matched :
    m.collectingDistributing.matched = m.matched := rfl
@[simp] theorem forwardingEnabled_collectingDistributing :
    forwardingEnabled m.collectingDistributing.effects = true := by
  simp [collectingDistributing, ntt, enableCollectingDistributing, setActorState, updateState]

@[simp] theorem waiting_state (b : Bool) : (m.waiting b).state = .WAITING := by
  cases b <;> rfl
@[simp] theorem waiting_matched (b : Bool) : (m.waiting b).matched = m.matched := by
  cases b <;> rfl
@[simp] theorem waiting_effects (b : Bool) : (m.waiting b).effects = m.effects := by
  cases b <;> rfl

/-! ### The machine is consistent over every run -/

/-- The machine is in `COLLECTING_DISTRIBUTING` exactly when its last
forwarding call enabled forwarding, and then its partner matched. -/
structure Consistent (m : MuxMachine) : Prop where
  forwarding : m.state = .COLLECTING_DISTRIBUTING ↔ forwardingEnabled m.effects = true
  matched : m.state = .COLLECTING_DISTRIBUTING → m.matched = true

theorem consistent_init (portID : PortID) (selection : AggregatePortID) (actorState : UInt8) :
    (init portID selection actorState).Consistent :=
  ⟨by simp [init, forwardingEnabled], by simp [init]⟩

/-- A machine that has just left `COLLECTING_DISTRIBUTING` or never was in
it is consistent when its last forwarding call disabled forwarding. -/
theorem consistent_of_ne {m : MuxMachine} (hs : m.state ≠ .COLLECTING_DISTRIBUTING)
    (hf : forwardingEnabled m.effects = false) : m.Consistent :=
  ⟨by simp [hs, hf], fun h => absurd h hs⟩

theorem consistent_collectingDistributing {m : MuxMachine} (hm : m.matched = true) :
    m.collectingDistributing.Consistent :=
  ⟨by simp, fun _ => by simpa using hm⟩

/-- Every event keeps the machine consistent. -/
theorem Consistent.step {m : MuxMachine} (h : m.Consistent) (e : MuxEvent) :
    (m.step e).Consistent := by
  -- in a state other than `COLLECTING_DISTRIBUTING` forwarding is off
  have hoff : m.state ≠ .COLLECTING_DISTRIBUTING → forwardingEnabled m.effects = false := by
    intro hs
    simpa using mt h.forwarding.mpr hs
  cases e with
  | selected selection =>
    simp only [MuxMachine.step, selected]
    cases hs : m.state with
    | DETACHED => exact consistent_of_ne (by simp) (by simp [hoff (by simp [hs])])
    | WAITING => exact consistent_of_ne (by simp) (by simp)
    | ATTACHED => exact consistent_of_ne (by simp) (by simpa using hoff (by simp [hs]))
    | COLLECTING_DISTRIBUTING =>
      exact ⟨by simpa [hs] using h.forwarding, fun _ => by simpa [hs] using h.matched⟩
  | unselected =>
    simp only [MuxMachine.step, unselected]
    cases hs : m.state with
    | DETACHED => exact h
    | WAITING | ATTACHED | COLLECTING_DISTRIBUTING => exact consistent_of_ne (by simp) (by simp)
  | standby =>
    simp only [MuxMachine.step, standby]
    cases hs : m.state with
    | DETACHED => exact consistent_of_ne (by simp) (by simpa using hoff (by simp [hs]))
    | WAITING => exact h
    | ATTACHED | COLLECTING_DISTRIBUTING => exact consistent_of_ne (by simp) (by simp)
  | matched =>
    simp only [MuxMachine.step, matchedSignal]
    cases hs : m.state with
    | ATTACHED => exact consistent_collectingDistributing rfl
    | DETACHED | WAITING | COLLECTING_DISTRIBUTING =>
      exact ⟨by simpa [hs] using h.forwarding, fun _ => rfl⟩
  | notMatched =>
    simp only [MuxMachine.step, notMatched]
    cases hs : m.state with
    | COLLECTING_DISTRIBUTING => exact consistent_of_ne (by simp) (by simp)
    | DETACHED | WAITING | ATTACHED =>
      exact consistent_of_ne (by simp) (by simpa using hoff (by simp [hs]))
  | timeoutExpired =>
    simp only [MuxMachine.step, timeoutExpired]
    split_ifs with hm
    · exact consistent_collectingDistributing hm
    · exact consistent_of_ne (by simp) (by simp)

/-- Over every run, the machine is in `COLLECTING_DISTRIBUTING` exactly when
its last forwarding call enabled forwarding, and then the last match signal
was matched. -/
theorem run_consistent (portID : PortID) (selection : AggregatePortID) (actorState : UInt8)
    (es : List MuxEvent) : (Run.run step (init portID selection actorState) es).Consistent :=
  Run.run_invariant (P := fun _ => True) Consistent (fun _ e _ h => h.step e)
    (fun _ _ => trivial) (consistent_init portID selection actorState)

end MuxMachine

/-! ### What the port last received -/

/-- The selector's signals to a port (`LacpController::selected`,
`unselected`, `standby`). -/
inductive SelectionSignal where
  | SELECTED
  | UNSELECTED
  | STANDBY
  deriving DecidableEq, Repr

/-- The last selection signal and the last match signal a port received, if
any. -/
structure Received where
  selection : Option SelectionSignal
  matched : Option Bool
  deriving DecidableEq, Repr

/-- What one event tells an observer of the port's signals. -/
def Received.step (r : Received) : MuxEvent → Received
  | .selected _ => { r with selection := some .SELECTED }
  | .unselected => { r with selection := some .UNSELECTED }
  | .standby => { r with selection := some .STANDBY }
  | .matched => { r with matched := some true }
  | .notMatched => { r with matched := some false }
  | .timeoutExpired => r

namespace MuxMachine

/-- `matched_` is what the last match signal said, and false before any. -/
theorem run_matched (portID : PortID) (selection : AggregatePortID) (actorState : UInt8)
    (es : List MuxEvent) :
    (Run.run step (init portID selection actorState) es).matched = true ↔
      (Run.run Received.step ⟨none, none⟩ es).matched = some true := by
  refine Run.run_simulation (P := fun _ => True)
    (fun (m : MuxMachine) (r : Received) => m.matched = true ↔ r.matched = some true) ?_
    (fun _ _ => trivial) (by simp [init])
  intro m r e _ h
  cases e with
  | matched => simp [MuxMachine.step, Received.step, matchedSignal]; split <;> simp
  | notMatched => simp [MuxMachine.step, Received.step, notMatched]; split <;> simp
  | selected selection =>
    simp only [MuxMachine.step, Received.step, MuxMachine.selected]
    split <;> simpa using h
  | unselected =>
    simp only [MuxMachine.step, Received.step, MuxMachine.unselected]
    split <;> simpa using h
  | standby =>
    simp only [MuxMachine.step, Received.step, MuxMachine.standby]
    split <;> simpa using h
  | timeoutExpired =>
    simp only [MuxMachine.step, Received.step, MuxMachine.timeoutExpired]
    split <;> simpa using h

/-- In `COLLECTING_DISTRIBUTING`, the last match signal of the run was
matched. -/
theorem run_collectingDistributing_matched (portID : PortID) (selection : AggregatePortID)
    (actorState : UInt8) (es : List MuxEvent)
    (h : (Run.run step (init portID selection actorState) es).state = .COLLECTING_DISTRIBUTING) :
    (Run.run Received.step ⟨none, none⟩ es).matched = some true := by
  have hm := (run_consistent portID selection actorState es).matched h
  exact (run_matched portID selection actorState es).mp hm

/-- Selected, the wait timer, then matched. -/
theorem run_collectingDistributing_matched_after_wait :
    (Run.run step (init 1 1 0) [.selected 1, .timeoutExpired, .matched]).state = .COLLECTING_DISTRIBUTING ∧
      (Run.run Received.step ⟨none, none⟩ [.selected 1, .timeoutExpired, .matched]).matched = some true :=
  ⟨by decide, run_collectingDistributing_matched 1 1 0 _ (by decide)⟩

/-- Three runs the machine allows from a new port, with the timer expiring
only when it is scheduled, that end in `COLLECTING_DISTRIBUTING` with
forwarding enabled although the last selection signal was not `SELECTED`: a
timer scheduled while waiting survives `unselected` and `standby`, and a
match after `unselected` in `COLLECTING_DISTRIBUTING` goes back to it. -/
theorem collectingDistributing_after_unselected :
    let forwardsUnselected (es : List MuxEvent) : Prop :=
      Run.Guarded step Allowed (init 1 1 0) es ∧
        (Run.run step (init 1 1 0) es).state = .COLLECTING_DISTRIBUTING ∧
        forwardingEnabled (Run.run step (init 1 1 0) es).effects = true ∧
        (Run.run Received.step ⟨none, none⟩ es).selection ≠ some .SELECTED
    forwardsUnselected [.selected 1, .matched, .unselected, .timeoutExpired] ∧
      forwardsUnselected [.selected 1, .matched, .standby, .timeoutExpired] ∧
      forwardsUnselected [.selected 1, .selected 1, .matched, .unselected, .matched] := by
  decide +kernel

end MuxMachine

end Lacp

end Fboss
