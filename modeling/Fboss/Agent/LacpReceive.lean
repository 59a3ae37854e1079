import Fboss.Agent.LacpSelector
import Fboss.Lib.ExceptSpec

/-!
# LACP: the receive machine

The receive machine of a member port (`ReceiveMachine` of `LacpMachines.cpp`)
records what the partner says about itself in the LACPDUs it receives, and
times the partner out. It is started once, when the port's controller is
created (`LacpController::startMachines`). Then it is told of LACPDUs
(`LacpController::received`), of the port going up and down
(`LinkAggregationManager::portChanged` calls `portUp` on a DOWN to UP change of
the port's oper state and `portDown` on an UP to DOWN change), and of the
expiry of its epoch timer, which it schedules in `current` and `expired` and
cancels in `disabled`.

Two of its actions stop the agent: `portUp` checks that the machine is
`DISABLED`, and the expiry of the timer in a state other than `CURRENT` or
`EXPIRED` is an invalid transition, which is fatal. Over every run the
controller can deliver, neither happens, and the machine is safe
(`run_safe`). A timer is pending only in `CURRENT` or `EXPIRED`. While the
port is down the machine is `DISABLED`. In `DISABLED`, `EXPIRED` and
`DEFAULTED` the partner's recorded state does not have `IN_SYNC`.

The controller's side is its actor information, whose state octet the machine
updates, and the calls the machine makes on it, in order (`effects`).
-/

namespace Fboss

namespace Lacp

namespace LacpState

def DEFAULTED : UInt8 := 0x40
def EXPIRED : UInt8 := 0x80

end LacpState

/-- `ParticipantInfo()`: every field zero, the state `NONE`. -/
def ParticipantInfo.default : ParticipantInfo :=
  ⟨0, 0, 0, 0, 0, 0⟩

/-- A `LACPDU`, with the two fields the receive machine reads. -/
structure LACPDU where
  actorInfo : ParticipantInfo
  partnerInfo : ParticipantInfo
  deriving DecidableEq, Repr

/-- `ReceiveMachine::ReceiveState`. -/
inductive ReceiveState where
  | CURRENT
  | EXPIRED
  | INITIALIZED
  | DEFAULTED
  | DISABLED
  deriving DecidableEq, Repr

/-- A call the receive machine makes on its controller. -/
inductive ReceiveEffect where
  | unselected
  | matched
  | notMatched
  | select
  | ntt
  | startPeriodicTransmissionMachine
  deriving DecidableEq, Repr

/-- `ReceiveMachine::FAST_EPOCH_DURATION`, in seconds. -/
def FAST_EPOCH_DURATION : Nat := 3

/-- `ReceiveMachine::SLOW_EPOCH_DURATION`, in seconds. -/
def SLOW_EPOCH_DURATION : Nat := 90

/-- The receive machine of a port: its state and previous state, the partner
information it recorded, the duration its epoch timer is scheduled with (if
it is), the actor information of its controller, and the calls it made on
the controller. -/
structure ReceiveMachine where
  state : ReceiveState
  prevState : ReceiveState
  partnerInfo : ParticipantInfo
  epoch : Option Nat
  actorInfo : ParticipantInfo
  effects : List ReceiveEffect
  deriving DecidableEq, Repr

namespace ReceiveMachine

/-- A new machine: `INITIALIZED`, the default partner, no timer. -/
def create (actorInfo : ParticipantInfo) : ReceiveMachine :=
  ⟨.INITIALIZED, .INITIALIZED, .default, none, actorInfo, []⟩

def updateState (m : ReceiveMachine) (nextState : ReceiveState) : ReceiveMachine :=
  { m with prevState := m.state, state := nextState }

/-- `controller_.actorState()`. -/
def actorState (m : ReceiveMachine) : UInt8 :=
  m.actorInfo.state

/-- `controller_.setActorState(state)`. -/
def setActorState (m : ReceiveMachine) (state : UInt8) : ReceiveMachine :=
  { m with actorInfo := { m.actorInfo with state } }

/-- A call on the controller. -/
def call (m : ReceiveMachine) (e : ReceiveEffect) : ReceiveMachine :=
  { m with effects := m.effects ++ [e] }

def setPartnerState (m : ReceiveMachine) (state : UInt8) : ReceiveMachine :=
  { m with partnerInfo := { m.partnerInfo with state } }

/-- `startNextEpoch(duration)`: `scheduleTimeout` replaces a pending timer. -/
def startNextEpoch (m : ReceiveMachine) (duration : Nat) : ReceiveMachine :=
  { m with epoch := some duration }

/-- `endThisEpoch()`: `cancelTimeout`. -/
def endThisEpoch (m : ReceiveMachine) : ReceiveMachine :=
  { m with epoch := none }

/-- `recordDefault()`. -/
def recordDefault (m : ReceiveMachine) : ReceiveMachine :=
  let m := { m with partnerInfo := .default }
  m.setActorState (m.actorState ||| LacpState.DEFAULTED)

/-- `disabled()`. -/
def disabled (m : ReceiveMachine) : ReceiveMachine :=
  let m := (m.updateState .DISABLED).endThisEpoch
  let m := m.setPartnerState (m.partnerInfo.state &&& ~~~LacpState.IN_SYNC)
  m.call .notMatched

/-- `expired()`. -/
def expired (m : ReceiveMachine) : ReceiveMachine :=
  let m := m.updateState .EXPIRED
  let m := m.setPartnerState (m.partnerInfo.state ||| LacpState.SHORT_TIMEOUT)
  let m := m.setPartnerState (m.partnerInfo.state &&& ~~~LacpState.IN_SYNC)
  let m := m.call .notMatched
  let m := m.setActorState (m.actorState ||| LacpState.EXPIRED)
  m.startNextEpoch FAST_EPOCH_DURATION

/-- `updateDefaultSelected()`: the controller's partner information is this
machine's. -/
def updateDefaultSelected (m : ReceiveMachine) : ReceiveMachine :=
  if ParticipantInfo.default ≠ m.partnerInfo then m.call .unselected else m

/-- `defaulted()`. -/
def defaulted (m : ReceiveMachine) : ReceiveMachine :=
  let m := (m.updateState .DEFAULTED).updateDefaultSelected.recordDefault
  m.setActorState (m.actorState &&& ~~~LacpState.EXPIRED)

/-- `initialize()`: only from `INITIALIZED` (a `CHECK`). -/
def initializeState (m : ReceiveMachine) : Except String ReceiveMachine :=
  if m.state = .INITIALIZED then
    let m := (m.call .unselected).recordDefault
    let m := m.setActorState (m.actorState &&& ~~~LacpState.EXPIRED)
    .ok m.disabled
  else .error "Check failed: state_ == ReceiveState::INITIALIZED"

/-- `updateSelected(lacpdu)`: the partner changed what it says about itself. -/
def updateSelected (m : ReceiveMachine) (lacpdu : LACPDU) : ReceiveMachine :=
  if lacpdu.actorInfo.systemID = m.partnerInfo.systemID ∧
      lacpdu.actorInfo.systemPriority = m.partnerInfo.systemPriority ∧
      lacpdu.actorInfo.key = m.partnerInfo.key ∧
      lacpdu.actorInfo.portPriority = m.partnerInfo.portPriority ∧
      lacpdu.actorInfo.port = m.partnerInfo.port ∧
      lacpdu.actorInfo.state &&& LacpState.AGGREGATABLE =
        m.partnerInfo.state &&& LacpState.AGGREGATABLE then m
  else m.call .unselected

/-- `updateNTT(lacpdu)`. -/
def updateNTT (m : ReceiveMachine) (lacpdu : LACPDU) : Bool :=
  lacpdu.partnerInfo != m.actorInfo

/-- `recordPDU(lacpdu)`. -/
def recordPDU (m : ReceiveMachine) (lacpdu : LACPDU) : ReceiveMachine :=
  let m := { m with partnerInfo := lacpdu.actorInfo }
  let m := m.setActorState (m.actorState &&& ~~~LacpState.DEFAULTED)
  let matched := lacpdu.partnerInfo.systemPriority = m.actorInfo.systemPriority ∧
    lacpdu.partnerInfo.systemID = m.actorInfo.systemID ∧
    lacpdu.partnerInfo.key = m.actorInfo.key ∧
    lacpdu.partnerInfo.portPriority = m.actorInfo.portPriority ∧
    lacpdu.partnerInfo.port = m.actorInfo.port
  if (matched ∨ lacpdu.actorInfo.state &&& LacpState.AGGREGATABLE = 0) ∧
      lacpdu.actorInfo.state &&& LacpState.IN_SYNC ≠ 0 then
    (m.setPartnerState (m.partnerInfo.state ||| LacpState.IN_SYNC)).call .matched
  else
    (m.setPartnerState (m.partnerInfo.state &&& ~~~LacpState.IN_SYNC)).call .notMatched

/-- `epochDuration()`. -/
def epochDuration (m : ReceiveMachine) : Nat :=
  if m.actorInfo.state &&& LacpState.SHORT_TIMEOUT ≠ 0 then FAST_EPOCH_DURATION
  else SLOW_EPOCH_DURATION

/-- `current(lacpdu)`. Whether to transmit and whether the partner's activity
changed are decided before the PDU is recorded. -/
def current (m : ReceiveMachine) (lacpdu : LACPDU) : ReceiveMachine :=
  let m := (m.updateState .CURRENT).updateSelected lacpdu
  let ntt := m.updateNTT lacpdu
  let activityChanged := lacpdu.actorInfo.state &&& LacpState.ACTIVE !=
    m.partnerInfo.state &&& LacpState.ACTIVE
  let m := m.recordPDU lacpdu
  let m := (m.setActorState (m.actorState &&& ~~~LacpState.EXPIRED)).call .select
  let m := if ntt then m.call .ntt else m
  let m := if activityChanged then m.call .startPeriodicTransmissionMachine else m
  m.startNextEpoch m.epochDuration

/-- `start()`. -/
def start (m : ReceiveMachine) : Except String ReceiveMachine :=
  m.initializeState

/-- `rx(lacpdu)`: ignored in `DISABLED`. -/
def rx (m : ReceiveMachine) (lacpdu : LACPDU) : ReceiveMachine :=
  if m.state = .DISABLED then m else m.current lacpdu

/-- `portUp()`: only in `DISABLED` (a `CHECK`). -/
def portUp (m : ReceiveMachine) : Except String ReceiveMachine :=
  if m.state = .DISABLED then .ok m.expired
  else .error "Check failed: state_ == ReceiveState::DISABLED"

/-- `portDown()`. -/
def portDown (m : ReceiveMachine) : ReceiveMachine :=
  m.disabled

/-- `timeoutExpired()`, which `AsyncTimeout` calls once the timer has fired and
is no longer scheduled. Any other state than `CURRENT` or `EXPIRED` is an
invalid transition, logged as fatal. -/
def timeoutExpired (m : ReceiveMachine) : Except String ReceiveMachine :=
  match m.state with
  | .CURRENT => .ok m.expired
  | .EXPIRED => .ok m.defaulted
  | .DISABLED | .INITIALIZED | .DEFAULTED =>
    .error "ReceiveMachine::timeoutExpired(): invalid transition"

end ReceiveMachine

/-- What reaches the receive machine of a port after it was started: a
LACPDU, the port's new oper state in a port change, or the expiry of its
epoch timer. -/
inductive ReceiveEvent where
  | received (lacpdu : LACPDU)
  | portChanged (operUp : Bool)
  | epochExpired
  deriving DecidableEq, Repr

/-- A port's oper state and the receive machine of its controller. -/
structure ReceivePort where
  operUp : Bool
  rx : ReceiveMachine
  deriving DecidableEq, Repr

namespace ReceivePort

/-- The controller of a port is created, whatever the port's oper state, and
its machines are started. -/
def start (operUp : Bool) (actorInfo : ParticipantInfo) : Except String ReceivePort :=
  (ReceiveMachine.create actorInfo).start.map (⟨operUp, ·⟩)

/-- `LinkAggregationManager::portChanged`: `portUp` on a DOWN to UP change,
`portDown` on an UP to DOWN change, nothing otherwise. -/
def portChanged (p : ReceivePort) (operUp : Bool) : Except String ReceivePort :=
  if !p.operUp && operUp then p.rx.portUp.map (⟨operUp, ·⟩)
  else if p.operUp && !operUp then .ok ⟨operUp, p.rx.portDown⟩
  else .ok { p with operUp }

/-- One event. A timer that is not scheduled does not fire. -/
def step (p : ReceivePort) : ReceiveEvent → Except String ReceivePort
  | .received lacpdu => .ok { p with rx := p.rx.rx lacpdu }
  | .portChanged operUp => p.portChanged operUp
  | .epochExpired =>
    if p.rx.epoch.isSome then
      ({ p.rx with epoch := none }).timeoutExpired.map ({ p with rx := · })
    else .ok p

end ReceivePort

/-! ### What each action does to the state, the timer and the partner -/

@[simp] theorem ParticipantInfo.default_state : ParticipantInfo.default.state = 0 := rfl

/-- Clearing `IN_SYNC` clears it. -/
@[simp] theorem and_not_inSync_and_inSync (x : UInt8) :
    x &&& ~~~LacpState.IN_SYNC &&& LacpState.IN_SYNC = 0 := by
  rw [UInt8.and_assoc]
  simp [LacpState.IN_SYNC]

namespace ReceiveMachine

variable (m : ReceiveMachine)

@[simp] theorem disabled_state : m.disabled.state = .DISABLED := rfl
@[simp] theorem disabled_epoch : m.disabled.epoch = none := rfl
@[simp] theorem disabled_partner_inSync :
    m.disabled.partnerInfo.state &&& LacpState.IN_SYNC = 0 := by
  simp [disabled, setPartnerState, endThisEpoch, updateState, call]

@[simp] theorem expired_state : m.expired.state = .EXPIRED := rfl
@[simp] theorem expired_epoch : m.expired.epoch = some FAST_EPOCH_DURATION := rfl
@[simp] theorem expired_partner_inSync :
    m.expired.partnerInfo.state &&& LacpState.IN_SYNC = 0 := by
  simp [expired, setPartnerState, updateState, call, setActorState, startNextEpoch]

@[simp] theorem defaulted_state : m.defaulted.state = .DEFAULTED := by
  simp only [defaulted, updateDefaultSelected]
  split <;> rfl

@[simp] theorem defaulted_epoch : m.defaulted.epoch = m.epoch := by
  simp only [defaulted, updateDefaultSelected]
  split <;> rfl

@[simp] theorem recordDefault_partnerInfo : m.recordDefault.partnerInfo = .default := rfl

@[simp] theorem defaulted_partnerInfo : m.defaulted.partnerInfo = .default := by
  simp only [defaulted, updateDefaultSelected]
  split <;> rfl

@[simp] theorem current_state (lacpdu : LACPDU) : (m.current lacpdu).state = .CURRENT := by
  simp only [current, recordPDU, updateSelected]
  split_ifs <;> rfl

@[simp] theorem current_epoch_isSome (lacpdu : LACPDU) : (m.current lacpdu).epoch.isSome := by
  simp only [current]
  split_ifs <;> rfl

theorem initializeState_eq (h : m.state = .INITIALIZED) :
    m.initializeState = .ok (((m.call .unselected).recordDefault.setActorState
      ((m.call .unselected).recordDefault.actorState &&& ~~~LacpState.EXPIRED)).disabled) := by
  simp [initializeState, h]

end ReceiveMachine

/-! ### The machine is safe over every run -/

/-- A started receive machine is safe: its timer is pending only in
`CURRENT` or `EXPIRED`, and in `DISABLED`, `EXPIRED` and `DEFAULTED` the
partner's recorded state does not have `IN_SYNC`. -/
structure ReceiveMachine.Safe (m : ReceiveMachine) : Prop where
  started : m.state ≠ .INITIALIZED
  epoch : m.epoch.isSome → m.state = .CURRENT ∨ m.state = .EXPIRED
  notInSync : m.state = .DISABLED ∨ m.state = .EXPIRED ∨ m.state = .DEFAULTED →
    m.partnerInfo.state &&& LacpState.IN_SYNC = 0

/-- A port is safe when its receive machine is, and is `DISABLED` while the
port is down: then the next `portUp` passes its check. -/
structure ReceivePort.Safe (p : ReceivePort) : Prop where
  rx : p.rx.Safe
  down : p.operUp = false → p.rx.state = .DISABLED

namespace ReceiveMachine

variable (m : ReceiveMachine)

theorem safe_disabled : m.disabled.Safe :=
  ⟨by simp, by simp, fun _ => by simp⟩

theorem safe_expired : m.expired.Safe :=
  ⟨by simp, fun _ => .inr (by simp), fun _ => by simp⟩

theorem safe_current (lacpdu : LACPDU) : (m.current lacpdu).Safe :=
  ⟨by simp, fun _ => .inl (by simp), fun h => by simp at h⟩

/-- `DEFAULTED` is entered from an expiry, with the timer no longer pending. -/
theorem safe_defaulted (h : m.epoch = none) : m.defaulted.Safe :=
  ⟨by simp, fun he => by simp [h] at he, fun _ => by simp⟩

/-- A LACPDU keeps a machine safe: it is ignored in `DISABLED`. -/
theorem Safe.rx {m : ReceiveMachine} (h : m.Safe) (lacpdu : LACPDU) : (m.rx lacpdu).Safe := by
  unfold ReceiveMachine.rx
  split_ifs
  · exact h
  · exact safe_current m lacpdu

/-- The expiry of a pending timer leaves a safe machine safe, with no invalid
transition: a timer is pending only in `CURRENT` and `EXPIRED`. -/
theorem Safe.timeoutExpired {m : ReceiveMachine} (h : m.Safe) (he : m.epoch.isSome) :
    Except.Spec (fun _ => False) Safe ({ m with epoch := none }).timeoutExpired := by
  unfold ReceiveMachine.timeoutExpired
  rcases h.epoch he with hs | hs
  · simp only [hs]
    exact safe_expired _
  · simp only [hs]
    exact safe_defaulted _ rfl

end ReceiveMachine

namespace ReceivePort

/-- The controller's `start` leaves the port safe whatever its oper state. -/
theorem start_spec (operUp : Bool) (actorInfo : ParticipantInfo) :
    Except.Spec (fun _ => False) Safe (start operUp actorInfo) := by
  rw [start, ReceiveMachine.start, ReceiveMachine.initializeState_eq _ rfl]
  exact ⟨ReceiveMachine.safe_disabled _, fun _ => rfl⟩

/-- Every event the controller delivers keeps a safe port safe, and none ends
in an error: `portUp` comes after a DOWN to UP change, when the machine is
`DISABLED`, and the timer fires only when it is pending. -/
theorem Safe.step {p : ReceivePort} (h : p.Safe) (e : ReceiveEvent) :
    Except.Spec (fun _ => False) Safe (p.step e) := by
  cases e with
  | received lacpdu =>
    refine ⟨h.rx.rx lacpdu, fun hdown => ?_⟩
    -- a port that is down has a `DISABLED` machine, which ignores the PDU
    have hs := h.down hdown
    simp [ReceiveMachine.rx, hs]
  | portChanged operUp =>
    simp only [ReceivePort.step, ReceivePort.portChanged]
    split_ifs with hup hdown
    · obtain ⟨hold, rfl⟩ : p.operUp = false ∧ operUp = true := by simpa using hup
      simp only [ReceiveMachine.portUp, h.down hold, if_true]
      exact ⟨ReceiveMachine.safe_expired _, fun h' => nomatch h'⟩
    · obtain ⟨-, rfl⟩ : p.operUp = true ∧ operUp = false := by simpa using hdown
      exact ⟨ReceiveMachine.safe_disabled _, fun _ => rfl⟩
    · -- the oper state does not change
      have hsame : operUp = p.operUp := by
        cases hp : p.operUp <;> cases operUp <;> simp_all
      subst hsame
      exact h
  | epochExpired =>
    simp only [ReceivePort.step]
    split_ifs with he
    · refine (h.rx.timeoutExpired he).map fun m hm => ⟨hm, fun hdown => ?_⟩
      -- a port that is down has no pending timer
      have := h.rx.epoch he
      rw [h.down hdown] at this
      simp at this
    · exact h

/-- Over every run the controller can deliver, from the creation of the port's
controller with any oper state and actor information, no action of the
receive machine fails: `portUp` always finds the machine `DISABLED`, and the
timer never expires outside `CURRENT` and `EXPIRED`. After every run the
timer is pending only in `CURRENT` or `EXPIRED`, and in `DISABLED`,
`EXPIRED` and `DEFAULTED` the partner's recorded state does not have
`IN_SYNC`. -/
theorem run_safe (operUp : Bool) (actorInfo : ParticipantInfo) (es : List ReceiveEvent) :
    ∃ p, (start operUp actorInfo >>= fun p => es.foldlM step p) = .ok p ∧
      (p.rx.epoch.isSome → p.rx.state = .CURRENT ∨ p.rx.state = .EXPIRED) ∧
      (p.rx.state = .DISABLED ∨ p.rx.state = .EXPIRED ∨ p.rx.state = .DEFAULTED →
        p.rx.partnerInfo.state &&& LacpState.IN_SYNC = 0) := by
  have hrun : Except.Spec (fun _ => False) Safe (start operUp actorInfo >>= fun p => es.foldlM step p) :=
    (start_spec operUp actorInfo).bind fun p hp => Except.spec_foldlM Safe hp fun q hq e _ => hq.step e
  obtain ⟨p, hp, hsafe⟩ := hrun.exists_eq_ok
  exact ⟨p, hp, hsafe.rx.epoch, hsafe.rx.notInSync⟩

end ReceivePort

end Lacp

end Fboss
