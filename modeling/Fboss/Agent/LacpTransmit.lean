import Fboss.Agent.LacpReceive

/-!
# LACP: the periodic transmission and transmit machines

Besides the receive machine, a port's controller (`LacpController`) runs two
machines that decide when LACPDUs go out (`LacpMachines.cpp`). The periodic
transmission machine asks for a LACPDU at the end of every period: one second
when the partner asked for short timeouts, thirty seconds otherwise, and no
period when both ends are passive. The transmit machine sends the LACPDUs it
is asked for (`LacpController::ntt`, called by the receive, periodic and mux
machines) while it has transmissions left: three at most, and one more every
second.

The model is the controller with these two machines and its port's receive
machine (`PortController`). The mux machine and the selector are the subject
of `Lacp` and `LacpSelector`; here they appear through the transmissions the
mux machine asks for (`muxNtt`). Timers are events, which fire only while
they are pending, and whether the servicer transmits a LACPDU is given with
the event that asks for it.

Over every run from the controller's start no machine fails, and
* an ACTIVE port that is up always has its periodic timer pending, for the
  period of its rate (`run_keeps_active_port_transmitting`);
* in any stretch of a run, at most three more LACPDUs are sent than the
  replenishing timer expires (`transmissions_within_replenishments`).
-/

namespace Fboss

namespace Lacp

/-- `PeriodicTransmissionMachine::PeriodicState`. -/
inductive PeriodicState where
  | NONE
  | SLOW
  | FAST
  | TX
  deriving DecidableEq, Repr

/-- `PeriodicTransmissionMachine::SHORT_PERIOD`, in seconds. -/
def SHORT_PERIOD : Nat := 1

/-- `PeriodicTransmissionMachine::LONG_PERIOD`, in seconds. -/
def LONG_PERIOD : Nat := 30

/-- The period `beginNextPeriod()` schedules the timer for in a state. -/
def PeriodicState.period : PeriodicState → Option Nat
  | .SLOW => some LONG_PERIOD
  | .FAST => some SHORT_PERIOD
  | .NONE | .TX => none

/-- The periodic transmission machine of a port: its state, and the period
its timer is scheduled for, if it is. -/
structure PeriodicTransmissionMachine where
  state : PeriodicState
  timeout : Option Nat
  deriving DecidableEq, Repr

namespace PeriodicTransmissionMachine

/-- A new machine: `NONE`, no timer. -/
def create : PeriodicTransmissionMachine :=
  ⟨.NONE, none⟩

/-- `determineTransmissionRate()`: no period when both ends are passive, and
otherwise the rate the partner asked for. -/
def determineTransmissionRate (actorInfo partnerInfo : ParticipantInfo) : PeriodicState :=
  if actorInfo.state &&& LacpState.ACTIVE = 0 ∧ partnerInfo.state &&& LacpState.ACTIVE = 0 then .NONE
  else if partnerInfo.state &&& LacpState.SHORT_TIMEOUT ≠ 0 then .FAST
  else .SLOW

/-- `beginNextPeriod()`: `scheduleTimeout` replaces a pending timer, and in
`NONE` a pending timer stays. `TX` is an invalid transition. -/
def beginNextPeriod (m : PeriodicTransmissionMachine) : Except String PeriodicTransmissionMachine :=
  match m.state with
  | .SLOW => .ok { m with timeout := some LONG_PERIOD }
  | .FAST => .ok { m with timeout := some SHORT_PERIOD }
  | .NONE => .ok m
  | .TX => .error "invalid transition to tx"

/-- `start()`, at the controller's actor and partner information. -/
def start (m : PeriodicTransmissionMachine) (actorInfo partnerInfo : ParticipantInfo) :
    Except String PeriodicTransmissionMachine :=
  { m with state := determineTransmissionRate actorInfo partnerInfo }.beginNextPeriod

/-- `portUp()`: the same as `start()`. -/
def portUp (m : PeriodicTransmissionMachine) (actorInfo partnerInfo : ParticipantInfo) :
    Except String PeriodicTransmissionMachine :=
  m.start actorInfo partnerInfo

/-- `portDown()`: `cancelTimeout`. -/
def portDown (m : PeriodicTransmissionMachine) : PeriodicTransmissionMachine :=
  { m with timeout := none }

/-- `timeoutExpired()`, after `TX` and the controller's `ntt()`: the rate is
determined again and the next period begins. An exception is logged as
fatal. -/
def timeoutExpired (m : PeriodicTransmissionMachine) (actorInfo partnerInfo : ParticipantInfo) :
    Except String PeriodicTransmissionMachine :=
  ({ m with state := determineTransmissionRate actorInfo partnerInfo }.beginNextPeriod).mapError
    ("PeriodicTranmissionMachine::timeoutExpired(): " ++ ·)

end PeriodicTransmissionMachine

/-- `TransmitMachine::TX_REPLENISH_RATE`, in seconds. -/
def TX_REPLENISH_RATE : Nat := 1

/-- `TransmitMachine::MAX_TRANSMISSIONS_IN_SHORT_PERIOD`. -/
def MAX_TRANSMISSIONS_IN_SHORT_PERIOD : Nat := 3

/-- The transmit machine of a port: the transmissions it has left, the period
of its replenishing timer if it is scheduled, and the LACPDUs the servicer
transmitted for it, in order. -/
structure TransmitMachine where
  transmissionsLeft : Nat
  timeout : Option Nat
  transmitted : List LACPDU
  deriving DecidableEq, Repr

namespace TransmitMachine

/-- A new machine, with every transmission left. -/
def create : TransmitMachine :=
  ⟨MAX_TRANSMISSIONS_IN_SHORT_PERIOD, none, []⟩

/-- `start()`. -/
def start (m : TransmitMachine) : TransmitMachine :=
  { m with timeout := some TX_REPLENISH_RATE }

/-- `replenishTranmissionsLeft()`: one more transmission, up to the maximum,
and the next timer. -/
def replenishTranmissionsLeft (m : TransmitMachine) : TransmitMachine :=
  { m with
    transmissionsLeft := min (m.transmissionsLeft + 1) MAX_TRANSMISSIONS_IN_SHORT_PERIOD
    timeout := some TX_REPLENISH_RATE }

/-- `timeoutExpired()`. -/
def timeoutExpired (m : TransmitMachine) : TransmitMachine :=
  m.replenishTranmissionsLeft

/-- `ntt(lacpdu)`: skipped with no transmissions left. `transmit` is what
`servicer_->transmit(lacpdu, outPort)` answers; a LACPDU it does not transmit
costs nothing. -/
def ntt (m : TransmitMachine) (lacpdu : LACPDU) (transmit : Bool) : TransmitMachine :=
  if m.transmissionsLeft = 0 then m
  else if !transmit then m
  else { m with transmitted := m.transmitted ++ [lacpdu], transmissionsLeft := m.transmissionsLeft - 1 }

/-- The LACPDUs sent and the transmissions left: `ntt` moves one from the
second to the first, and only the replenishing timer adds to it. -/
def potential (m : TransmitMachine) : Nat :=
  m.transmitted.length + m.transmissionsLeft

end TransmitMachine

/-- Whether a participant's state has the `ACTIVE` flag. -/
def ParticipantInfo.isActive (info : ParticipantInfo) : Bool :=
  info.state &&& LacpState.ACTIVE != 0

/-- A port's controller with the machines that decide what it sends and
when: the port and its receive machine, the periodic transmission machine and
the transmit machine. -/
structure PortController where
  port : ReceivePort
  periodicTx : PeriodicTransmissionMachine
  tx : TransmitMachine
  deriving DecidableEq, Repr

/-- What reaches a port's controller: an event of the receive machine, with
whether the servicer transmits the LACPDU it may ask for; the expiry of the
periodic or of the replenishing timer; a transmission the mux machine asks
for. -/
inductive ControllerEvent where
  | received (lacpdu : LACPDU) (transmit : Bool)
  | portChanged (operUp : Bool)
  | epochExpired
  | periodicExpired (transmit : Bool)
  | replenishExpired
  | muxNtt (transmit : Bool)
  deriving DecidableEq, Repr

namespace PortController

/-- `LacpController::actorInfo()`. -/
def actorInfo (c : PortController) : ParticipantInfo :=
  c.port.rx.actorInfo

/-- `LacpController::partnerInfo()`: what the receive machine recorded. -/
def partnerInfo (c : PortController) : ParticipantInfo :=
  c.port.rx.partnerInfo

/-- `LacpController::ntt()`. -/
def ntt (c : PortController) (transmit : Bool) : PortController :=
  { c with tx := c.tx.ntt ⟨c.actorInfo, c.partnerInfo⟩ transmit }

/-- `LacpController::startPeriodicTransmissionMachine()`. -/
def startPeriodicTransmissionMachine (c : PortController) : Except String PortController :=
  (c.periodicTx.start c.actorInfo c.partnerInfo).map fun periodicTx => { c with periodicTx }

/-- A call of the receive machine on the controller: `ntt()` and
`startPeriodicTransmissionMachine()` reach the machines of this model, the
others the selector and the mux machine. -/
def dispatch (transmit : Bool) (c : PortController) : ReceiveEffect → Except String PortController
  | .ntt => .ok (c.ntt transmit)
  | .startPeriodicTransmissionMachine => c.startPeriodicTransmissionMachine
  | .unselected | .matched | .notMatched | .select => .ok c

/-- `LacpController::startMachines()` on a new controller: the transmit
machine, the periodic transmission machine at the information of a new
receive machine, then the receive machine. -/
def start (operUp : Bool) (actorInfo : ParticipantInfo) : Except String PortController := do
  let periodicTx ← PeriodicTransmissionMachine.create.start actorInfo .default
  let port ← ReceivePort.start operUp actorInfo
  pure ⟨port, periodicTx, TransmitMachine.create.start⟩

/-- One event. The calls the receive machine makes on the controller run
after it, in order; no machine that reads what they change runs in between.
A timer that is not pending does not fire, and one that fires is no longer
pending. -/
def step (c : PortController) : ControllerEvent → Except String PortController
  | .received lacpdu transmit => do
    let port ← c.port.step (.received lacpdu)
    (port.rx.effects.drop c.port.rx.effects.length).foldlM (dispatch transmit) { c with port }
  | .portChanged operUp => do
    let port ← c.port.step (.portChanged operUp)
    -- `LacpController::portUp()` and `portDown()`, after the receive machine
    if !c.port.operUp && operUp then
      (c.periodicTx.portUp port.rx.actorInfo port.rx.partnerInfo).map fun periodicTx =>
        { c with port, periodicTx }
    else if c.port.operUp && !operUp then pure { c with port, periodicTx := c.periodicTx.portDown }
    else pure { c with port }
  | .epochExpired => do
    let port ← c.port.step .epochExpired
    pure { c with port }
  | .periodicExpired transmit =>
    if c.periodicTx.timeout.isSome then
      ({ c.periodicTx with timeout := none }.timeoutExpired c.actorInfo c.partnerInfo).map
        fun periodicTx => { c.ntt transmit with periodicTx }
    else .ok c
  | .replenishExpired =>
    if c.tx.timeout.isSome then .ok { c with tx := { c.tx with timeout := none }.timeoutExpired }
    else .ok c
  | .muxNtt transmit => .ok (c.ntt transmit)

end PortController

/-! ### The actor stays ACTIVE or passive -/

/-- Setting flags other than `ACTIVE` keeps the `ACTIVE` flag. -/
theorem or_and_active {y : UInt8} (x : UInt8) (hy : y &&& LacpState.ACTIVE = 0) :
    (x ||| y) &&& LacpState.ACTIVE = x &&& LacpState.ACTIVE := by
  rw [← UInt8.toBitVec_inj] at hy ⊢
  simp only [UInt8.toBitVec_and, UInt8.toBitVec_or, BitVec.and_or_distrib_right] at hy ⊢
  rw [hy]
  exact BitVec.or_zero

/-- Clearing flags other than `ACTIVE` keeps the `ACTIVE` flag. -/
theorem and_not_and_active {y : UInt8} (x : UInt8) (hy : ~~~y &&& LacpState.ACTIVE = LacpState.ACTIVE) :
    x &&& ~~~y &&& LacpState.ACTIVE = x &&& LacpState.ACTIVE := by
  rw [UInt8.and_assoc, hy]

namespace ReceiveMachine

variable (m : ReceiveMachine)

-- the receive machine sets and clears `EXPIRED` and `DEFAULTED` in the actor's state, and nothing else
@[simp] theorem isActive_disabled : m.disabled.actorInfo.isActive = m.actorInfo.isActive := rfl

@[simp] theorem isActive_expired : m.expired.actorInfo.isActive = m.actorInfo.isActive := by
  simp (disch := decide) only [expired, startNextEpoch, setActorState, actorState, call, setPartnerState,
    updateState, ParticipantInfo.isActive, or_and_active]

@[simp] theorem isActive_recordDefault : m.recordDefault.actorInfo.isActive = m.actorInfo.isActive := by
  simp (disch := decide) only [recordDefault, setActorState, actorState, ParticipantInfo.isActive,
    or_and_active]

theorem isActive_setActorState_and_not {y : UInt8} (hy : ~~~y &&& LacpState.ACTIVE = LacpState.ACTIVE) :
    (m.setActorState (m.actorState &&& ~~~y)).actorInfo.isActive = m.actorInfo.isActive := by
  simp only [setActorState, actorState, ParticipantInfo.isActive, and_not_and_active _ hy]

@[simp] theorem isActive_defaulted : m.defaulted.actorInfo.isActive = m.actorInfo.isActive := by
  simp only [defaulted]
  rw [isActive_setActorState_and_not _ (by decide), isActive_recordDefault]
  simp only [updateDefaultSelected]
  split <;> rfl

@[simp] theorem isActive_current (lacpdu : LACPDU) :
    (m.current lacpdu).actorInfo.isActive = m.actorInfo.isActive := by
  simp only [current, recordPDU, updateSelected]
  split_ifs <;> simp (disch := decide) only [startNextEpoch, call, setActorState, actorState,
    setPartnerState, updateState, ParticipantInfo.isActive, and_not_and_active]

@[simp] theorem isActive_rx (lacpdu : LACPDU) : (m.rx lacpdu).actorInfo.isActive = m.actorInfo.isActive := by
  unfold ReceiveMachine.rx
  split_ifs
  · rfl
  · exact isActive_current m lacpdu

theorem isActive_initializeState :
    Except.Spec (fun _ => True) (fun m' => m'.actorInfo.isActive = m.actorInfo.isActive) m.initializeState := by
  unfold initializeState
  split_ifs
  · show (_ : ReceiveMachine).disabled.actorInfo.isActive = _
    rw [isActive_disabled, isActive_setActorState_and_not _ (by decide), isActive_recordDefault]
    rfl
  · trivial

theorem isActive_portUp :
    Except.Spec (fun _ => True) (fun m' => m'.actorInfo.isActive = m.actorInfo.isActive) m.portUp := by
  unfold ReceiveMachine.portUp
  split_ifs
  · exact isActive_expired m
  · trivial

theorem isActive_timeoutExpired :
    Except.Spec (fun _ => True) (fun m' => m'.actorInfo.isActive = m.actorInfo.isActive) m.timeoutExpired := by
  unfold ReceiveMachine.timeoutExpired
  split
  · exact isActive_expired m
  · exact isActive_defaulted m
  all_goals trivial

end ReceiveMachine

namespace ReceivePort

/-- A new port's actor is ACTIVE when its configuration says so. -/
theorem start_isActive (operUp : Bool) (actorInfo : ParticipantInfo) :
    Except.Spec (fun _ => True) (fun p => p.rx.actorInfo.isActive = actorInfo.isActive ∧ p.operUp = operUp)
      (start operUp actorInfo) :=
  (ReceiveMachine.isActive_initializeState _).map fun _ hm => ⟨hm, rfl⟩

/-- Every event keeps the actor ACTIVE or passive; a port change sets the
port's oper state, and the other events keep it. -/
theorem step_spec (p : ReceivePort) (e : ReceiveEvent) :
    Except.Spec (fun _ => True) (fun p' => p'.rx.actorInfo.isActive = p.rx.actorInfo.isActive ∧
      p'.operUp = match e with
        | .portChanged operUp => operUp
        | _ => p.operUp) (p.step e) := by
  cases e with
  | received lacpdu => exact ⟨ReceiveMachine.isActive_rx _ _, rfl⟩
  | portChanged operUp =>
    simp only [ReceivePort.step, ReceivePort.portChanged]
    split_ifs
    · exact (ReceiveMachine.isActive_portUp p.rx).map fun _ hm => ⟨hm, rfl⟩
    · exact ⟨ReceiveMachine.isActive_disabled _, rfl⟩
    · exact ⟨rfl, rfl⟩
  | epochExpired =>
    simp only [ReceivePort.step]
    split_ifs
    · exact (ReceiveMachine.isActive_timeoutExpired _).map fun _ hm => ⟨hm, rfl⟩
    · exact ⟨rfl, rfl⟩

end ReceivePort

/-! ### The periodic and transmit machines -/

namespace PeriodicTransmissionMachine

theorem determineTransmissionRate_ne_TX (actorInfo partnerInfo : ParticipantInfo) :
    determineTransmissionRate actorInfo partnerInfo ≠ .TX := by
  unfold determineTransmissionRate
  split_ifs <;> decide

/-- An ACTIVE actor always has a rate. -/
theorem determineTransmissionRate_of_isActive {actorInfo : ParticipantInfo} (h : actorInfo.isActive = true)
    (partnerInfo : ParticipantInfo) :
    determineTransmissionRate actorInfo partnerInfo = .SLOW ∨
      determineTransmissionRate actorInfo partnerInfo = .FAST := by
  have hne : actorInfo.state &&& LacpState.ACTIVE ≠ 0 := by simpa [ParticipantInfo.isActive] using h
  unfold determineTransmissionRate
  rw [if_neg fun h' => hne h'.1]
  split_ifs
  · exact .inr rfl
  · exact .inl rfl

/-- Outside `TX`, `beginNextPeriod()` keeps the state, and keeps the timer or
schedules it for the state's period. -/
theorem beginNextPeriod_spec {m : PeriodicTransmissionMachine} (h : m.state ≠ .TX) :
    Except.Spec (fun _ => False)
      (fun m' => m'.state = m.state ∧ (m'.timeout = m.timeout ∨ m'.timeout = m.state.period))
      m.beginNextPeriod := by
  rcases m with ⟨state, timeout⟩
  cases state with
  | NONE => exact ⟨rfl, .inl rfl⟩
  | SLOW => exact ⟨rfl, .inr rfl⟩
  | FAST => exact ⟨rfl, .inr rfl⟩
  | TX => exact absurd rfl h

/-- At a rate, `beginNextPeriod()` schedules the timer for the rate's period. -/
theorem beginNextPeriod_of_rate {m : PeriodicTransmissionMachine} (h : m.state = .SLOW ∨ m.state = .FAST) :
    m.beginNextPeriod = .ok ⟨m.state, m.state.period⟩ := by
  rcases m with ⟨state, timeout⟩
  obtain rfl | rfl : state = .SLOW ∨ state = .FAST := h
  · rfl
  · rfl

/-- `start()` never fails: the rate it determines is never `TX`. -/
theorem start_spec (m : PeriodicTransmissionMachine) (actorInfo partnerInfo : ParticipantInfo) :
    Except.Spec (fun _ => False) (fun _ => True) (m.start actorInfo partnerInfo) :=
  (beginNextPeriod_spec (determineTransmissionRate_ne_TX actorInfo partnerInfo)).mono fun _ _ => trivial

/-- For an ACTIVE actor, `start()` begins a period at the rate it determines. -/
theorem start_of_isActive (m : PeriodicTransmissionMachine) {actorInfo : ParticipantInfo}
    (h : actorInfo.isActive = true) (partnerInfo : ParticipantInfo) :
    m.start actorInfo partnerInfo = .ok ⟨determineTransmissionRate actorInfo partnerInfo,
      (determineTransmissionRate actorInfo partnerInfo).period⟩ :=
  beginNextPeriod_of_rate (determineTransmissionRate_of_isActive h partnerInfo)

/-- The expiry of the timer never fails: the rate it determines is never `TX`. -/
theorem timeoutExpired_spec (m : PeriodicTransmissionMachine) (actorInfo partnerInfo : ParticipantInfo) :
    Except.Spec (fun _ => False) (fun _ => True) (m.timeoutExpired actorInfo partnerInfo) :=
  (start_spec m actorInfo partnerInfo).mapError fun _ h => h

/-- For an ACTIVE actor, the expiry of the timer begins the next period at
the rate it determines. -/
theorem timeoutExpired_of_isActive (m : PeriodicTransmissionMachine) {actorInfo : ParticipantInfo}
    (h : actorInfo.isActive = true) (partnerInfo : ParticipantInfo) :
    m.timeoutExpired actorInfo partnerInfo = .ok ⟨determineTransmissionRate actorInfo partnerInfo,
      (determineTransmissionRate actorInfo partnerInfo).period⟩ := by
  show (m.start actorInfo partnerInfo).mapError _ = _
  rw [start_of_isActive m h]
  rfl

end PeriodicTransmissionMachine

namespace TransmitMachine

variable (m : TransmitMachine)

/-- What `ntt` does: nothing, or it sends the LACPDU for one transmission
left. -/
theorem ntt_cases (lacpdu : LACPDU) (transmit : Bool) :
    m.ntt lacpdu transmit = m ∨
      m.ntt lacpdu transmit = { m with
        transmitted := m.transmitted ++ [lacpdu]
        transmissionsLeft := m.transmissionsLeft - 1 } ∧ 0 < m.transmissionsLeft := by
  unfold ntt
  split_ifs with h0
  · exact .inl rfl
  · exact .inl rfl
  · exact .inr ⟨rfl, Nat.pos_of_ne_zero h0⟩

/-- `ntt` only adds to what was sent, never to what is left, and keeps the
potential and the timer. -/
theorem ntt_spec (lacpdu : LACPDU) (transmit : Bool) :
    (m.ntt lacpdu transmit).transmissionsLeft ≤ m.transmissionsLeft ∧
      m.transmitted <+: (m.ntt lacpdu transmit).transmitted ∧
      (m.ntt lacpdu transmit).potential = m.potential := by
  rcases m.ntt_cases lacpdu transmit with h | ⟨h, hpos⟩ <;> rw [h]
  · exact ⟨le_refl _, List.prefix_refl _, rfl⟩
  · refine ⟨Nat.sub_le _ _, List.prefix_append _ _, ?_⟩
    simp only [potential, List.length_append, List.length_singleton]
    omega

/-- The replenishing timer adds at most one transmission, up to the
maximum. -/
theorem timeoutExpired_spec :
    m.timeoutExpired.transmissionsLeft ≤ MAX_TRANSMISSIONS_IN_SHORT_PERIOD ∧
      m.timeoutExpired.transmitted = m.transmitted ∧ m.timeoutExpired.potential ≤ m.potential + 1 := by
  refine ⟨Nat.min_le_right _ _, rfl, ?_⟩
  simp only [potential, timeoutExpired, replenishTranmissionsLeft]
  omega

end TransmitMachine

/-! ### The controller over whole runs -/

namespace PortController

@[simp] theorem port_ntt (c : PortController) (transmit : Bool) : (c.ntt transmit).port = c.port := rfl

@[simp] theorem periodicTx_ntt (c : PortController) (transmit : Bool) :
    (c.ntt transmit).periodicTx = c.periodicTx := rfl

/-- What holds of a port's controller from its start on: its port is safe,
and its transmit machine never has more than the maximum of transmissions
left. -/
structure Inv (c : PortController) : Prop where
  port : c.port.Safe
  budget : c.tx.transmissionsLeft ≤ MAX_TRANSMISSIONS_IN_SHORT_PERIOD

/-- The controller's start never fails and establishes the invariant. -/
theorem start_spec (operUp : Bool) (actorInfo : ParticipantInfo) :
    Except.Spec (fun _ => False) Inv (start operUp actorInfo) := by
  unfold start
  refine (PeriodicTransmissionMachine.start_spec _ _ _).bind fun periodicTx _ => ?_
  refine (ReceivePort.start_spec operUp actorInfo).bind fun port hport => ?_
  exact ⟨hport, le_refl _⟩

/-- `ntt` keeps the invariant, adds to what was sent and keeps the
potential. -/
theorem Inv.ntt {c : PortController} (h : Inv c) (transmit : Bool) :
    Inv (c.ntt transmit) ∧ c.tx.transmitted <+: (c.ntt transmit).tx.transmitted ∧
      (c.ntt transmit).tx.potential = c.tx.potential := by
  obtain ⟨hle, hpre, hpot⟩ := c.tx.ntt_spec ⟨c.actorInfo, c.partnerInfo⟩ transmit
  exact ⟨⟨h.port, hle.trans h.budget⟩, hpre, hpot⟩

/-- A call of the receive machine on the controller keeps the invariant, adds
to what was sent and keeps the potential. -/
theorem Inv.dispatch {c : PortController} (h : Inv c) (transmit : Bool) (f : ReceiveEffect) :
    Except.Spec (fun _ => False) (fun c' => Inv c' ∧ c.tx.transmitted <+: c'.tx.transmitted ∧
      c'.tx.potential = c.tx.potential) (dispatch transmit c f) := by
  cases f with
  | ntt => exact h.ntt transmit
  | startPeriodicTransmissionMachine =>
    exact (PeriodicTransmissionMachine.start_spec _ _ _).map fun _ _ =>
      ⟨⟨h.port, h.budget⟩, List.prefix_refl _, rfl⟩
  | unselected | matched | notMatched | select => exact ⟨h, List.prefix_refl _, rfl⟩

/-- Every event keeps the invariant and never fails. It only adds to what was
sent, and only the expiry of the replenishing timer raises the potential, by
one. -/
theorem Inv.step {c : PortController} (h : Inv c) (e : ControllerEvent) :
    Except.Spec (fun _ => False) (fun c' => Inv c' ∧ c.tx.transmitted <+: c'.tx.transmitted ∧
      c'.tx.potential ≤ c.tx.potential + if e == .replenishExpired then 1 else 0) (c.step e) := by
  cases e with
  | received lacpdu transmit =>
    refine (h.port.step (.received lacpdu)).bind fun port hport => ?_
    -- the calls of the receive machine on the controller, in order
    have hcalls := Except.spec_foldlM (E := fun _ => False)
      (fun c' => Inv c' ∧ c.tx.transmitted <+: c'.tx.transmitted ∧ c'.tx.potential = c.tx.potential)
      (l := port.rx.effects.drop c.port.rx.effects.length) (b := { c with port })
      ⟨⟨hport, h.budget⟩, List.prefix_refl _, rfl⟩ fun c' hc' f _ =>
        (hc'.1.dispatch transmit f).mono fun _ h' => ⟨h'.1, hc'.2.1.trans h'.2.1, h'.2.2.trans hc'.2.2⟩
    exact hcalls.mono fun _ h' => ⟨h'.1, h'.2.1, by simp [h'.2.2]⟩
  | portChanged operUp =>
    rw [if_neg (by simp), Nat.add_zero]
    refine (h.port.step (.portChanged operUp)).bind fun port hport => ?_
    split_ifs
    · exact (PeriodicTransmissionMachine.start_spec _ _ _).map fun _ _ =>
        ⟨⟨hport, h.budget⟩, List.prefix_refl _, le_refl _⟩
    · exact ⟨⟨hport, h.budget⟩, List.prefix_refl _, le_refl _⟩
    · exact ⟨⟨hport, h.budget⟩, List.prefix_refl _, le_refl _⟩
  | epochExpired =>
    refine (h.port.step .epochExpired).bind fun port hport => ?_
    exact ⟨⟨hport, h.budget⟩, List.prefix_refl _, by simp⟩
  | periodicExpired transmit =>
    rw [if_neg (by simp), Nat.add_zero]
    simp only [PortController.step]
    split_ifs
    · obtain ⟨hinv, hpre, hpot⟩ := h.ntt transmit
      exact (PeriodicTransmissionMachine.timeoutExpired_spec _ _ _).map fun _ _ =>
        ⟨⟨hinv.port, hinv.budget⟩, hpre, hpot.le⟩
    · exact ⟨h, List.prefix_refl _, le_refl _⟩
  | replenishExpired =>
    rw [if_pos (by simp)]
    simp only [PortController.step]
    split_ifs
    · obtain ⟨hbudget, htx, hpot⟩ := TransmitMachine.timeoutExpired_spec { c.tx with timeout := none }
      exact ⟨⟨h.port, hbudget⟩, htx ▸ List.prefix_refl _, hpot⟩
    · exact ⟨h, List.prefix_refl _, Nat.le_add_right _ _⟩
  | muxNtt transmit =>
    obtain ⟨hinv, hpre, hpot⟩ := h.ntt transmit
    exact ⟨hinv, hpre, by simp [hpot]⟩

/-- Every run of a started controller succeeds and keeps the invariant. -/
theorem run_spec (operUp : Bool) (actorInfo : ParticipantInfo) (es : List ControllerEvent) :
    Except.Spec (fun _ => False) Inv (start operUp actorInfo >>= fun c => es.foldlM step c) :=
  (start_spec operUp actorInfo).bind fun _ hc =>
    Except.spec_foldlM Inv hc fun _ hc' e _ => (hc'.step e).mono fun _ h => h.1

/-- Over a stretch of a run, what is sent only grows, and the potential
grows by at most the expiries of the replenishing timer in the stretch. -/
theorem Inv.window {c : PortController} (h : Inv c) (window : List ControllerEvent) :
    Except.Spec (fun _ => False) (fun c' => c.tx.transmitted <+: c'.tx.transmitted ∧
      c'.tx.potential ≤ c.tx.potential + window.count .replenishExpired)
      (window.foldlM PortController.step c) := by
  have hpre := Except.spec_foldlM (E := fun _ => False) (l := window)
    (fun c' => Inv c' ∧ c.tx.transmitted <+: c'.tx.transmitted) ⟨h, List.prefix_refl _⟩
    fun c' hc' e _ => (hc'.1.step e).mono fun _ h' => ⟨h'.1, hc'.2.trans h'.2.1⟩
  have hpot := Except.spec_foldlM_potential (E := fun _ => False) (l := window) Inv
    (fun c' => c'.tx.potential) (· == .replenishExpired) h
    fun c' hc' e _ => (hc'.step e).mono fun _ h' => ⟨h'.1, h'.2.2⟩
  exact ((hpre.and hpot).mono_error fun _ h' => h'.1).mono fun _ h' => ⟨h'.1.2, h'.2.2⟩

/-- The transmit machine's rate limit, over every stretch of every run of a
port's controller: the LACPDUs sent in the stretch, whoever asked for them,
are at most three more than the expiries of the replenishing timer in it. -/
theorem transmissions_within_replenishments (operUp : Bool) (actorInfo : ParticipantInfo)
    (pre window : List ControllerEvent) :
    ∃ c c', (start operUp actorInfo >>= fun c => pre.foldlM step c) = .ok c ∧ window.foldlM step c = .ok c' ∧
      c.tx.transmitted <+: c'.tx.transmitted ∧
      c'.tx.transmitted.length ≤
        c.tx.transmitted.length + MAX_TRANSMISSIONS_IN_SHORT_PERIOD + window.count .replenishExpired := by
  obtain ⟨c, hc, hinv⟩ := (run_spec operUp actorInfo pre).exists_eq_ok
  obtain ⟨c', hc', hpre, hpot⟩ := (hinv.window window).exists_eq_ok
  refine ⟨c, c', hc, hc', hpre, ?_⟩
  have hbudget := hinv.budget
  simp only [TransmitMachine.potential] at hpot
  omega

/-! ### An ACTIVE port keeps transmitting -/

/-- The periodic machine of a controller whose actor is ACTIVE: it is at a
rate, its timer is pending for the rate's period or not at all, and it is
pending whenever the port is up. -/
structure KeepsAlive (c : PortController) : Prop where
  active : c.actorInfo.isActive = true
  rate : c.periodicTx.state = .SLOW ∨ c.periodicTx.state = .FAST
  timeout : c.periodicTx.timeout = none ∨ c.periodicTx.timeout = c.periodicTx.state.period
  up : c.port.operUp = true → c.periodicTx.timeout.isSome

/-- A period just begun at a rate keeps an ACTIVE actor's controller
alive. -/
theorem keepsAlive_of_rate {c : PortController} (hactive : c.actorInfo.isActive = true)
    {rate : PeriodicState} (hrate : rate = .SLOW ∨ rate = .FAST) (hp : c.periodicTx = ⟨rate, rate.period⟩) :
    KeepsAlive c := by
  refine ⟨hactive, by rw [hp]; exact hrate, .inr (by rw [hp]), fun _ => ?_⟩
  rw [hp]
  rcases hrate with rfl | rfl <;> rfl

/-- A controller whose actor is ACTIVE starts alive: its periodic machine
begins a period at the rate for a partner it has not heard from. -/
theorem start_keepsAlive (operUp : Bool) {actorInfo : ParticipantInfo} (hactive : actorInfo.isActive = true) :
    Except.Spec (fun _ => True) KeepsAlive (start operUp actorInfo) := by
  unfold start
  rw [PeriodicTransmissionMachine.start_of_isActive _ hactive, Except.ok_bind]
  refine (ReceivePort.start_isActive operUp actorInfo).bind fun port hport => ?_
  exact keepsAlive_of_rate (hport.1.trans hactive)
    (PeriodicTransmissionMachine.determineTransmissionRate_of_isActive hactive _) rfl

/-- A call of the receive machine keeps the controller alive: a start of the
periodic machine begins a period at the rate it determines. -/
theorem KeepsAlive.dispatch {c : PortController} (h : KeepsAlive c) (transmit : Bool) (f : ReceiveEffect) :
    Except.Spec (fun _ => True) KeepsAlive (dispatch transmit c f) := by
  cases f with
  | ntt => exact ⟨h.active, h.rate, h.timeout, h.up⟩
  | startPeriodicTransmissionMachine =>
    show Except.Spec _ _ ((c.periodicTx.start c.actorInfo c.partnerInfo).map _)
    rw [PeriodicTransmissionMachine.start_of_isActive _ h.active]
    exact keepsAlive_of_rate h.active
      (PeriodicTransmissionMachine.determineTransmissionRate_of_isActive h.active _) rfl
  | unselected | matched | notMatched | select => exact h

/-- Every event keeps the controller of an ACTIVE actor alive. The timer is
cancelled only when the port goes down, and every start of the periodic
machine, on a port coming up, on a change of the partner's activity or at the
end of a period, begins a period. -/
theorem KeepsAlive.step {c : PortController} (h : KeepsAlive c) (e : ControllerEvent) :
    Except.Spec (fun _ => True) KeepsAlive (c.step e) := by
  cases e with
  | received lacpdu transmit =>
    refine (c.port.step_spec (.received lacpdu)).bind fun port hport => ?_
    have hop : port.operUp = c.port.operUp := hport.2
    have halive : KeepsAlive { c with port } :=
      ⟨hport.1.trans h.active, h.rate, h.timeout, fun hup => h.up (hop ▸ hup)⟩
    exact Except.spec_foldlM KeepsAlive halive fun _ hc' f _ => hc'.dispatch transmit f
  | portChanged operUp =>
    refine (c.port.step_spec (.portChanged operUp)).bind fun port hport => ?_
    have hactive : port.rx.actorInfo.isActive = true := hport.1.trans h.active
    have hop : port.operUp = operUp := hport.2
    split_ifs with hupc hdownc
    · -- DOWN to UP: a period at the rate the receive machine now records
      show Except.Spec _ _ ((c.periodicTx.start _ _).map _)
      rw [PeriodicTransmissionMachine.start_of_isActive _ hactive]
      exact keepsAlive_of_rate hactive
        (PeriodicTransmissionMachine.determineTransmissionRate_of_isActive hactive _) rfl
    · -- UP to DOWN: the timer is cancelled on a port that is down
      have hdown : operUp = false := by
        simp only [Bool.and_eq_true, Bool.not_eq_eq_eq_not, Bool.not_true] at hdownc
        exact hdownc.2
      refine ⟨hactive, h.rate, .inl rfl, fun hup => ?_⟩
      rw [hop, hdown] at hup
      cases hup
    · -- no change of the oper state
      have hsame : operUp = c.port.operUp := by
        revert hupc hdownc
        cases operUp <;> cases c.port.operUp <;> simp
      exact ⟨hactive, h.rate, h.timeout, fun hup => h.up (hsame ▸ hop ▸ hup)⟩
  | epochExpired =>
    refine (c.port.step_spec .epochExpired).bind fun port hport => ?_
    have hop : port.operUp = c.port.operUp := hport.2
    exact ⟨hport.1.trans h.active, h.rate, h.timeout, fun hup => h.up (hop ▸ hup)⟩
  | periodicExpired transmit =>
    simp only [PortController.step]
    split_ifs
    · rw [PeriodicTransmissionMachine.timeoutExpired_of_isActive _ h.active]
      exact keepsAlive_of_rate h.active
        (PeriodicTransmissionMachine.determineTransmissionRate_of_isActive h.active _) rfl
    · exact h
  | replenishExpired =>
    simp only [PortController.step]
    split_ifs
    · exact ⟨h.active, h.rate, h.timeout, h.up⟩
    · exact h
  | muxNtt transmit => exact ⟨h.active, h.rate, h.timeout, h.up⟩

/-- Over every run of the controller of a port whose actor is ACTIVE, no
machine fails, the periodic machine is at a rate, and whenever the port is
up its timer is pending for the rate's period: the port never stops sending
LACPDUs while it is up. -/
theorem run_keeps_active_port_transmitting (operUp : Bool) {actorInfo : ParticipantInfo}
    (hactive : actorInfo.isActive = true) (es : List ControllerEvent) :
    ∃ c, (start operUp actorInfo >>= fun c => es.foldlM step c) = .ok c ∧
      (c.periodicTx.state = .SLOW ∨ c.periodicTx.state = .FAST) ∧
      (c.port.operUp = true → c.periodicTx.timeout = c.periodicTx.state.period) := by
  have halive : Except.Spec (fun _ => True) KeepsAlive (start operUp actorInfo >>= fun c => es.foldlM step c) :=
    (start_keepsAlive operUp hactive).bind fun _ hc =>
      Except.spec_foldlM KeepsAlive hc fun _ hc' e _ => hc'.step e
  obtain ⟨c, hc, _, hk⟩ := (((run_spec operUp actorInfo es).and halive).mono_error fun _ h => h.1).exists_eq_ok
  refine ⟨c, hc, hk.rate, fun hup => ?_⟩
  rcases hk.timeout with hnone | hperiod
  · have hsome := hk.up hup
    rw [hnone] at hsome
    cases hsome
  · exact hperiod

end PortController

/-- An ACTIVE actor on a port that is down when its controller starts, then
comes up, hears a passive partner, and has both timers fire. -/
theorem run_keeps_active_port_transmitting_after_port_up :
    (⟨1, 1, 1, 1, 1, LacpState.ACTIVE⟩ : ParticipantInfo).isActive = true ∧
      ∃ c, (PortController.start false ⟨1, 1, 1, 1, 1, LacpState.ACTIVE⟩ >>= fun c =>
        [.portChanged true, .periodicExpired true, .received ⟨⟨1, 2, 1, 1, 1, 0⟩, ⟨1, 1, 1, 1, 1, 0⟩⟩ true,
          .replenishExpired, .periodicExpired false].foldlM PortController.step c) = .ok c ∧
        (c.periodicTx.state = .SLOW ∨ c.periodicTx.state = .FAST) ∧
        (c.port.operUp = true → c.periodicTx.timeout = c.periodicTx.state.period) :=
  ⟨rfl, PortController.run_keeps_active_port_transmitting false rfl _⟩

end Lacp

end Fboss
