import Fboss.Lib.FlatMap
import Fboss.Lib.ExceptSpec
import Fboss.Agent.Lacp

/-!
# LACP: the selector

The selector of a member port (`Selector` of `LacpMachines.cpp`) chooses the
Link Aggregation Group the port joins, from the port's own LACP information
and its partner's (`LinkAggregationGroupID::from`). The choices of all ports
are kept in one map shared by every selector (`portToSelection`): each port
that chose a group is `SELECTED` or `STANDBY` in it. With a minimum link count
`m`, a port joins a group as `STANDBY`, and when exactly `m` of the group's
members are `STANDBY` they are all signalled `SELECTED`; a port that leaves
demotes every `SELECTED` member of its group to `STANDBY`.

The model is the shared map of the member ports of one aggregate port, and
the signals the selectors send to the mux machines, in order. The signals to
other ports go through their controllers (`LacpController::selected(ports)`,
`standby(ports)`), which change the shared map themselves.
-/

namespace Fboss

namespace Lacp

/-- `ParticipantInfo`: what one end of a link says about itself in its
LACPDUs. -/
structure ParticipantInfo where
  systemPriority : UInt16
  systemID : MacAddress
  key : UInt16
  portPriority : UInt16
  port : UInt16
  state : UInt8
  deriving DecidableEq, Repr

/-- Whether a participant's state has the `AGGREGATABLE` flag. -/
def ParticipantInfo.isAggregatable (info : ParticipantInfo) : Bool :=
  info.state &&& LacpState.AGGREGATABLE != 0

/-- `LinkAggregationGroupID`: every field is zero unless `from` sets it. -/
structure LinkAggregationGroupID where
  actorSystemID : MacAddress := 0
  partnerSystemID : MacAddress := 0
  actorSystemPriority : UInt16 := 0
  partnerSystemPriority : UInt16 := 0
  actorKey : UInt16 := 0
  partnerKey : UInt16 := 0
  actorPort : UInt16 := 0
  partnerPort : UInt16 := 0
  actorPortPriority : UInt16 := 0
  partnerPortPriority : UInt16 := 0
  deriving DecidableEq, Repr

/-- `LinkAggregationGroupID::from`: the systems and keys of both ends, and the
port of an end only when that end is not aggregatable. -/
def LinkAggregationGroupID.from (actorInfo partnerInfo : ParticipantInfo) :
    LinkAggregationGroupID :=
  { actorSystemID := actorInfo.systemID
    actorSystemPriority := actorInfo.systemPriority
    actorKey := actorInfo.key
    actorPort := if actorInfo.isAggregatable then 0 else actorInfo.port
    actorPortPriority := if actorInfo.isAggregatable then 0 else actorInfo.portPriority
    partnerSystemID := partnerInfo.systemID
    partnerSystemPriority := partnerInfo.systemPriority
    partnerKey := partnerInfo.key
    partnerPort := if partnerInfo.isAggregatable then 0 else partnerInfo.port
    partnerPortPriority := if partnerInfo.isAggregatable then 0 else partnerInfo.portPriority }

/-- `Selector::SelectionState`. -/
inductive SelectionState where
  | SELECTED
  | STANDBY
  deriving DecidableEq, Repr

/-- `Selector::Selection`: the group a port chose, and whether it is selected
or on standby in it. -/
structure Selection where
  lagID : LinkAggregationGroupID
  state : SelectionState
  deriving DecidableEq, Repr

/-- `Selector::PortIDToSelection`. -/
abbrev PortIDToSelection := FlatMap PortID Selection

/-- The member ports of one aggregate port, as `LacpController` describes them
to their selectors: the aggregate port, the system, the minimum link count,
and the priority and actor state of each port. Only the `AGGREGATABLE` flag of
an actor state is read here, and no machine changes it. -/
structure Members where
  aggPortID : AggregatePortID
  systemPriority : UInt16
  systemID : MacAddress
  minLinkCount : UInt8
  portPriority : PortID → UInt16
  actorState : PortID → UInt8

/-- `LacpController::actorInfo()` of a member port. -/
def Members.actorInfo (g : Members) (portID : PortID) : ParticipantInfo :=
  ⟨g.systemPriority, g.systemID, g.aggPortID, g.portPriority portID, UInt16.ofNat portID,
    g.actorState portID⟩

/-- The selectors of the member ports: the shared map, and the signals sent
to the ports' mux machines, in order. -/
structure Selectors where
  portToSelection : PortIDToSelection
  signals : List (PortID × MuxEvent)

namespace Selector

/-- The selection of `portID` with its state replaced, if it has one. -/
def setSelectionState (m : PortIDToSelection) (portID : PortID) (state : SelectionState) :
    PortIDToSelection :=
  match m.find? portID with
  | some sel => m.assign portID { sel with state }
  | none => m

/-- `Selector::selected()`, whose `CHECK` fails on a port without a
selection. -/
def selected (s : Selectors) (portID : PortID) : Except String Selectors :=
  match s.portToSelection.find? portID with
  | some _ => pure { s with portToSelection := setSelectionState s.portToSelection portID .SELECTED }
  | none => throw "Check failed: it != portToSelection().end()"

/-- `Selector::standby()`: nothing for a port without a selection. -/
def standby (s : Selectors) (portID : PortID) : Selectors :=
  { s with portToSelection := setSelectionState s.portToSelection portID .STANDBY }

/-- `Selector::getSelection()`, which throws `LACPError` on a port without a
selection. -/
def getSelection (s : Selectors) (portID : PortID) : Except String Selection :=
  match s.portToSelection.find? portID with
  | some sel => pure sel
  | none => throw "LACPError"

/-- `Selector::getPortsWithSelection`: in the map's order. -/
def getPortsWithSelection (m : PortIDToSelection) (sel : Selection) : List PortID :=
  (m.toList.filter fun ps => ps.2 == sel).map Prod.fst

/-- `Selector::isAvailable`: no port chose a group with this aggregate port's
key. -/
def isAvailable (m : PortIDToSelection) (aggPortID : AggregatePortID) : Bool :=
  m.toList.all fun ps => ps.2.lagID.actorKey != aggPortID

end Selector

namespace LacpController

/-- `LacpController::selected()`: the selector marks the port `SELECTED`, and
the mux machine is told the aggregate port of the group's key. -/
def selected (s : Selectors) (portID : PortID) : Except String Selectors := do
  let s ← Selector.selected s portID
  let sel ← Selector.getSelection s portID
  pure { s with signals := s.signals ++ [(portID, .selected sel.lagID.actorKey)] }

/-- `LacpController::standby()`: the mux machine first, then the selector. -/
def standby (s : Selectors) (portID : PortID) : Selectors :=
  Selector.standby { s with signals := s.signals ++ [(portID, .standby)] } portID

/-- `LacpController::selected(ports)`: each port's controller in turn. -/
def selectedPorts (s : Selectors) (ports : List PortID) : Except String Selectors :=
  ports.foldlM selected s

/-- `LacpController::standby(ports)`: each port's controller in turn. -/
def standbyPorts (s : Selectors) (ports : List PortID) : Selectors :=
  ports.foldl standby s

end LacpController

namespace Selector

/-- `Selector::unselected()`: the port leaves its group, and every `SELECTED`
member of the group is put on standby. -/
def unselected (s : Selectors) (portID : PortID) : Selectors :=
  match s.portToSelection.find? portID with
  | none => s
  | some sel =>
    let s := { s with portToSelection := s.portToSelection.erase portID }
    let ports := getPortsWithSelection s.portToSelection ⟨sel.lagID, .SELECTED⟩
    LacpController.standbyPorts s ports

end Selector

/-- `LacpController::unselected()`: the selector, then the mux machine. -/
def LacpController.unselected (s : Selectors) (portID : PortID) : Selectors :=
  let s := Selector.unselected s portID
  { s with signals := s.signals ++ [(portID, .unselected)] }

namespace Selector

/-- `Selector::portDown()`: a port with a selection is unselected. -/
def portDown (s : Selectors) (portID : PortID) : Selectors :=
  match s.portToSelection.find? portID with
  | none => s
  | some _ => LacpController.unselected s portID

/-- `chooseTargetLag` of `Selector::select()`: the port's selection is
inserted, which leaves a selection it already has in place, and its controller
is signalled. -/
def chooseTargetLag (s : Selectors) (portID : PortID) (targetLagID : LinkAggregationGroupID)
    (state : SelectionState) : Except String Selectors :=
  let s := { s with portToSelection := s.portToSelection.insert portID ⟨targetLagID, state⟩ }
  match state with
  | .SELECTED => LacpController.selected s portID
  | .STANDBY => pure (LacpController.standby s portID)

/-- `Selector::select()`, after a LACPDU from the partner of `portID`. -/
def select (g : Members) (s : Selectors) (portID : PortID) (partnerInfo : ParticipantInfo) :
    Except String Selectors := do
  let actorInfo := g.actorInfo portID
  let targetLagID := LinkAggregationGroupID.from actorInfo partnerInfo
  -- a port that already chose the target group has nothing to do
  if (s.portToSelection.find? portID).any (·.lagID == targetLagID) then
    return s
  -- an individual port is selected at once, in a group of its own
  if !partnerInfo.isAggregatable || !actorInfo.isAggregatable then
    return ← chooseTargetLag s portID targetLagID .SELECTED
  let targetLagSelectedByOtherPort :=
    s.portToSelection.toList.any fun ps => ps.2.lagID == targetLagID
  -- both branches of the source choose the target as `STANDBY`
  if !(targetLagSelectedByOtherPort || isAvailable s.portToSelection g.aggPortID) then
    return s
  let s ← chooseTargetLag s portID targetLagID .STANDBY
  let targetLagMemberCount := s.portToSelection.toList.countP fun ps =>
    ps.2.lagID == targetLagID && ps.2.state == .STANDBY
  if targetLagMemberCount == g.minLinkCount.toNat then
    let portsToSignal := getPortsWithSelection s.portToSelection ⟨targetLagID, .STANDBY⟩
    LacpController.selectedPorts s portsToSignal
  else
    pure s

end Selector

/-- What the selectors of the member ports are told: a LACPDU from a port's
partner, the receive machine's `unselected`, or a port going down. -/
inductive SelectorEvent where
  | select (portID : PortID) (partnerInfo : ParticipantInfo)
  | unselected (portID : PortID)
  | portDown (portID : PortID)
  deriving DecidableEq, Repr

/-- One event. -/
def Selectors.step (g : Members) (s : Selectors) : SelectorEvent → Except String Selectors
  | .select portID partnerInfo => Selector.select g s portID partnerInfo
  | .unselected portID => pure (LacpController.unselected s portID)
  | .portDown portID => pure (Selector.portDown s portID)

/-- The selectors after a list of events, from no selection. -/
def Selectors.run (g : Members) (es : List SelectorEvent) : Except String Selectors :=
  es.foldlM (Selectors.step g) ⟨FlatMap.empty, []⟩

/-- Three member ports of an aggregate port with a minimum link count of 2,
all aggregatable, whose partners are one aggregatable system: the first two
to join are `SELECTED`, but the third stays on `STANDBY` though three ports
chose the group, since promotion happens only when exactly 2 members are on
`STANDBY`. When the first port then leaves, the other two are demoted, and
two ports, the minimum, chose the group with none of them `SELECTED`. -/
theorem standby_with_minLinks_chosen :
    let g : Members := ⟨1, 1, 1, 2, fun _ => 1, fun _ => LacpState.ACTIVE ||| LacpState.AGGREGATABLE⟩
    let partner (port : UInt16) : ParticipantInfo :=
      ⟨1, 2, 7, 1, port, LacpState.ACTIVE ||| LacpState.AGGREGATABLE⟩
    let L := LinkAggregationGroupID.from (g.actorInfo 1) (partner 1)
    (Selectors.run g [.select 1 (partner 1), .select 2 (partner 2), .select 3 (partner 3)]).map
        (·.portToSelection.toList) =
      .ok [(1, ⟨L, .SELECTED⟩), (2, ⟨L, .SELECTED⟩), (3, ⟨L, .STANDBY⟩)] ∧
    (Selectors.run g [.select 1 (partner 1), .select 2 (partner 2), .select 3 (partner 3),
        .unselected 1]).map (·.portToSelection.toList) =
      .ok [(2, ⟨L, .STANDBY⟩), (3, ⟨L, .STANDBY⟩)] := by
  decide +kernel

end Lacp

end Fboss
