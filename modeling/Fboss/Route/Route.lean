import Fboss.Route.RouteNextHopsMulti

/-!
# Routes

A `Route` (`rib/Route.h` and `state/Route.h`, the same fields and methods)
holds the entries of its clients (`nexthopsmulti`), the forwarding
information that resolution computed (`fwd`) and its flag word. The flag word
is modelled by its four bits, one field each. A route is stored in a table
under its prefix, and the prefix is read only through that key, so it is not a
field here: `Route` is the part of the source's route that resolution and the
updaters read and write.

The methods that set the flags follow the `setFlags*` helpers: processing
clears the three result bits, resolved clears unresolvable and processing,
unresolvable clears all but itself, and clearing the forward information
clears all four.
-/

namespace Fboss

/-- The bits of a route's flag word. -/
structure RouteFlags where
  connected : Bool
  resolved : Bool
  unresolvable : Bool
  processing : Bool
  deriving DecidableEq, Repr

/-- The flag word `0`. -/
def RouteFlags.none : RouteFlags :=
  ⟨false, false, false, false⟩

/-- A route: its client entries, its forwarding information and its flags. -/
structure Route where
  nexthopsmulti : RouteNextHopsMulti
  fwd : RouteNextHopEntry
  flags : RouteFlags

namespace RouteNextHopEntry

/-- `isValid(forMplsRoute)`: an IP route's next hops may only push labels. -/
def isValid (e : RouteNextHopEntry) (forMplsRoute : Bool) : Bool :=
  forMplsRoute || e.action != .NEXTHOPS ||
    e.nhopSet.elems.all fun nh =>
      match nh.labelForwardingAction with
      | none => true
      | some action => action.type = .PUSH

end RouteNextHopEntry

namespace Route

/-- The forwarding information a route starts with: `DROP` at the maximal
admin distance. -/
def defaultFwd : RouteNextHopEntry :=
  .ofAction .DROP AdminDistance.MAX_ADMIN_DISTANCE

/-- `Route(prefix, clientId, entry)`: a route with the one entry, which must
be valid for an IP route. The cached client of the new `RouteNextHopsMulti`
is set by its first update, whatever it held. -/
def make (clientId : ClientID) (entry : RouteNextHopEntry) : Except String Route :=
  if entry.isValid false then
    .ok ⟨(RouteNextHopsMulti.empty (-1)).update clientId entry, defaultFwd, .none⟩
  else .error "Invalid label forwarding action for IP route"

def isResolved (r : Route) : Bool := r.flags.resolved
def isUnresolvable (r : Route) : Bool := r.flags.unresolvable
def isConnected (r : Route) : Bool := r.flags.connected
def isProcessing (r : Route) : Bool := r.flags.processing
def isDrop (r : Route) : Bool := r.isResolved && r.fwd.isDrop
def isToCPU (r : Route) : Bool := r.isResolved && r.fwd.isToCPU

/-- `needResolve`: none of resolved, unresolvable and processing is set. -/
def needResolve (r : Route) : Bool :=
  !(r.flags.resolved || r.flags.unresolvable || r.flags.processing)

def getForwardInfo (r : Route) : RouteNextHopEntry := r.fwd

def getEntryForClient (r : Route) (clientId : ClientID) : Option RouteNextHopEntry :=
  r.nexthopsmulti.getEntryForClient clientId

def getBestEntry (r : Route) : Except String (ClientID × RouteNextHopEntry) :=
  r.nexthopsmulti.getBestEntry

def hasNoEntry (r : Route) : Bool := r.nexthopsmulti.isEmpty

/-- `has(clientId, entry)`: the client's entry is `entry`. -/
def has (r : Route) (clientId : ClientID) (entry : RouteNextHopEntry) : Bool :=
  r.getEntryForClient clientId == some entry

/-- `isSame` (`operator==` of the fields): the flags, the client entries (the
map only, as `RouteNextHopsMulti::operator==`) and the forwarding
information. -/
def isSame (r rt : Route) : Bool :=
  r.flags == rt.flags && r.nexthopsmulti.map == rt.nexthopsmulti.map && r.fwd == rt.fwd

@[simp] theorem isSame_self (r : Route) : r.isSame r = true := by
  simp [isSame]

/-- `setProcessing`, through `setFlagsProcessing`. Both callers call it on a
route that needs resolution, so its `CHECK(!isProcessing())` holds. -/
def setProcessing (r : Route) : Route :=
  { r with flags := { processing := true, resolved := false, unresolvable := false, connected := false } }

def setConnected (r : Route) : Route :=
  { r with flags := { r.flags with connected := true } }

def setResolved (r : Route) (fwd : RouteNextHopEntry) : Route :=
  { r with fwd := fwd, flags := { r.flags with resolved := true, unresolvable := false, processing := false } }

def setUnresolvable (r : Route) : Route :=
  { r with fwd := r.fwd.reset,
           flags := { unresolvable := true, resolved := false, processing := false, connected := false } }

def clearForward (r : Route) : Route :=
  { r with fwd := r.fwd.reset, flags := .none }

/-- `update(clientId, entry)`: the forwarding information is reset and the
client's entry replaced. -/
def update (r : Route) (clientId : ClientID) (entry : RouteNextHopEntry) : Route :=
  { r with fwd := r.fwd.reset, nexthopsmulti := r.nexthopsmulti.update clientId entry }

def delEntryForClient (r : Route) (clientId : ClientID) : Route :=
  { r with nexthopsmulti := r.nexthopsmulti.delEntryForClient clientId }

/-! ### What the methods do to the flags -/

@[simp] theorem needResolve_setProcessing (r : Route) : r.setProcessing.needResolve = false := rfl
@[simp] theorem isProcessing_setProcessing (r : Route) : r.setProcessing.isProcessing = true := rfl
@[simp] theorem needResolve_setResolved (r : Route) (fwd : RouteNextHopEntry) :
    (r.setResolved fwd).needResolve = false := by
  simp [needResolve, setResolved]
@[simp] theorem isResolved_setResolved (r : Route) (fwd : RouteNextHopEntry) :
    (r.setResolved fwd).isResolved = true := rfl
@[simp] theorem isProcessing_setResolved (r : Route) (fwd : RouteNextHopEntry) :
    (r.setResolved fwd).isProcessing = false := rfl
@[simp] theorem isUnresolvable_setResolved (r : Route) (fwd : RouteNextHopEntry) :
    (r.setResolved fwd).isUnresolvable = false := rfl
@[simp] theorem getForwardInfo_setResolved (r : Route) (fwd : RouteNextHopEntry) :
    (r.setResolved fwd).getForwardInfo = fwd := rfl
@[simp] theorem needResolve_setUnresolvable (r : Route) : r.setUnresolvable.needResolve = false := by
  simp [needResolve, setUnresolvable]
@[simp] theorem isResolved_setUnresolvable (r : Route) : r.setUnresolvable.isResolved = false := rfl
@[simp] theorem isProcessing_setUnresolvable (r : Route) : r.setUnresolvable.isProcessing = false := rfl
@[simp] theorem isUnresolvable_setUnresolvable (r : Route) : r.setUnresolvable.isUnresolvable = true := rfl
@[simp] theorem needResolve_clearForward (r : Route) : r.clearForward.needResolve = true := rfl
@[simp] theorem clearForward_clearForward (r : Route) : r.clearForward.clearForward = r.clearForward := rfl
@[simp] theorem isResolved_setConnected (r : Route) : r.setConnected.isResolved = r.isResolved := rfl
@[simp] theorem isUnresolvable_setConnected (r : Route) :
    r.setConnected.isUnresolvable = r.isUnresolvable := rfl
@[simp] theorem isProcessing_setConnected (r : Route) : r.setConnected.isProcessing = r.isProcessing := rfl
@[simp] theorem needResolve_setConnected (r : Route) : r.setConnected.needResolve = r.needResolve := rfl
@[simp] theorem getForwardInfo_setConnected (r : Route) : r.setConnected.getForwardInfo = r.getForwardInfo := rfl

/-- The client entries are what resolution never changes. -/
@[simp] theorem nexthopsmulti_setProcessing (r : Route) : r.setProcessing.nexthopsmulti = r.nexthopsmulti := rfl
@[simp] theorem nexthopsmulti_setResolved (r : Route) (fwd : RouteNextHopEntry) :
    (r.setResolved fwd).nexthopsmulti = r.nexthopsmulti := rfl
@[simp] theorem nexthopsmulti_setUnresolvable (r : Route) :
    r.setUnresolvable.nexthopsmulti = r.nexthopsmulti := rfl
@[simp] theorem nexthopsmulti_setConnected (r : Route) : r.setConnected.nexthopsmulti = r.nexthopsmulti := rfl
@[simp] theorem nexthopsmulti_clearForward (r : Route) : r.clearForward.nexthopsmulti = r.nexthopsmulti := rfl

end Route

end Fboss
