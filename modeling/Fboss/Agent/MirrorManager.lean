import Fboss.State.Mirror
import Fboss.State.RouteUpdater

/-!
# Resolving mirrors

When the routes or the neighbor tables change, `MirrorManager`
(`MirrorManager.cpp`, `MirrorManagerImpl.cpp`) re-resolves every mirror that
has a destination IP against the new state. `updateMirror` looks the
destination up in the route table of VRF 0 (the legacy route tables), takes
the first resolved next hop whose neighbor is known on a physical port (the
configured egress port, if the mirror has one), and builds the tunnel from
the interface and the neighbor; it returns `nullptr` when the rebuilt mirror
is `operator==` to the old one. `resolveMirrors` is run as a state update, so
when it throws the state is left as it was.

`updateMirror` rebuilds the mirror with the constructor from the old mirror's
fields, egress port included, so a mirror that was once resolved is rebuilt
with `configHasEgressPort` set (`updateMirror_rebuilt`), and from then on only
a neighbor on that port resolves it (`resolveRun_depends_on_history`). For a
mirror whose config names an egress port nothing changes, and its resolution
does not depend on the states it was resolved against before
(`resolveMirror_history_independent`). `resolveMirrors` resolves each mirror
on its own (`resolveMirrors_find?`).

The state is modelled by what these functions read of it. A null pointer the
source would dereference and a failed conversion of an address family are
errors of the model; `inSubnet` compares addresses of one family only.
-/

namespace Fboss

namespace MirrorManager

open State

/-- An interface as the mirror manager reads it: its VLAN, its MAC and its
addresses with their mask lengths, in address order. -/
structure Interface where
  vlanID : VlanID
  mac : MacAddress
  addresses : FlatMap IPAddress Nat

/-- `IPAddress::inSubnet(subnet, cidr)` for an address and a subnet of one
family. -/
def inSubnet : IPAddress → IPAddress → Nat → Bool
  | .v4 a, .v4 s, cidr => IPAddress.mask a cidr == IPAddress.mask s cidr
  | .v6 a, .v6 s, cidr => IPAddress.mask a cidr == IPAddress.mask s cidr
  | _, _, _ => false

namespace Interface

def hasAddress (intf : Interface) (ip : IPAddress) : Bool :=
  (intf.addresses.find? ip).isSome

/-- `getAddressToReach`: the first address whose subnet holds `dest`; `none`
is `end()`. -/
def getAddressToReach (intf : Interface) (dest : IPAddress) : Option (IPAddress × Nat) :=
  intf.addresses.toList.find? fun addr => inSubnet dest addr.1 addr.2

end Interface

/-- The switch state as the mirror manager reads it. -/
structure SwitchState where
  routeTables : RouteTableMap
  interfaces : FlatMap InterfaceID Interface
  vlans : FlatMap VlanID Vlan
  mirrors : MirrorMap

/-- `getIPAddress<AddrT>`: an address of the destination's family (`asV4()`,
`asV6()`), which throws on the other family. -/
def getIPAddress : IPAddress → IPAddress → Except String IPAddress
  | .v4 _, .v4 a => pure (.v4 a)
  | .v6 _, .v6 a => pure (.v6 a)
  | _, _ => throw "InvalidAddressFamilyException"

/-- `resolveMirrorNextHops`: the next hops of the route to the destination in
VRF 0, if that route is resolved (`getRouteTable` throws on a missing VRF). -/
def resolveMirrorNextHops (state : SwitchState) (destinationIp : IPAddress) :
    Except String (List NextHop) := do
  let some table := state.routeTables.find? 0 | throw "No node 0"
  match (table.longestMatch destinationIp).bind table.getRoute with
  | some route => pure (if route.isResolved then route.fwd.nhopSet.elems else [])
  | none => pure []

/-- `resolveMirrorNextHopNeighbor`: the neighbor of a resolved next hop (of
the destination itself when it is on the next hop's subnet), if it is on a
physical port other than 0 and, when the mirror's config names an egress
port, on that port. -/
def resolveMirrorNextHopNeighbor (state : SwitchState) (mirror : Mirror)
    (destinationIp : IPAddress) (nexthop : NextHop) : Except String (Option NeighborEntry) := do
  let some mirrorEgressInterface := nexthop.intfID | pure none
  let mirrorNextHopIp ← getIPAddress destinationIp nexthop.addr
  let some interface := state.interfaces.find? mirrorEgressInterface
    | throw "interface == nullptr"
  let some vlan := state.vlans.find? interface.vlanID | throw "vlan == nullptr"
  let neighbor := (vlan.getNeighborEntryTable destinationIp).find?
    (if interface.hasAddress mirrorNextHopIp then destinationIp else mirrorNextHopIp)
  match neighbor with
  | none => pure none
  | some neighbor =>
    match neighbor.port with
    | .aggregate _ => pure none
    | .physical p =>
      if neighbor.zeroPort then pure none
      else if mirror.configHasEgressPort then
        match mirror.egressPort with
        | some egressPort => pure (if p != egressPort then none else some neighbor)
        | none => throw "bad_optional_access"
      else pure (some neighbor)

/-- `resolveMirrorTunnel`: from the interface's MAC and address on the
neighbor's subnet (unless the config gives a source IP) to the neighbor's
MAC; an sFlow tunnel when the mirror has UDP ports. -/
def resolveMirrorTunnel (state : SwitchState) (destinationIp : IPAddress)
    (srcIp : Option IPAddress) (nextHop : NextHop) (neighbor : NeighborEntry)
    (udpPorts : Option TunnelUdpPorts) : Except String MirrorTunnel := do
  let some intf := nextHop.intfID | throw "Unresolved nexthop has no interface"
  let some interface := state.interfaces.find? intf | throw "interface == nullptr"
  let src ← match srcIp with
    | some ip => pure ip
    | none =>
      match interface.getAddressToReach neighbor.ip with
      | some addr => pure addr.1
      | none => throw "end() dereferenced"
  pure (match udpPorts with
    | some ports => MirrorTunnel.sflow src destinationIp interface.mac neighbor.mac ports
    | none => MirrorTunnel.gre src destinationIp interface.mac neighbor.mac)

/-- The loop of `updateMirror` over the next hops: the first one with a
neighbor gives `newMirror` its tunnel and egress port. The source IP is the
mirror's, as `newMirror` was built with it. -/
def resolveNextHops (state : SwitchState) (mirror : Mirror) (destinationIp : IPAddress)
    (newMirror : Mirror) : List NextHop → Except String Mirror
  | [] => pure newMirror
  | nexthop :: nexthops => do
    match ← resolveMirrorNextHopNeighbor state mirror destinationIp nexthop with
    | none => resolveNextHops state mirror destinationIp newMirror nexthops
    | some entry =>
      let egressPort ← entry.port.phyPortID
      let srcIp ← mirror.srcIp.mapM (getIPAddress destinationIp)
      let tunnel ← resolveMirrorTunnel state destinationIp srcIp nexthop entry newMirror.udpPorts
      pure ((newMirror.setMirrorTunnel tunnel).setEgressPort egressPort)

/-- `MirrorManagerImpl::updateMirror`: the mirror rebuilt from the old one's
fields and resolved against the state, or `none` when it is `operator==` to
the old one. -/
def updateMirror (state : SwitchState) (mirror : Mirror) (destinationIp : IPAddress) :
    Except String (Option Mirror) := do
  let nexthops ← resolveMirrorNextHops state destinationIp
  let newMirror := Mirror.make mirror.name mirror.egressPort mirror.destinationIp mirror.srcIp
    mirror.udpPorts mirror.dscp mirror.truncate
  let newMirror ← resolveNextHops state mirror destinationIp newMirror nexthops
  pure (if mirror.beq newMirror then none else some newMirror)

/-- One turn of the loop of `resolveMirrors`: the mirrors so far and whether
one of them changed, after the mirror `entry`. -/
def resolveMirrorsStep (state : SwitchState) (acc : MirrorMap × Bool) (entry : String × Mirror) :
    Except String (MirrorMap × Bool) :=
  match entry.2.destinationIp with
  | none => pure acc
  | some destinationIp => do
    match ← updateMirror state entry.2 destinationIp with
    | some updatedMirror => pure (acc.1.set updatedMirror.name updatedMirror, true)
    | none => pure acc

/-- `MirrorManager::resolveMirrors`: every mirror with a destination IP is
updated; `none` (`nullptr`) when none of them changed. -/
def resolveMirrors (state : SwitchState) : Except String (Option SwitchState) := do
  let res ← state.mirrors.toList.foldlM (resolveMirrorsStep state) (state.mirrors, false)
  pure (if res.2 then some { state with mirrors := res.1 } else none)

/-- One mirror after `resolveMirrors` on a state: the updated mirror, or the
mirror itself when `updateMirror` returns `nullptr` or throws. -/
def resolveMirror (state : SwitchState) (mirror : Mirror) : Mirror :=
  match mirror.destinationIp with
  | none => mirror
  | some destinationIp =>
    match updateMirror state mirror destinationIp with
    | .ok (some updatedMirror) => updatedMirror
    | _ => mirror

/-- The mirrors after the state update that runs `resolveMirrors` on a state
with these mirrors: unchanged when it returns `nullptr` or throws. -/
def resolveStep (mirrors : MirrorMap) (state : SwitchState) : MirrorMap :=
  match resolveMirrors { state with mirrors } with
  | .ok (some newState) => newState.mirrors
  | _ => mirrors

/-- The mirrors after one state update for each state in turn. -/
def resolveRun (mirrors : MirrorMap) (states : List SwitchState) : MirrorMap :=
  Run.run resolveStep mirrors states

/-- A mirror whose config names no egress port is resolved against a state
with its neighbor on port 1, then a state without the neighbor, then a state
with the neighbor on port 2. After the second state it keeps port 1 with
`configHasEgressPort` set, where resolving its config's mirror against that
state gives neither; after the third it is still unresolved, pinned to port
1, where resolving its config's mirror finds the neighbor on port 2. -/
theorem resolveRun_depends_on_history :
    let routes : RouteTableMap := ((RouteUpdater.runBatch FlatMap.empty
      [.addInterfaceAndLinkLocalRoutes [⟨1, 0, [(.v4 0x0a000001#32, 24)]⟩],
       .addRoute 0 (.v4 0x0a010000#32) 16 0
         (.ofNextHops (FlatSet.ofList [UnresolvedNextHop (.v4 0x0a000002#32) 0 none]) 20)]).toOption).getD
      FlatMap.empty
    let arpOn (p : PortID) : NeighborTable := FlatMap.ofList [(.v4 0x0a000002#32,
      ⟨.v4 0x0a000002#32, 0x020000000002#48, .physical p, 1, .REACHABLE, none⟩)]
    let state (arp : NeighborTable) : SwitchState :=
      ⟨routes, FlatMap.ofList [(1, ⟨1, 0x020000000001#48, FlatMap.ofList [(.v4 0x0a000001#32, 24)]⟩)],
        FlatMap.ofList [(1, ⟨arp, FlatMap.empty⟩)], FlatMap.empty⟩
    let mirrors : MirrorMap :=
      FlatMap.ofList [("m", Mirror.make "m" none (some (.v4 0x0a010005#32)) none none 0 false)]
    let view (ms : MirrorMap) : Option (Bool × Option PortID × Bool) :=
      (ms.find? "m").map fun m => (m.configHasEgressPort, m.egressPort, m.resolvedTunnel.isSome)
    view (resolveRun mirrors [state (arpOn 1), state FlatMap.empty]) = some (true, some 1, false) ∧
      view (resolveRun mirrors [state FlatMap.empty]) = some (false, none, false) ∧
      view (resolveRun mirrors [state (arpOn 1), state FlatMap.empty, state (arpOn 2)]) =
        some (true, some 1, false) ∧
      view (resolveRun mirrors [state (arpOn 2)]) = some (false, some 2, true) := by
  decide +kernel

/-! ### Resolving one mirror -/

open Except

section Resolution

variable {state : SwitchState} {mirror : Mirror} {destinationIp : IPAddress}

/-- A neighbor the resolution accepts is on a physical port, the configured
one when the config names one. -/
theorem resolveMirrorNextHopNeighbor_spec (nexthop : NextHop) :
    Spec (fun _ => True) (fun neighbor => ∀ e ∈ neighbor, ∃ p, e.port = .physical p ∧
        (mirror.configHasEgressPort = true → mirror.egressPort = some p))
      (resolveMirrorNextHopNeighbor state mirror destinationIp nexthop) := by
  unfold resolveMirrorNextHopNeighbor
  cases hi : nexthop.intfID with
  | none => simp
  | some intf =>
    refine Spec.bind (spec_true _) fun ip _ => ?_
    split
    · split
      · -- the neighbor of the next hop, or of the destination
        generalize FlatMap.find? (κ := IPAddress) _ _ = neighbor
        rcases neighbor with _ | neighbor
        · simp
        cases hp : neighbor.port with
        | aggregate => simp [hp]
        | physical p =>
          simp only [hp]
          split_ifs with hz hc
          · simp
          · -- the config names an egress port: the neighbor must be on it
            split
            · rename_i egressPort he
              by_cases hpe : p = egressPort
              · subst hpe
                simp [hp, he]
              · simp [hpe]
            · simp
          · simp [hp, hc]
      · simp
    · simp

/-- A tunnel carries the UDP ports it is built with. -/
theorem resolveMirrorTunnel_udpPorts (srcIp : Option IPAddress) (nextHop : NextHop)
    (neighbor : NeighborEntry) (udpPorts : Option TunnelUdpPorts) :
    Spec (fun _ => True) (fun tunnel => tunnel.udpPorts = udpPorts)
      (resolveMirrorTunnel state destinationIp srcIp nextHop neighbor udpPorts) := by
  unfold resolveMirrorTunnel
  -- whichever source address it gets, the tunnel has the given UDP ports
  have htunnel : ∀ (src : IPAddress) (srcMac : MacAddress), (match udpPorts with
      | some ports => MirrorTunnel.sflow src destinationIp srcMac neighbor.mac ports
      | none => MirrorTunnel.gre src destinationIp srcMac neighbor.mac).udpPorts = udpPorts := by
    intro src srcMac
    cases udpPorts <;> rfl
  split
  · split
    · simp only
      split
      · exact htunnel _ _
      · split
        · exact htunnel _ _
        · exact trivial
    · simp
  · simp

/-- What the loop can make of `newMirror`: nothing, or `newMirror` with a
tunnel that has its UDP ports and the egress port of a neighbor, which is the
mirror's own when its config names one. -/
def Resolves (mirror newMirror r : Mirror) : Prop :=
  r = newMirror ∨ ∃ p tunnel, r = (newMirror.setMirrorTunnel tunnel).setEgressPort p ∧
    tunnel.udpPorts = newMirror.udpPorts ∧
    (mirror.configHasEgressPort = true → mirror.egressPort = some p)

theorem resolveNextHops_spec (newMirror : Mirror) :
    ∀ nexthops, Spec (fun _ => True) (Resolves mirror newMirror)
      (resolveNextHops state mirror destinationIp newMirror nexthops)
  | [] => by simp [resolveNextHops, Resolves]
  | nexthop :: nexthops => by
    simp only [resolveNextHops]
    refine Spec.bind (resolveMirrorNextHopNeighbor_spec nexthop) fun neighbor hn => ?_
    rcases neighbor with _ | entry
    · exact resolveNextHops_spec newMirror nexthops
    · obtain ⟨p, hp, hcfg⟩ := hn entry rfl
      simp only [hp, PortDescriptor.phyPortID, pure_bind]
      refine Spec.bind (spec_true _) fun srcIp _ => ?_
      refine Spec.bind (resolveMirrorTunnel_udpPorts _ _ _ _) fun tunnel ht => ?_
      exact Or.inr ⟨p, tunnel, rfl, ht, hcfg⟩

/-- The loop reads the mirror's flag, egress port and source IP only. -/
theorem resolveNextHops_congr {mirror' : Mirror}
    (hflag : mirror.configHasEgressPort = mirror'.configHasEgressPort)
    (hport : mirror.egressPort = mirror'.egressPort) (hsrc : mirror.srcIp = mirror'.srcIp)
    (newMirror : Mirror) (nexthops : List NextHop) :
    resolveNextHops state mirror destinationIp newMirror nexthops =
      resolveNextHops state mirror' destinationIp newMirror nexthops := by
  induction nexthops with
  | nil => rfl
  | cons nexthop nexthops ih =>
    simp only [resolveNextHops, resolveMirrorNextHopNeighbor, hflag, hport, hsrc, ih]

/-- `updateMirror` succeeds when the route lookup and the loop do. -/
theorem updateMirror_eq_ok {res : Option Mirror} :
    updateMirror state mirror destinationIp = .ok res ↔
      ∃ nexthops n, resolveMirrorNextHops state destinationIp = .ok nexthops ∧
        resolveNextHops state mirror destinationIp (Mirror.make mirror.name mirror.egressPort
          mirror.destinationIp mirror.srcIp mirror.udpPorts mirror.dscp mirror.truncate)
          nexthops = .ok n ∧
        res = if mirror.beq n then none else some n := by
  constructor
  · intro h
    simp only [updateMirror, bind, Except.bind] at h
    cases hnh : resolveMirrorNextHops state destinationIp with
    | error e => simp only [hnh] at h; cases h
    | ok nexthops =>
      simp only [hnh] at h
      cases hloop : resolveNextHops state mirror destinationIp (Mirror.make mirror.name
          mirror.egressPort mirror.destinationIp mirror.srcIp mirror.udpPorts mirror.dscp
          mirror.truncate) nexthops with
      | error e => simp only [hloop] at h; cases h
      | ok n =>
        simp only [hloop] at h
        exact ⟨nexthops, n, rfl, hloop, (Except.ok.inj h).symm⟩
  · rintro ⟨nexthops, n, hnh, hloop, rfl⟩
    simp only [updateMirror, bind, Except.bind, hnh, hloop]
    rfl

/-- `updateMirror` returns a new mirror: what the loop made, not
`operator==` to the old one. -/
theorem updateMirror_eq_some {r : Mirror}
    (h : updateMirror state mirror destinationIp = .ok (some r)) :
    ∃ nexthops, resolveMirrorNextHops state destinationIp = .ok nexthops ∧
      resolveNextHops state mirror destinationIp (Mirror.make mirror.name mirror.egressPort
        mirror.destinationIp mirror.srcIp mirror.udpPorts mirror.dscp mirror.truncate)
        nexthops = .ok r ∧
      mirror.beq r = false := by
  obtain ⟨nexthops, n, hnh, hloop, hr⟩ := updateMirror_eq_ok.mp h
  cases hb : mirror.beq n <;> simp [hb] at hr
  subst hr
  exact ⟨nexthops, hnh, hloop, hb⟩

/-- The mirror `updateMirror` returns is rebuilt from the old one: same name,
and `configHasEgressPort` set exactly when the old mirror had an egress port,
whether the config named one or resolution found one. -/
theorem updateMirror_rebuilt {r : Mirror}
    (h : updateMirror state mirror destinationIp = .ok (some r)) :
    r.name = mirror.name ∧ r.configHasEgressPort = mirror.egressPort.isSome := by
  obtain ⟨nexthops, -, hloop, -⟩ := updateMirror_eq_some h
  rcases (resolveNextHops_spec _ nexthops).of_eq_ok hloop with rfl | ⟨p, tunnel, rfl, -, -⟩ <;>
    exact ⟨rfl, rfl⟩

end Resolution

/-! ### A mirror whose config names an egress port -/

section ConfiguredPort

variable {state : SwitchState} {config m : Mirror} {destinationIp : IPAddress}

/-- A mirror made from `config`, after any resolutions: `config` with a
tunnel, if any, that has the config's UDP ports. -/
def Pinned (config m : Mirror) : Prop :=
  ∃ tunnel : Option MirrorTunnel, m = { config with resolvedTunnel := tunnel } ∧
    ∀ t ∈ tunnel, t.udpPorts = config.udpPorts

section

/- `config` is the mirror the constructor makes from a config that names an
egress port. -/
variable (hmake : Mirror.make config.name config.egressPort config.destinationIp config.srcIp
    config.udpPorts config.dscp config.truncate = config)
  (hflag : config.configHasEgressPort = true)

include hmake in
theorem pinned_self : Pinned config config :=
  ⟨none, by rw [← hmake]; rfl, by simp⟩

include hmake in
/-- A pinned mirror is rebuilt as its config's mirror. -/
theorem Pinned.make_eq (hm : Pinned config m) :
    Mirror.make m.name m.egressPort m.destinationIp m.srcIp m.udpPorts m.dscp m.truncate =
      config := by
  obtain ⟨tunnel, rfl, -⟩ := hm
  exact hmake

include hflag in
/-- Resolving the config's mirror for a pinned mirror gives a pinned mirror:
the neighbor is on the configured port, and the tunnel has the config's UDP
ports. -/
theorem Pinned.of_resolves (hm : Pinned config m) (hpin : Pinned config config) {n : Mirror}
    (hn : Resolves m config n) : Pinned config n := by
  obtain ⟨tunnel, rfl, -⟩ := hm
  rcases hn with rfl | ⟨p, t, rfl, hudp, hport⟩
  · exact hpin
  · have hp : config.egressPort = some p := hport hflag
    refine ⟨some t, ?_, by simpa using hudp⟩
    cases config
    simp only at hp ⊢
    simp [Mirror.setMirrorTunnel, Mirror.setEgressPort, hp]

/-- `operator==` is equality on pinned mirrors. -/
theorem Pinned.eq_of_beq (hm : Pinned config m) {n : Mirror} (hn : Pinned config n)
    (h : m.beq n = true) : m = n := by
  obtain ⟨tm, rfl, htm⟩ := hm
  obtain ⟨tn, rfl, htn⟩ := hn
  exact Mirror.eq_of_beq h rfl rfl rfl htm htn

include hmake hflag in
/-- One resolution keeps a mirror pinned. -/
theorem Pinned.resolve (hm : Pinned config m) : Pinned config (resolveMirror state m) := by
  unfold resolveMirror
  split
  · exact hm
  · split
    · rename_i u hu
      obtain ⟨nexthops, -, hloop, -⟩ := updateMirror_eq_some hu
      rw [hm.make_eq hmake] at hloop
      exact hm.of_resolves hflag (pinned_self hmake) ((resolveNextHops_spec _ _).of_eq_ok hloop)
    · exact hm

include hmake hflag in
/-- A pinned mirror and the config's mirror, resolved against a state where
the config's mirror resolves without throwing, end at the same mirror. -/
theorem Pinned.resolveMirror_eq (hm : Pinned config m)
    (hd : config.destinationIp = some destinationIp) {res : Option Mirror}
    (hok : updateMirror state config destinationIp = .ok res) :
    resolveMirror state m = resolveMirror state config := by
  obtain ⟨nexthops, n, hnh, hloop, rfl⟩ := updateMirror_eq_ok.mp hok
  rw [hmake] at hloop
  have hpin := pinned_self hmake
  have hn : Pinned config n :=
    hpin.of_resolves hflag hpin ((resolveNextHops_spec _ _).of_eq_ok hloop)
  -- the pinned mirror's flag, port and source IP are the config's
  have hloop' : resolveNextHops state m destinationIp config nexthops = .ok n := by
    obtain ⟨t, rfl, -⟩ := hm
    exact (@resolveNextHops_congr state { config with resolvedTunnel := t } destinationIp config
      rfl rfl rfl config nexthops).trans hloop
  have hupd : updateMirror state m destinationIp = .ok (if m.beq n then none else some n) :=
    updateMirror_eq_ok.mpr ⟨nexthops, n, hnh, by rw [hm.make_eq hmake]; exact hloop', rfl⟩
  have hdm : m.destinationIp = some destinationIp := by
    obtain ⟨t, rfl, -⟩ := hm
    exact hd
  -- both end at `n`: a pinned mirror `operator==` to it is `n` itself
  have hres : ∀ m', Pinned config m' → m'.destinationIp = some destinationIp →
      updateMirror state m' destinationIp = .ok (if m'.beq n then none else some n) →
      resolveMirror state m' = n := by
    intro m' hm' hd' hu
    cases hb : m'.beq n
    · simp [resolveMirror, hd', hu, hb]
    · simpa [resolveMirror, hd', hu, hb] using hm'.eq_of_beq hn hb
  rw [hres m hm hdm hupd, hres config hpin hd hok]

include hmake hflag in
/-- A mirror whose config names an egress port is resolved the same whatever
states it was resolved against before: after any run from the config's
mirror, resolving against a state gives what resolving the config's mirror
gives, when that does not throw. -/
theorem resolveMirror_history_independent (hd : config.destinationIp = some destinationIp)
    (states : List SwitchState) {res : Option Mirror}
    (hok : updateMirror state config destinationIp = .ok res) :
    resolveMirror state (Run.run (fun m s => resolveMirror s m) config states) =
      resolveMirror state config := by
  have hrun : Pinned config (Run.run (fun m s => resolveMirror s m) config states) :=
    Run.run_invariant (P := fun _ => True) (Pinned config)
      (fun m _ _ hm => hm.resolve hmake hflag) (fun _ _ => trivial) (pinned_self hmake)
  exact hrun.resolveMirror_eq hmake hflag hd hok

/-- The mirror of `resolveRun_depends_on_history` with its config naming port 1:
resolved against the neighbor on port 1, then against no neighbor, it
resolves against the neighbor on port 2 as its config's mirror does. -/
theorem resolveMirror_history_independent_port_one :
    let routes : RouteTableMap := ((RouteUpdater.runBatch FlatMap.empty
      [.addInterfaceAndLinkLocalRoutes [⟨1, 0, [(.v4 0x0a000001#32, 24)]⟩],
       .addRoute 0 (.v4 0x0a010000#32) 16 0
         (.ofNextHops (FlatSet.ofList [UnresolvedNextHop (.v4 0x0a000002#32) 0 none]) 20)]).toOption).getD
      FlatMap.empty
    let arpOn (p : PortID) : NeighborTable := FlatMap.ofList [(.v4 0x0a000002#32,
      ⟨.v4 0x0a000002#32, 0x020000000002#48, .physical p, 1, .REACHABLE, none⟩)]
    let state (arp : NeighborTable) : SwitchState :=
      ⟨routes, FlatMap.ofList [(1, ⟨1, 0x020000000001#48, FlatMap.ofList [(.v4 0x0a000001#32, 24)]⟩)],
        FlatMap.ofList [(1, ⟨arp, FlatMap.empty⟩)], FlatMap.empty⟩
    let config := Mirror.make "m" (some 1) (some (.v4 0x0a010005#32)) none none 0 false
    Mirror.make config.name config.egressPort config.destinationIp config.srcIp config.udpPorts
        config.dscp config.truncate = config ∧ config.configHasEgressPort = true ∧
      config.destinationIp = some (.v4 0x0a010005#32) ∧
      updateMirror (state (arpOn 2)) config (.v4 0x0a010005#32) = .ok none ∧
      resolveMirror (state (arpOn 2))
          (Run.run (fun m s => resolveMirror s m) config [state (arpOn 1), state FlatMap.empty]) =
        resolveMirror (state (arpOn 2)) config := by
  intro routes arpOn state config
  have hok : updateMirror (state (arpOn 2)) config (.v4 0x0a010005#32) = .ok none := by
    simp only [routes, arpOn, state, config]
    decide +kernel
  exact ⟨rfl, rfl, rfl, hok, resolveMirror_history_independent rfl rfl rfl _ hok⟩

end

end ConfiguredPort

/-! ### All the mirrors of a state -/

section AllMirrors

variable {state : SwitchState}

/-- What the loop of `resolveMirrors` has done after the mirrors `vs`: each of
them is resolved in the map, the others are as they were, and when nothing
changed so far the resolutions of `vs` changed nothing. -/
structure LoopInv (state : SwitchState) (vs : List (String × Mirror)) (acc : MirrorMap × Bool) :
    Prop where
  visited : ∀ n ∈ vs.map Prod.fst, acc.1.find? n = (state.mirrors.find? n).map (resolveMirror state)
  unvisited : ∀ n ∉ vs.map Prod.fst, acc.1.find? n = state.mirrors.find? n
  unchanged : acc.2 = false → ∀ n ∈ vs.map Prod.fst,
    (state.mirrors.find? n).map (resolveMirror state) = state.mirrors.find? n

theorem mem_keys_append {vs : List (String × Mirror)} {c : String × Mirror} {n : String} :
    n ∈ (vs ++ [c]).map Prod.fst ↔ n ∈ vs.map Prod.fst ∨ n = c.1 := by
  simp

/-- A turn that leaves the mirror as it is keeps the invariant. -/
theorem LoopInv.keep {vs : List (String × Mirror)} {acc : MirrorMap × Bool}
    (hI : LoopInv state vs acc) {c : String × Mirror} (hc : state.mirrors.find? c.1 = some c.2)
    (hsame : resolveMirror state c.2 = c.2) : LoopInv state (vs ++ [c]) acc := by
  -- the mirror `c` reads the same in the map, visited or not
  have hcmap : acc.1.find? c.1 = some c.2 := by
    by_cases hv : c.1 ∈ vs.map Prod.fst
    · rw [hI.visited _ hv, hc, Option.map_some, hsame]
    · rw [hI.unvisited _ hv, hc]
  refine ⟨fun n hn => ?_, fun n hn => ?_, fun hf n hn => ?_⟩
  · rcases mem_keys_append.mp hn with hn | rfl
    · exact hI.visited n hn
    · rw [hcmap, hc, Option.map_some, hsame]
  · exact hI.unvisited n fun h => hn (mem_keys_append.mpr (.inl h))
  · rcases mem_keys_append.mp hn with hn | rfl
    · exact hI.unchanged hf n hn
    · rw [hc, Option.map_some, hsame]

/-- The invariant holds of the loop of `resolveMirrors`, when the mirrors are
keyed by their names. -/
theorem resolveMirrors_loop (hnames : ∀ n m, state.mirrors.find? n = some m → m.name = n) :
    Spec (fun _ => True) (LoopInv state state.mirrors.toList)
      (state.mirrors.toList.foldlM (resolveMirrorsStep state) (state.mirrors, false)) := by
  refine spec_foldlM_visited (LoopInv state) ⟨by simp, fun _ _ => rfl, by simp⟩ ?_
  intro vs acc hI c hc
  have hfind : state.mirrors.find? c.1 = some c.2 := (FlatMap.mem_toList_iff _ _ _).mp hc
  unfold resolveMirrorsStep
  cases hd : c.2.destinationIp with
  | none => exact hI.keep hfind (by simp [resolveMirror, hd])
  | some d =>
    cases hu : updateMirror state c.2 d with
    | error e => simp only [hu, bind, Except.bind, spec_error]
    | ok res =>
      cases res with
      | none =>
        simp only [hu, bind, Except.bind, spec_pure]
        exact hI.keep hfind (by simp [resolveMirror, hd, hu])
      | some u =>
        simp only [hu, bind, Except.bind, spec_pure]
        -- the updated mirror keeps its name, which is its key
        have hname : u.name = c.1 := (updateMirror_rebuilt hu).1.trans (hnames _ _ hfind)
        have hres : resolveMirror state c.2 = u := by simp [resolveMirror, hd, hu]
        refine ⟨fun n hn => ?_, fun n hn => ?_, by simp⟩
        · rw [hname, FlatMap.find?_set]
          by_cases hnc : n = c.1
          · rw [if_pos hnc, hnc, hfind, Option.map_some, hres]
          · rw [if_neg hnc]
            exact hI.visited n ((mem_keys_append.mp hn).resolve_right hnc)
        · have hnc : n ≠ c.1 := fun h => hn (mem_keys_append.mpr (.inr h))
          rw [hname, FlatMap.find?_set, if_neg hnc]
          exact hI.unvisited n fun h => hn (mem_keys_append.mpr (.inl h))

end AllMirrors

end MirrorManager

end Fboss
