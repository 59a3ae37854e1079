import Fboss.Lib.FlatMap
import Mathlib.Data.String.Basic

/-!
# The ACLs of a config

`ThriftConfigApplier::updateAcls` builds the ACL map of the new switch state.
The DENY ACLs of the config come first, in config order, with priorities from
`kAclStartPriority` on. Then each entry of the CPU traffic policy and of the
data-plane traffic policy names an ACL of the config and an action, and makes
an ACL with that action: a CPU entry takes its priority from 1 on, a
data-plane entry goes on from the DENY ACLs. An entry that names a DENY ACL is
skipped, as that ACL is in already. The entries are added to the map in that
order, and a name already in the map keeps its first entry.

`updateAcl` builds each ACL and compares it with the original ACL of its name:
an equal one is reused, and any other sets the flag `changed`. It counts the
original ACLs it meets, once per entry, and a count that differs from the
number of original ACLs also sets the flag. `updateAcls` returns no map
(`nullptr`) when the flag is not set.

An action's ingress mirror must be a mirror of the new state. The check of
the egress mirror reads the ingress mirror as well, so an undefined egress
mirror is let through. An ACL named twice makes two entries of different
priorities, and the second sets the flag even where the map keeps the first
(`updateAcls_misses_egress_mirror_and_repeats`).

The match fields of an ACL (addresses, ports, protocol and the rest) are the
type parameter `μ` of the config and `ν` of the state: `createAcl` checks
them with `checkAcl` and copies them with `matchFields`.
-/

namespace Fboss

namespace Cfg

/-- `cfg::AclActionType`. -/
inductive AclActionType where
  | DENY
  | PERMIT
  deriving DecidableEq, Repr

/-- `cfg::CounterType`. -/
inductive CounterType where
  | PACKETS
  | BYTES
  deriving DecidableEq, Repr

/-- `cfg::TrafficCounter`. -/
structure TrafficCounter where
  name : String
  types : List CounterType
  deriving DecidableEq, Repr

/-- `cfg::MatchAction`: the queue, the DSCP value, the mirrors and the name
of the counter. -/
structure MatchAction where
  sendToQueue : Option Int
  setDscp : Option Int
  ingressMirror : Option String
  egressMirror : Option String
  counter : Option String
  deriving DecidableEq, Repr

/-- `cfg::MatchToAction`. -/
structure MatchToAction where
  matcher : String
  action : MatchAction
  deriving DecidableEq, Repr

/-- `cfg::TrafficPolicyConfig`. -/
structure TrafficPolicyConfig where
  matchToAction : List MatchToAction
  deriving DecidableEq, Repr

/-- `cfg::CPUTrafficPolicyConfig`. -/
structure CPUTrafficPolicyConfig where
  trafficPolicy : Option TrafficPolicyConfig
  deriving DecidableEq, Repr

/-- `cfg::AclEntry`: the name, the action type and the match fields. -/
structure AclEntry (μ : Type) where
  name : String
  actionType : AclActionType
  matchers : μ
  deriving DecidableEq, Repr

/-- The parts of `cfg::SwitchConfig` that `updateAcls` reads. -/
structure SwitchConfig (μ : Type) where
  acls : List (AclEntry μ)
  trafficCounters : List TrafficCounter
  cpuTrafficPolicy : Option CPUTrafficPolicyConfig
  dataPlaneTrafficPolicy : Option TrafficPolicyConfig

end Cfg

/-- `MatchAction` of the state: the queue with whether the ACL is a CPU one,
the counter, the DSCP value and the mirrors. -/
structure MatchAction where
  sendToQueue : Option (Int × Bool)
  trafficCounter : Option Cfg.TrafficCounter
  setDscp : Option Int
  ingressMirror : Option String
  egressMirror : Option String
  deriving DecidableEq, Repr

/-- `AclEntry`: what `operator==` compares. -/
structure AclEntry (ν : Type) where
  priority : Int
  name : String
  actionType : Cfg.AclActionType
  aclAction : Option MatchAction
  fields : ν
  deriving DecidableEq, Repr

namespace ThriftConfigApplier

def kAclStartPriority : Int := 100000

/-- What `updateAcls` carries from ACL to ACL: the flag and the count of
`updateAcl`, and the next priority of each kind. -/
structure AclsState where
  changed : Bool
  numExistingProcessed : Nat
  priority : Int
  cpuPriority : Int
  deriving DecidableEq, Repr

section

variable {μ ν : Type} [DecidableEq ν] (checkAcl : μ → Except String Unit) (matchFields : μ → ν)

/-- `createAcl(config, priority, action)`. -/
def createAcl (config : Cfg.AclEntry μ) (priority : Int) (action : Option MatchAction) :
    Except String (AclEntry ν) := do
  checkAcl config.matchers
  pure ⟨priority, config.name, config.actionType, action, matchFields config.matchers⟩

/-- `updateAcl(acl, priority, &numExistingProcessed, &changed, action)`. -/
def updateAcl (orig : FlatMap String (AclEntry ν)) (acl : Cfg.AclEntry μ) (priority : Int)
    (action : Option MatchAction) (s : AclsState) : Except String (AclEntry ν × AclsState) := do
  let newAcl ← createAcl checkAcl matchFields acl priority action
  match orig.find? acl.name with
  | some origAcl =>
    if origAcl = newAcl then pure (origAcl, { s with numExistingProcessed := s.numExistingProcessed + 1 })
    else pure (newAcl, { s with changed := true, numExistingProcessed := s.numExistingProcessed + 1 })
  | none => pure (newAcl, { s with changed := true })

/-- The DENY ACLs of the config, in order, each with the next priority. -/
def addDenyAcls (orig : FlatMap String (AclEntry ν)) :
    List (Cfg.AclEntry μ) → FlatMap String (AclEntry ν) → AclsState →
      Except String (FlatMap String (AclEntry ν) × AclsState)
  | [], newAcls, s => pure (newAcls, s)
  | entry :: acls, newAcls, s =>
    if entry.actionType = .DENY then do
      let r ← updateAcl checkAcl matchFields orig entry s.priority none { s with priority := s.priority + 1 }
      addDenyAcls orig acls (newAcls.insert r.1.name r.1) r.2
    else addDenyAcls orig acls newAcls s

end

/-- The action of an entry of a traffic policy; a counter must be one of the
config. -/
def matchActionOf (counterByName : FlatMap String Cfg.TrafficCounter) (action : Cfg.MatchAction)
    (isCoppAcl : Bool) : Except String MatchAction := do
  let counter ← match action.counter with
    | none => pure none
    | some name =>
      match counterByName.find? name with
      | none => throw ("Invalid config: No counter named " ++ name ++ " found.")
      | some counter => pure (some counter)
  pure ⟨action.sendToQueue.map fun q => (q, isCoppAcl), counter, action.setDscp, action.ingressMirror,
    action.egressMirror⟩

/-- A mirror an action names must be a mirror of the new state. -/
def checkMirror (mirrors : List String) : Option String → Except String Unit
  | none => pure ()
  | some m => if m ∈ mirrors then pure () else throw ("Mirror " ++ m ++ " is undefined")

/-- The mirror checks of `addToAcls`: `inMirror` and `egMirror` are both read
with `getIngressMirror()`. -/
def checkMirrors {ν : Type} (mirrors : List String) (acl : AclEntry ν) : Except String Unit :=
  match acl.aclAction with
  | none => pure ()
  | some action => do
    checkMirror mirrors action.ingressMirror
    checkMirror mirrors action.ingressMirror

section

variable {μ ν : Type} [DecidableEq ν] (checkAcl : μ → Except String Unit) (matchFields : μ → ν)

/-- One entry of `addToAcls(policy, isCoppAcl)`: the entries built so far and
the state. -/
def addToAclsStep (orig : FlatMap String (AclEntry ν)) (aclByName : FlatMap String (Cfg.AclEntry μ))
    (counterByName : FlatMap String Cfg.TrafficCounter) (mirrors : List String) (isCoppAcl : Bool)
    (acc : List (String × AclEntry ν) × AclsState) (mta : Cfg.MatchToAction) :
    Except String (List (String × AclEntry ν) × AclsState) :=
  match aclByName.find? mta.matcher with
  | none => throw ("Invalid config: No acl named " ++ mta.matcher ++ " found.")
  | some aclCfg =>
    -- the DENY ACLs are in already
    if aclCfg.actionType = .DENY then pure acc
    else do
      let matchAction ← matchActionOf counterByName mta.action isCoppAcl
      let r ← if isCoppAcl then
          updateAcl checkAcl matchFields orig aclCfg acc.2.cpuPriority (some matchAction)
            { acc.2 with cpuPriority := acc.2.cpuPriority + 1 }
        else
          updateAcl checkAcl matchFields orig aclCfg acc.2.priority (some matchAction)
            { acc.2 with priority := acc.2.priority + 1 }
      checkMirrors mirrors r.1
      pure (acc.1 ++ [(r.1.name, r.1)], r.2)

/-- `addToAcls(policy, isCoppAcl)`: the entries of a traffic policy, in
order. -/
def addToAcls (orig : FlatMap String (AclEntry ν)) (aclByName : FlatMap String (Cfg.AclEntry μ))
    (counterByName : FlatMap String Cfg.TrafficCounter) (mirrors : List String)
    (policy : Cfg.TrafficPolicyConfig) (isCoppAcl : Bool) (s : AclsState) :
    Except String (List (String × AclEntry ν) × AclsState) :=
  policy.matchToAction.foldlM
    (addToAclsStep checkAcl matchFields orig aclByName counterByName mirrors isCoppAcl) ([], s)

/-- `appendTo(newAcls)`: the entries added in order, a name already there
keeping its entry. -/
def appendTo (newAcls : FlatMap String (AclEntry ν)) (entries : List (String × AclEntry ν)) :
    FlatMap String (AclEntry ν) :=
  entries.foldl (fun m e => m.insert e.1 e.2) newAcls

/-- The entries of an optional traffic policy, appended to the map. -/
def addPolicy (orig : FlatMap String (AclEntry ν)) (aclByName : FlatMap String (Cfg.AclEntry μ))
    (counterByName : FlatMap String Cfg.TrafficCounter) (mirrors : List String) (isCoppAcl : Bool) :
    Option Cfg.TrafficPolicyConfig → FlatMap String (AclEntry ν) × AclsState →
      Except String (FlatMap String (AclEntry ν) × AclsState)
  | none, acc => pure acc
  | some policy, acc => do
    let r ← addToAcls checkAcl matchFields orig aclByName counterByName mirrors policy isCoppAcl acc.2
    pure (appendTo acc.1 r.1, r.2)

/-- `updateAcls()` against the original ACL map `orig` and the mirrors of the
new state: the new map, or `none` for `nullptr`. -/
def updateAcls (orig : FlatMap String (AclEntry ν)) (mirrors : List String) (cfg : Cfg.SwitchConfig μ) :
    Except String (Option (FlatMap String (AclEntry ν))) := do
  let r ← addDenyAcls checkAcl matchFields orig cfg.acls FlatMap.empty ⟨false, 0, kAclStartPriority, 1⟩
  let aclByName := FlatMap.ofList (cfg.acls.map fun acl => (acl.name, acl))
  let counterByName := FlatMap.ofList (cfg.trafficCounters.map fun counter => (counter.name, counter))
  let r ← addPolicy checkAcl matchFields orig aclByName counterByName mirrors true
    (cfg.cpuTrafficPolicy.bind Cfg.CPUTrafficPolicyConfig.trafficPolicy) r
  let r ← addPolicy checkAcl matchFields orig aclByName counterByName mirrors false cfg.dataPlaneTrafficPolicy r
  -- some existing ACLs were removed
  if r.2.changed || r.2.numExistingProcessed != orig.size then pure (some r.1) else pure none

end

/-- With no mirror in the new state, a data-plane entry of a permitting ACL
`acl1` (no match fields) that mirrors to `mirror1` on ingress throws, and one
that mirrors to it on egress does not. And with `acl1` in the original map as
that entry makes it, a data-plane policy that names `acl1` twice with that
action makes a map equal to the original, and returns it in place of
`nullptr`. -/
theorem updateAcls_misses_egress_mirror_and_repeats :
    updateAcls (fun _ => pure ()) id FlatMap.empty []
        ⟨[⟨"acl1", .PERMIT, ()⟩], [], none, some ⟨[⟨"acl1", ⟨none, none, some "mirror1", none, none⟩⟩]⟩⟩ =
        .error "Mirror mirror1 is undefined" ∧
      updateAcls (fun _ => pure ()) id FlatMap.empty []
          ⟨[⟨"acl1", .PERMIT, ()⟩], [], none, some ⟨[⟨"acl1", ⟨none, none, none, some "mirror1", none⟩⟩]⟩⟩ =
        .ok (some (FlatMap.empty.insert "acl1"
          ⟨kAclStartPriority, "acl1", .PERMIT, some ⟨none, none, none, none, some "mirror1"⟩, ()⟩)) ∧
      updateAcls (fun _ => pure ()) id
          (FlatMap.empty.insert "acl1"
            ⟨kAclStartPriority, "acl1", .PERMIT, some ⟨none, none, none, none, some "mirror1"⟩, ()⟩)
          ["mirror1"]
          ⟨[⟨"acl1", .PERMIT, ()⟩], [], none,
            some ⟨[⟨"acl1", ⟨none, none, none, some "mirror1", none⟩⟩,
              ⟨"acl1", ⟨none, none, none, some "mirror1", none⟩⟩]⟩⟩ =
        .ok (some (FlatMap.empty.insert "acl1"
          ⟨kAclStartPriority, "acl1", .PERMIT, some ⟨none, none, none, none, some "mirror1"⟩, ()⟩)) := by
  refine ⟨?_, ?_, ?_⟩ <;> decide

end ThriftConfigApplier

end Fboss
