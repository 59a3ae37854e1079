import Mathlib.Data.String.Basic
import Fboss.State.Neighbor

/-!
# Mirrors

A mirror (`state/Mirror.h`) copies packets to a port (SPAN) or, when it has a
destination IP, through a tunnel to a remote collector: ERSPAN over GRE, or
sFlow over UDP when the config gives UDP ports. The config gives its name, an
optional egress port, the destination and source IPs, the UDP ports, the DSCP
mark and whether to truncate; resolution fills in the tunnel and the egress
port. The constructor (`MirrorFields`) sets `configHasEgressPort` whenever it
is given an egress port, whatever that port came from.

`operator==` is not equality of the fields: the egress ports are compared
only when the two `configHasEgressPort` flags differ, the UDP ports of the
mirrors are not compared, and tunnels are compared without their UDP ports.
`eq_of_beq` says what it does give.
-/

namespace Fboss

/-- `TunnelUdpPorts`. -/
structure TunnelUdpPorts where
  udpSrcPort : UInt32
  udpDstPort : UInt32
  deriving DecidableEq, Repr

/-- `MirrorTunnel`. -/
structure MirrorTunnel where
  srcIp : IPAddress
  dstIp : IPAddress
  srcMac : MacAddress
  dstMac : MacAddress
  udpPorts : Option TunnelUdpPorts
  ttl : UInt8
  greProtocol : UInt16
  deriving DecidableEq, Repr

namespace MirrorTunnel

def kTTL : UInt8 := 255

def kGreProto : UInt16 := 0x88be

/-- The constructor of a GRE tunnel. -/
def gre (srcIp dstIp : IPAddress) (srcMac dstMac : MacAddress) : MirrorTunnel :=
  ⟨srcIp, dstIp, srcMac, dstMac, none, kTTL, kGreProto⟩

/-- The constructor of an sFlow tunnel: UDP, with no GRE protocol. -/
def sflow (srcIp dstIp : IPAddress) (srcMac dstMac : MacAddress)
    (sflowPorts : TunnelUdpPorts) : MirrorTunnel :=
  ⟨srcIp, dstIp, srcMac, dstMac, some sflowPorts, kTTL, 0⟩

/-- `operator==`: every field but the UDP ports. -/
def beq (t rhs : MirrorTunnel) : Bool :=
  t.srcIp == rhs.srcIp && t.dstIp == rhs.dstIp && t.srcMac == rhs.srcMac &&
    t.dstMac == rhs.dstMac && t.ttl == rhs.ttl && t.greProtocol == rhs.greProtocol

theorem eq_of_beq {t t' : MirrorTunnel} (h : t.beq t' = true) (hu : t.udpPorts = t'.udpPorts) :
    t = t' := by
  obtain ⟨s, d, sm, dm, u, ttl, g⟩ := t
  obtain ⟨s', d', sm', dm', u', ttl', g'⟩ := t'
  simp only [beq, Bool.and_eq_true, beq_iff_eq] at h
  obtain ⟨⟨⟨⟨⟨rfl, rfl⟩, rfl⟩, rfl⟩, rfl⟩, rfl⟩ := h
  simp only at hu
  rw [hu]

end MirrorTunnel

/-- `std::optional<MirrorTunnel>::operator==`. -/
def optionTunnelBeq : Option MirrorTunnel → Option MirrorTunnel → Bool
  | none, none => true
  | some t, some t' => t.beq t'
  | _, _ => false

/-- `MirrorFields`: the node of a mirror. -/
structure Mirror where
  name : String
  egressPort : Option PortID
  destinationIp : Option IPAddress
  srcIp : Option IPAddress
  udpPorts : Option TunnelUdpPorts
  dscp : UInt8
  truncate : Bool
  resolvedTunnel : Option MirrorTunnel
  configHasEgressPort : Bool
  deriving DecidableEq, Repr

namespace Mirror

/-- `Mirror(name, egressPort, destinationIp, srcIp, udpPorts, dscp,
truncate)`: no tunnel, and `configHasEgressPort` set when an egress port is
given. -/
def make (name : String) (egressPort : Option PortID) (destinationIp srcIp : Option IPAddress)
    (udpPorts : Option TunnelUdpPorts) (dscp : UInt8) (truncate : Bool) : Mirror :=
  ⟨name, egressPort, destinationIp, srcIp, udpPorts, dscp, truncate, none, egressPort.isSome⟩

def setEgressPort (m : Mirror) (egressPort : PortID) : Mirror :=
  { m with egressPort := some egressPort }

def setMirrorTunnel (m : Mirror) (tunnel : MirrorTunnel) : Mirror :=
  { m with resolvedTunnel := some tunnel }

/-- `operator==`. -/
def beq (m rhs : Mirror) : Bool :=
  m.name == rhs.name &&
    (m.configHasEgressPort == rhs.configHasEgressPort || m.egressPort == rhs.egressPort) &&
    m.destinationIp == rhs.destinationIp && m.srcIp == rhs.srcIp &&
    optionTunnelBeq m.resolvedTunnel rhs.resolvedTunnel && m.dscp == rhs.dscp &&
    m.truncate == rhs.truncate

/-- `isResolved`: a mirror with a destination IP is resolved once it has a
tunnel. -/
def isResolved (m : Mirror) : Bool :=
  m.resolvedTunnel.isSome || m.destinationIp.isNone

/-- `operator==` is equality for two mirrors with the same flag, egress port
and UDP ports, whose tunnels carry those UDP ports. -/
theorem eq_of_beq {m m' : Mirror} (h : m.beq m' = true)
    (hflag : m.configHasEgressPort = m'.configHasEgressPort) (hport : m.egressPort = m'.egressPort)
    (hudp : m.udpPorts = m'.udpPorts)
    (ht : ∀ t ∈ m.resolvedTunnel, t.udpPorts = m.udpPorts)
    (ht' : ∀ t ∈ m'.resolvedTunnel, t.udpPorts = m'.udpPorts) : m = m' := by
  obtain ⟨n, e, d, s, u, dscp, tr, rt, c⟩ := m
  obtain ⟨n', e', d', s', u', dscp', tr', rt', c'⟩ := m'
  simp only at hflag hport hudp ht ht'
  subst hflag hport hudp
  simp only [beq, Bool.and_eq_true, beq_iff_eq] at h
  obtain ⟨⟨⟨⟨⟨⟨rfl, -⟩, rfl⟩, rfl⟩, htun⟩, rfl⟩, rfl⟩ := h
  -- the tunnels: both absent, or equal up to their UDP ports, which agree
  have hrt : rt = rt' := by
    cases rt with
    | none => cases rt' <;> simp_all [optionTunnelBeq]
    | some t =>
      cases rt' with
      | none => simp [optionTunnelBeq] at htun
      | some t' =>
        rw [MirrorTunnel.eq_of_beq htun (by rw [ht t rfl, ht' t' rfl])]
  rw [hrt]

end Mirror

/-- `MirrorMap`: the mirrors by name. -/
abbrev MirrorMap := FlatMap String Mirror

end Fboss
