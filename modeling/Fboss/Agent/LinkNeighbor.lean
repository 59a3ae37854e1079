import Fboss.Packet.EthHdr

/-!
# LLDP and CDP neighbors

`LinkNeighbor::parseLldpPdu` reads the TLVs of an LLDP frame after its
Ethernet header: each TLV has a 16-bit header, a 7-bit type above a 9-bit
length, and the loop stops at the first `END` TLV. The chassis and port TLVs
start with a subtype byte, the TTL TLV holds two bytes and the capabilities
TLV four; a TLV of another length, or one longer than what is left, throws,
and the parse returns false. It also returns false when the chassis, port or
TTL TLV is missing.

`parseCdpPdu` reads a CDP frame: an LLC/SNAP header, the version, the TTL and
a checksum, then TLVs with a 16-bit type and a 16-bit length that counts the
TLV's own header, up to the end of the frame.

Every TLV read takes at least its two bytes of header
(`parseLldpTlv_totalLength`), so the TLV loop ends (`LldpScan.reads_step`);
what it reads of TLVs that `LldpManager` writes is in `LldpManager.lean`. The
readers of the values are specified on a value that is there
(`parseLldpChassis_of_remaining` and the like). The CDP parser sets the
neighbor's source MAC from its own value instead of the frame's source
(`srcMac_ = srcMac_`), so it never records the source MAC
(`parseCdpPdu_srcMac`).

A parse that throws returns false, and `LldpManager::handlePacket` drops the
neighbor then: the model returns the neighbor as the TLV loop found it, not
with the fields of the TLVs read before the exception.
-/

namespace Fboss

/-- `LinkProtocol`. -/
inductive LinkProtocol where
  | UNKNOWN
  | LLDP
  | CDP
  deriving DecidableEq, Repr

/-- `LldpChassisIdType::MAC_ADDRESS`. -/
def LldpChassisIdType.MAC_ADDRESS : UInt8 := 4

/-- `LldpPortIdType::INTERFACE_NAME`. -/
def LldpPortIdType.INTERFACE_NAME : UInt8 := 5

/-- `ETHERTYPE_LLDP`. -/
def ETHERTYPE_LLDP : UInt16 := 0x88cc

/-- A neighbor as `LinkNeighbor` records it. The chassis and port ID types are
the subtype bytes of their TLVs, the strings their bytes, and the TTL is in
seconds. -/
structure LinkNeighbor where
  protocol : LinkProtocol
  localPort : PortID
  localVlan : VlanID
  srcMac : MacAddress
  chassisIdType : UInt8
  portIdType : UInt8
  capabilities : UInt16
  enabledCapabilities : UInt16
  chassisId : List UInt8
  portId : List UInt8
  systemName : List UInt8
  portDescription : List UInt8
  systemDescription : List UInt8
  receivedTTL : Nat
  deriving DecidableEq, Repr

namespace LinkNeighbor

/-- `LinkNeighbor()`: every field zero or empty, the protocol `UNKNOWN`. -/
def create : LinkNeighbor :=
  ⟨.UNKNOWN, 0, 0, 0, 0, 0, 0, 0, [], [], [], [], [], 0⟩

/-- `setTTL(seconds)`. -/
def setTTL (n : LinkNeighbor) (seconds : Nat) : LinkNeighbor :=
  { n with receivedTTL := seconds }

/-! ### LLDP -/

/-- `parseLldpChassis(cursor, length)`. -/
def parseLldpChassis (n : LinkNeighbor) (c : Folly.Cursor) (length : Nat) :
    Except String (LinkNeighbor × Folly.Cursor) :=
  if length < 1 then .error "LLDP chassis length must be at least 1"
  else do
    let (chassisIdType, c) ← c.read8
    let (chassisId, c) ← c.pull (length - 1)
    pure ({ n with chassisIdType, chassisId }, c)

/-- `parseLldpPortId(cursor, length)`. -/
def parseLldpPortId (n : LinkNeighbor) (c : Folly.Cursor) (length : Nat) :
    Except String (LinkNeighbor × Folly.Cursor) :=
  if length < 1 then .error "LLDP port length must be at least 1"
  else do
    let (portIdType, c) ← c.read8
    let (portId, c) ← c.pull (length - 1)
    pure ({ n with portIdType, portId }, c)

/-- `parseLldpTtl(cursor, length)`. -/
def parseLldpTtl (n : LinkNeighbor) (c : Folly.Cursor) (length : Nat) :
    Except String (LinkNeighbor × Folly.Cursor) :=
  if length ≠ 2 then .error "LLDP TTL length must be 2"
  else do
    let (ttl, c) ← c.readBE16
    pure (n.setTTL ttl.toNat, c)

/-- `parseLldpSystemCaps(cursor, length)`. -/
def parseLldpSystemCaps (n : LinkNeighbor) (c : Folly.Cursor) (length : Nat) :
    Except String (LinkNeighbor × Folly.Cursor) :=
  if length ≠ 4 then .error "LLDP capabilities length must be 4"
  else do
    let (capabilities, c) ← c.readBE16
    let (enabledCapabilities, c) ← c.readBE16
    pure ({ n with capabilities, enabledCapabilities }, c)

/-- The type of a TLV header: its top 7 bits. -/
def tlvType (word : UInt16) : UInt8 :=
  (word >>> 9).toUInt8

/-- The length of a TLV header: its low 9 bits. -/
def tlvLength (word : UInt16) : Nat :=
  (word &&& 0x01ff).toNat

/-! What the readers of a value return when the value is there. -/

theorem parseLldpChassis_of_remaining (n : LinkNeighbor) {c : Folly.Cursor} {b : UInt8}
    {bs rest : List UInt8} (h : c.remaining = b :: bs ++ rest) :
    ∃ c', n.parseLldpChassis c (bs.length + 1) =
      .ok ({ n with chassisIdType := b, chassisId := bs }, c') ∧ c'.remaining = rest := by
  obtain ⟨c1, h1, hr1⟩ := Folly.Cursor.read8_of_remaining h
  obtain ⟨c2, h2, hr2⟩ := Folly.Cursor.pull_of_remaining hr1
  exact ⟨c2, by simp [parseLldpChassis, h1, h2], hr2⟩

theorem parseLldpPortId_of_remaining (n : LinkNeighbor) {c : Folly.Cursor} {b : UInt8}
    {bs rest : List UInt8} (h : c.remaining = b :: bs ++ rest) :
    ∃ c', n.parseLldpPortId c (bs.length + 1) =
      .ok ({ n with portIdType := b, portId := bs }, c') ∧ c'.remaining = rest := by
  obtain ⟨c1, h1, hr1⟩ := Folly.Cursor.read8_of_remaining h
  obtain ⟨c2, h2, hr2⟩ := Folly.Cursor.pull_of_remaining hr1
  exact ⟨c2, by simp [parseLldpPortId, h1, h2], hr2⟩

theorem parseLldpTtl_of_remaining (n : LinkNeighbor) {c : Folly.Cursor} {hi lo : UInt8}
    {rest : List UInt8} (h : c.remaining = hi :: lo :: rest) :
    ∃ c', n.parseLldpTtl c 2 = .ok (n.setTTL (Bytes.ofBE16 hi lo).toNat, c') ∧ c'.remaining = rest := by
  obtain ⟨c1, h1, hr1⟩ := Folly.Cursor.readBE16_of_remaining h
  exact ⟨c1, by simp [parseLldpTtl, h1], hr1⟩

theorem parseLldpSystemCaps_of_remaining (n : LinkNeighbor) {c : Folly.Cursor} {b0 b1 b2 b3 : UInt8}
    {rest : List UInt8} (h : c.remaining = b0 :: b1 :: b2 :: b3 :: rest) :
    ∃ c', n.parseLldpSystemCaps c 4 =
      .ok ({ n with capabilities := Bytes.ofBE16 b0 b1, enabledCapabilities := Bytes.ofBE16 b2 b3 }, c') ∧
        c'.remaining = rest := by
  obtain ⟨c1, h1, hr1⟩ := Folly.Cursor.readBE16_of_remaining h
  obtain ⟨c2, h2, hr2⟩ := Folly.Cursor.readBE16_of_remaining hr1
  exact ⟨c2, by simp [parseLldpSystemCaps, h1, h2], hr2⟩

/-- `parseLldpTlv(cursor)`: one TLV, and its type. The types other than those
read are skipped. -/
def parseLldpTlv (n : LinkNeighbor) (c : Folly.Cursor) :
    Except String ((UInt8 × LinkNeighbor) × Folly.Cursor) := do
  let (word, c) ← c.readBE16
  let type := tlvType word
  let length := tlvLength word
  let (n, c) ← match type with
    | 0 => pure (n, c)
    | 1 => n.parseLldpChassis c length
    | 2 => n.parseLldpPortId c length
    | 3 => n.parseLldpTtl c length
    | 4 => do
      let (portDescription, c) ← c.pull length
      pure ({ n with portDescription }, c)
    | 5 => do
      let (systemName, c) ← c.pull length
      pure ({ n with systemName }, c)
    | 6 => do
      let (systemDescription, c) ← c.pull length
      pure ({ n with systemDescription }, c)
    | 7 => n.parseLldpSystemCaps c length
    | _ => do
      let c ← c.skip length
      pure (n, c)
  pure ((type, n), c)

/-! Each TLV read leaves fewer bytes, so the loop over them ends. -/

theorem parseLldpChassis_totalLength (n : LinkNeighbor) (c : Folly.Cursor) (length : Nat) :
    Except.Spec (fun _ => True) (fun r => r.2.totalLength ≤ c.totalLength) (n.parseLldpChassis c length) := by
  unfold parseLldpChassis
  split_ifs
  · trivial
  refine (Folly.Cursor.read8_totalLength c).bind fun r hr => ?_
  obtain ⟨_, c1⟩ := r
  refine (Folly.Cursor.pull_totalLength _ c1).bind fun r hr' => ?_
  obtain ⟨_, c2⟩ := r
  simp only [Except.spec_pure] at hr hr' ⊢
  omega

theorem parseLldpPortId_totalLength (n : LinkNeighbor) (c : Folly.Cursor) (length : Nat) :
    Except.Spec (fun _ => True) (fun r => r.2.totalLength ≤ c.totalLength) (n.parseLldpPortId c length) := by
  unfold parseLldpPortId
  split_ifs
  · trivial
  refine (Folly.Cursor.read8_totalLength c).bind fun r hr => ?_
  obtain ⟨_, c1⟩ := r
  refine (Folly.Cursor.pull_totalLength _ c1).bind fun r hr' => ?_
  obtain ⟨_, c2⟩ := r
  simp only [Except.spec_pure] at hr hr' ⊢
  omega

theorem parseLldpTtl_totalLength (n : LinkNeighbor) (c : Folly.Cursor) (length : Nat) :
    Except.Spec (fun _ => True) (fun r => r.2.totalLength ≤ c.totalLength) (n.parseLldpTtl c length) := by
  unfold parseLldpTtl
  split_ifs
  · trivial
  refine (Folly.Cursor.readBE16_totalLength c).bind fun r hr => ?_
  obtain ⟨_, c1⟩ := r
  simp only [Except.spec_pure] at hr ⊢
  omega

theorem parseLldpSystemCaps_totalLength (n : LinkNeighbor) (c : Folly.Cursor) (length : Nat) :
    Except.Spec (fun _ => True) (fun r => r.2.totalLength ≤ c.totalLength)
      (n.parseLldpSystemCaps c length) := by
  unfold parseLldpSystemCaps
  split_ifs
  · trivial
  refine (Folly.Cursor.readBE16_totalLength c).bind fun r hr => ?_
  obtain ⟨_, c1⟩ := r
  refine (Folly.Cursor.readBE16_totalLength c1).bind fun r hr' => ?_
  obtain ⟨_, c2⟩ := r
  simp only [Except.spec_pure] at hr hr' ⊢
  omega

/-- A TLV read takes at least its two bytes of header. -/
theorem parseLldpTlv_totalLength (n : LinkNeighbor) (c : Folly.Cursor) :
    Except.Spec (fun _ => True) (fun r => r.2.totalLength < c.totalLength) (n.parseLldpTlv c) := by
  unfold parseLldpTlv
  refine (Folly.Cursor.readBE16_totalLength c).bind fun r hr => ?_
  obtain ⟨word, c1⟩ := r
  dsimp only at hr ⊢
  -- whatever the type, the value's reads leave no more than the header did
  have hvalue : ∀ r : LinkNeighbor × Folly.Cursor, r.2.totalLength ≤ c1.totalLength →
      Except.Spec (fun _ => True) (fun r => r.2.totalLength < c.totalLength)
        (pure ((tlvType word, r.1), r.2) : Except String _) := by
    intro r hr'
    simp only [Except.spec_pure]
    omega
  split
  case h_1 => exact hvalue (n, c1) (le_refl _)
  case h_2 => exact (n.parseLldpChassis_totalLength c1 _).bind hvalue
  case h_3 => exact (n.parseLldpPortId_totalLength c1 _).bind hvalue
  case h_4 => exact (n.parseLldpTtl_totalLength c1 _).bind hvalue
  case h_8 => exact (n.parseLldpSystemCaps_totalLength c1 _).bind hvalue
  case h_5 | h_6 | h_7 =>
    refine (Folly.Cursor.pull_totalLength _ c1).bind fun r hr' => ?_
    exact hvalue _ (by dsimp only at hr' ⊢; omega)
  case h_9 =>
    refine (Folly.Cursor.skip_totalLength _ c1).bind fun c2 hr' => ?_
    exact hvalue _ (by dsimp only at hr' ⊢; omega)

end LinkNeighbor

/-- The state of the TLV loop of `parseLldpPdu`: the neighbor, whether the
chassis, port and TTL TLVs were seen, and whether the `END` TLV was. -/
structure LldpScan where
  neighbor : LinkNeighbor
  chassisIdPresent : Bool
  portIdPresent : Bool
  ttlPresent : Bool
  done : Bool
  deriving DecidableEq, Repr

namespace LldpScan

/-- One turn of the loop: a TLV, and what its type says. -/
def step (s : LldpScan) (c : Folly.Cursor) : Except String (LldpScan × Folly.Cursor) :=
  (s.neighbor.parseLldpTlv c).map fun r =>
    let (type, neighbor) := r.1
    ({ neighbor,
       chassisIdPresent := s.chassisIdPresent || type == 1,
       portIdPresent := s.portIdPresent || type == 2,
       ttlPresent := s.ttlPresent || type == 3,
       done := type == 0 }, r.2)

/-- Each turn of the loop reads a TLV header at least. -/
theorem reads_step : Folly.Cursor.Reads step := by
  intro s c r hr
  have hspec : Except.Spec (fun _ => True) (fun r : LldpScan × Folly.Cursor => r.2.totalLength < c.totalLength)
      (s.step c) :=
    (s.neighbor.parseLldpTlv_totalLength c).map fun _ h => h
  exact hspec.of_eq_ok hr

end LldpScan

namespace LinkNeighbor

/-- `parseLldpPdu(srcPort, vlan, srcMac, ethertype, cursor)`. -/
def parseLldpPdu (n : LinkNeighbor) (srcPort : PortID) (vlan : VlanID) (srcMac : MacAddress)
    (ethertype : UInt16) (c : Folly.Cursor) : Bool × LinkNeighbor :=
  if ethertype ≠ ETHERTYPE_LLDP then (false, n)
  else
    let n := { n with protocol := .LLDP, localPort := srcPort, localVlan := vlan, srcMac }
    match Folly.Cursor.whileLoop (fun s _ => !s.done) LldpScan.step ⟨n, false, false, false, false⟩ c with
    | .error _ => (false, n)
    | .ok (s, _) => (s.chassisIdPresent && s.portIdPresent && s.ttlPresent, s.neighbor)

/-! ### CDP -/

/-- `CdpTlvType::DEVICE_ID`, `PORT_ID` and `SYSTEM_NAME`. -/
def CDP_DEVICE_ID : UInt16 := 1
def CDP_PORT_ID : UInt16 := 3
def CDP_SYSTEM_NAME : UInt16 := 20

end LinkNeighbor

/-- The state of the TLV loop of `parseCdpPayload`: the neighbor, whether the
device and port TLVs were seen, and whether a TLV was too short, which ends
the parse. -/
structure CdpScan where
  neighbor : LinkNeighbor
  chassisIdPresent : Bool
  portIdPresent : Bool
  tooShort : Bool
  deriving DecidableEq, Repr

namespace CdpScan

/-- One turn of the loop of `parseCdpPayload`. -/
def step (s : CdpScan) (c : Folly.Cursor) : Except String (CdpScan × Folly.Cursor) := do
  let (type, c) ← c.readBE16
  let (length, c) ← c.readBE16
  if length < 4 then pure ({ s with tooShort := true }, c)
  else
    let length := length.toNat - 4
    if type = LinkNeighbor.CDP_DEVICE_ID then do
      let (chassisId, c) ← c.pull length
      pure ({ s with neighbor := { s.neighbor with chassisId }, chassisIdPresent := true }, c)
    else if type = LinkNeighbor.CDP_PORT_ID then do
      let (portId, c) ← c.pull length
      pure ({ s with neighbor := { s.neighbor with portId }, portIdPresent := true }, c)
    else if type = LinkNeighbor.CDP_SYSTEM_NAME then do
      let (systemName, c) ← c.pull length
      pure ({ s with neighbor := { s.neighbor with systemName } }, c)
    else do
      let c ← c.skip length
      pure (s, c)

end CdpScan

namespace LinkNeighbor

/-- `parseCdpPayload(srcPort, srcMac, cursor)`: the TLVs up to the end of the
frame. -/
def parseCdpPayload (n : LinkNeighbor) (c : Folly.Cursor) : Except String (Bool × LinkNeighbor) :=
  (Folly.Cursor.whileLoop (fun s c => !s.tooShort && !c.isAtEnd) CdpScan.step ⟨n, false, false, false⟩ c).map
    fun r => (!r.1.tooShort && r.1.chassisIdPresent && r.1.portIdPresent, r.1.neighbor)

/-- The `try` block of `parseCdpPdu`: the LLC/SNAP header, the version, the
TTL and the checksum, then the payload. -/
def parseCdpFrame (n : LinkNeighbor) (c : Folly.Cursor) : Except String (Bool × LinkNeighbor) := do
  let (dsap, c) ← c.read8
  let (ssap, c) ← c.read8
  if dsap ≠ 0xaa ∨ ssap ≠ 0xaa then pure (false, n)
  else do
    let c ← c.skip 6
    let (cdpVersion, c) ← c.read8
    if cdpVersion ≠ 2 then pure (false, n)
    else do
      let (ttl, c) ← c.read8
      let n := n.setTTL ttl.toNat
      let (_checksum, c) ← c.readBE16
      n.parseCdpPayload c

/-- `parseCdpPdu(srcPort, vlan, srcMac, ethertype, cursor)`. The source MAC is
set from the neighbor's own (`srcMac_ = srcMac_`). -/
def parseCdpPdu (n : LinkNeighbor) (srcPort : PortID) (vlan : VlanID) (_srcMac : MacAddress)
    (ethertype : UInt16) (c : Folly.Cursor) : Bool × LinkNeighbor :=
  if ethertype ≥ 0x600 then (false, n)
  else
    let n := { n with protocol := .CDP, localPort := srcPort, localVlan := vlan, srcMac := n.srcMac }
    match n.parseCdpFrame c with
    | .ok r => r
    | .error _ => (false, n)

end LinkNeighbor

/-! ### The CDP parser does not record the source MAC -/

namespace CdpScan

/-- A turn of the CDP loop keeps the neighbor's source MAC. -/
theorem step_srcMac (s : CdpScan) (c : Folly.Cursor) :
    Except.Spec (fun _ => True) (fun r => r.1.neighbor.srcMac = s.neighbor.srcMac) (s.step c) := by
  unfold step
  refine (Except.spec_true _).bind fun r _ => ?_
  obtain ⟨type, c⟩ := r
  refine (Except.spec_true _).bind fun r _ => ?_
  obtain ⟨length, c⟩ := r
  dsimp only
  -- every branch sets the device, port or system name, or nothing
  split_ifs
  · rfl
  all_goals
    refine (Except.spec_true _).bind fun r _ => ?_
    obtain ⟨_, _⟩ := r
    rfl

end CdpScan

namespace LinkNeighbor

/-- The CDP payload keeps the neighbor's source MAC. -/
theorem parseCdpPayload_srcMac (n : LinkNeighbor) (c : Folly.Cursor) :
    Except.Spec (fun _ => True) (fun r => r.2.srcMac = n.srcMac) (n.parseCdpPayload c) := by
  unfold parseCdpPayload
  refine (Folly.Cursor.whileLoop_invariant (fun s : CdpScan => s.neighbor.srcMac = n.srcMac)
    (fun s c hs => (s.step_srcMac c).mono fun r hr => hr.trans hs) rfl c).map fun r hr => hr

/-- The frame after the ethertype keeps the neighbor's source MAC. -/
theorem parseCdpFrame_srcMac (n : LinkNeighbor) (c : Folly.Cursor) :
    Except.Spec (fun _ => True) (fun r => r.2.srcMac = n.srcMac) (n.parseCdpFrame c) := by
  unfold parseCdpFrame
  refine (Except.spec_true _).bind fun r _ => ?_
  obtain ⟨dsap, c⟩ := r
  refine (Except.spec_true _).bind fun r _ => ?_
  obtain ⟨ssap, c⟩ := r
  dsimp only
  split_ifs
  · rfl
  refine (Except.spec_true _).bind fun c _ => (Except.spec_true _).bind fun r _ => ?_
  obtain ⟨cdpVersion, c⟩ := r
  dsimp only
  split_ifs
  · rfl
  refine (Except.spec_true _).bind fun r _ => ?_
  obtain ⟨ttl, c⟩ := r
  refine (Except.spec_true _).bind fun r _ => ?_
  obtain ⟨_, c⟩ := r
  exact parseCdpPayload_srcMac _ c

/-- Whatever the frame and its source MAC, `parseCdpPdu` leaves the neighbor's
source MAC as it was. -/
theorem parseCdpPdu_srcMac (n : LinkNeighbor) (srcPort : PortID) (vlan : VlanID) (srcMac : MacAddress)
    (ethertype : UInt16) (c : Folly.Cursor) :
    (n.parseCdpPdu srcPort vlan srcMac ethertype c).2.srcMac = n.srcMac := by
  unfold parseCdpPdu
  split_ifs
  · rfl
  · dsimp only
    have hframe := parseCdpFrame_srcMac
      { n with protocol := .CDP, localPort := srcPort, localVlan := vlan, srcMac := n.srcMac } c
    split
    · rename_i r hr
      rw [hr] at hframe
      exact hframe
    · rfl

/-- A CDP frame of 22 bytes from `0a:0b:0c:0d:0e:0f`: the LLC/SNAP header
`AA AA 03 00 00 0C 20 00`, version 2, TTL 180, a checksum, a device TLV of
value `A` and a port TLV of value `B`. The parse accepts it and records the
port, the VLAN, the TTL, the device and the port, but the source MAC stays
the new neighbor's `00:00:00:00:00:00`. -/
theorem cdp_accepts_without_source_mac :
    LinkNeighbor.create.parseCdpPdu 1 1 0x0a0b0c0d0e0f 22
        (Folly.Cursor.ofBytes [0xaa, 0xaa, 0x03, 0x00, 0x00, 0x0c, 0x20, 0x00, 2, 180, 0, 0,
          0, 1, 0, 5, 0x41, 0, 3, 0, 5, 0x42]) =
      (true,
        { LinkNeighbor.create with
          protocol := .CDP, localPort := 1, localVlan := 1, receivedTTL := 180,
          chassisId := [0x41], portId := [0x42] }) := by
  decide +kernel

end LinkNeighbor

end Fboss
