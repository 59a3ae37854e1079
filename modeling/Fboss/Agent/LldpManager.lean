import Fboss.Agent.LinkNeighbor

/-!
# LLDP frames: what is sent and what is read back

`LldpManager::createLldpPkt` allocates a frame of `LldpPktSize(...)` bytes and
writes into it an Ethernet header with one 802.1Q tag, then the LLDP TLVs:
chassis (the MAC), port (the port name), TTL, system name (when the host name
is not empty), port description, system description (`FBOSS`) and
capabilities, and the `END` TLV. The rest of the frame is zero.

The TLVs are the layer between the writer and the parser. A TLV on the wire
(`LldpTlv.encode`) is a header of a 7-bit type above a 9-bit length, then its
value; what `parseLldpTlv` records of it is `LldpTlv.record`. A TLV whose
type and length fit the header's fields reads back as it records
(`parseLldpTlv_encode`), and a list of them ending in `END` runs the parse loop
through them in order (`whileLoop_encode`).

With names short enough for the 9-bit length, the frame fits the bytes
allocated for it (it has one byte to spare), and reading it back with
`EthHdr(Cursor&)` and `parseLldpPdu` yields every field that was sent
(`lldp_frame_round_trip`).
-/

namespace Fboss

/-- `LldpTlvType` of `Lldp.h`, the TLV types as the sender numbers them. -/
inductive LldpTlvType where
  | PDU_END
  | CHASSIS
  | PORT
  | TTL
  | PORT_DESC
  | SYSTEM_NAME
  | SYSTEM_DESCRIPTION
  | SYSTEM_CAPABILITY
  | MANAGEMENT_ADDRESS
  | ORG_SPECIFIC
  deriving DecidableEq, Repr

def LldpTlvType.toUInt16 : LldpTlvType → UInt16
  | .PDU_END => 0
  | .CHASSIS => 1
  | .PORT => 2
  | .TTL => 3
  | .PORT_DESC => 4
  | .SYSTEM_NAME => 5
  | .SYSTEM_DESCRIPTION => 6
  | .SYSTEM_CAPABILITY => 7
  | .MANAGEMENT_ADDRESS => 8
  | .ORG_SPECIFIC => 127

namespace LldpManager

/-- `tlvHeader(type, length)`: the type above the 9-bit length. -/
def tlvHeader (type length : UInt16) : UInt16 :=
  type <<< 9 ||| length

/-- `writeTl(type, length, cursor)`. -/
def writeTl (type : LldpTlvType) (length : UInt16) : List UInt8 :=
  Bytes.be16 (tlvHeader type.toUInt16 length)

/-- `writeTlv(type, subType, buf, cursor)`: the length counts the subtype. -/
def writeTlvSubType (type : LldpTlvType) (subType : UInt8) (buf : List UInt8) : List UInt8 :=
  writeTl type (UInt16.ofNat (buf.length + 1)) ++ subType :: buf

/-- `writeTlv(type, uint16_t value, cursor)`. -/
def writeTlv16 (type : LldpTlvType) (value : UInt16) : List UInt8 :=
  writeTl type 2 ++ Bytes.be16 value

/-- `writeTlv(type, uint32_t value, cursor)`. -/
def writeTlv32 (type : LldpTlvType) (value : UInt32) : List UInt8 :=
  writeTl type 4 ++ Bytes.be32 value

/-- `writeTlv(type, value, cursor)`. -/
def writeTlvBytes (type : LldpTlvType) (value : List UInt8) : List UInt8 :=
  writeTl type (UInt16.ofNat value.length) ++ value

@[simp] theorem length_writeTl (type : LldpTlvType) (length : UInt16) : (writeTl type length).length = 2 := rfl

@[simp] theorem length_writeTlvSubType (type : LldpTlvType) (subType : UInt8) (buf : List UInt8) :
    (writeTlvSubType type subType buf).length = buf.length + 3 := by
  simp only [writeTlvSubType, List.length_append, length_writeTl, List.length_cons]
  omega

@[simp] theorem length_writeTlv16 (type : LldpTlvType) (value : UInt16) : (writeTlv16 type value).length = 4 :=
  rfl

@[simp] theorem length_writeTlv32 (type : LldpTlvType) (value : UInt32) : (writeTlv32 type value).length = 6 :=
  rfl

@[simp] theorem length_writeTlvBytes (type : LldpTlvType) (value : List UInt8) :
    (writeTlvBytes type value).length = value.length + 2 := by
  simp [writeTlvBytes, Nat.add_comm]

/-- `LldpManager::LldpPktSize(hostname, portname, portdesc, sysDesc)`, term
by term as the source counts them. -/
def LldpPktSize (hostname portname portdesc sysDesc : List UInt8) : Nat :=
  -- ethernet header
  (6 * 2) + 2 + 2 +
  -- chassis MAC
  2 + 1 + 6 +
  -- port ID: name
  2 + portname.length + 1 +
  -- TTL
  2 + 2 +
  -- port description
  2 + portdesc.length + 1 +
  -- system name
  2 + hostname.length + 1 +
  -- system description
  2 + sysDesc.length + 1 +
  -- capabilities
  2 + 2 + 2 +
  -- end of LLDPDU
  2

/-- `LldpManager::LLDP_DEST_MAC`, `01:80:c2:00:00:0e`. -/
def LLDP_DEST_MAC : MacAddress := 0x0180c200000e

/-- `PDU_END_TLV_LENGTH`. -/
def PDU_END_TLV_LENGTH : UInt16 := 0

/-- `lldpSysDescStr`, the bytes of `"FBOSS"`. -/
def lldpSysDescStr : List UInt8 := [0x46, 0x42, 0x4f, 0x53, 0x53]

/-- The capabilities word: the capabilities above the enabled ones, both the
same. -/
def enabledCapabilities (capabilities : UInt16) : UInt32 :=
  capabilities.toUInt32 <<< (16 : UInt32) ||| capabilities.toUInt32

/-- What `createLldpPkt` writes through its cursor. -/
def lldpBytes (macaddr : MacAddress) (vlanid : VlanID) (hostname portname portdesc : List UInt8)
    (ttl capabilities : UInt16) : List UInt8 :=
  TxPacket.writeEthHeader LLDP_DEST_MAC macaddr vlanid ETHERTYPE_LLDP ++
  writeTlvSubType .CHASSIS LldpChassisIdType.MAC_ADDRESS macaddr.bytes ++
  writeTlvSubType .PORT LldpPortIdType.INTERFACE_NAME portname ++
  writeTlv16 .TTL ttl ++
  (if hostname.length > 0 then writeTlvBytes .SYSTEM_NAME hostname else []) ++
  writeTlvBytes .PORT_DESC portdesc ++
  writeTlvBytes .SYSTEM_DESCRIPTION lldpSysDescStr ++
  writeTlv32 .SYSTEM_CAPABILITY (enabledCapabilities capabilities) ++
  writeTl .PDU_END PDU_END_TLV_LENGTH

/-- `LldpManager::createLldpPkt(...)`: the frame of `LldpPktSize(...)` bytes,
written and then padded with zeros. A write past the end of the frame throws
`std::out_of_range`. -/
def createLldpPkt (macaddr : MacAddress) (vlanid : VlanID) (hostname portname portdesc : List UInt8)
    (ttl capabilities : UInt16) : Except String (List UInt8) :=
  let frameLen := LldpPktSize hostname portname portdesc lldpSysDescStr
  let written := lldpBytes macaddr vlanid hostname portname portdesc ttl capabilities
  if written.length ≤ frameLen then .ok (written ++ List.replicate (frameLen - written.length) 0)
  else .error "out of range"

/-! ### The TLV header -/

theorem toNat_tlvHeader {type length : UInt16} (ht : type.toNat < 128) (hl : length.toNat < 512) :
    (tlvHeader type length).toNat = type.toNat * 512 + length.toNat := by
  simp only [tlvHeader, UInt16.toNat_or, UInt16.toNat_shiftLeft]
  have h9 : (9 : UInt16).toNat % 16 = 9 := rfl
  rw [h9, Nat.mod_eq_of_lt (by rw [Nat.shiftLeft_eq]; omega), Bytes.shiftLeft_or_eq_add _ hl]
  rfl

theorem tlvType_tlvHeader {type length : UInt16} (ht : type.toNat < 128) (hl : length.toNat < 512) :
    LinkNeighbor.tlvType (tlvHeader type length) = type.toUInt8 := by
  apply UInt8.toNat_inj.mp
  simp only [LinkNeighbor.tlvType, UInt16.toNat_toUInt8, UInt16.toNat_shiftRight, toNat_tlvHeader ht hl]
  simp
  omega

theorem tlvLength_tlvHeader {type length : UInt16} (ht : type.toNat < 128) (hl : length.toNat < 512) :
    LinkNeighbor.tlvLength (tlvHeader type length) = length.toNat := by
  simp only [LinkNeighbor.tlvLength, UInt16.toNat_and, toNat_tlvHeader ht hl]
  have hmask : (0x01ff : UInt16).toNat = 2 ^ 9 - 1 := rfl
  rw [hmask, Nat.and_two_pow_sub_one_eq_mod]
  omega

end LldpManager

/-! ### TLVs on the wire -/

/-- A TLV as it is on the wire: its type and its value. -/
structure LldpTlv where
  type : UInt8
  value : List UInt8
  deriving DecidableEq, Repr

namespace LldpTlv

/-- The header and the value. -/
def encode (t : LldpTlv) : List UInt8 :=
  Bytes.be16 (LldpManager.tlvHeader t.type.toUInt16 (UInt16.ofNat t.value.length)) ++ t.value

/-- The type fits its 7 bits and the length its 9. -/
def Fits (t : LldpTlv) : Prop :=
  t.type.toNat < 128 ∧ t.value.length < 512

/-- What `parseLldpTlv` records of a TLV that fits in what is left, or
`none` when it throws. The `END` TLV records nothing and ends the loop. -/
def record (n : LinkNeighbor) (t : LldpTlv) : Option LinkNeighbor :=
  match t.type, t.value with
  | 0, _ => some n
  | 1, [] => none
  | 1, chassisIdType :: chassisId => some { n with chassisIdType, chassisId }
  | 2, [] => none
  | 2, portIdType :: portId => some { n with portIdType, portId }
  | 3, [hi, lo] => some (n.setTTL (Bytes.ofBE16 hi lo).toNat)
  | 3, _ => none
  | 4, portDescription => some { n with portDescription }
  | 5, systemName => some { n with systemName }
  | 6, systemDescription => some { n with systemDescription }
  | 7, [b0, b1, b2, b3] =>
    some { n with capabilities := Bytes.ofBE16 b0 b1, enabledCapabilities := Bytes.ofBE16 b2 b3 }
  | 7, _ => none
  | _, _ => some n

end LldpTlv

namespace LinkNeighbor

/-- A TLV that fits, other than an `END` with a value, reads back as it
records. -/
theorem parseLldpTlv_encode {n n' : LinkNeighbor} {t : LldpTlv} {c : Folly.Cursor} {rest : List UInt8}
    (ht : t.Fits) (hend : t.type = 0 → t.value = []) (hr : t.record n = some n')
    (h : c.remaining = t.encode ++ rest) :
    ∃ c', n.parseLldpTlv c = .ok ((t.type, n'), c') ∧ c'.remaining = rest := by
  rcases t with ⟨type, value⟩
  obtain ⟨hty, hlen⟩ := ht
  dsimp only at hty hlen hend hr
  -- the header reads back as the TLV's type and length
  have hl : (UInt16.ofNat value.length).toNat = value.length := by
    rw [UInt16.toNat_ofNat']
    omega
  have ht16 : type.toUInt16.toNat = type.toNat := by simp
  obtain ⟨c1, hc1, hr1⟩ := @Folly.Cursor.readBE16_be16 c _ (value ++ rest)
    (by rw [h, LldpTlv.encode, List.append_assoc])
  dsimp only at hc1 ⊢
  simp only [parseLldpTlv, hc1, Except.ok_bind]
  rw [LldpManager.tlvType_tlvHeader (by omega) (by omega),
    LldpManager.tlvLength_tlvHeader (by omega) (by omega), hl]
  simp only [UInt8.toUInt8_toUInt16]
  unfold LldpTlv.record at hr
  dsimp only at hr
  split
  case h_1 =>
    -- `END`: nothing after the header
    simp only [Option.some.injEq] at hr
    subst hr
    rw [hend rfl] at hr1
    exact ⟨c1, rfl, hr1⟩
  case h_2 =>
    cases value with
    | nil => simp at hr
    | cons b bs =>
      simp only [Option.some.injEq] at hr
      subst hr
      obtain ⟨c2, h2, hr2⟩ := n.parseLldpChassis_of_remaining hr1
      exact ⟨c2, by rw [List.length_cons, h2]; rfl, hr2⟩
  case h_3 =>
    cases value with
    | nil => simp at hr
    | cons b bs =>
      simp only [Option.some.injEq] at hr
      subst hr
      obtain ⟨c2, h2, hr2⟩ := n.parseLldpPortId_of_remaining hr1
      exact ⟨c2, by rw [List.length_cons, h2]; rfl, hr2⟩
  case h_4 =>
    -- a TTL of another length records nothing, so `hr` rules it out
    match value, hr, hr1 with
    | [hi, lo], hr, hr1 =>
      simp only [Option.some.injEq] at hr
      subst hr
      obtain ⟨c2, h2, hr2⟩ := n.parseLldpTtl_of_remaining hr1
      exact ⟨c2, by rw [List.length_cons, List.length_singleton, h2]; rfl, hr2⟩
  case h_5 | h_6 | h_7 =>
    -- the descriptions and the name: the value as it is
    simp only [Option.some.injEq] at hr
    subst hr
    obtain ⟨c2, h2, hr2⟩ := Folly.Cursor.pull_of_remaining hr1
    exact ⟨c2, by rw [h2]; rfl, hr2⟩
  case h_8 =>
    match value, hr, hr1 with
    | [b0, b1, b2, b3], hr, hr1 =>
      simp only [Option.some.injEq] at hr
      subst hr
      obtain ⟨c2, h2, hr2⟩ := n.parseLldpSystemCaps_of_remaining hr1
      exact ⟨c2, by simp only [List.length_cons, List.length_nil, h2]; rfl, hr2⟩
  case h_9 =>
    -- a type the parser does not read is skipped and records nothing
    have hn : n' = n := by
      split at hr <;> simp_all
    subst hn
    obtain ⟨c2, h2, hr2⟩ := Folly.Cursor.skip_of_remaining hr1
    exact ⟨c2, by rw [h2]; rfl, hr2⟩

end LinkNeighbor

namespace LldpScan

/-- A turn of the loop over a TLV that fits: what the TLV records, and the
flags of its type. -/
theorem step_encode {s : LldpScan} {t : LldpTlv} {n' : LinkNeighbor} {c : Folly.Cursor}
    {rest : List UInt8} (ht : t.Fits) (hend : t.type = 0 → t.value = [])
    (hr : t.record s.neighbor = some n') (h : c.remaining = t.encode ++ rest) :
    ∃ c', s.step c =
      .ok (⟨n', s.chassisIdPresent || t.type == 1, s.portIdPresent || t.type == 2,
        s.ttlPresent || t.type == 3, t.type == 0⟩, c') ∧ c'.remaining = rest := by
  obtain ⟨c', hc', hr'⟩ := LinkNeighbor.parseLldpTlv_encode ht hend hr h
  exact ⟨c', by rw [step, hc']; rfl, hr'⟩

/-- The loop over TLVs that fit, none of them `END`, and then `END`: it reads
them in order, records what each records, and stops after `END` with the flags
of the types it saw. -/
theorem whileLoop_encode {ts : List LldpTlv} {s : LldpScan} {n' : LinkNeighbor} {c : Folly.Cursor}
    {rest : List UInt8} (hts : ∀ t ∈ ts, t.Fits ∧ t.type ≠ 0) (hs : s.done = false)
    (hr : ts.foldlM LldpTlv.record s.neighbor = some n')
    (h : c.remaining = ts.flatMap LldpTlv.encode ++ LldpTlv.encode ⟨0, []⟩ ++ rest) :
    ∃ c', Folly.Cursor.whileLoop (fun s _ => !s.done) step s c =
      .ok (⟨n', s.chassisIdPresent || ts.any (·.type == 1), s.portIdPresent || ts.any (·.type == 2),
        s.ttlPresent || ts.any (·.type == 3), true⟩, c') ∧ c'.remaining = rest := by
  -- induction on the TLVs before `END`, from any state of the loop
  induction ts generalizing s c with
  | nil =>
    simp only [List.foldlM_nil, Option.pure_def, Option.some.injEq] at hr
    subst hr
    obtain ⟨c1, hc1, hr1⟩ := @step_encode s ⟨0, []⟩ s.neighbor c rest ⟨by decide, by decide⟩
      (fun _ => rfl) rfl (by simpa using h)
    refine ⟨c1, ?_, hr1⟩
    rw [Folly.Cursor.whileLoop_eq reads_step, hs]
    simp only [Bool.not_false, if_true, hc1, Except.ok_bind]
    rw [Folly.Cursor.whileLoop_eq reads_step]
    simp
  | cons t ts ih =>
    obtain ⟨⟨hfits, hne⟩, hts⟩ := List.forall_mem_cons.mp hts
    simp only [List.foldlM_cons, Option.bind_eq_bind, Option.bind_eq_some_iff] at hr
    obtain ⟨n1, hr1, hrest⟩ := hr
    have hremaining : c.remaining = t.encode ++
        (ts.flatMap LldpTlv.encode ++ LldpTlv.encode ⟨0, []⟩ ++ rest) := by
      rw [h]
      simp
    obtain ⟨c1, hc1, hc1r⟩ := step_encode hfits (fun h0 => absurd h0 hne) hr1 hremaining
    obtain ⟨c', hc', hc'r⟩ := ih (s := ⟨n1, s.chassisIdPresent || t.type == 1,
      s.portIdPresent || t.type == 2, s.ttlPresent || t.type == 3, t.type == 0⟩)
      hts (by simpa using hne) hrest hc1r
    refine ⟨c', ?_, hc'r⟩
    rw [Folly.Cursor.whileLoop_eq reads_step, hs]
    simp only [Bool.not_false, if_true, hc1, Except.ok_bind, hc']
    simp [Bool.or_assoc]

end LldpScan

/-! ### The frame `createLldpPkt` sends -/

namespace LldpManager

/-- The TLVs `createLldpPkt` writes before `END`, as type and value. -/
def lldpTlvs (macaddr : MacAddress) (hostname portname portdesc : List UInt8)
    (ttl capabilities : UInt16) : List LldpTlv :=
  [⟨1, LldpChassisIdType.MAC_ADDRESS :: macaddr.bytes⟩, ⟨2, LldpPortIdType.INTERFACE_NAME :: portname⟩,
    ⟨3, Bytes.be16 ttl⟩] ++
  (if hostname.length > 0 then [⟨5, hostname⟩] else []) ++
  [⟨4, portdesc⟩, ⟨6, lldpSysDescStr⟩, ⟨7, Bytes.be32 (enabledCapabilities capabilities)⟩]

/-! Each writer writes one TLV, of its type's number. -/

theorem toUInt16_toUInt8_toUInt16 (type : LldpTlvType) : type.toUInt16.toUInt8.toUInt16 = type.toUInt16 := by
  cases type <;> rfl

theorem writeTlvBytes_eq_encode (type : LldpTlvType) (value : List UInt8) :
    writeTlvBytes type value = LldpTlv.encode ⟨type.toUInt16.toUInt8, value⟩ := by
  rw [writeTlvBytes, writeTl, LldpTlv.encode]
  dsimp only
  rw [toUInt16_toUInt8_toUInt16]

theorem writeTlvSubType_eq_encode (type : LldpTlvType) (subType : UInt8) (buf : List UInt8) :
    writeTlvSubType type subType buf = LldpTlv.encode ⟨type.toUInt16.toUInt8, subType :: buf⟩ :=
  writeTlvBytes_eq_encode type (subType :: buf)

theorem writeTlv16_eq_encode (type : LldpTlvType) (value : UInt16) :
    writeTlv16 type value = LldpTlv.encode ⟨type.toUInt16.toUInt8, Bytes.be16 value⟩ :=
  writeTlvBytes_eq_encode type (Bytes.be16 value)

theorem writeTlv32_eq_encode (type : LldpTlvType) (value : UInt32) :
    writeTlv32 type value = LldpTlv.encode ⟨type.toUInt16.toUInt8, Bytes.be32 value⟩ :=
  writeTlvBytes_eq_encode type (Bytes.be32 value)

theorem lldpBytes_eq (macaddr : MacAddress) (vlanid : VlanID) (hostname portname portdesc : List UInt8)
    (ttl capabilities : UInt16) :
    lldpBytes macaddr vlanid hostname portname portdesc ttl capabilities =
      TxPacket.writeEthHeader LLDP_DEST_MAC macaddr vlanid ETHERTYPE_LLDP ++
        (lldpTlvs macaddr hostname portname portdesc ttl capabilities).flatMap LldpTlv.encode ++
        LldpTlv.encode ⟨0, []⟩ := by
  have hend : writeTl .PDU_END PDU_END_TLV_LENGTH = LldpTlv.encode ⟨0, []⟩ := rfl
  simp only [lldpBytes, lldpTlvs, writeTlvSubType_eq_encode, writeTlv16_eq_encode, writeTlvBytes_eq_encode,
    writeTlv32_eq_encode, hend]
  split_ifs <;> simp [LldpTlvType.toUInt16]

/-- The capability word is the capabilities twice, so its bytes are theirs
twice. -/
theorem be32_enabledCapabilities (capabilities : UInt16) :
    Bytes.be32 (enabledCapabilities capabilities) = Bytes.be16 capabilities ++ Bytes.be16 capabilities := by
  have hc := capabilities.toNat_lt
  have hword : (enabledCapabilities capabilities).toNat = capabilities.toNat * 2 ^ 16 + capabilities.toNat := by
    simp only [enabledCapabilities, UInt32.toNat_or, UInt32.toNat_shiftLeft, UInt16.toNat_toUInt32]
    have h16 : (16 : UInt32).toNat % 32 = 16 := rfl
    rw [h16, Nat.mod_eq_of_lt (by rw [Nat.shiftLeft_eq]; omega), Bytes.shiftLeft_or_eq_add _ hc]
  simp only [Bytes.be32, Bytes.be16, List.cons_append, List.nil_append, List.cons.injEq, and_true,
    ← UInt8.toNat_inj, UInt32.toNat_toUInt8, UInt32.toNat_shiftRight, UInt16.toNat_toUInt8,
    UInt16.toNat_shiftRight, hword, Nat.shiftRight_eq_div_pow, UInt32.reduceToNat, UInt16.reduceToNat,
    Nat.reduceMod, Nat.reducePow]
  -- the word's bytes, high first: the capabilities' high and low byte, twice
  generalize capabilities.toNat = a at hc ⊢
  have h24 : (a * 65536 + a) / 16777216 = a / 256 := Nat.div_eq_of_lt_le (by omega) (by omega)
  have h16 : (a * 65536 + a) / 65536 = a := Nat.div_eq_of_lt_le (by omega) (by omega)
  have h8 : (a * 65536 + a) / 256 = a * 256 + a / 256 := by omega
  rw [h24, h16, h8]
  omega

/-- With names short enough for the length field, every TLV fits, and none is
`END`. -/
theorem fits_lldpTlvs {macaddr : MacAddress} {hostname portname portdesc : List UInt8}
    {ttl capabilities : UInt16} (hhost : hostname.length < 512) (hport : portname.length + 1 < 512)
    (hdesc : portdesc.length < 512) :
    ∀ t ∈ lldpTlvs macaddr hostname portname portdesc ttl capabilities, t.Fits ∧ t.type ≠ 0 := by
  -- the host name's TLV is there only when the name is not empty
  have hname : ∀ t ∈ (if hostname.length > 0 then [⟨5, hostname⟩] else [] : List LldpTlv),
      t.Fits ∧ t.type ≠ 0 := by
    split_ifs <;> simp [LldpTlv.Fits, hhost]
  intro t ht
  simp only [lldpTlvs, List.mem_append, List.mem_cons, List.not_mem_nil, or_false] at ht
  rcases ht with ((rfl | rfl | rfl) | ht) | rfl | rfl | rfl
  case inl.inr => exact hname t ht
  all_goals simp [LldpTlv.Fits, Bytes.be16, Bytes.be32, lldpSysDescStr, hport, hdesc]

/-- The TLVs record the MAC, the port name, the TTL, the host name when there
is one, the port description, `FBOSS` and the capabilities. -/
theorem foldlM_record_lldpTlvs (n : LinkNeighbor) (macaddr : MacAddress)
    (hostname portname portdesc : List UInt8) (ttl capabilities : UInt16) :
    (lldpTlvs macaddr hostname portname portdesc ttl capabilities).foldlM LldpTlv.record n =
      some { n with
        chassisIdType := LldpChassisIdType.MAC_ADDRESS, chassisId := macaddr.bytes,
        portIdType := LldpPortIdType.INTERFACE_NAME, portId := portname, receivedTTL := ttl.toNat,
        systemName := if hostname.length > 0 then hostname else n.systemName,
        portDescription := portdesc, systemDescription := lldpSysDescStr,
        capabilities, enabledCapabilities := capabilities } := by
  rw [lldpTlvs, be32_enabledCapabilities]
  split_ifs <;>
    simp [LldpTlv.record, Bytes.be16, LinkNeighbor.setTTL, Bytes.ofBE16_be16]

/-- What is written fits the frame, with a byte to spare: the frame's size
counts the Ethernet header two bytes short, but a byte too many for each of
the port description, the system name and the system description. -/
theorem length_lldpBytes_lt (macaddr : MacAddress) (vlanid : VlanID) (hostname portname portdesc : List UInt8)
    (ttl capabilities : UInt16) :
    (lldpBytes macaddr vlanid hostname portname portdesc ttl capabilities).length <
      LldpPktSize hostname portname portdesc lldpSysDescStr := by
  simp only [lldpBytes, List.length_append, TxPacket.length_writeEthHeader, length_writeTlvSubType,
    length_writeTlv16, length_writeTlvBytes, length_writeTlv32, length_writeTl, MacAddress.length_bytes,
    LldpPktSize]
  split_ifs <;> simp [lldpSysDescStr] <;> omega

theorem createLldpPkt_eq (macaddr : MacAddress) (vlanid : VlanID) (hostname portname portdesc : List UInt8)
    (ttl capabilities : UInt16) :
    createLldpPkt macaddr vlanid hostname portname portdesc ttl capabilities =
      .ok (lldpBytes macaddr vlanid hostname portname portdesc ttl capabilities ++
        List.replicate (LldpPktSize hostname portname portdesc lldpSysDescStr -
          (lldpBytes macaddr vlanid hostname portname portdesc ttl capabilities).length) 0) := by
  unfold createLldpPkt
  dsimp only
  rw [if_pos (Nat.le_of_lt (length_lldpBytes_lt macaddr vlanid hostname portname portdesc ttl capabilities))]

/-- An LLDP frame reads back as it was sent: with names short enough for the
9-bit length, `createLldpPkt` builds a frame of the size it allocates, and
`EthHdr(Cursor&)` then `parseLldpPdu`, as `handlePacket` calls it on a new
neighbor, accept it with every field that was written. -/
theorem lldp_frame_round_trip (macaddr : MacAddress) (vlanid : VlanID) (hostname portname portdesc : List UInt8)
    (ttl capabilities : UInt16) (srcPort : PortID) (vlan : VlanID)
    (hhost : hostname.length < 512) (hport : portname.length + 1 < 512) (hdesc : portdesc.length < 512) :
    ∃ frame, createLldpPkt macaddr vlanid hostname portname portdesc ttl capabilities = .ok frame ∧
      frame.length = LldpPktSize hostname portname portdesc lldpSysDescStr ∧
      ∃ hdr c, EthHdr.parse (Folly.Cursor.ofBytes frame) = .ok (hdr, c) ∧
        hdr.srcAddr = macaddr ∧ hdr.etherType = ETHERTYPE_LLDP ∧
        LinkNeighbor.create.parseLldpPdu srcPort vlan hdr.srcAddr hdr.etherType c =
          (true, { LinkNeighbor.create with
            protocol := .LLDP, localPort := srcPort, localVlan := vlan, srcMac := macaddr,
            chassisIdType := LldpChassisIdType.MAC_ADDRESS, chassisId := macaddr.bytes,
            portIdType := LldpPortIdType.INTERFACE_NAME, portId := portname, receivedTTL := ttl.toNat,
            systemName := hostname, portDescription := portdesc, systemDescription := lldpSysDescStr,
            capabilities, enabledCapabilities := capabilities }) := by
  have hlt := length_lldpBytes_lt macaddr vlanid hostname portname portdesc ttl capabilities
  refine ⟨_, createLldpPkt_eq macaddr vlanid hostname portname portdesc ttl capabilities,
    by simp only [List.length_append, List.length_replicate]; omega, ?_⟩
  -- the Ethernet header, with its one tag
  obtain ⟨tag, c, hc, hrem⟩ := EthHdr.parse_writeEthHeader
    (c := Folly.Cursor.ofBytes (lldpBytes macaddr vlanid hostname portname portdesc ttl capabilities ++
      List.replicate (LldpPktSize hostname portname portdesc lldpSysDescStr -
        (lldpBytes macaddr vlanid hostname portname portdesc ttl capabilities).length) 0))
    (rfl : EthHdr.isVlanTag ETHERTYPE_LLDP = false)
    (by rw [Folly.Cursor.remaining_ofBytes, lldpBytes_eq, List.append_assoc, List.append_assoc])
  refine ⟨_, c, hc, rfl, rfl, ?_⟩
  -- the TLVs, up to `END`
  obtain ⟨c', hloop, -⟩ := LldpScan.whileLoop_encode
    (s := ⟨{ LinkNeighbor.create with
      protocol := .LLDP, localPort := srcPort, localVlan := vlan, srcMac := macaddr },
      false, false, false, false⟩) (fits_lldpTlvs hhost hport hdesc) rfl
    (foldlM_record_lldpTlvs _ macaddr hostname portname portdesc ttl capabilities)
    (hrem.trans (List.append_assoc _ _ _).symm)
  rw [LinkNeighbor.parseLldpPdu, if_neg (fun h => h rfl)]
  simp only [hloop]
  -- an empty host name leaves the new neighbor's empty system name
  have hname : (if hostname.length > 0 then hostname else LinkNeighbor.create.systemName) = hostname := by
    split_ifs with h
    · rfl
    · rw [@List.eq_nil_of_length_eq_zero _ hostname (by omega)]
      rfl
  -- the chassis, port and TTL TLVs are all there
  rw [hname]
  simp [lldpTlvs]

/-- The frame of `02:00:00:00:00:01` on VLAN 1, host `h`, port `p`, no port
description, TTL 120 and the router and bridge capabilities, received on port
1 in VLAN 1. -/
theorem lldp_frame_round_trip_short_names :
    ∃ frame, createLldpPkt 0x020000000001 1 [0x68] [0x70] [] 120 0x14 = .ok frame ∧
      frame.length = LldpPktSize [0x68] [0x70] [] lldpSysDescStr ∧
      ∃ hdr c, EthHdr.parse (Folly.Cursor.ofBytes frame) = .ok (hdr, c) ∧
        hdr.srcAddr = 0x020000000001 ∧ hdr.etherType = ETHERTYPE_LLDP ∧
        LinkNeighbor.create.parseLldpPdu 1 1 hdr.srcAddr hdr.etherType c =
          (true, { LinkNeighbor.create with
            protocol := .LLDP, localPort := 1, localVlan := 1, srcMac := 0x020000000001,
            chassisIdType := LldpChassisIdType.MAC_ADDRESS, chassisId := MacAddress.bytes 0x020000000001,
            portIdType := LldpPortIdType.INTERFACE_NAME, portId := [0x70], receivedTTL := 120,
            systemName := [0x68], portDescription := [], systemDescription := lldpSysDescStr,
            capabilities := 0x14, enabledCapabilities := 0x14 }) :=
  lldp_frame_round_trip 0x020000000001 1 [0x68] [0x70] [] 120 0x14 1 1 (by decide) (by decide) (by decide)

end LldpManager

end Fboss
