import Fboss.Lib.Cursor
import Fboss.State.Neighbor

/-!
# Ethernet headers

`TxPacket::writeEthHeader` writes the header of a frame with one 802.1Q tag:
the destination and source addresses, the tag and the ethertype.
`EthHdr(Cursor&)` reads a header back: the two addresses and an ethertype,
then, while the ethertype is that of a VLAN tag (802.1Q or 802.1ad), the tag
and the next ethertype. A frame too short for the header throws
`HdrParseError`. A header written with an ethertype other than a tag's reads
back with its addresses, one tag and its ethertype (`parse_writeEthHeader`).
-/

namespace Fboss

/-- `MacAddress::bytes()`: the six bytes of an address, high byte first. -/
def MacAddress.bytes (m : MacAddress) : List UInt8 :=
  [40, 32, 24, 16, 8, 0].map fun k => UInt8.ofNat (m.toNat >>> k)

/-- `MacAddress::fromBinary`: an address from its bytes, high byte first. -/
def MacAddress.fromBinary (bs : List UInt8) : MacAddress :=
  BitVec.ofNat 48 (bs.foldl (fun acc b => acc * 256 + b.toNat) 0)

@[simp] theorem MacAddress.length_bytes (m : MacAddress) : m.bytes.length = 6 := rfl

@[simp] theorem MacAddress.fromBinary_bytes (m : MacAddress) : MacAddress.fromBinary m.bytes = m := by
  have hm := m.isLt
  apply BitVec.eq_of_toNat_eq
  simp only [MacAddress.fromBinary, MacAddress.bytes, List.map_cons, List.map_nil, List.foldl_cons,
    List.foldl_nil, UInt8.toNat_ofNat', Nat.shiftRight_eq_div_pow, BitVec.toNat_ofNat]
  omega

/-- `ETHERTYPE::ETHERTYPE_VLAN`, 802.1Q. -/
def ETHERTYPE_VLAN : UInt16 := 0x8100

/-- `ETHERTYPE::ETHERTYPE_QINQ`, 802.1ad. -/
def ETHERTYPE_QINQ : UInt16 := 0x88A8

/-- `VlanTag`: the tag's ethertype above its 16 bits. -/
structure VlanTag where
  value : UInt32
  deriving DecidableEq, Repr

/-- `EthHdr`. -/
structure EthHdr where
  dstAddr : MacAddress
  srcAddr : MacAddress
  vlanTags : List VlanTag
  etherType : UInt16
  deriving DecidableEq, Repr

namespace TxPacket

/-- `TxPacket::writeEthHeader(cursor, dst, src, vlan, protocol)`: the header
of a frame with one 802.1Q tag. -/
def writeEthHeader (dst src : MacAddress) (vlan : VlanID) (protocol : UInt16) : List UInt8 :=
  dst.bytes ++ src.bytes ++ Bytes.be16 0x8100 ++ Bytes.be16 (UInt16.ofNat vlan) ++ Bytes.be16 protocol

@[simp] theorem length_writeEthHeader (dst src : MacAddress) (vlan : VlanID) (protocol : UInt16) :
    (writeEthHeader dst src vlan protocol).length = 18 := rfl

end TxPacket

namespace EthHdr

/-- Whether an ethertype is that of a VLAN tag. -/
def isVlanTag (etherType : UInt16) : Bool :=
  etherType == ETHERTYPE_VLAN || etherType == ETHERTYPE_QINQ

/-- One turn of the loop over the tags: the tag and the next ethertype. -/
def pullVlanTag (h : EthHdr) (c : Folly.Cursor) : Except String (EthHdr × Folly.Cursor) :=
  (c.pull 4).map fun r =>
    let tag : UInt32 := h.etherType.toUInt32 <<< (16 : UInt32) |||
      (r.1.getD 0 0).toUInt32 <<< (8 : UInt32) ||| (r.1.getD 1 0).toUInt32
    ({ h with vlanTags := h.vlanTags ++ [⟨tag⟩],
              etherType := Bytes.ofBE16 (r.1.getD 2 0) (r.1.getD 3 0) }, r.2)

/-- The fixed part of the header: the addresses and the first ethertype. -/
def ofFixed (b : List UInt8) : EthHdr :=
  ⟨MacAddress.fromBinary (b.take 6), MacAddress.fromBinary ((b.drop 6).take 6), [],
    Bytes.ofBE16 (b.getD 12 0) (b.getD 13 0)⟩

/-- `EthHdr(Cursor&)`. A short read is rethrown as `HdrParseError`. -/
def parse (c : Folly.Cursor) : Except String (EthHdr × Folly.Cursor) :=
  match (c.pull 14 >>= fun r =>
      Folly.Cursor.whileLoop (fun h _ => isVlanTag h.etherType) pullVlanTag (ofFixed r.1) r.2) with
  | .ok r => .ok r
  | .error _ => .error "Ethernet header too small"

/-- Each turn of the loop over the tags reads four bytes. -/
theorem reads_pullVlanTag : Folly.Cursor.Reads pullVlanTag := by
  intro h c r hr
  have hspec := Folly.Cursor.pull_spec 4 c
  cases hp : c.pull 4 with
  | error e => simp [pullVlanTag, hp, Except.map] at hr
  | ok r' =>
    rw [hp] at hspec
    simp only [pullVlanTag, hp, Except.map, Except.ok.injEq] at hr
    have := hspec.totalLength_eq
    rw [← hr]
    show r'.2.totalLength < c.totalLength
    omega

/-- A header written with one 802.1Q tag and an ethertype other than a tag's
reads back with its addresses, one tag and its ethertype. -/
theorem parse_writeEthHeader {c : Folly.Cursor} {dst src : MacAddress} {vlan : VlanID}
    {protocol : UInt16} {rest : List UInt8} (hp : isVlanTag protocol = false)
    (h : c.remaining = TxPacket.writeEthHeader dst src vlan protocol ++ rest) :
    ∃ tag c', parse c = .ok (⟨dst, src, [tag], protocol⟩, c') ∧ c'.remaining = rest := by
  -- the fixed part, then one tag, then an ethertype that ends the loop
  obtain ⟨hi, lo, hvlan⟩ : ∃ hi lo, Bytes.be16 (UInt16.ofNat vlan) = [hi, lo] := ⟨_, _, rfl⟩
  obtain ⟨p0, p1, hproto⟩ : ∃ p0 p1, Bytes.be16 protocol = [p0, p1] := ⟨_, _, rfl⟩
  have hsplit : c.remaining = (dst.bytes ++ src.bytes ++ Bytes.be16 0x8100) ++
      ([hi, lo, p0, p1] ++ rest) := by
    rw [h, TxPacket.writeEthHeader, hvlan, hproto]
    simp
  obtain ⟨c1, hc1, hr1⟩ := Folly.Cursor.pull_of_remaining hsplit
  obtain ⟨c2, hc2, hr2⟩ := @Folly.Cursor.pull_of_remaining c1 [hi, lo, p0, p1] rest hr1
  have hfixed : ofFixed (dst.bytes ++ src.bytes ++ Bytes.be16 0x8100) = ⟨dst, src, [], ETHERTYPE_VLAN⟩ := by
    have h8100 : Bytes.be16 0x8100 = [0x81, 0x00] := rfl
    simp only [ofFixed, List.append_assoc, List.take_left' (MacAddress.length_bytes dst),
      List.drop_left' (MacAddress.length_bytes dst), List.take_left' (MacAddress.length_bytes src),
      MacAddress.fromBinary_bytes, h8100]
    -- bytes 12 and 13 are the tag's ethertype, after the two addresses
    have hd := MacAddress.length_bytes dst
    have hs := MacAddress.length_bytes src
    rw [List.getD_append_right _ _ _ _ (by omega), List.getD_append_right _ _ _ _ (by omega),
      List.getD_append_right _ _ _ _ (by omega), List.getD_append_right _ _ _ _ (by omega), hd, hs]
    rfl
  have hetherType : Bytes.ofBE16 p0 p1 = protocol := by
    rw [← Bytes.ofBE16_be16 protocol]
    simp only [Bytes.be16, List.cons.injEq] at hproto
    rw [hproto.1, hproto.2.1]
  have hc1' : c.pull 14 = .ok (dst.bytes ++ src.bytes ++ Bytes.be16 0x8100, c1) := hc1
  have hc2' : c1.pull 4 = .ok ([hi, lo, p0, p1], c2) := hc2
  have hb := reads_pullVlanTag
  refine ⟨⟨ETHERTYPE_VLAN.toUInt32 <<< (16 : UInt32) ||| hi.toUInt32 <<< (8 : UInt32) ||| lo.toUInt32⟩,
    c2, ?_, hr2⟩
  have hvlanTag : isVlanTag ETHERTYPE_VLAN = true := rfl
  rw [parse, hc1', Except.ok_bind, hfixed, Folly.Cursor.whileLoop_eq hb]
  simp only [hvlanTag, if_true, pullVlanTag, hc2', Except.map, Except.ok_bind]
  rw [Folly.Cursor.whileLoop_eq hb]
  simp [hetherType, hp]

end EthHdr

end Fboss
