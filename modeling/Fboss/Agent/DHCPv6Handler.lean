import Fboss.Packet.DHCPv6Packet

/-!
# The DHCPv6 relay

A packet of a client is relayed to the server in a relay-forward message
(`processDHCPv6Packet`): hop count 0, the link address unspecified, the
client's address as peer address, its MAC address as an interface ID option
and the whole packet as a relay message option. A relay-reply message of the
server is relayed to the client (`processDHCPv6RelayReply`): the MAC address
is read from its interface ID option, and what is sent is the data of its
relay message option. What the handler looks up in the switch state (the
VLAN, the server, the interface and the addresses the packets are sent from
and to) is not modelled: the model returns the bytes sent and, for a reply,
the MAC address they are sent to.

The reply handler trusts the options `extractOptions` returns. It reads six
bytes at the data of the interface ID option, whatever the option's length
(its check is a `DCHECK`, which the agent is not built with), and it sends as
many bytes from the data of the relay message as its length says, so that a
length that runs past the end of the options is read past it. Reads are made
with `optionBytes`, and such a read ends in its error.

A relay message carries its packet's length in 16 bits. A packet of fewer
than `2 ^ 16` bytes comes back from the relay-forward message as it was
(`relay_round_trip`); of a longer one only the first `length % 2 ^ 16` bytes
are relayed (`relay_message_truncated`).
-/

namespace Fboss

namespace DHCPv6Handler

open DHCPv6Packet DHCPv6Type DHCPv6OptionType

/-- The relay-forward message that `processDHCPv6Packet` builds for the packet
`dhcpPacket` of a client with MAC address `srcMac` and IPv6 address `pa`. Its
link address is `::`; its transaction ID is left unset by the constructor and
is not read for a relay message. -/
def relayForwardPacket (srcMac : MacAddress) (pa : IPAddressV6) (dhcpPacket : DHCPv6Packet) :
    DHCPv6Packet :=
  let relayFwdPkt : DHCPv6Packet := ⟨DHCPv6_RELAY_FORWARD, 0, 0, 0, pa, []⟩
  (relayFwdPkt.addInterfaceIDOption srcMac).addRelayMessageOption dhcpPacket

/-- `processDHCPv6Packet(sw, pkt, srcMac, dstMac, ipHdr, dhcpPacket)`: the
relay-forward message sent to the server, or `none` when it is longer than
`MAX_DHCPV6_MSG_LENGTH`. -/
def processDHCPv6Packet (srcMac : MacAddress) (srcAddr : IPAddressV6) (dhcpPacket : DHCPv6Packet) :
    Option (List UInt8) :=
  let relayFwdPkt := relayForwardPacket srcMac srcAddr dhcpPacket
  if relayFwdPkt.computePacketLength > MAX_DHCPV6_MSG_LENGTH then none
  else some relayFwdPkt.write

/-- The state of the loop of `processDHCPv6RelayReply` over the options: the
MAC address of the interface ID, and the place and the length of the relay
message. -/
structure RelayReplyScan where
  destMac : MacAddress
  relayData : Nat
  relayLen : UInt16
  deriving DecidableEq, Repr

/-- One turn of that loop. The interface ID is read as the six bytes at its
data. -/
def relayReplyStep (options : List UInt8) (s : RelayReplyScan) (opt : DHCPv6Option) :
    Except String RelayReplyScan :=
  if opt.op = DHCPv6_OPTION_INTERFACE_ID then do
    let mac ← optionBytes options opt.data 6
    pure { s with destMac := MacAddress.fromBinary mac }
  else if opt.op = DHCPv6_OPTION_RELAY_MSG then pure { s with relayData := opt.data, relayLen := opt.len }
  else pure s

/-- `processDHCPv6RelayReply(sw, pkt, srcMac, dstMac, ipHdr, dhcpPacket)`: the
MAC address and the bytes sent to the client, or `none` when the reply is
dropped for a zero MAC address or an empty relay message. The relay data
starts as a null pointer, modelled as place 0, and is read only with a
length that is not 0. -/
def processDHCPv6RelayReply (dhcpPacket : DHCPv6Packet) :
    Except String (Option (MacAddress × List UInt8)) := do
  let dhcpOptions ← dhcpPacket.extractOptions [DHCPv6_OPTION_INTERFACE_ID, DHCPv6_OPTION_RELAY_MSG]
  let s ← dhcpOptions.foldlM (relayReplyStep dhcpPacket.options) ⟨0, 0, 0⟩
  if s.destMac = 0 ∨ s.relayLen = 0 then pure none
  else do
    let payload ← optionBytes dhcpPacket.options s.relayData s.relayLen.toNat
    pure (some (s.destMac, payload))

/-! ### The relay-forward message -/

/-- The options of the relay-forward message: the interface ID, then the
first `computePacketLength() % 2 ^ 16` bytes of the packet as relay message. -/
theorem relayForwardPacket_options (srcMac : MacAddress) (pa : IPAddressV6) (p : DHCPv6Packet) :
    (relayForwardPacket srcMac pa p).options =
      encodeOptions [(DHCPv6_OPTION_INTERFACE_ID, srcMac.bytes),
        (DHCPv6_OPTION_RELAY_MSG, p.write.take (p.computePacketLength % 2 ^ 16))] := by
  rw [relayForwardPacket, addRelayMessageOption_options, addInterfaceIDOption_options]
  simp

/-- The relay message is the first `computePacketLength() % 2 ^ 16` bytes of
what `write` writes. -/
theorem length_take_write (p : DHCPv6Packet) :
    (p.write.take (p.computePacketLength % 2 ^ 16)).length = p.computePacketLength % 2 ^ 16 := by
  rw [List.length_take, length_write]
  exact Nat.min_eq_left (Nat.mod_le _ _)

/-- The options of the relay-forward message as bytes: the interface ID's
header and the MAC address, then the relay message's header and data. -/
theorem relayForwardPacket_options_bytes (srcMac : MacAddress) (pa : IPAddressV6) (p : DHCPv6Packet) :
    (relayForwardPacket srcMac pa p).options =
      (Bytes.be16 DHCPv6_OPTION_INTERFACE_ID ++ Bytes.be16 6) ++
        (srcMac.bytes ++ (Bytes.be16 DHCPv6_OPTION_RELAY_MSG ++
          Bytes.be16 (p.write.take (p.computePacketLength % 2 ^ 16)).length.toUInt16 ++
          p.write.take (p.computePacketLength % 2 ^ 16))) := by
  rw [relayForwardPacket_options]
  simp only [encodeOptions_cons, encodeOptions_nil, encodeOption, MacAddress.length_bytes,
    List.append_assoc, List.append_nil]
  rfl

theorem length_relayForwardPacket_options (srcMac : MacAddress) (pa : IPAddressV6) (p : DHCPv6Packet) :
    (relayForwardPacket srcMac pa p).options.length = 14 + p.computePacketLength % 2 ^ 16 := by
  rw [relayForwardPacket_options_bytes]
  simp only [List.length_append, Bytes.be16, List.length_cons, List.length_nil, MacAddress.length_bytes,
    length_take_write]
  omega

/-- The six bytes at the data of the interface ID, place 4, are the MAC
address. -/
theorem optionBytes_interfaceID (srcMac : MacAddress) (pa : IPAddressV6) (p : DHCPv6Packet) :
    optionBytes (relayForwardPacket srcMac pa p).options 4 6 = .ok srcMac.bytes := by
  have hfit : 4 + 6 ≤ (relayForwardPacket srcMac pa p).options.length := by
    rw [length_relayForwardPacket_options]
    omega
  rw [optionBytes, if_pos hfit, relayForwardPacket_options_bytes, List.drop_left' (by rfl),
    List.take_left' (MacAddress.length_bytes srcMac)]

/-- The bytes at the data of the relay message, place 14, with the length it
was written with. -/
theorem optionBytes_relayMessage (srcMac : MacAddress) (pa : IPAddressV6) (p : DHCPv6Packet) :
    optionBytes (relayForwardPacket srcMac pa p).options 14 (p.computePacketLength % 2 ^ 16) =
      .ok (p.write.take (p.computePacketLength % 2 ^ 16)) := by
  have hfit : 14 + p.computePacketLength % 2 ^ 16 ≤ (relayForwardPacket srcMac pa p).options.length :=
    (length_relayForwardPacket_options srcMac pa p).ge
  have hdrop : (relayForwardPacket srcMac pa p).options.drop 14 =
      p.write.take (p.computePacketLength % 2 ^ 16) := by
    rw [relayForwardPacket_options_bytes, ← List.append_assoc, ← List.append_assoc, ← List.append_assoc,
      List.drop_left' (by simp [Bytes.be16])]
  rw [optionBytes, if_pos hfit, hdrop, List.take_of_length_le (length_take_write p).le]

/-- A reply carrying the options of a relay-forward message, whose relay
message is not empty: the walk returns the interface ID and the relay
message, with the length cast to 16 bits. -/
theorem extractOptions_relayForwardPacket {srcMac : MacAddress} {pa : IPAddressV6} {p q : DHCPv6Packet}
    (hq : q.options = (relayForwardPacket srcMac pa p).options)
    (hL : p.computePacketLength % 2 ^ 16 ≠ 0) :
    q.extractOptions [DHCPv6_OPTION_INTERFACE_ID, DHCPv6_OPTION_RELAY_MSG] =
      .ok [⟨DHCPv6_OPTION_INTERFACE_ID, 6, 4⟩,
        ⟨DHCPv6_OPTION_RELAY_MSG, p.computePacketLength.toUInt16, 14⟩] := by
  have hmod : p.computePacketLength % 2 ^ 16 < 2 ^ 16 := Nat.mod_lt _ (by norm_num)
  have htake := length_take_write p
  have hlen16 : (p.computePacketLength % 2 ^ 16).toUInt16 = p.computePacketLength.toUInt16 :=
    UInt16.toNat.inj (by rw [toNat_toUInt16_of_lt hmod, Nat.toUInt16, UInt16.toNat_ofNat'])
  rw [relayForwardPacket_options] at hq
  generalize p.write.take (p.computePacketLength % 2 ^ 16) = d at hq htake
  rw [extractOptions_encodeOptions hq (by simp)]
  · simp only [optionsAt, MacAddress.length_bytes, htake, hlen16]
    rfl
  · -- both options fit a 16-bit length
    intro o ho
    simp only [List.mem_cons, List.not_mem_nil, or_false] at ho
    rcases ho with rfl | rfl
    · simp
    · rw [htake]
      exact hmod
  · -- the relay message, which comes last, is not empty
    intro o ho
    simp only [List.getLast?_cons_cons, List.getLast?_singleton, Option.mem_def, Option.some.injEq] at ho
    subst ho
    rw [← List.length_pos_iff_ne_nil, htake]
    omega
  · rw [hq]
    simp only [encodeOptions_cons, encodeOptions_nil, List.length_append, length_encodeOption,
      List.length_nil, MacAddress.length_bytes, htake]
    omega

/-- A reply carrying the options of a relay-forward message, whose relay
message is not empty, relays the bytes of the relay message to the MAC
address of the interface ID, unless that address is 0. -/
theorem processDHCPv6RelayReply_of_relayForwardPacket {srcMac : MacAddress} {pa : IPAddressV6}
    {p q : DHCPv6Packet} (hq : q.options = (relayForwardPacket srcMac pa p).options)
    (hL : p.computePacketLength % 2 ^ 16 ≠ 0) :
    processDHCPv6RelayReply q =
      .ok (if srcMac = 0 then none else some (srcMac, p.write.take (p.computePacketLength % 2 ^ 16))) := by
  have hlen16 : p.computePacketLength.toUInt16.toNat = p.computePacketLength % 2 ^ 16 := by
    rw [Nat.toUInt16, UInt16.toNat_ofNat']
  have hne : p.computePacketLength.toUInt16 ≠ 0 := fun h => hL (by rw [← hlen16, h]; rfl)
  -- the two options, read at their places: the address at 4, the relay message at 14
  have hmac : optionBytes q.options 4 6 = .ok srcMac.bytes := by
    rw [hq]
    exact optionBytes_interfaceID srcMac pa p
  have hrelay : optionBytes q.options 14 p.computePacketLength.toUInt16.toNat =
      .ok (p.write.take (p.computePacketLength % 2 ^ 16)) := by
    rw [hq, hlen16]
    exact optionBytes_relayMessage srcMac pa p
  rw [processDHCPv6RelayReply, extractOptions_relayForwardPacket hq hL, Except.ok_bind]
  simp only [List.foldlM_cons, List.foldlM_nil, relayReplyStep, if_pos, hmac, Except.ok_bind,
    MacAddress.fromBinary_bytes]
  have hops : DHCPv6_OPTION_RELAY_MSG ≠ DHCPv6_OPTION_INTERFACE_ID := by decide
  simp only [if_neg hops, pure_bind]
  by_cases hm : srcMac = 0
  · simp only [hm, true_or, if_true]
    rfl
  · simp only [hm, hne, or_self, if_false, hrelay, Except.ok_bind]
    rfl

/-! ### Round trip -/

/-- A packet of fewer than `2 ^ 16` bytes goes through the relay and back: the
relay-forward message is `computePacketLength()` bytes and reads back as
itself, a reply with its options relays the packet's bytes to the client's
MAC address, and those bytes read back as the packet; every relay message
reads back as itself. -/
theorem relay_round_trip {srcMac : MacAddress} {pa : IPAddressV6} {p q q0 : DHCPv6Packet}
    (hmac : srcMac ≠ 0) (hshort : p.computePacketLength < 2 ^ 16)
    (htid : p.isDHCPv6Relay = false → p.transactionId.toNat < 2 ^ 24)
    (hq : q.options = (relayForwardPacket srcMac pa p).options) (hq0 : q0.options = []) :
    (relayForwardPacket srcMac pa p).write.length = (relayForwardPacket srcMac pa p).computePacketLength ∧
      (∃ r', q0.parse (Folly.Cursor.ofBytes (relayForwardPacket srcMac pa p).write) = .ok r' ∧
        r'.beq (relayForwardPacket srcMac pa p) = true) ∧
      processDHCPv6RelayReply q = .ok (some (srcMac, p.write)) ∧
      (∃ p', q0.parse (Folly.Cursor.ofBytes p.write) = .ok p' ∧ p'.beq p = true) ∧
      ∀ r : DHCPv6Packet, r.isDHCPv6Relay = true →
        ∃ r', q0.parse (Folly.Cursor.ofBytes r.write) = .ok r' ∧ r'.beq r = true := by
  have hmod : p.computePacketLength % 2 ^ 16 = p.computePacketLength := Nat.mod_eq_of_lt hshort
  -- every packet has at least its type and a transaction ID
  have hpos : p.computePacketLength ≠ 0 := by
    unfold computePacketLength
    split <;> simp [TYPE_BYTES]
  have hrelay : (relayForwardPacket srcMac pa p).isDHCPv6Relay = true := rfl
  have hreply := processDHCPv6RelayReply_of_relayForwardPacket hq (by rw [hmod]; exact hpos)
  rw [if_neg hmac, hmod, List.take_of_length_le (length_write p).le] at hreply
  -- a relay message has no transaction ID to fit in 24 bits
  have hnotid : ∀ r : DHCPv6Packet, r.isDHCPv6Relay = true →
      r.isDHCPv6Relay = false → r.transactionId.toNat < 2 ^ 24 := by
    intro r hr h
    rw [hr] at h
    cases h
  refine ⟨length_write _, parse_write_beq hq0 (hnotid _ hrelay), hreply, parse_write_beq hq0 htid, ?_⟩
  intro r hr
  exact parse_write_beq hq0 (hnotid r hr)

/-- A solicit of a client: type 1, transaction ID 0x123456, no options. -/
def solicit : DHCPv6Packet :=
  ⟨1, 0, 0x123456, 0, 0, []⟩

/-- A reply of the server to the relay-forward message of `solicit` sent for
the MAC address 02:00:00:00:00:01: it carries the message's options. -/
def solicitReply : DHCPv6Packet :=
  ⟨DHCPv6_RELAY_REPLY, 0, 0, 0, 0, (relayForwardPacket 0x020000000001 0 solicit).options⟩

theorem relay_round_trip_solicit :
    (0x020000000001 : MacAddress) ≠ 0 ∧ solicit.computePacketLength < 2 ^ 16 ∧
      ((relayForwardPacket 0x020000000001 0 solicit).write.length =
          (relayForwardPacket 0x020000000001 0 solicit).computePacketLength ∧
        (∃ r', (⟨0, 0, 0, 0, 0, []⟩ : DHCPv6Packet).parse
            (Folly.Cursor.ofBytes (relayForwardPacket 0x020000000001 0 solicit).write) = .ok r' ∧
          r'.beq (relayForwardPacket 0x020000000001 0 solicit) = true) ∧
        processDHCPv6RelayReply solicitReply = .ok (some (0x020000000001, solicit.write)) ∧
        (∃ p', (⟨0, 0, 0, 0, 0, []⟩ : DHCPv6Packet).parse (Folly.Cursor.ofBytes solicit.write) = .ok p' ∧
          p'.beq solicit = true) ∧
        ∀ r : DHCPv6Packet, r.isDHCPv6Relay = true →
          ∃ r', (⟨0, 0, 0, 0, 0, []⟩ : DHCPv6Packet).parse (Folly.Cursor.ofBytes r.write) = .ok r' ∧
            r'.beq r = true) :=
  ⟨by decide, by decide, relay_round_trip (by decide) (by decide) (by decide) rfl rfl⟩

/-- A packet of `2 ^ 16` bytes or more, whose length is not a multiple of
`2 ^ 16`, is relayed cut short: the relay message option of the
relay-forward message has the length cast to 16 bits, a reply carrying its
options returns that option with that length, and what is read from it is
the first `computePacketLength() % 2 ^ 16` bytes of the packet, not all of
them. -/
theorem relay_message_truncated (srcMac : MacAddress) (pa : IPAddressV6) (p : DHCPv6Packet)
    (hlong : 2 ^ 16 ≤ p.computePacketLength) (hL : p.computePacketLength % 2 ^ 16 ≠ 0) :
    (relayForwardPacket srcMac pa p).extractOptions [DHCPv6_OPTION_INTERFACE_ID, DHCPv6_OPTION_RELAY_MSG] =
        .ok [⟨DHCPv6_OPTION_INTERFACE_ID, 6, 4⟩,
          ⟨DHCPv6_OPTION_RELAY_MSG, p.computePacketLength.toUInt16, 14⟩] ∧
      optionBytes (relayForwardPacket srcMac pa p).options 14 p.computePacketLength.toUInt16.toNat =
        .ok (p.write.take (p.computePacketLength % 2 ^ 16)) ∧
      p.write.take (p.computePacketLength % 2 ^ 16) ≠ p.write := by
  have hlen16 : p.computePacketLength.toUInt16.toNat = p.computePacketLength % 2 ^ 16 := by
    rw [Nat.toUInt16, UInt16.toNat_ofNat']
  have hshorter : (p.write.take (p.computePacketLength % 2 ^ 16)).length < p.write.length := by
    rw [length_take_write, length_write]
    omega
  refine ⟨extractOptions_relayForwardPacket rfl hL, ?_, ?_⟩
  · rw [hlen16]
    exact optionBytes_relayMessage srcMac pa p
  · intro h
    rw [h] at hshorter
    exact lt_irrefl _ hshorter

/-- A client packet of 65537 bytes (type 1, 65533 bytes of options) is
relayed as its first byte only, and `processDHCPv6Packet` sends that
relay-forward message, 49 bytes long. -/
theorem relay_message_truncated_at_65537 :
    (2 ^ 16 ≤ (⟨1, 0, 0, 0, 0, List.replicate 65533 0⟩ : DHCPv6Packet).computePacketLength ∧ (⟨1, 0, 0, 0, 0, List.replicate 65533 0⟩ : DHCPv6Packet).computePacketLength % 2 ^ 16 ≠ 0) ∧
      ((relayForwardPacket 0x020000000001 0 (⟨1, 0, 0, 0, 0, List.replicate 65533 0⟩ : DHCPv6Packet)).extractOptions
          [DHCPv6_OPTION_INTERFACE_ID, DHCPv6_OPTION_RELAY_MSG] =
          .ok [⟨DHCPv6_OPTION_INTERFACE_ID, 6, 4⟩,
            ⟨DHCPv6_OPTION_RELAY_MSG, (⟨1, 0, 0, 0, 0, List.replicate 65533 0⟩ : DHCPv6Packet).computePacketLength.toUInt16, 14⟩] ∧
        optionBytes (relayForwardPacket 0x020000000001 0 (⟨1, 0, 0, 0, 0, List.replicate 65533 0⟩ : DHCPv6Packet)).options 14
            (⟨1, 0, 0, 0, 0, List.replicate 65533 0⟩ : DHCPv6Packet).computePacketLength.toUInt16.toNat =
          .ok ((⟨1, 0, 0, 0, 0, List.replicate 65533 0⟩ : DHCPv6Packet).write.take ((⟨1, 0, 0, 0, 0, List.replicate 65533 0⟩ : DHCPv6Packet).computePacketLength % 2 ^ 16)) ∧
        (⟨1, 0, 0, 0, 0, List.replicate 65533 0⟩ : DHCPv6Packet).write.take ((⟨1, 0, 0, 0, 0, List.replicate 65533 0⟩ : DHCPv6Packet).computePacketLength % 2 ^ 16) ≠ (⟨1, 0, 0, 0, 0, List.replicate 65533 0⟩ : DHCPv6Packet).write) ∧
      processDHCPv6Packet 0x020000000001 0 (⟨1, 0, 0, 0, 0, List.replicate 65533 0⟩ : DHCPv6Packet) =
        some (relayForwardPacket 0x020000000001 0 (⟨1, 0, 0, 0, 0, List.replicate 65533 0⟩ : DHCPv6Packet)).write := by
  have hnot : (⟨1, 0, 0, 0, 0, List.replicate 65533 0⟩ : DHCPv6Packet).isDHCPv6Relay = false := rfl
  have hlen : (⟨1, 0, 0, 0, 0, List.replicate 65533 0⟩ : DHCPv6Packet).computePacketLength = 65537 := by
    rw [computePacketLength, hnot, if_neg Bool.false_ne_true, List.length_replicate]
    rfl
  have hcond : 2 ^ 16 ≤ (⟨1, 0, 0, 0, 0, List.replicate 65533 0⟩ : DHCPv6Packet).computePacketLength ∧ (⟨1, 0, 0, 0, 0, List.replicate 65533 0⟩ : DHCPv6Packet).computePacketLength % 2 ^ 16 ≠ 0 := by
    rw [hlen]
    decide
  refine ⟨hcond, relay_message_truncated 0x020000000001 0 _ hcond.1 hcond.2, ?_⟩
  -- the relay-forward message is 49 bytes, under `MAX_DHCPV6_MSG_LENGTH`
  have hrelay : (relayForwardPacket 0x020000000001 0 (⟨1, 0, 0, 0, 0, List.replicate 65533 0⟩ : DHCPv6Packet)).isDHCPv6Relay = true := rfl
  have hshort : (relayForwardPacket 0x020000000001 0 (⟨1, 0, 0, 0, 0, List.replicate 65533 0⟩ : DHCPv6Packet)).computePacketLength = 49 := by
    rw [computePacketLength, if_pos hrelay, length_relayForwardPacket_options, hlen]
    rfl
  rw [processDHCPv6Packet, hshort, if_neg (by decide)]

/-! ### What the reply handler trusts -/

/-- `extractOptions` returns an option whose length runs past the end of the
options, and drops an option without data that ends the options; the reply
handler reads the interface ID of a reply as the six bytes at its data
whatever its length, and an interface ID whose data runs to the end makes the
read fail. -/
theorem relay_reply_trusts_option_lengths :
    (⟨13, 0, 0, 0, 0, [0, 9, 0, 100, 1]⟩ : DHCPv6Packet).extractOptions [] = .ok [⟨9, 100, 4⟩] ∧
      (⟨13, 0, 0, 0, 0, [0, 1, 0, 0]⟩ : DHCPv6Packet).extractOptions [] = .ok [] ∧
      processDHCPv6RelayReply ⟨13, 0, 0, 0, 0, [0, 18, 0, 6, 2, 0, 0, 0, 0, 1, 0, 9, 0, 100, 7]⟩ =
        .error "index out of range" ∧
      processDHCPv6RelayReply ⟨13, 0, 0, 0, 0, [0, 18, 0, 2, 2, 1, 0, 9, 0, 1, 7]⟩ =
        .ok (some (0x020100090001, [7])) :=
  ⟨rfl, rfl, rfl, rfl⟩

end DHCPv6Handler

end Fboss
