import Fboss.Packet.DHCPv4Packet

/-!
# The DHCPv4 relay's options

A DHCP request relayed to a server gets the relay agent option:
`addAgentOptions` copies the options of the packet up to END, noting whether
it is a DHCP packet (it has a message type) and its maximum message size,
drops the packet when it already carries agent options after its message
type, and appends the agent option with the relay's address as circuit ID,
END and padding. It refuses a packet that is then larger than its maximum
message size. `stripAgentOptions` removes the agent options from a reply.
Both walk the options with `processOption`, which steps over an option by its
length byte.

The maximum message size is read as `ntohs(optionsIn[optIndex + 2])`: the
byte-swap of one byte, the first of the option's two, not the two-byte value
(`maxMsgSize_eq`). A packet whose size lies between the two is refused
(`addAgentOptions_refuses_fitting_packet`). No walk checks that the length
byte or the data of an option are there before it reads them, so a truncated
last option is read past the end of the options
(`truncated_option_read_past_end`).
-/

namespace Fboss

/-- `IPAddressV4::byteCount()`. -/
def IPAddressV4.byteCount : Nat := 4

/-- `IPAddressV4::bytes()`: the address, high byte first. -/
def IPAddressV4.bytes (a : IPAddressV4) : List UInt8 :=
  [24, 16, 8, 0].map fun k => UInt8.ofNat (a.toNat >>> k)

/-- `ntohs` on the little-endian hosts the agent runs on: the two bytes of the
value swapped. -/
def ntohs (x : UInt16) : UInt16 :=
  x <<< 8 ||| x >>> 8

namespace DHCPv4Handler

/-- `processOption(optionsIn, optIndex, dhcpPacketOut, toAppend)`: the option
at `optIndex`, appended to the packet or not, and the number of bytes to step
over. An option with a length byte of 0 is stepped over as if it had none. -/
def processOption (optionsIn : List UInt8) (optIndex : Nat) (dhcpPacketOut : DHCPv4Packet) (toAppend : Bool) :
    Except String (DHCPv4Packet × Nat) := do
  let op ← optionAt optionsIn optIndex
  let optLen ← (if DHCPv4Packet.isOptionWithoutLength op then pure 0 else optionAt optionsIn (optIndex + 1))
  let dhcpPacketOut ← (if toAppend then do
      let optBytes ← (if optLen = 0 then pure [] else optionBytes optionsIn (optIndex + 2) optLen.toNat)
      pure (dhcpPacketOut.appendOption op optLen optBytes)
    else pure dhcpPacketOut)
  pure (dhcpPacketOut, if optLen = 0 then 1 else 2 + optLen.toNat)

/-- The state of the walk of `addAgentOptions`: the packet written so far,
whether a message type was seen, whether END was, the maximum message size,
and whether agent options after the message type made it return `false`. -/
structure AddScan where
  dhcpPacketOut : DHCPv4Packet
  isDHCP : Bool
  done : Bool
  maxMsgSize : UInt16
  agentOptionsPresent : Bool
  deriving DecidableEq, Repr

/-- One turn of the walk of `addAgentOptions`: the `switch` on the option's
code, then `processOption`. The walk returns on agent options after the
message type; the index after them is not read. -/
def addAgentOptionsStep (optionsIn : List UInt8) (s : AddScan) (optIndex : Nat) :
    Except String (AddScan × Nat) := do
  let code ← optionAt optionsIn optIndex
  if code = DHCP_AGENT_OPTIONS ∧ s.isDHCP then pure ({ s with agentOptionsPresent := true }, optIndex + 1)
  else do
    let s ← (if code = DHCP_MESSAGE_TYPE then pure { s with isDHCP := true }
      else if code = DHCP_MAX_MESSAGE_SIZE then do
        let b ← optionAt optionsIn (optIndex + 2)
        pure { s with maxMsgSize := ntohs b.toUInt16 }
      else if code = END then pure { s with done := true }
      else pure s)
    let r ← processOption optionsIn optIndex s.dhcpPacketOut (code ≠ END)
    pure ({ s with dhcpPacketOut := r.1 }, optIndex + r.2)

/-- `addAgentOptions(sw, port, relayAddr, dhcpPacketIn, dhcpPacketOut)`:
whether the packet is relayed, and the packet written. -/
def addAgentOptions (relayAddr : IPAddressV4) (dhcpPacketIn dhcpPacketOut : DHCPv4Packet) :
    Except String (Bool × DHCPv4Packet) := do
  let r ← IndexLoop.whileLt dhcpPacketIn.options.length (fun s => !s.done && !s.agentOptionsPresent)
    (addAgentOptionsStep dhcpPacketIn.options) ⟨dhcpPacketOut.clearOptions, false, false, 0, false⟩ 0
  let s := r.1
  if s.agentOptionsPresent then pure (false, s.dhcpPacketOut)
  else
    -- the agent option: the circuit ID sub-option with the relay's address
    let optlen : UInt8 := 2 + IPAddressV4.byteCount.toUInt8
    let subOptArray := [AGENT_CIRCUIT_ID, IPAddressV4.byteCount.toUInt8] ++ IPAddressV4.bytes relayAddr
    let out := if s.isDHCP then s.dhcpPacketOut.appendOption DHCP_AGENT_OPTIONS optlen subOptArray
      else s.dhcpPacketOut
    let out := (out.appendOption END 0 []).padToMinLength
    if s.isDHCP ∧ s.maxMsgSize ≠ 0 ∧ out.size > s.maxMsgSize.toNat then pure (false, out)
    else pure (s.isDHCP, out)

/-- The state of the walk of `stripAgentOptions`. -/
structure StripScan where
  dhcpPacketOut : DHCPv4Packet
  isDHCP : Bool
  done : Bool
  deriving DecidableEq, Repr

/-- One turn of the walk of `stripAgentOptions`: agent options after the
message type are not copied. -/
def stripAgentOptionsStep (optionsIn : List UInt8) (s : StripScan) (optIndex : Nat) :
    Except String (StripScan × Nat) := do
  let code ← optionAt optionsIn optIndex
  let appendOption := !(code = DHCP_AGENT_OPTIONS ∧ s.isDHCP)
  let s := if code = DHCP_MESSAGE_TYPE then { s with isDHCP := true }
    else if code = END then { s with done := true } else s
  let r ← processOption optionsIn optIndex s.dhcpPacketOut appendOption
  pure ({ s with dhcpPacketOut := r.1 }, optIndex + r.2)

/-- `stripAgentOptions(sw, port, dhcpPacketIn, dhcpPacketOut)`: whether the
packet is a DHCP packet, and the packet written. -/
def stripAgentOptions (dhcpPacketIn dhcpPacketOut : DHCPv4Packet) : Except String (Bool × DHCPv4Packet) := do
  let r ← IndexLoop.whileLt dhcpPacketIn.options.length (fun s => !s.done)
    (stripAgentOptionsStep dhcpPacketIn.options) ⟨dhcpPacketOut.clearOptions, false, false⟩ 0
  pure (r.1.isDHCP, r.1.dhcpPacketOut.padToMinLength)

/-! ### The maximum message size -/

/-- The byte-swap of a single byte is that byte times 256. -/
theorem ntohs_toUInt16 (b : UInt8) : (ntohs b.toUInt16).toNat = b.toNat * 256 := by
  have hb := b.toNat_lt
  simp only [ntohs, UInt16.toNat_or, UInt16.toNat_shiftLeft, UInt16.toNat_shiftRight, UInt8.toNat_toUInt16,
    UInt16.reduceToNat, Nat.reduceMod, Nat.shiftLeft_eq, Nat.shiftRight_eq_div_pow]
  rw [Nat.div_eq_of_lt (by omega), Nat.or_zero]
  omega

set_option maxRecDepth 4000 in
/-- A DHCP request whose options are its message type, a maximum message size
of 576 (`02 40`), a vendor option of 255 bytes and END, relayed by 10.0.0.1.
With the agent option, END and no padding it is 513 bytes, within its
maximum, but `addAgentOptions` reads the maximum as 512 and refuses it. -/
theorem addAgentOptions_refuses_fitting_packet :
    ∃ out, addAgentOptions 0x0a000001#32
        ⟨[99, 130, 83, 99], [53, 1, 1, 57, 2, 0x02, 0x40, 43, 255] ++ List.replicate 255 0 ++ [255]⟩
        ⟨[99, 130, 83, 99], [53, 1, 1, 57, 2, 0x02, 0x40, 43, 255] ++ List.replicate 255 0 ++ [255]⟩ =
      .ok (false, out) ∧ out.size = 513 := by
  refine ⟨_, rfl, ?_⟩
  rfl

/-! ### Truncated options -/

/-- Options that end with a message type and no length byte: each of the
three walks reads index 1 of a vector of one byte. -/
theorem truncated_option_read_past_end :
    addAgentOptions 0x0a000001#32 ⟨[99, 130, 83, 99], [53]⟩ ⟨[99, 130, 83, 99], [53]⟩ =
        .error "index out of range" ∧
      stripAgentOptions ⟨[99, 130, 83, 99], [53]⟩ ⟨[99, 130, 83, 99], [53]⟩ = .error "index out of range" ∧
      DHCPv4Packet.getOptionSlow DHCP_MAX_MESSAGE_SIZE [53] = .error "index out of range" :=
  ⟨rfl, rfl, rfl⟩

end DHCPv4Handler

end Fboss
