import Fboss.Lib.IndexLoop
import Fboss.RadixTree.Node

/-!
# DHCPv4 packets and their options

`DHCPv4Packet` keeps the options of a packet as a byte vector: PAD and END
are single bytes, every other option is a code, a length and that many bytes.
`appendOption` writes one option, `padToMinLength` pads the packet with PAD to
the 300 bytes of a BOOTP message, and `getOptionSlow` walks the vector for an
option.

The walks read the vector with `operator[]`, which does not check the index:
a read past the end is undefined behaviour. The model reads through
`optionAt` and `optionBytes`, which return an error there, so that a walk that
reads past the end is one that ends in that error. Of the packet, only the
cookie and the options are modelled; the fixed part counts in `size()` by its
length alone.
-/

namespace Fboss

/-! `DHCPv4Handler::OptionsOfInterest` and `SubOptionsOfInterest`. -/

namespace DHCPv4Handler

def PAD : UInt8 := 0
def DHCP_MESSAGE_TYPE : UInt8 := 53
def DHCP_MAX_MESSAGE_SIZE : UInt8 := 57
def DHCP_AGENT_OPTIONS : UInt8 := 82
def END : UInt8 := 255
def AGENT_CIRCUIT_ID : UInt8 := 1

end DHCPv4Handler

/-- `options[i]`. An index past the end is an error. -/
def optionAt (options : List UInt8) (i : Nat) : Except String UInt8 :=
  if h : i < options.length then .ok (options.get ⟨i, h⟩) else .error "index out of range"

/-- The `len` bytes from `&options[start]`, as `std::copy` reads them. A byte
past the end is an error. -/
def optionBytes (options : List UInt8) (start len : Nat) : Except String (List UInt8) :=
  if start + len ≤ options.length then .ok ((options.drop start).take len) else .error "index out of range"

/-- `DHCPv4Packet`: the cookie and the options. -/
structure DHCPv4Packet where
  dhcpCookie : List UInt8
  options : List UInt8
  deriving DecidableEq, Repr

namespace DHCPv4Packet

/-- `kFixedPartBytes`: the fields before the cookie. -/
def kFixedPartBytes : Nat := 236

/-- `kMinSize`. -/
def kMinSize : Nat := 300

/-- `size()`. -/
def size (p : DHCPv4Packet) : Nat :=
  kFixedPartBytes + p.dhcpCookie.length + p.options.length

/-- `clearOptions()`. -/
def clearOptions (p : DHCPv4Packet) : DHCPv4Packet :=
  { p with options := [] }

/-- `isOptionWithoutLength(op)`: PAD and END have no length byte. -/
def isOptionWithoutLength (op : UInt8) : Bool :=
  op == DHCPv4Handler.PAD || op == DHCPv4Handler.END

/-- `appendOption(op, len, bytes)`: the option, with its length and bytes
unless it has none. -/
def appendOption (p : DHCPv4Packet) (op len : UInt8) (bytes : List UInt8) : DHCPv4Packet :=
  if isOptionWithoutLength op then { p with options := p.options ++ [op] }
  else { p with options := p.options ++ [op, len] ++ bytes }

/-- `appendPadding(length)`. -/
def appendPadding (p : DHCPv4Packet) (length : Nat) : DHCPv4Packet :=
  { p with options := p.options ++ List.replicate length DHCPv4Handler.PAD }

/-- `padToMinLength()`. -/
def padToMinLength (p : DHCPv4Packet) : DHCPv4Packet :=
  if p.size < kMinSize then p.appendPadding (kMinSize - p.size) else p

/-- One turn of the walk of `getOptionSlow(op, options, optionData)`: the
option at `optIndex`, its data when it is `op`, and the next index. The walk
returns on the option it looks for; the index after it is not read. -/
def getOptionSlowStep (op : UInt8) (options : List UInt8) (found : Option (List UInt8)) (optIndex : Nat) :
    Except String (Option (List UInt8) × Nat) := do
  let curOp ← optionAt options optIndex
  let opDataLen ← (if isOptionWithoutLength curOp then pure 0 else optionAt options (optIndex + 1))
  if op = curOp then do
    let optionData ← (if opDataLen ≠ 0 then optionBytes options (optIndex + 2) opDataLen.toNat else pure [])
    pure (some optionData, optIndex + 1)
  else pure (found, optIndex + if opDataLen = 0 then 1 else 2 + opDataLen.toNat)

/-- `getOptionSlow(op, options, optionData)`: whether the option is there, and
its data. -/
def getOptionSlow (op : UInt8) (options : List UInt8) : Except String (Bool × List UInt8) :=
  (IndexLoop.whileLt options.length (fun found => found.isNone) (getOptionSlowStep op options) none 0).map
    fun r => match r.1 with
      | some optionData => (true, optionData)
      | none => (false, [])

end DHCPv4Packet

end Fboss
