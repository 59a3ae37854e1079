import Fboss.Packet.DHCPv4Packet
import Fboss.Packet.EthHdr

/-!
# DHCPv6 packets and their options

A `DHCPv6Packet` (RFC 3315) is a message type followed by a transaction ID in
three bytes or, for the two relay messages, by a hop count and the link and
peer addresses; its options follow as a byte vector of TLVs, each a 16-bit
code and a 16-bit length, high byte first, and that many bytes of data.
`write` writes a packet and `parse` reads one back. `appendOption` adds an
option, `addRelayMessageOption` a whole packet as a relay message and
`addInterfaceIDOption` a MAC address as an interface ID. `extractOptions`
walks the options and returns the code, the length and the place of the data
of each.

The walk runs while `i < options.size() - 4`, a `size_t` subtraction. For a
vector shorter than 4 bytes it wraps, and the walk reads a header that is not
there (`extractOptions_of_length_lt`). For any other vector it stops before a
header that starts 4 bytes before the end, so a last option without data is
not returned: the options of a vector that is a list of TLVs come back as
they were written when the last one has data (`extractOptions_encodeOptions`).
No length is checked against the bytes left: every option returned starts
inside the vector (`extractOptions_spec`), but its data may run past its end.

A packet that is not a relay message reads back as written when its
transaction ID fits 24 bits, and a relay message always does
(`parse_write_beq`), each up to `operator==`, which compares only the fields of
its kind.
-/

namespace Fboss

/-- `IPAddressV6::bytes()`: the sixteen bytes of an address, high byte first. -/
def IPAddressV6.bytes (a : IPAddressV6) : List UInt8 :=
  Bytes.beN 16 a.toNat

/-- `IPAddressV6::fromBinary`: an address from its bytes, high byte first. -/
def IPAddressV6.fromBinary (bs : List UInt8) : IPAddressV6 :=
  BitVec.ofNat 128 (Bytes.ofBE bs)

@[simp] theorem IPAddressV6.length_bytes (a : IPAddressV6) : (IPAddressV6.bytes a).length = 16 :=
  Bytes.length_beN 16 a.toNat

@[simp] theorem IPAddressV6.fromBinary_bytes (a : IPAddressV6) :
    IPAddressV6.fromBinary (IPAddressV6.bytes a) = a := by
  have ha : a.toNat < 256 ^ 16 := lt_of_lt_of_eq a.isLt (by norm_num)
  apply BitVec.eq_of_toNat_eq
  rw [IPAddressV6.fromBinary, IPAddressV6.bytes, Bytes.ofBE_beN, BitVec.toNat_ofNat,
    Nat.mod_eq_of_lt ha, Nat.mod_eq_of_lt a.isLt]

namespace PktUtil

/-- `PktUtil::readIPv6(cursor)`: sixteen bytes, read in place when the current
buffer has them and copied across buffers otherwise. -/
def readIPv6 (c : Folly.Cursor) : Except String (IPAddressV6 × Folly.Cursor) :=
  if c.length ≥ 16 then (c.skip 16).map fun c' => (IPAddressV6.fromBinary (c.crt.take 16), c')
  else (c.pull 16).map fun r => (IPAddressV6.fromBinary r.1, r.2)

end PktUtil

/-! `DHCPv6Type` and `DHCPv6OptionType`: the message types of the relay
messages and the option types of the relay agent. -/

namespace DHCPv6Type

def DHCPv6_RELAY_FORWARD : UInt8 := 12
def DHCPv6_RELAY_REPLY : UInt8 := 13

end DHCPv6Type

namespace DHCPv6OptionType

def DHCPv6_OPTION_RELAY_MSG : UInt16 := 9
def DHCPv6_OPTION_INTERFACE_ID : UInt16 := 18

end DHCPv6OptionType

/-- `DHCPv6Packet`. -/
structure DHCPv6Packet where
  type : UInt8
  hopCount : UInt8
  transactionId : UInt32
  linkAddr : IPAddressV6
  peerAddr : IPAddressV6
  options : List UInt8
  deriving DecidableEq, Repr

/-- `DHCPv6Option`: the code, the length, and the place of the data in the
options vector, `data - &options[0]`. -/
structure DHCPv6Option where
  op : UInt16
  len : UInt16
  data : Nat
  deriving DecidableEq, Repr

/-- `DHCPv6Option::parse(optionsIn, index)`: the header, read from a buffer
over the vector from `index` on. A header cut short throws. -/
def DHCPv6Option.parse (optionsIn : List UInt8) (index : Nat) : Except String DHCPv6Option := do
  let (op, c) ← (Folly.Cursor.ofBytes (optionsIn.drop index)).readBE16
  let (len, _) ← c.readBE16
  pure ⟨op, len, index + 4⟩

namespace DHCPv6Packet

def TYPE_BYTES : Nat := 1
def HOPCOUNT_BYTES : Nat := 1
def LINKADDR_BYTES : Nat := 16
def PEERADDR_BYTES : Nat := 16
def TRANSACTIONID_BYTES : Nat := 3
def MAX_DHCPV6_MSG_LENGTH : Nat := 1214

/-- `isDHCPv6Relay()`. -/
def isDHCPv6Relay (p : DHCPv6Packet) : Bool :=
  p.type == DHCPv6Type.DHCPv6_RELAY_FORWARD || p.type == DHCPv6Type.DHCPv6_RELAY_REPLY

/-- `computePacketLength()`. -/
def computePacketLength (p : DHCPv6Packet) : Nat :=
  if p.isDHCPv6Relay then
    TYPE_BYTES + HOPCOUNT_BYTES + LINKADDR_BYTES + PEERADDR_BYTES + p.options.length
  else TYPE_BYTES + TRANSACTIONID_BYTES + p.options.length

/-- `write(cursor)`: the bytes written. A packet that is not a relay message
has its type and the low 24 bits of its transaction ID in one word. -/
def write (p : DHCPv6Packet) : List UInt8 :=
  (if p.isDHCPv6Relay then
    [p.type, p.hopCount] ++ IPAddressV6.bytes p.linkAddr ++ IPAddressV6.bytes p.peerAddr
  else Bytes.be32 (p.type.toUInt32 <<< 24 ||| (p.transactionId &&& 0x00ffffff))) ++ p.options

/-- `parse(cursor)` into the packet `p`: the fields of the packet's kind are
read, the bytes left are appended to `p`'s options, and the other fields keep
their values. A packet too short for its fixed part throws. -/
def parse (p : DHCPv6Packet) (c : Folly.Cursor) : Except String DHCPv6Packet :=
  Except.mapError (fun _ => "DHCPv6 packet parse error: too small packet") do
    let (type, c) ← c.read8
    let p := { p with type := type }
    let (p, c) ← (if p.isDHCPv6Relay then do
        let (hopCount, c) ← c.read8
        let (linkAddr, c) ← PktUtil.readIPv6 c
        let (peerAddr, c) ← PktUtil.readIPv6 c
        pure ({ p with hopCount := hopCount, linkAddr := linkAddr, peerAddr := peerAddr }, c)
      else do
        let (high, c) ← c.read8
        let (low, c) ← c.readBE16
        pure ({ p with transactionId := (high.toUInt32 <<< 16) + low.toUInt32 }, c))
    pure { p with options := p.options ++ c.remaining }

/-- `operator==`: a relay message compares its hop count and addresses, any
other packet its transaction ID. -/
def beq (p r : DHCPv6Packet) : Bool :=
  if p.isDHCPv6Relay then
    p.type == r.type && p.hopCount == r.hopCount && p.linkAddr == r.linkAddr &&
      p.peerAddr == r.peerAddr && p.options == r.options
  else p.type == r.type && p.transactionId == r.transactionId && p.options == r.options

/-- `appendOption(op, len, bytes)`: the code and the length, high byte first,
then `len` bytes from `bytes`, which every caller has. It returns the number
of bytes appended. -/
def appendOption (p : DHCPv6Packet) (op len : UInt16) (bytes : List UInt8) : DHCPv6Packet × Nat :=
  ({ p with options := p.options ++ Bytes.be16 op ++ Bytes.be16 len ++ bytes.take len.toNat },
    4 + len.toNat)

/-- `addRelayMessageOption(dhcpPktIn)`: the packet's bytes as a relay message,
its length passed as the `uint16_t` of `appendOption`. -/
def addRelayMessageOption (p dhcpPktIn : DHCPv6Packet) : DHCPv6Packet :=
  let totalLength := dhcpPktIn.computePacketLength
  (p.appendOption DHCPv6OptionType.DHCPv6_OPTION_RELAY_MSG totalLength.toUInt16 dhcpPktIn.write).1

/-- `addInterfaceIDOption(macAddr)`: the `MacAddress::SIZE` bytes of the
address. -/
def addInterfaceIDOption (p : DHCPv6Packet) (macAddr : MacAddress) : DHCPv6Packet :=
  (p.appendOption DHCPv6OptionType.DHCPv6_OPTION_INTERFACE_ID 6 macAddr.bytes).1

/-- Whether `extractOptions` keeps an option: the selector is empty or has its
code. -/
def selects (optionSelector : List UInt16) (opt : DHCPv6Option) : Bool :=
  optionSelector.isEmpty || optionSelector.contains opt.op

/-- One turn of the walk of `extractOptions(optionSelector)`: the option at
`i`, kept if selected, and the index after its data, by its length. -/
def extractOptionsStep (options : List UInt8) (optionSelector : List UInt16)
    (parsedOptions : List DHCPv6Option) (i : Nat) : Except String (List DHCPv6Option × Nat) := do
  let opt ← DHCPv6Option.parse options i
  let parsedOptions := if selects optionSelector opt then parsedOptions ++ [opt] else parsedOptions
  pure (parsedOptions, i + (opt.len.toNat + 4))

/-- `extractOptions(optionSelector)`. The bound of the loop is
`options.size() - 4` in `size_t`; the index is an `int`, which does not
overflow below 2 GiB of options. -/
def extractOptions (p : DHCPv6Packet) (optionSelector : List UInt16) :
    Except String (List DHCPv6Option) :=
  (IndexLoop.whileLt (p.options.length.toUInt64 - 4).toNat (fun _ => true)
    (extractOptionsStep p.options optionSelector) [] 0).map Prod.fst

/-! ### The walk over the options -/

theorem advances_extractOptionsStep (options : List UInt8) (optionSelector : List UInt16) :
    IndexLoop.Advances (extractOptionsStep options optionSelector) := by
  intro parsedOptions i r hr
  unfold extractOptionsStep at hr
  cases hparse : DHCPv6Option.parse options i with
  | error e => rw [hparse] at hr; cases hr
  | ok opt =>
    rw [hparse, Except.ok_bind] at hr
    cases hr
    omega

/-- The bound of the walk, `options.size() - 4` in `size_t`. -/
theorem toNat_length_sub_four (n : Nat) :
    (n.toUInt64 - 4).toNat = (2 ^ 64 - 4 + n % 2 ^ 64) % 2 ^ 64 := by
  simp [UInt64.toNat_sub]

/-- A length below `2 ^ 16` is written as itself. -/
theorem toNat_toUInt16_of_lt {n : Nat} (h : n < 2 ^ 16) : n.toUInt16.toNat = n := by
  rw [Nat.toUInt16, UInt16.toNat_ofNat']
  omega

end DHCPv6Packet

/-- A header is read when four bytes are left from `index`, and its data
starts after it. -/
theorem DHCPv6Option.parse_spec (optionsIn : List UInt8) (index : Nat) :
    Except.Spec (fun _ => optionsIn.length < index + 4)
      (fun opt => opt.data = index + 4 ∧ index + 4 ≤ optionsIn.length)
      (DHCPv6Option.parse optionsIn index) := by
  have hc : (Folly.Cursor.ofBytes (optionsIn.drop index)).totalLength = optionsIn.length - index := by
    simp [Folly.Cursor.totalLength]
  unfold DHCPv6Option.parse
  -- the code, then the length, each of two bytes
  refine ((Folly.Cursor.readBE16_spec _).mono_error fun _ h => by omega).bind fun r1 h1 => ?_
  obtain ⟨op, c1⟩ := r1
  dsimp only at h1
  refine ((Folly.Cursor.readBE16_spec c1).mono_error fun _ h => by omega).bind fun r2 h2 => ?_
  obtain ⟨len, c2⟩ := r2
  dsimp only at h2
  exact ⟨rfl, by omega⟩

namespace DHCPv6Packet

/-- Over a vector of at least four bytes the walk ends without an error, and
every option it returns starts inside the vector: a header is read only while
more than four bytes are left. The length of an option is not checked. -/
theorem extractOptions_spec {p : DHCPv6Packet} (h4 : 4 ≤ p.options.length)
    (hsize : p.options.length < 2 ^ 64) (optionSelector : List UInt16) :
    Except.Spec (fun _ => False) (fun opts => ∀ o ∈ opts, o.data < p.options.length)
      (p.extractOptions optionSelector) := by
  have hbound : (p.options.length.toUInt64 - 4).toNat = p.options.length - 4 := by
    rw [toNat_length_sub_four, Nat.mod_eq_of_lt hsize]
    omega
  -- the invariant: every option kept so far starts inside the vector
  have hstep : ∀ (parsed : List DHCPv6Option) (i : Nat), (∀ o ∈ parsed, o.data < p.options.length) →
      i < (p.options.length.toUInt64 - 4).toNat → (fun _ => true) parsed = true →
      Except.Spec (fun _ => False) (fun r : List DHCPv6Option × Nat => ∀ o ∈ r.1, o.data < p.options.length)
        (extractOptionsStep p.options optionSelector parsed i) := by
    intro parsed i hparsed hi _
    rw [hbound] at hi
    refine ((DHCPv6Option.parse_spec p.options i).mono_error fun _ _ => by omega).bind
      fun opt hopt => ?_
    show ∀ o ∈ (if selects optionSelector opt then parsed ++ [opt] else parsed),
      o.data < p.options.length
    split_ifs
    · intro o ho
      rcases List.mem_append.mp ho with ho | ho
      · exact hparsed o ho
      · rw [List.mem_singleton.mp ho]
        omega
    · exact hparsed
  rw [extractOptions]
  exact (IndexLoop.whileLt_spec (advances_extractOptionsStep p.options optionSelector) _ _ hstep
    (s := []) (i := 0) (by simp)).map fun _ h => h

/-- A client identifier option of two bytes. -/
theorem extractOptions_spec_client_id :
    let p : DHCPv6Packet := ⟨1, 0, 7, 0, 0, [0, 1, 0, 2, 0xab, 0xcd]⟩
    4 ≤ p.options.length ∧ p.options.length < 2 ^ 64 ∧
      Except.Spec (fun _ => False) (fun opts => ∀ o ∈ opts, o.data < p.options.length) (p.extractOptions []) :=
  ⟨by decide, by decide, extractOptions_spec (by decide) (by decide) []⟩

/-- An option as `appendOption` writes it from its code and its data. -/
def encodeOption (op : UInt16) (data : List UInt8) : List UInt8 :=
  Bytes.be16 op ++ Bytes.be16 data.length.toUInt16 ++ data

/-- Options written one after the other. -/
def encodeOptions (os : List (UInt16 × List UInt8)) : List UInt8 :=
  os.flatMap fun o => encodeOption o.1 o.2

/-- The options `os` as `extractOptions` returns them when the first starts at
`i`. -/
def optionsAt : Nat → List (UInt16 × List UInt8) → List DHCPv6Option
  | _, [] => []
  | i, o :: os => ⟨o.1, o.2.length.toUInt16, i + 4⟩ :: optionsAt (i + 4 + o.2.length) os

@[simp] theorem length_encodeOption (op : UInt16) (data : List UInt8) :
    (encodeOption op data).length = data.length + 4 := by
  simp [encodeOption, Bytes.be16]

@[simp] theorem encodeOptions_nil : encodeOptions [] = [] := rfl

@[simp] theorem encodeOptions_cons (o : UInt16 × List UInt8) (os : List (UInt16 × List UInt8)) :
    encodeOptions (o :: os) = encodeOption o.1 o.2 ++ encodeOptions os := rfl

/-- `appendOption` writes an option from the first `len` bytes it is given. -/
theorem appendOption_options (p : DHCPv6Packet) (op len : UInt16) {bytes : List UInt8}
    (h : len.toNat ≤ bytes.length) :
    (p.appendOption op len bytes).1.options = p.options ++ encodeOption op (bytes.take len.toNat) := by
  have hlen : (bytes.take len.toNat).length.toUInt16 = len := by
    rw [List.length_take, Nat.min_eq_left h, Nat.toUInt16, UInt16.ofNat_toNat]
  simp only [appendOption, encodeOption, hlen, List.append_assoc]

/-- A header after `pre` is read at the end of `pre`, whatever follows it. -/
theorem parse_header (pre rest : List UInt8) (op len : UInt16) :
    DHCPv6Option.parse (pre ++ Bytes.be16 op ++ Bytes.be16 len ++ rest) pre.length =
      .ok ⟨op, len, pre.length + 4⟩ := by
  have hdrop : (pre ++ Bytes.be16 op ++ Bytes.be16 len ++ rest).drop pre.length =
      (op >>> 8).toUInt8 :: op.toUInt8 :: (len >>> 8).toUInt8 :: len.toUInt8 :: rest := by
    simp [Bytes.be16]
  simp only [DHCPv6Option.parse, hdrop, Folly.Cursor.readBE16_ofBytes, Except.ok_bind,
    Bytes.ofBE16_be16]
  rfl

/-- One turn of the walk at a header after `pre`: the option is kept if
selected, and the walk goes on after its length, whatever follows. -/
theorem extractOptionsStep_header (optionSelector : List UInt16) (pre rest : List UInt8)
    (op len : UInt16) (parsed : List DHCPv6Option) :
    extractOptionsStep (pre ++ Bytes.be16 op ++ Bytes.be16 len ++ rest) optionSelector parsed pre.length =
      .ok (parsed ++ [⟨op, len, pre.length + 4⟩].filter (selects optionSelector),
        pre.length + (len.toNat + 4)) := by
  rw [extractOptionsStep, parse_header pre rest op len, Except.ok_bind]
  simp only [List.filter_cons, List.filter_nil]
  split_ifs
  · rfl
  · rw [List.append_nil]
    rfl

theorem encodeOption_append (pre rest : List UInt8) (op : UInt16) (data : List UInt8) :
    pre ++ encodeOption op data ++ rest =
      pre ++ Bytes.be16 op ++ Bytes.be16 data.length.toUInt16 ++ (data ++ rest) := by
  simp [encodeOption]

/-- One turn of the walk over an option written after `pre`. -/
theorem extractOptionsStep_encodeOption (optionSelector : List UInt16) (pre rest : List UInt8)
    (op : UInt16) {data : List UInt8} (hdata : data.length < 2 ^ 16) (parsed : List DHCPv6Option) :
    extractOptionsStep (pre ++ encodeOption op data ++ rest) optionSelector parsed pre.length =
      .ok (parsed ++ (optionsAt pre.length [(op, data)]).filter (selects optionSelector),
        (pre ++ encodeOption op data).length) := by
  rw [encodeOption_append, extractOptionsStep_header, List.length_append, length_encodeOption,
    toNat_toUInt16_of_lt hdata]
  rfl

theorem optionsAt_cons (i : Nat) (o : UInt16 × List UInt8) (os : List (UInt16 × List UInt8)) :
    optionsAt i (o :: os) = optionsAt i [o] ++ optionsAt (i + (o.2.length + 4)) os := by
  rw [optionsAt, optionsAt, optionsAt, List.singleton_append,
    show i + 4 + o.2.length = i + (o.2.length + 4) by omega]

/-- The walk over options written after `pre`: it reads each in turn, and
stops at the end, since the last one has data. -/
theorem whileLt_encodeOptions (optionSelector : List UInt16) :
    ∀ (os : List (UInt16 × List UInt8)) (pre : List UInt8) (parsed : List DHCPv6Option),
      (∀ o ∈ os, o.2.length < 2 ^ 16) → (∀ o ∈ os.getLast?, o.2 ≠ []) →
      4 ≤ (pre ++ encodeOptions os).length → (pre ++ encodeOptions os).length < 2 ^ 64 →
      IndexLoop.whileLt ((pre ++ encodeOptions os).length.toUInt64 - 4).toNat (fun _ => true)
          (extractOptionsStep (pre ++ encodeOptions os) optionSelector) parsed pre.length =
        .ok (parsed ++ (optionsAt pre.length os).filter (selects optionSelector),
          (pre ++ encodeOptions os).length)
  | [], pre, parsed, _, _, h4, hsize => by
    simp only [encodeOptions_nil, List.append_nil] at h4 hsize ⊢
    rw [IndexLoop.whileLt_eq (advances_extractOptionsStep _ _), if_neg]
    · simp [optionsAt]
    · rw [toNat_length_sub_four, Nat.mod_eq_of_lt hsize]
      omega
  | o :: os, pre, parsed, hlen, hlast, h4, hsize => by
    have hdata := hlen o List.mem_cons_self
    -- more than four bytes are left at `o`: it has data, or more options follow it
    have hmore : 0 < o.2.length + (encodeOptions os).length := by
      cases os with
      | nil => simpa using List.length_pos_of_ne_nil (hlast o rfl)
      | cons o' os' => simp
    have hlast' : ∀ o' ∈ os.getLast?, o'.2 ≠ [] := by
      cases os with
      | nil => simp
      | cons o' os' => exact fun o'' h => hlast o'' (by rwa [List.getLast?_cons_cons])
    have hsplit : pre ++ encodeOptions (o :: os) = pre ++ encodeOption o.1 o.2 ++ encodeOptions os := by
      rw [encodeOptions_cons, List.append_assoc]
    rw [hsplit] at h4 hsize ⊢
    have hih := whileLt_encodeOptions optionSelector os (pre ++ encodeOption o.1 o.2)
      (parsed ++ (optionsAt pre.length [(o.1, o.2)]).filter (selects optionSelector))
      (fun o' h => hlen o' (List.mem_cons_of_mem _ h)) hlast' h4 hsize
    have hbound : pre.length < ((pre ++ encodeOption o.1 o.2 ++ encodeOptions os).length.toUInt64 - 4).toNat := by
      have hs := hsize
      rw [toNat_length_sub_four, Nat.mod_eq_of_lt hsize]
      simp only [List.length_append, length_encodeOption] at hs ⊢
      omega
    rw [IndexLoop.whileLt_eq (advances_extractOptionsStep _ _), if_pos ⟨hbound, rfl⟩,
      extractOptionsStep_encodeOption optionSelector pre (encodeOptions os) o.1 hdata, Except.ok_bind,
      hih, optionsAt_cons pre.length o os, List.filter_append, List.append_assoc, List.length_append,
      length_encodeOption]

/-- The options of a vector that is a list of options, the last with data,
come back in order: each with its code, its length and the place of its
data. -/
theorem extractOptions_encodeOptions {p : DHCPv6Packet} {os : List (UInt16 × List UInt8)}
    (hp : p.options = encodeOptions os) (hne : os ≠ [])
    (hlen : ∀ o ∈ os, o.2.length < 2 ^ 16) (hlast : ∀ o ∈ os.getLast?, o.2 ≠ [])
    (hsize : p.options.length < 2 ^ 64) (optionSelector : List UInt16) :
    p.extractOptions optionSelector = .ok ((optionsAt 0 os).filter (selects optionSelector)) := by
  have h4 : 4 ≤ ([] ++ encodeOptions os).length := by
    obtain ⟨o, os', rfl⟩ := List.exists_cons_of_ne_nil hne
    simp only [List.nil_append, encodeOptions_cons, List.length_append, length_encodeOption]
    omega
  rw [hp] at hsize
  have hloop := whileLt_encodeOptions optionSelector os [] [] hlen hlast h4 (by simpa using hsize)
  simp only [List.nil_append, List.length_nil] at hloop
  rw [extractOptions, hp, hloop]
  rfl

/-! ### Writing and parsing a packet -/

theorem length_write (p : DHCPv6Packet) : p.write.length = p.computePacketLength := by
  unfold write computePacketLength
  split <;> simp [Bytes.be32, TYPE_BYTES, HOPCOUNT_BYTES, LINKADDR_BYTES, PEERADDR_BYTES,
    TRANSACTIONID_BYTES] <;> omega

/-- The first word of a packet that is not a relay message holds its type
above a transaction ID of 24 bits. -/
theorem toNat_firstWord (type : UInt8) {tid : UInt32} (htid : tid.toNat < 2 ^ 24) :
    (type.toUInt32 <<< 24 ||| (tid &&& 0x00ffffff)).toNat = type.toNat * 2 ^ 24 + tid.toNat := by
  have ht := type.toNat_lt
  have hand : (tid &&& 0x00ffffff).toNat = tid.toNat := by
    rw [UInt32.toNat_and, show (0x00ffffff : UInt32).toNat = 2 ^ 24 - 1 from rfl,
      Nat.and_two_pow_sub_one_eq_mod, Nat.mod_eq_of_lt htid]
  have hshift : (type.toUInt32 <<< 24).toNat = type.toNat <<< 24 := by
    rw [UInt32.toNat_shiftLeft, UInt8.toNat_toUInt32, show (24 : UInt32).toNat % 32 = 24 from rfl,
      Nat.mod_eq_of_lt (by rw [Nat.shiftLeft_eq]; omega)]
  rw [UInt32.toNat_or, hand, hshift, Bytes.shiftLeft_or_eq_add _ htid]

/-- The transaction ID read back from the three low bytes of a word. -/
theorem transactionId_of_toNat {w tid : UInt32} (hw : w.toNat % 2 ^ 24 = tid.toNat) :
    ((w >>> 16).toUInt8.toUInt32 <<< 16) + (Bytes.ofBE16 (w >>> 8).toUInt8 w.toUInt8).toUInt32 = tid := by
  apply UInt32.toNat_inj.mp
  simp only [UInt32.toNat_add, UInt32.toNat_shiftLeft, UInt8.toNat_toUInt32, UInt16.toNat_toUInt32,
    Bytes.toNat_ofBE16, UInt32.toNat_toUInt8, UInt32.toNat_shiftRight, Nat.shiftLeft_eq,
    Nat.shiftRight_eq_div_pow, show (16 : UInt32).toNat % 32 = 16 from rfl,
    show (8 : UInt32).toNat % 32 = 8 from rfl]
  omega

end DHCPv6Packet

theorem PktUtil.readIPv6_ofBytes (a : IPAddressV6) (rest : List UInt8) :
    PktUtil.readIPv6 (Folly.Cursor.ofBytes (IPAddressV6.bytes a ++ rest)) =
      .ok (a, Folly.Cursor.ofBytes rest) := by
  have hlen : (Folly.Cursor.ofBytes (IPAddressV6.bytes a ++ rest)).length ≥ 16 := by
    simp [Folly.Cursor.ofBytes, Folly.Cursor.length]
  have hskip := Folly.Cursor.skip_ofBytes (IPAddressV6.bytes a) rest
  rw [IPAddressV6.length_bytes] at hskip
  rw [PktUtil.readIPv6, if_pos hlen, hskip]
  simp [Except.map, Folly.Cursor.ofBytes, List.take_left' (IPAddressV6.length_bytes a)]

namespace DHCPv6Packet

/-- A relay message reads back with its type, hop count, addresses and
options. -/
theorem parse_write_of_isDHCPv6Relay {p : DHCPv6Packet} (h : p.isDHCPv6Relay = true) (q : DHCPv6Packet) :
    q.parse (Folly.Cursor.ofBytes p.write) =
      .ok { q with
        type := p.type, hopCount := p.hopCount, linkAddr := p.linkAddr, peerAddr := p.peerAddr,
        options := q.options ++ p.options } := by
  have hq : ({ q with type := p.type } : DHCPv6Packet).isDHCPv6Relay = true := h
  have hbytes : p.write = p.type :: p.hopCount ::
      (IPAddressV6.bytes p.linkAddr ++ (IPAddressV6.bytes p.peerAddr ++ p.options)) := by
    simp [write, h]
  rw [hbytes, parse]
  simp only [Folly.Cursor.read8_ofBytes, Except.ok_bind, hq, if_true, PktUtil.readIPv6_ofBytes,
    pure_bind, Folly.Cursor.remaining_ofBytes]
  rfl

/-- A packet that is not a relay message reads back with its type, its
transaction ID when that fits 24 bits, and its options. -/
theorem parse_write_of_not_isDHCPv6Relay {p : DHCPv6Packet} (h : p.isDHCPv6Relay = false)
    (htid : p.transactionId.toNat < 2 ^ 24) (q : DHCPv6Packet) :
    q.parse (Folly.Cursor.ofBytes p.write) =
      .ok { q with
        type := p.type, transactionId := p.transactionId, options := q.options ++ p.options } := by
  have hq : ({ q with type := p.type } : DHCPv6Packet).isDHCPv6Relay = false := h
  have htype : ((p.type.toUInt32 <<< 24 ||| (p.transactionId &&& 0x00ffffff)) >>> 24).toUInt8 = p.type := by
    apply UInt8.toNat_inj.mp
    have ht := p.type.toNat_lt
    simp only [UInt32.toNat_toUInt8, UInt32.toNat_shiftRight, toNat_firstWord p.type htid,
      show (24 : UInt32).toNat % 32 = 24 from rfl, Nat.shiftRight_eq_div_pow]
    omega
  have hbytes : p.write = p.type :: ((p.type.toUInt32 <<< 24 ||| (p.transactionId &&& 0x00ffffff)) >>> 16).toUInt8 ::
      ((p.type.toUInt32 <<< 24 ||| (p.transactionId &&& 0x00ffffff)) >>> 8).toUInt8 ::
      (p.type.toUInt32 <<< 24 ||| (p.transactionId &&& 0x00ffffff)).toUInt8 :: p.options := by
    simp [write, h, Bytes.be32, htype]
  have hid : (p.type.toUInt32 <<< 24 ||| (p.transactionId &&& 0x00ffffff)).toNat % 2 ^ 24 =
      p.transactionId.toNat := by
    rw [toNat_firstWord p.type htid]
    omega
  rw [hbytes, parse]
  simp only [Folly.Cursor.read8_ofBytes, Except.ok_bind, hq, Bool.false_eq_true, if_false,
    Folly.Cursor.readBE16_ofBytes, pure_bind, Folly.Cursor.remaining_ofBytes, transactionId_of_toNat hid]
  rfl

/-- What `write` writes, parsed into a packet without options, is
`operator==` to the packet written, when a transaction ID fits its 24 bits. -/
theorem parse_write_beq {p q : DHCPv6Packet} (hq : q.options = [])
    (htid : p.isDHCPv6Relay = false → p.transactionId.toNat < 2 ^ 24) :
    ∃ p', q.parse (Folly.Cursor.ofBytes p.write) = .ok p' ∧ p'.beq p = true := by
  -- the packet read has the type written, so it is of the same kind
  have hkind : ∀ r : DHCPv6Packet, r.type = p.type → r.isDHCPv6Relay = p.isDHCPv6Relay :=
    fun r h => by simp [isDHCPv6Relay, h]
  cases hr : p.isDHCPv6Relay with
  | false =>
    refine ⟨_, parse_write_of_not_isDHCPv6Relay hr (htid hr) q, ?_⟩
    simp [beq, hkind, hr, hq]
  | true =>
    refine ⟨_, parse_write_of_isDHCPv6Relay hr q, ?_⟩
    simp [beq, hkind, hr, hq]

/-! ### The options the relay adds -/

@[simp] theorem isDHCPv6Relay_appendOption (p : DHCPv6Packet) (op len : UInt16) (bytes : List UInt8) :
    (p.appendOption op len bytes).1.isDHCPv6Relay = p.isDHCPv6Relay := rfl

/-- The relay message is the first `computePacketLength() % 2 ^ 16` bytes of
the packet: its length is cast to `uint16_t`. -/
theorem addRelayMessageOption_options (p dhcpPktIn : DHCPv6Packet) :
    (p.addRelayMessageOption dhcpPktIn).options = p.options ++
      encodeOption DHCPv6OptionType.DHCPv6_OPTION_RELAY_MSG
        (dhcpPktIn.write.take (dhcpPktIn.computePacketLength % 2 ^ 16)) := by
  have hlen : dhcpPktIn.computePacketLength.toUInt16.toNat = dhcpPktIn.computePacketLength % 2 ^ 16 := by
    rw [Nat.toUInt16, UInt16.toNat_ofNat']
  rw [addRelayMessageOption, appendOption_options _ _ _ (by rw [hlen, length_write]; exact Nat.mod_le _ _), hlen]

theorem addInterfaceIDOption_options (p : DHCPv6Packet) (macAddr : MacAddress) :
    (p.addInterfaceIDOption macAddr).options = p.options ++
      encodeOption DHCPv6OptionType.DHCPv6_OPTION_INTERFACE_ID macAddr.bytes := by
  rw [addInterfaceIDOption, appendOption_options _ _ _ (by simp), List.take_of_length_le (by simp)]

end DHCPv6Packet

end Fboss
