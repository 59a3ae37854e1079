import Fboss.Packet.EthHdr

/-!
# NDP options

`NDPOptions(Cursor&)` reads the options of a neighbor discovery message
(RFC 4861 4.6) with `tryParse`. Each option is a header of a type byte and a
length byte, counting 8-byte units, and a payload of `8 * length - 2` bytes.
The MTU option and the source and target link-layer address options must have
length 1 and are recorded; every other option is skipped. A header of length
0, or one whose payload is longer than what is left of the chain, throws
`HdrParseError`. `serialize` writes the options that are set, each of length
1, and `computeTotalLength` counts them in 8-byte units.

The loop of `tryParse` runs while `cursor.length()` is not 0, and that is
what is left of the current buffer of the chain, not of the chain. A read
that ends exactly at the end of a buffer stays in it, so an MTU option that
ends a buffer ends the loop with the rest of the chain unread, whatever it
holds (`tryParse_ignores_next_buffers`).

The agent hands the parser one buffer, and over one buffer the loop reads all
of it: the parse succeeds exactly when the bytes split into options the
parser accepts, records the last option of each recorded type, and throws
`HdrParseError` otherwise; what `serialize` writes reads back as the options
it was written from (`parse_one_buffer`).
-/

namespace Fboss

/-! `NDPOptionType`: the option types of RFC 4861 4.6 that the parser names,
and `NDPOptionLength`: the lengths of the fixed-length options, in 8-byte
units. -/

namespace NDPOptionType

def SRC_LL_ADDRESS : UInt8 := 1
def TARGET_LL_ADDRESS : UInt8 := 2
def MTU : UInt8 := 5

end NDPOptionType

namespace NDPOptionLength

def SRC_LL_ADDRESS_IEEE802 : UInt8 := 1
def TARGET_LL_ADDRESS_IEEE802 : UInt8 := 1
def MTU : UInt8 := 1

end NDPOptionLength

namespace PktUtil

/-- `PktUtil::readMac(cursor)`: six bytes, read in place when the current
buffer has them and copied across buffers otherwise. -/
def readMac (c : Folly.Cursor) : Except String (MacAddress × Folly.Cursor) :=
  if c.length ≥ 6 then (c.skip 6).map fun c' => (MacAddress.fromBinary (c.crt.take 6), c')
  else (c.pull 6).map fun r => (MacAddress.fromBinary r.1, r.2)

end PktUtil

/-- `NDPOptionHdr`: the type and the length, in 8-byte units. -/
structure NDPOptionHdr where
  type : UInt8
  length : UInt8
  deriving DecidableEq, Repr

namespace NDPOptionHdr

/-- `hdrLength()`. -/
def hdrLength : Nat := 2

/-- `payloadLength()`: the option's bytes after its header. A header of
length 0 throws before this is asked. -/
def payloadLength (h : NDPOptionHdr) : Nat :=
  8 * h.length.toNat - hdrLength

/-- `NDPOptionHdr(cursor)`: the header, which must count at least one unit
and have its payload in what is left of the chain. -/
def parse (c : Folly.Cursor) : Except String (NDPOptionHdr × Folly.Cursor) :=
  match (do
      let (type, c) ← c.read8
      let (length, c) ← c.read8
      pure ((⟨type, length⟩ : NDPOptionHdr), c) : Except String (NDPOptionHdr × Folly.Cursor)) with
  | .error _ => .error "NDP Option header is not present"
  | .ok (hdr, c) =>
    if hdr.length = 0 then .error "Invalid NDP Option header: length is 0"
    else if !c.canAdvance hdr.payloadLength then .error "NDP Option payload is too small"
    else .ok (hdr, c)

end NDPOptionHdr

/-- `NDPOptions`: the options recorded. -/
structure NDPOptions where
  mtu : Option UInt32
  sourceLinkLayerAddress : Option MacAddress
  targetLinkLayerAddress : Option MacAddress
  deriving DecidableEq, Repr

namespace NDPOptions

/-- `NDPOptions()`: no option. -/
def empty : NDPOptions :=
  ⟨none, none, none⟩

/-- `getMtu(hdr, cursor)`: the two reserved bytes, which the receiver must
ignore (RFC 4861 4.6.4), then the MTU. -/
def getMtu (o : NDPOptions) (hdr : NDPOptionHdr) (c : Folly.Cursor) :
    Except String (NDPOptions × Folly.Cursor) :=
  if hdr.length ≠ NDPOptionLength.MTU then .error "Bad length for NDP option MTU"
  else do
    let c ← c.skip 2
    let (mtu, c) ← c.readBE32
    pure ({ o with mtu := some mtu }, c)

/-- `getSourceLinkLayerAddress(hdr, cursor)`. -/
def getSourceLinkLayerAddress (o : NDPOptions) (hdr : NDPOptionHdr) (c : Folly.Cursor) :
    Except String (NDPOptions × Folly.Cursor) :=
  if hdr.length ≠ NDPOptionLength.SRC_LL_ADDRESS_IEEE802 then .error "Bad length for NDP option SrcLLAdr"
  else (PktUtil.readMac c).map fun r => ({ o with sourceLinkLayerAddress := some r.1 }, r.2)

/-- `getTargetLinkLayerAddress(hdr, cursor)`. -/
def getTargetLinkLayerAddress (o : NDPOptions) (hdr : NDPOptionHdr) (c : Folly.Cursor) :
    Except String (NDPOptions × Folly.Cursor) :=
  if hdr.length ≠ NDPOptionLength.TARGET_LL_ADDRESS_IEEE802 then
    .error "Bad length for NDP option TargetLLAdr"
  else (PktUtil.readMac c).map fun r => ({ o with targetLinkLayerAddress := some r.1 }, r.2)

/-- `skipOption(hdr, cursor)`. -/
def skipOption (o : NDPOptions) (hdr : NDPOptionHdr) (c : Folly.Cursor) :
    Except String (NDPOptions × Folly.Cursor) :=
  (c.skip hdr.payloadLength).map fun c => (o, c)

/-- One turn of the loop of `tryParse`: a header, then the option of its
type. The prefix information and redirected header options are skipped as
the unknown ones are. -/
def parseOption (o : NDPOptions) (c : Folly.Cursor) : Except String (NDPOptions × Folly.Cursor) := do
  let (hdr, c) ← NDPOptionHdr.parse c
  if hdr.type = NDPOptionType.MTU then o.getMtu hdr c
  else if hdr.type = NDPOptionType.SRC_LL_ADDRESS then o.getSourceLinkLayerAddress hdr c
  else if hdr.type = NDPOptionType.TARGET_LL_ADDRESS then o.getTargetLinkLayerAddress hdr c
  else o.skipOption hdr c

/-- `tryParse(cursor)`: options while the current buffer has bytes. -/
def tryParse (o : NDPOptions) (c : Folly.Cursor) : Except String (NDPOptions × Folly.Cursor) :=
  Folly.Cursor.whileLoop (fun _ c => c.length != 0) parseOption o c

/-- `NDPOptions(cursor)`. -/
def parse (c : Folly.Cursor) : Except String (NDPOptions × Folly.Cursor) :=
  empty.tryParse c

/-- `serialize(cursor)`: the MTU option, then the source and the target
link-layer address options, those that are set. -/
def serialize (o : NDPOptions) : List UInt8 :=
  (match o.mtu with
    | some mtu => [NDPOptionType.MTU, NDPOptionLength.MTU] ++ Bytes.be16 0 ++ Bytes.be32 mtu
    | none => []) ++
  (match o.sourceLinkLayerAddress with
    | some mac => [NDPOptionType.SRC_LL_ADDRESS, NDPOptionLength.SRC_LL_ADDRESS_IEEE802] ++ mac.bytes
    | none => []) ++
  (match o.targetLinkLayerAddress with
    | some mac => [NDPOptionType.TARGET_LL_ADDRESS, NDPOptionLength.TARGET_LL_ADDRESS_IEEE802] ++ mac.bytes
    | none => [])

/-- `computeTotalLength()`. -/
def computeTotalLength (o : NDPOptions) : Nat :=
  8 * (o.mtu.isSome.toNat * NDPOptionLength.MTU.toNat +
    o.sourceLinkLayerAddress.isSome.toNat * NDPOptionLength.SRC_LL_ADDRESS_IEEE802.toNat +
    o.targetLinkLayerAddress.isSome.toNat * NDPOptionLength.TARGET_LL_ADDRESS_IEEE802.toNat)

end NDPOptions

/-! ### Each option is read from the front of what is left -/

theorem PktUtil.readMac_totalLength (c : Folly.Cursor) :
    Except.Spec (fun _ => True) (fun r => r.2.totalLength + 6 = c.totalLength) (PktUtil.readMac c) := by
  unfold PktUtil.readMac
  split_ifs
  · exact (Folly.Cursor.skip_totalLength 6 c).map fun _ h => h
  · exact (Folly.Cursor.pull_totalLength 6 c).map fun _ h => h

theorem NDPOptionHdr.parse_totalLength (c : Folly.Cursor) :
    Except.Spec (fun _ => True) (fun r => r.2.totalLength + 2 = c.totalLength) (NDPOptionHdr.parse c) := by
  unfold NDPOptionHdr.parse
  -- the two reads, then the checks, which leave the cursor where the reads did
  have hreads : Except.Spec (fun _ => True) (fun r : NDPOptionHdr × Folly.Cursor => r.2.totalLength + 2 = c.totalLength)
      (do
        let (type, c) ← c.read8
        let (length, c) ← c.read8
        pure ((⟨type, length⟩ : NDPOptionHdr), c) : Except String (NDPOptionHdr × Folly.Cursor)) := by
    refine (Folly.Cursor.read8_totalLength c).bind fun r h1 => ?_
    obtain ⟨_, c1⟩ := r
    refine (Folly.Cursor.read8_totalLength c1).bind fun r h2 => ?_
    obtain ⟨_, c2⟩ := r
    simp only [Except.spec_pure] at h1 h2 ⊢
    omega
  split
  · trivial
  · rename_i hdr c' h
    rw [h] at hreads
    split_ifs
    · trivial
    · trivial
    · exact hreads

namespace NDPOptions

/-- Each turn of the loop reads an option header at least. -/
theorem reads_parseOption : Folly.Cursor.Reads parseOption := by
  intro o c r hr
  have hspec : Except.Spec (fun _ => True) (fun r : NDPOptions × Folly.Cursor => r.2.totalLength < c.totalLength)
      (parseOption o c) := by
    unfold parseOption
    refine (NDPOptionHdr.parse_totalLength c).bind fun r h1 => ?_
    obtain ⟨hdr, c1⟩ := r
    dsimp only at h1 ⊢
    -- whichever option it is, its reads leave no more than the header did
    have hless : ∀ x : Except String (NDPOptions × Folly.Cursor),
        Except.Spec (fun _ => True) (fun r => r.2.totalLength ≤ c1.totalLength) x →
        Except.Spec (fun _ => True) (fun r => r.2.totalLength < c.totalLength) x :=
      fun x hx => hx.mono fun r hr => by omega
    split_ifs
    · apply hless
      unfold getMtu
      split_ifs
      · trivial
      refine (Folly.Cursor.skip_totalLength 2 c1).bind fun c2 h2 => ?_
      refine (Folly.Cursor.readBE32_totalLength c2).bind fun r h3 => ?_
      obtain ⟨_, c3⟩ := r
      simp only [Except.spec_pure] at h3 ⊢
      omega
    · apply hless
      unfold getSourceLinkLayerAddress
      split_ifs
      · trivial
      exact (PktUtil.readMac_totalLength c1).map fun r h => by dsimp only; omega
    · apply hless
      unfold getTargetLinkLayerAddress
      split_ifs
      · trivial
      exact (PktUtil.readMac_totalLength c1).map fun r h => by dsimp only; omega
    · apply hless
      exact (Folly.Cursor.skip_totalLength _ c1).map fun r h => by dsimp only; omega
  exact hspec.of_eq_ok hr

/-- The loop's guard sees the current buffer only: with nothing left of it,
`tryParse` reads nothing, whatever the rest of the chain holds. -/
theorem tryParse_of_length_eq_zero (o : NDPOptions) {c : Folly.Cursor} (h : c.length = 0) :
    o.tryParse c = .ok (o, c) := by
  rw [tryParse, Folly.Cursor.whileLoop_eq reads_parseOption, h]
  rfl

/-- An MTU option that fills the current buffer: its last read takes the fast
path and leaves the cursor at the end of the buffer, before the next ones. -/
theorem parseOption_mtu_fills_buffer (o : NDPOptions) (r0 r1 : UInt8) (mtu : UInt32)
    (next : List (List UInt8)) :
    o.parseOption ⟨[NDPOptionType.MTU, NDPOptionLength.MTU, r0, r1] ++ Bytes.be32 mtu, next⟩ =
      .ok ({ o with mtu := some mtu }, ⟨[], next⟩) := by
  simp [parseOption, NDPOptionHdr.parse, Folly.Cursor.read8, Folly.Cursor.pull, Folly.Cursor.skip,
    Folly.Cursor.readBE32, Folly.Cursor.canAdvance, Folly.Cursor.totalLength, Folly.Cursor.remaining,
    Except.map, getMtu, Bytes.be32, Bytes.ofBE32_be32, NDPOptionHdr.payloadLength,
    NDPOptionHdr.hdrLength, NDPOptionType.MTU, NDPOptionLength.MTU]

/-- Whatever the chain holds after a buffer that an MTU option fills, even
bytes that are no option at all, `tryParse` records the MTU and returns
without reading it. -/
theorem tryParse_ignores_next_buffers (o : NDPOptions) (r0 r1 : UInt8) (mtu : UInt32)
    (next : List (List UInt8)) :
    o.tryParse ⟨[NDPOptionType.MTU, NDPOptionLength.MTU, r0, r1] ++ Bytes.be32 mtu, next⟩ =
      .ok ({ o with mtu := some mtu }, ⟨[], next⟩) := by
  rw [tryParse, Folly.Cursor.whileLoop_eq reads_parseOption]
  have hlen : (⟨[NDPOptionType.MTU, NDPOptionLength.MTU, r0, r1] ++ Bytes.be32 mtu, next⟩ :
      Folly.Cursor).length ≠ 0 := by
    simp [Folly.Cursor.length]
  rw [if_pos (by simpa using hlen), parseOption_mtu_fills_buffer, Except.ok_bind]
  exact tryParse_of_length_eq_zero _ rfl

/-- The options `05 01 00 00 00 00 05 DC` (MTU 1500) and `01 01 02 00 00 00
00 01` (source link-layer address 02:00:00:00:00:01), as a chain of two
buffers split between the two options. The parse returns without an error,
with the MTU and no source address, and the second buffer unread. -/
theorem parse_stops_at_buffer_end :
    parse (Folly.Cursor.ofChain [[5, 1, 0, 0, 0, 0, 5, 220], [1, 1, 2, 0, 0, 0, 0, 1]]) =
      .ok (⟨some 1500, none, none⟩, ⟨[], [[1, 1, 2, 0, 0, 0, 0, 1]]⟩) :=
  tryParse_ignores_next_buffers empty 0 0 1500 [[1, 1, 2, 0, 0, 0, 0, 1]]

end NDPOptions

/-! ### What `serialize` writes reads back over one buffer -/

/-- An option as `serialize` writes it. -/
inductive NDPOption where
  | mtu (mtu : UInt32)
  | sourceLinkLayerAddress (mac : MacAddress)
  | targetLinkLayerAddress (mac : MacAddress)
  deriving DecidableEq, Repr

namespace NDPOption

/-- The option's bytes, header first. -/
def bytes : NDPOption → List UInt8
  | mtu v => [NDPOptionType.MTU, NDPOptionLength.MTU] ++ Bytes.be16 0 ++ Bytes.be32 v
  | sourceLinkLayerAddress mac => [NDPOptionType.SRC_LL_ADDRESS, NDPOptionLength.SRC_LL_ADDRESS_IEEE802] ++ mac.bytes
  | targetLinkLayerAddress mac =>
    [NDPOptionType.TARGET_LL_ADDRESS, NDPOptionLength.TARGET_LL_ADDRESS_IEEE802] ++ mac.bytes

/-- What the parser records of the option. -/
def record (o : NDPOptions) : NDPOption → NDPOptions
  | mtu v => { o with mtu := some v }
  | sourceLinkLayerAddress mac => { o with sourceLinkLayerAddress := some mac }
  | targetLinkLayerAddress mac => { o with targetLinkLayerAddress := some mac }

@[simp] theorem length_bytes (x : NDPOption) : x.bytes.length = 8 := by
  cases x <;> rfl

end NDPOption

namespace NDPOptions

/-- The options that are set, in the order `serialize` writes them. -/
def options (o : NDPOptions) : List NDPOption :=
  o.mtu.toList.map .mtu ++ o.sourceLinkLayerAddress.toList.map .sourceLinkLayerAddress ++
    o.targetLinkLayerAddress.toList.map .targetLinkLayerAddress

theorem serialize_eq (o : NDPOptions) : o.serialize = o.options.flatMap NDPOption.bytes := by
  rcases o with ⟨_ | _, _ | _, _ | _⟩ <;> simp [serialize, options, NDPOption.bytes]

theorem foldl_record_options (o : NDPOptions) : o.options.foldl NDPOption.record empty = o := by
  rcases o with ⟨_ | _, _ | _, _ | _⟩ <;> rfl

/-- `serialize` writes `computeTotalLength()` bytes. -/
theorem length_serialize (o : NDPOptions) : o.serialize.length = o.computeTotalLength := by
  rcases o with ⟨_ | _, _ | _, _ | _⟩ <;> rfl

/-- `readMac` over one buffer that begins with six bytes: the fast path. -/
theorem readMac_ofBytes_of_length {p : List UInt8} (hp : p.length = 6) (rest : List UInt8) :
    PktUtil.readMac (Folly.Cursor.ofBytes (p ++ rest)) =
      .ok (MacAddress.fromBinary p, Folly.Cursor.ofBytes rest) := by
  have hlen : (Folly.Cursor.ofBytes (p ++ rest)).length ≥ 6 := by
    simp [Folly.Cursor.ofBytes, Folly.Cursor.length, hp]
  have hskip := Folly.Cursor.skip_ofBytes p rest
  rw [hp] at hskip
  rw [PktUtil.readMac, if_pos hlen, hskip]
  simp [Except.map, Folly.Cursor.ofBytes, List.take_left' hp]

/-- The header of an option over one buffer. -/
theorem NDPOptionHdr.parse_ofBytes (type length : UInt8) (rest : List UInt8) (h0 : length ≠ 0)
    (hp : (⟨type, length⟩ : NDPOptionHdr).payloadLength ≤ rest.length) :
    NDPOptionHdr.parse (Folly.Cursor.ofBytes (type :: length :: rest)) =
      .ok (⟨type, length⟩, Folly.Cursor.ofBytes rest) := by
  simp only [NDPOptionHdr.parse, Folly.Cursor.read8_ofBytes, Except.ok_bind]
  dsimp only [pure, Except.pure]
  rw [if_neg h0, if_neg (by simpa [Folly.Cursor.canAdvance, Folly.Cursor.totalLength, Folly.Cursor.ofBytes,
    Folly.Cursor.remaining] using hp)]

end NDPOptions

/-! ### Over one buffer: the options the bytes split into

Over one buffer `length()` is what is left of the bytes, so the loop runs
until all of them are read. The parse then succeeds exactly when the bytes
split into options, each a header counting at least one unit and the payload
it counts, with the recorded ones of length 1; it records the last MTU and the
last addresses, and otherwise throws `HdrParseError` (`parse_one_buffer`). -/

namespace NDPOptions

/-- The texts `HdrParseError` is thrown with by the option parser. -/
def hdrParseErrors : List String :=
  ["NDP Option header is not present", "Invalid NDP Option header: length is 0",
    "NDP Option payload is too small", "Bad length for NDP option MTU",
    "Bad length for NDP option SrcLLAdr", "Bad length for NDP option TargetLLAdr"]

end NDPOptions

/-- An option as it stands in the bytes: its type, its length in 8-byte units
and its payload. -/
structure RawOption where
  type : UInt8
  length : UInt8
  payload : List UInt8
  deriving DecidableEq, Repr

namespace RawOption

/-- The option's bytes, header first. -/
def bytes (x : RawOption) : List UInt8 :=
  x.type :: x.length :: x.payload

/-- An option the parser accepts: it counts at least one unit, its payload is
the `8 * length - 2` bytes the header says, and an option of a type the
parser records has length 1. -/
def Valid (x : RawOption) : Prop :=
  x.length ≠ 0 ∧ x.payload.length = (⟨x.type, x.length⟩ : NDPOptionHdr).payloadLength ∧
    (x.type = NDPOptionType.MTU ∨ x.type = NDPOptionType.SRC_LL_ADDRESS ∨
      x.type = NDPOptionType.TARGET_LL_ADDRESS → x.length = 1)

/-- The MTU an MTU option carries after its two reserved bytes. -/
def mtu (x : RawOption) : UInt32 :=
  Bytes.ofBE32 (x.payload.getD 2 0) (x.payload.getD 3 0) (x.payload.getD 4 0) (x.payload.getD 5 0)

/-- The address a link-layer address option carries. -/
def address (x : RawOption) : MacAddress :=
  MacAddress.fromBinary (x.payload.take 6)

/-- What the parser records of an option: its MTU or its address, which
replaces the one recorded before, or nothing for the other types. -/
def record (o : NDPOptions) (x : RawOption) : NDPOptions :=
  if x.type = NDPOptionType.MTU then { o with mtu := some x.mtu }
  else if x.type = NDPOptionType.SRC_LL_ADDRESS then { o with sourceLinkLayerAddress := some x.address }
  else if x.type = NDPOptionType.TARGET_LL_ADDRESS then { o with targetLinkLayerAddress := some x.address }
  else o

@[simp] theorem length_bytes (x : RawOption) : x.bytes.length = x.payload.length + 2 := by
  simp [bytes]

variable {x : RawOption} (o : NDPOptions)

theorem record_of_mtu (h : x.type = NDPOptionType.MTU) : x.record o = { o with mtu := some x.mtu } := by
  simp [record, h]

theorem record_of_src (h : x.type = NDPOptionType.SRC_LL_ADDRESS) :
    x.record o = { o with sourceLinkLayerAddress := some x.address } := by
  simp [record, h, NDPOptionType.SRC_LL_ADDRESS, NDPOptionType.MTU]

theorem record_of_target (h : x.type = NDPOptionType.TARGET_LL_ADDRESS) :
    x.record o = { o with targetLinkLayerAddress := some x.address } := by
  simp [record, h, NDPOptionType.TARGET_LL_ADDRESS, NDPOptionType.SRC_LL_ADDRESS, NDPOptionType.MTU]

theorem record_of_other (hm : x.type ≠ NDPOptionType.MTU) (hs : x.type ≠ NDPOptionType.SRC_LL_ADDRESS)
    (ht : x.type ≠ NDPOptionType.TARGET_LL_ADDRESS) : x.record o = o := by
  simp [record, hm, hs, ht]

end RawOption

namespace NDPOption

/-- The option as it stands in the bytes `serialize` writes. -/
def raw : NDPOption → RawOption
  | mtu v => ⟨NDPOptionType.MTU, NDPOptionLength.MTU, Bytes.be16 0 ++ Bytes.be32 v⟩
  | sourceLinkLayerAddress mac => ⟨NDPOptionType.SRC_LL_ADDRESS, NDPOptionLength.SRC_LL_ADDRESS_IEEE802, mac.bytes⟩
  | targetLinkLayerAddress mac =>
    ⟨NDPOptionType.TARGET_LL_ADDRESS, NDPOptionLength.TARGET_LL_ADDRESS_IEEE802, mac.bytes⟩

theorem bytes_raw (x : NDPOption) : x.raw.bytes = x.bytes := by
  cases x <;> rfl

/-- Every option `serialize` writes is one the parser accepts. -/
theorem valid_raw (x : NDPOption) : x.raw.Valid := by
  refine ⟨by cases x <;> simp [raw, NDPOptionLength.MTU, NDPOptionLength.SRC_LL_ADDRESS_IEEE802,
    NDPOptionLength.TARGET_LL_ADDRESS_IEEE802], ?_, fun _ => by cases x <;> rfl⟩
  cases x with
  | mtu v => rfl
  | sourceLinkLayerAddress mac => exact MacAddress.length_bytes mac
  | targetLinkLayerAddress mac => exact MacAddress.length_bytes mac

/-- The parser records of the option what it was written from. -/
theorem record_raw (o : NDPOptions) (x : NDPOption) : x.raw.record o = x.record o := by
  cases x with
  | mtu v =>
    -- the MTU stands after the two reserved bytes
    rw [RawOption.record_of_mtu o rfl]
    simp [RawOption.mtu, raw, record, Bytes.be16, Bytes.be32, Bytes.ofBE32_be32]
  | sourceLinkLayerAddress mac =>
    rw [RawOption.record_of_src o rfl]
    simp [RawOption.address, raw, record, List.take_of_length_le (MacAddress.length_bytes mac).le]
  | targetLinkLayerAddress mac =>
    rw [RawOption.record_of_target o rfl]
    simp [RawOption.address, raw, record, List.take_of_length_le (MacAddress.length_bytes mac).le]

end NDPOption

namespace NDPOptions

/-- The options the last MTU option and the last source and target link-layer
address options of a list give. -/
def lastOptions (xs : List RawOption) : NDPOptions :=
  ⟨((xs.filter (·.type == NDPOptionType.MTU)).getLast?).map RawOption.mtu,
    ((xs.filter (·.type == NDPOptionType.SRC_LL_ADDRESS)).getLast?).map RawOption.address,
    ((xs.filter (·.type == NDPOptionType.TARGET_LL_ADDRESS)).getLast?).map RawOption.address⟩

/-- Recording the options one after the other keeps the last of each type. -/
theorem foldl_record_eq_lastOptions (xs : List RawOption) :
    xs.foldl RawOption.record empty = lastOptions xs := by
  induction xs using List.reverseRecOn with
  | nil => rfl
  | append_singleton xs x ih =>
    rw [List.foldl_append, ih]
    -- the types are distinct, so one field at most changes
    by_cases hm : x.type = NDPOptionType.MTU
    · simp [RawOption.record_of_mtu _ hm, lastOptions, hm, NDPOptionType.MTU,
        NDPOptionType.SRC_LL_ADDRESS, NDPOptionType.TARGET_LL_ADDRESS]
    by_cases hs : x.type = NDPOptionType.SRC_LL_ADDRESS
    · simp [RawOption.record_of_src _ hs, lastOptions, hs, NDPOptionType.MTU,
        NDPOptionType.SRC_LL_ADDRESS, NDPOptionType.TARGET_LL_ADDRESS]
    by_cases ht : x.type = NDPOptionType.TARGET_LL_ADDRESS
    · simp [RawOption.record_of_target _ ht, lastOptions, ht, NDPOptionType.MTU,
        NDPOptionType.SRC_LL_ADDRESS, NDPOptionType.TARGET_LL_ADDRESS]
    · simp [RawOption.record_of_other _ hm hs ht, lastOptions, hm, hs, ht]

/-- The header of an option over one buffer: its type and length are the
first two bytes, and it counts at least one unit and a payload that the
buffer holds, or the header throws `HdrParseError`. -/
theorem NDPOptionHdr.parse_ofBytes_spec (b : List UInt8) :
    Except.Spec (· ∈ hdrParseErrors)
      (fun r => ∃ rest, b = r.1.type :: r.1.length :: rest ∧ r.1.length ≠ 0 ∧
        r.1.payloadLength ≤ rest.length ∧ r.2 = Folly.Cursor.ofBytes rest)
      (NDPOptionHdr.parse (Folly.Cursor.ofBytes b)) := by
  match b with
  | [] => simp [NDPOptionHdr.parse, Folly.Cursor.read8, Folly.Cursor.pull, Folly.Cursor.pullSlow,
      Folly.Cursor.ofBytes, Except.map, hdrParseErrors]
  | [t] => simp [NDPOptionHdr.parse, Folly.Cursor.read8, Folly.Cursor.pull, Folly.Cursor.pullSlow, Folly.Cursor.ofBytes, Except.map, hdrParseErrors]
  | t :: l :: rest =>
    simp only [NDPOptionHdr.parse, Folly.Cursor.read8_ofBytes, Except.ok_bind]
    dsimp only [pure, Except.pure]
    split_ifs with h0 hadv
    · simp [hdrParseErrors]
    · simp [hdrParseErrors]
    · refine ⟨rest, rfl, h0, ?_, rfl⟩
      simpa [Folly.Cursor.canAdvance, Folly.Cursor.totalLength, Folly.Cursor.ofBytes,
        Folly.Cursor.remaining] using hadv

/-- A payload of six bytes, as the recorded options have. -/
private theorem exists_eq_of_length_eq_six {p : List UInt8} (h : p.length = 6) :
    ∃ p0 p1 p2 p3 p4 p5, p = [p0, p1, p2, p3, p4, p5] := by
  match p, h with
  | [p0, p1, p2, p3, p4, p5], _ => exact ⟨p0, p1, p2, p3, p4, p5, rfl⟩

/-- An option the parser accepts is read over one buffer and recorded. -/
theorem parseOption_raw (o : NDPOptions) {x : RawOption} (hx : x.Valid) (rest : List UInt8) :
    o.parseOption (Folly.Cursor.ofBytes (x.bytes ++ rest)) = .ok (x.record o, Folly.Cursor.ofBytes rest) := by
  obtain ⟨h0, hlen, hknown⟩ := hx
  have hhdr := NDPOptionHdr.parse_ofBytes x.type x.length (x.payload ++ rest) h0 (by simp [hlen])
  rw [RawOption.bytes, List.cons_append, List.cons_append, parseOption, hhdr, Except.ok_bind]
  dsimp only
  -- a recorded option has length 1, so a payload of six bytes
  have hsix : x.length = 1 → x.payload.length = 6 := fun h1 => by
    rw [hlen, h1]
    rfl
  by_cases hm : x.type = NDPOptionType.MTU
  · have h1 := hknown (.inl hm)
    obtain ⟨p0, p1, p2, p3, p4, p5, hp⟩ := exists_eq_of_length_eq_six (hsix h1)
    have hskip : (Folly.Cursor.ofBytes (p0 :: p1 :: p2 :: p3 :: p4 :: p5 :: rest)).skip 2 =
        .ok (Folly.Cursor.ofBytes (p2 :: p3 :: p4 :: p5 :: rest)) :=
      Folly.Cursor.skip_ofBytes [p0, p1] _
    rw [if_pos hm, getMtu, if_neg (by simp [h1, NDPOptionLength.MTU]), hp, RawOption.record_of_mtu _ hm]
    simp [hskip, Folly.Cursor.readBE32_ofBytes, RawOption.mtu, hp]
  by_cases hs : x.type = NDPOptionType.SRC_LL_ADDRESS
  · have h1 := hknown (.inr (.inl hs))
    rw [if_neg hm, if_pos hs, getSourceLinkLayerAddress,
      if_neg (by simp [h1, NDPOptionLength.SRC_LL_ADDRESS_IEEE802]), readMac_ofBytes_of_length (hsix h1),
      RawOption.record_of_src _ hs]
    simp [Except.map, RawOption.address, List.take_of_length_le (hsix h1).le]
  by_cases ht : x.type = NDPOptionType.TARGET_LL_ADDRESS
  · have h1 := hknown (.inr (.inr ht))
    rw [if_neg hm, if_neg hs, if_pos ht, getTargetLinkLayerAddress,
      if_neg (by simp [h1, NDPOptionLength.TARGET_LL_ADDRESS_IEEE802]), readMac_ofBytes_of_length (hsix h1),
      RawOption.record_of_target _ ht]
    simp [Except.map, RawOption.address, List.take_of_length_le (hsix h1).le]
  · -- any other option is skipped
    have hskip := Folly.Cursor.skip_ofBytes x.payload rest
    rw [hlen] at hskip
    rw [if_neg hm, if_neg hs, if_neg ht, skipOption, hskip, RawOption.record_of_other _ hm hs ht]
    rfl

/-- One turn of the loop over one buffer reads an option the parser accepts
from the front of the bytes, or throws `HdrParseError`. -/
theorem parseOption_ofBytes (o : NDPOptions) (b : List UInt8) :
    Except.Spec (· ∈ hdrParseErrors)
      (fun r => ∃ (x : RawOption) (rest : List UInt8), x.Valid ∧ b = x.bytes ++ rest ∧ r = (x.record o, Folly.Cursor.ofBytes rest))
      (o.parseOption (Folly.Cursor.ofBytes b)) := by
  have hhdr := NDPOptionHdr.parse_ofBytes_spec b
  cases hh : NDPOptionHdr.parse (Folly.Cursor.ofBytes b) with
  | error e =>
    rw [hh] at hhdr
    rw [parseOption, hh]
    exact hhdr
  | ok r =>
    rw [hh] at hhdr
    obtain ⟨⟨t, l⟩, c⟩ := r
    obtain ⟨rest, hb, h0, hpl, hc⟩ := hhdr
    dsimp only at hb h0 hpl hc
    by_cases hknown : t = NDPOptionType.MTU ∨ t = NDPOptionType.SRC_LL_ADDRESS ∨
        t = NDPOptionType.TARGET_LL_ADDRESS → l = 1
    · -- the option is accepted: its payload is what the header counts
      let x : RawOption := ⟨t, l, rest.take (⟨t, l⟩ : NDPOptionHdr).payloadLength⟩
      have hx : x.Valid := ⟨h0, List.length_take_of_le hpl, hknown⟩
      have hbx : b = x.bytes ++ rest.drop (⟨t, l⟩ : NDPOptionHdr).payloadLength := by
        rw [hb, RawOption.bytes, List.cons_append, List.cons_append, List.take_append_drop]
      rw [hbx, parseOption_raw o hx]
      exact ⟨x, _, hx, rfl, rfl⟩
    · -- a recorded type with another length than 1 throws
      have hl : l ≠ 1 := fun h => hknown fun _ => h
      rw [parseOption, hh, Except.ok_bind]
      dsimp only
      by_cases hm : t = NDPOptionType.MTU
      · rw [if_pos hm, getMtu, if_pos (by simpa [NDPOptionLength.MTU] using hl)]
        simp [hdrParseErrors]
      by_cases hs : t = NDPOptionType.SRC_LL_ADDRESS
      · rw [if_neg hm, if_pos hs, getSourceLinkLayerAddress,
          if_pos (by simpa [NDPOptionLength.SRC_LL_ADDRESS_IEEE802] using hl)]
        simp [hdrParseErrors]
      by_cases ht : t = NDPOptionType.TARGET_LL_ADDRESS
      · rw [if_neg hm, if_neg hs, if_pos ht, getTargetLinkLayerAddress,
          if_pos (by simpa [NDPOptionLength.TARGET_LL_ADDRESS_IEEE802] using hl)]
        simp [hdrParseErrors]
      · exact absurd (fun h => (h.elim hm fun h => h.elim hs ht).elim) hknown

/-- Over one buffer the loop reads the whole buffer as options the parser
accepts and records them, or throws `HdrParseError`. -/
theorem tryParse_ofBytes (b : List UInt8) (o : NDPOptions) :
    Except.Spec (· ∈ hdrParseErrors)
      (fun r => r.2 = Folly.Cursor.ofBytes [] ∧ ∃ xs : List RawOption, (∀ x ∈ xs, x.Valid) ∧
        b = xs.flatMap RawOption.bytes ∧ r.1 = xs.foldl RawOption.record o)
      (o.tryParse (Folly.Cursor.ofBytes b)) := by
  -- induction on what is left of the buffer, which each turn shortens
  induction hn : b.length using Nat.strong_induction_on generalizing b o with
  | _ n ih =>
    rw [tryParse, Folly.Cursor.whileLoop_eq reads_parseOption]
    by_cases hb : b = []
    · subst hb
      exact ⟨rfl, [], by simp, rfl, rfl⟩
    have hlen : (Folly.Cursor.ofBytes b).length ≠ 0 := by
      simpa [Folly.Cursor.ofBytes, Folly.Cursor.length] using hb
    rw [if_pos (by simpa using hlen)]
    refine (parseOption_ofBytes o b).bind fun r hr => ?_
    obtain ⟨x, rest, hx, hbx, rfl⟩ := hr
    have hshort : rest.length < n := by
      rw [← hn, hbx, List.length_append, RawOption.length_bytes]
      omega
    refine (ih rest.length hshort rest (x.record o) rfl).mono fun r hr => ?_
    obtain ⟨hc, xs, hxs, hrest, hr⟩ := hr
    refine ⟨hc, x :: xs, ?_, by rw [hbx, hrest, List.flatMap_cons], hr⟩
    intro y hy
    rcases List.mem_cons.mp hy with rfl | hy
    · exact hx
    · exact hxs y hy

/-- Over one buffer the loop reads options the parser accepts one after the
other and records each. -/
theorem tryParse_raw (o : NDPOptions) {xs : List RawOption} (hxs : ∀ x ∈ xs, x.Valid) :
    o.tryParse (Folly.Cursor.ofBytes (xs.flatMap RawOption.bytes)) =
      .ok (xs.foldl RawOption.record o, Folly.Cursor.ofBytes []) := by
  induction xs generalizing o with
  | nil => exact tryParse_of_length_eq_zero o rfl
  | cons x xs ih =>
    have hlen : (Folly.Cursor.ofBytes ((x :: xs).flatMap RawOption.bytes)).length ≠ 0 := by
      simp [Folly.Cursor.ofBytes, Folly.Cursor.length, RawOption.bytes]
    rw [tryParse, Folly.Cursor.whileLoop_eq reads_parseOption, if_pos (by simpa using hlen),
      List.flatMap_cons, parseOption_raw o (hxs x (by simp)), Except.ok_bind]
    exact ih (x.record o) fun y hy => hxs y (by simp [hy])

/-- Over one buffer, what `serialize` writes parses back as the options it was
written from, and the parse reads all of it. -/
theorem parse_serialize (o : NDPOptions) :
    parse (Folly.Cursor.ofBytes o.serialize) = .ok (o, Folly.Cursor.ofBytes []) := by
  -- the options written are raw options the parser accepts
  have hbytes : o.serialize = (o.options.map NDPOption.raw).flatMap RawOption.bytes := by
    simp only [serialize_eq, List.flatMap_map, NDPOption.bytes_raw]
  have hvalid : ∀ x ∈ o.options.map NDPOption.raw, x.Valid := by
    simp only [List.mem_map]
    rintro _ ⟨x, -, rfl⟩
    exact x.valid_raw
  rw [parse, hbytes, tryParse_raw empty hvalid, List.foldl_map]
  simp only [NDPOption.record_raw, foldl_record_options]

/-- The options of a neighbor discovery message presented as one buffer, as
the agent passes them: the parse throws `HdrParseError` or reads the whole
buffer; it succeeds exactly when the bytes split into options the parser
accepts, and then records the last MTU and the last source and target
link-layer addresses. What `serialize` writes is `computeTotalLength()` bytes
and parses back as the options it was written from. -/
theorem parse_one_buffer (b : List UInt8) :
    ((∃ e ∈ hdrParseErrors, parse (Folly.Cursor.ofBytes b) = .error e) ∨
        ∃ o, parse (Folly.Cursor.ofBytes b) = .ok (o, Folly.Cursor.ofBytes [])) ∧
      ((∃ r, parse (Folly.Cursor.ofBytes b) = .ok r) ↔
        ∃ xs : List RawOption, (∀ x ∈ xs, x.Valid) ∧ b = xs.flatMap RawOption.bytes) ∧
      (∀ xs : List RawOption, (∀ x ∈ xs, x.Valid) → b = xs.flatMap RawOption.bytes →
        parse (Folly.Cursor.ofBytes b) = .ok (lastOptions xs, Folly.Cursor.ofBytes [])) ∧
      ∀ o : NDPOptions, o.serialize.length = o.computeTotalLength ∧
        parse (Folly.Cursor.ofBytes o.serialize) = .ok (o, Folly.Cursor.ofBytes []) := by
  have hspec := tryParse_ofBytes b empty
  -- the options the bytes split into are read back and give the last of each type
  have hsplit : ∀ xs : List RawOption, (∀ x ∈ xs, x.Valid) → b = xs.flatMap RawOption.bytes →
      parse (Folly.Cursor.ofBytes b) = .ok (lastOptions xs, Folly.Cursor.ofBytes []) := by
    intro xs hxs hb
    rw [parse, hb, tryParse_raw empty hxs, foldl_record_eq_lastOptions]
  refine ⟨?_, ⟨?_, ?_⟩, hsplit, fun o => ⟨length_serialize o, parse_serialize o⟩⟩
  · cases hp : parse (Folly.Cursor.ofBytes b) with
    | error e => exact .inl ⟨e, hspec.of_eq_error hp, rfl⟩
    | ok r =>
      have hr := hspec.of_eq_ok hp
      exact .inr ⟨r.1, by rw [← hr.1]⟩
  · rintro ⟨r, hp⟩
    obtain ⟨-, xs, hxs, hb, -⟩ := hspec.of_eq_ok hp
    exact ⟨xs, hxs, hb⟩
  · rintro ⟨xs, hxs, hb⟩
    exact ⟨_, hsplit xs hxs hb⟩

end NDPOptions

end Fboss
