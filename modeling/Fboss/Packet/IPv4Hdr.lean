import Fboss.Lib.Bytes

/-!
# The IPv4 header codec

`IPv4Hdr` (`packet/IPv4Hdr.h`, `packet/IPv4Hdr.cpp`) parses an IPv4 header
from a cursor and writes one to a cursor. A header is twenty bytes of fixed
fields, then `ihl - 5` words of options, which the header keeps in a buffer of
forty bytes.

The flags share a 16-bit word with the fragment offset. The parser reads them
as the standard places them: bit 14 of the word is "don't fragment", bit 13
"more fragments", bit 15 is reserved, and it reads "don't fragment" as set
when either of the two top bits is. `write` puts "don't fragment" at bit 14
and "more fragments" at bit 15. So a header that is written and parsed back
comes back with "more fragments" cleared and "don't fragment" set in its
place (`parse_write`), and bytes whose flag byte has neither the reserved nor
the "more fragments" bit are written back as they were (`write_parse`).

The cursor is a list of bytes. A source address is written with
`write<uint32_t>(toLong())`: `toLong` is in network order, so on the
little-endian hosts the agent runs on the bytes are the address high byte
first, as `readBE<uint32_t>` reads it back.
-/

namespace Fboss

open Bytes

/-- `IPV4_VERSION`. -/
def IPV4_VERSION : UInt8 := 4

/-- The fields of `IPv4Hdr`, and its buffer for the options. -/
structure IPv4Hdr where
  version : UInt8
  ihl : UInt8
  dscp : UInt8
  ecn : UInt8
  length : UInt16
  id : UInt16
  dontFragment : Bool
  moreFragments : Bool
  fragmentOffset : UInt16
  ttl : UInt8
  protocol : UInt8
  csum : UInt16
  srcAddr : UInt32
  dstAddr : UInt32
  optionBuf : Vector UInt8 40
  deriving DecidableEq

namespace IPv4Hdr

/-- `size()`: the length of the header, `ihl` words. -/
def size (h : IPv4Hdr) : Nat :=
  h.ihl.toNat * 4

/-- The number of option bytes, `(ihl - 5) * 4`. -/
def optionLength (ihl : UInt8) : Nat :=
  (ihl.toNat - 5) * 4

/-- The word of the flags and the fragment offset that `write` builds. -/
def flagsAndOffset (h : IPv4Hdr) : UInt16 :=
  h.fragmentOffset ||| (if h.dontFragment then (1 : UInt16) <<< 14 else 0) |||
    (if h.moreFragments then (1 : UInt16) <<< 15 else 0)

/-- The twenty bytes `write` writes before the options. -/
def writeFixed (h : IPv4Hdr) : List UInt8 :=
  [h.version <<< 4 ||| h.ihl, h.dscp <<< 2 ||| h.ecn] ++ be16 h.length ++ be16 h.id ++
    be16 h.flagsAndOffset ++ [h.ttl, h.protocol] ++ be16 h.csum ++ be32 h.srcAddr ++
    be32 h.dstAddr

/-- The options `write` pushes: the first `(ihl - 5) * 4` bytes of the buffer. -/
def optionBytes (h : IPv4Hdr) : List UInt8 :=
  h.optionBuf.toList.take (optionLength h.ihl)

/-- `write(cursor)`; `none` is the failed `CHECK_LE(ihl, 15)`. -/
def write (h : IPv4Hdr) : Option (List UInt8) :=
  if h.ihl > 5 then
    if h.ihl ≤ 15 then some (h.writeFixed ++ h.optionBytes) else none
  else some h.writeFixed

/-- The header the parser builds from its twelve bytes, the two addresses
and the options it pulled; the rest of the buffer keeps its zeros. -/
def decode (b0 b1 b2 b3 b4 b5 b6 b7 b8 b9 b10 b11 : UInt8) (src dst : UInt32)
    (opts : List UInt8) : IPv4Hdr where
  version := b0 >>> 4
  ihl := b0 &&& 0x0F
  dscp := b1 >>> 2
  ecn := b1 &&& 0x03
  length := ofBE16 b2 b3
  id := ofBE16 b4 b5
  dontFragment := b6 >>> 6 != 0
  moreFragments := (b6 &&& 0x20) >>> 5 != 0
  fragmentOffset := ofBE16 (b6 &&& 0x1F) b7
  ttl := b8
  protocol := b9
  csum := ofBE16 b10 b11
  srcAddr := src
  dstAddr := dst
  optionBuf := Vector.ofFn fun i => opts.getD i.1 0

/-- `IPv4Hdr(Cursor&)`: the header at the front of `input` and the bytes after
it. Running out of bytes is `std::out_of_range`, reported as a header too
small. -/
def parse (input : List UInt8) : Except String (IPv4Hdr × List UInt8) :=
  match input with
  | b0 :: b1 :: b2 :: b3 :: b4 :: b5 :: b6 :: b7 :: b8 :: b9 :: b10 :: b11 :: rest =>
    if b0 >>> 4 ≠ IPV4_VERSION then .error "IPv4: version != 4"
    else if b0 &&& 0x0F < 5 then .error "IPv4: IHL < 5"
    else if (ofBE16 b2 b3).toNat < (b0 &&& 0x0F).toNat * 4 then
      .error "IPv4: total length < ihl * 4"
    else if b8 = 0 then .error "IPv4: TTL == 0"
    else
      match rest with
      | s0 :: s1 :: s2 :: s3 :: d0 :: d1 :: d2 :: d3 :: rest =>
        if b0 &&& 0x0F > 5 then
          if rest.length < optionLength (b0 &&& 0x0F) then .error "IPv4 header too small"
          else .ok (decode b0 b1 b2 b3 b4 b5 b6 b7 b8 b9 b10 b11 (ofBE32 s0 s1 s2 s3)
            (ofBE32 d0 d1 d2 d3) (rest.take (optionLength (b0 &&& 0x0F))),
            rest.drop (optionLength (b0 &&& 0x0F)))
        else .ok (decode b0 b1 b2 b3 b4 b5 b6 b7 b8 b9 b10 b11 (ofBE32 s0 s1 s2 s3)
          (ofBE32 d0 d1 d2 d3) [], rest)
      | _ => .error "IPv4 header too small"
  | _ => .error "IPv4 header too small"

/-- The header that parsing the bytes of `write` gives back: "more
fragments" lands in "don't fragment", and the buffer keeps only the options
the header has. -/
def readBack (h : IPv4Hdr) : IPv4Hdr :=
  { h with
    dontFragment := h.dontFragment || h.moreFragments
    moreFragments := false
    optionBuf := Vector.ofFn fun i => if i.1 < optionLength h.ihl then h.optionBuf[i] else 0 }

/-- The headers the codec is for: version 4, a header length of five to
fifteen words that the total length covers, a live TTL, and fields that fit
their bits. -/
structure Valid (h : IPv4Hdr) : Prop where
  version_eq : h.version = IPV4_VERSION
  five_le_ihl : 5 ≤ h.ihl
  ihl_le : h.ihl ≤ 15
  size_le_length : h.size ≤ h.length.toNat
  ttl_ne_zero : h.ttl ≠ 0
  dscp_lt : h.dscp < 64
  ecn_lt : h.ecn < 4
  fragmentOffset_lt : h.fragmentOffset < 8192

/-! ### The fields of the written bytes -/

section Fields

variable (h : IPv4Hdr)

theorem toNat_versionIhl (hv : h.version.toNat < 16) (hi : h.ihl.toNat < 16) :
    (h.version <<< 4 ||| h.ihl).toNat = h.version.toNat * 16 + h.ihl.toNat :=
  toNat_shiftLeft_or (by decide) hi (by simp; omega)

theorem toNat_dscpEcn (hd : h.dscp.toNat < 64) (he : h.ecn.toNat < 4) :
    (h.dscp <<< 2 ||| h.ecn).toNat = h.dscp.toNat * 4 + h.ecn.toNat :=
  toNat_shiftLeft_or (by decide) he (by simp; omega)

/-- The flag word is the offset with bit 14 for "don't fragment" and bit 15
for "more fragments". -/
theorem toNat_flagsAndOffset (hfo : h.fragmentOffset.toNat < 2 ^ 13) :
    h.flagsAndOffset.toNat =
      h.fragmentOffset.toNat + h.dontFragment.toNat * 2 ^ 14 + h.moreFragments.toNat * 2 ^ 15 := by
  have h14 : ((1 : UInt16) <<< 14).toNat = 2 ^ 14 := rfl
  have h15 : ((1 : UInt16) <<< 15).toNat = 2 ^ 15 := rfl
  unfold flagsAndOffset
  cases h.dontFragment <;> cases h.moreFragments <;>
    simp only [UInt16.toNat_or, h14, h15, UInt16.toNat_zero, Nat.or_zero, ite_true,
      Bool.false_eq_true, ite_false, Bool.toNat_true, Bool.toNat_false]
  · omega
  · rw [or_two_pow_eq_add (by omega)]; omega
  · rw [or_two_pow_eq_add (by omega)]; omega
  · rw [or_two_pow_eq_add (x := h.fragmentOffset.toNat) (by omega), or_two_pow_eq_add (by omega)]
    omega

/-- The version and the header length come back from the first byte. -/
theorem versionIhl_shiftRight (hv : h.version.toNat < 16) (hi : h.ihl.toNat < 16) :
    (h.version <<< 4 ||| h.ihl) >>> 4 = h.version := by
  apply UInt8.toNat_inj.mp
  rw [UInt8.toNat_shiftRight, toNat_versionIhl h hv hi]
  simp only [UInt8.toNat_ofNat, Nat.reducePow, Nat.reduceMod, Nat.shiftRight_eq_div_pow]
  omega

theorem versionIhl_and (hv : h.version.toNat < 16) (hi : h.ihl.toNat < 16) :
    (h.version <<< 4 ||| h.ihl) &&& 0x0F = h.ihl := by
  apply UInt8.toNat_inj.mp
  rw [UInt8.toNat_and, toNat_versionIhl h hv hi,
    show (0x0F : UInt8).toNat = 2 ^ 4 - 1 from rfl, Nat.and_two_pow_sub_one_eq_mod]
  omega

theorem dscpEcn_shiftRight (hd : h.dscp.toNat < 64) (he : h.ecn.toNat < 4) :
    (h.dscp <<< 2 ||| h.ecn) >>> 2 = h.dscp := by
  apply UInt8.toNat_inj.mp
  rw [UInt8.toNat_shiftRight, toNat_dscpEcn h hd he]
  simp only [UInt8.toNat_ofNat, Nat.reducePow, Nat.reduceMod, Nat.shiftRight_eq_div_pow]
  omega

theorem dscpEcn_and (hd : h.dscp.toNat < 64) (he : h.ecn.toNat < 4) :
    (h.dscp <<< 2 ||| h.ecn) &&& 0x03 = h.ecn := by
  apply UInt8.toNat_inj.mp
  rw [UInt8.toNat_and, toNat_dscpEcn h hd he,
    show (0x03 : UInt8).toNat = 2 ^ 2 - 1 from rfl, Nat.and_two_pow_sub_one_eq_mod]
  omega

/-- The high byte of the flag word: the top five bits of the offset, then the
two flags at bits 6 and 7. -/
theorem toNat_flagByte (hfo : h.fragmentOffset.toNat < 2 ^ 13) :
    (h.flagsAndOffset >>> 8).toUInt8.toNat =
      h.fragmentOffset.toNat / 256 + h.dontFragment.toNat * 64 + h.moreFragments.toNat * 128 := by
  simp only [UInt16.toNat_toUInt8, UInt16.toNat_shiftRight, toNat_flagsAndOffset h hfo,
    UInt16.toNat_ofNat, Nat.reducePow, Nat.reduceMod, Nat.shiftRight_eq_div_pow]
  have := h.dontFragment.toNat_le
  have := h.moreFragments.toNat_le
  omega

/-- The parser reads "don't fragment" from both top bits of the flag byte. -/
theorem dontFragment_of_flagByte (hfo : h.fragmentOffset.toNat < 2 ^ 13) :
    ((h.flagsAndOffset >>> 8).toUInt8 >>> 6 != 0) = (h.dontFragment || h.moreFragments) := by
  have key : ((h.flagsAndOffset >>> 8).toUInt8 >>> 6).toNat =
      h.dontFragment.toNat + 2 * h.moreFragments.toNat := by
    rw [UInt8.toNat_shiftRight, toNat_flagByte h hfo]
    simp only [UInt8.toNat_ofNat, Nat.reducePow, Nat.reduceMod, Nat.shiftRight_eq_div_pow]
    have := h.dontFragment.toNat_le
    have := h.moreFragments.toNat_le
    omega
  rw [Bool.eq_iff_iff, bne_iff_ne, ne_eq, ← UInt8.toNat_inj, key, UInt8.toNat_zero]
  cases h.dontFragment <;> cases h.moreFragments <;> simp

/-- Bit 5 of the flag byte, where the parser looks for "more fragments", is
the top bit of the offset, which is clear. -/
theorem moreFragments_of_flagByte (hfo : h.fragmentOffset.toNat < 2 ^ 13) :
    (((h.flagsAndOffset >>> 8).toUInt8 &&& 0x20) >>> 5 != 0) = false := by
  have key : (((h.flagsAndOffset >>> 8).toUInt8 &&& 0x20) >>> 5).toNat = 0 := by
    rw [UInt8.toNat_shiftRight, UInt8.toNat_and, toNat_flagByte h hfo,
      show (0x20 : UInt8).toNat = 2 ^ 5 from rfl, and_two_pow_eq]
    simp only [UInt8.toNat_ofNat, Nat.reducePow, Nat.reduceMod, Nat.shiftRight_eq_div_pow]
    have := h.dontFragment.toNat_le
    have := h.moreFragments.toNat_le
    omega
  rw [bne_eq_false_iff_eq, ← UInt8.toNat_inj, key, UInt8.toNat_zero]

theorem fragmentOffset_of_flagBytes (hfo : h.fragmentOffset.toNat < 2 ^ 13) :
    ofBE16 ((h.flagsAndOffset >>> 8).toUInt8 &&& 0x1F) h.flagsAndOffset.toUInt8 =
      h.fragmentOffset := by
  apply UInt16.toNat_inj.mp
  rw [toNat_ofBE16, UInt8.toNat_and, toNat_flagByte h hfo,
    show (0x1F : UInt8).toNat = 2 ^ 5 - 1 from rfl, Nat.and_two_pow_sub_one_eq_mod,
    UInt16.toNat_toUInt8, toNat_flagsAndOffset h hfo]
  have := h.dontFragment.toNat_le
  have := h.moreFragments.toNat_le
  omega

end Fields

/-! ### Writing, then parsing -/

section WriteParse

variable {h : IPv4Hdr}

theorem optionLength_le (hi : h.ihl.toNat ≤ 15) : optionLength h.ihl ≤ 40 := by
  unfold optionLength
  omega

theorem length_optionBytes (hi : h.ihl.toNat ≤ 15) : h.optionBytes.length = optionLength h.ihl := by
  simp only [optionBytes, List.length_take, Vector.length_toList]
  have := optionLength_le hi
  omega

theorem write_eq (hi : 5 ≤ h.ihl.toNat) (hi' : h.ihl.toNat ≤ 15) :
    h.write = some (h.writeFixed ++ h.optionBytes) := by
  unfold write
  by_cases h5 : h.ihl > 5
  · rw [if_pos h5, if_pos (UInt8.le_iff_toNat_le.mpr hi')]
  · -- a header of five words has no options
    have h0 : optionLength h.ihl = 0 := by
      rw [gt_iff_lt, UInt8.lt_iff_toNat_lt] at h5
      simp only [optionLength]
      simp only [UInt8.toNat_ofNat, Nat.reducePow, Nat.reduceMod] at h5
      omega
    rw [if_neg h5, optionBytes, h0, List.take_zero, List.append_nil]

/-- The options the parser pulls from the written bytes fill the buffer as the
header had it, up to the header's length. -/
theorem optionBuf_of_optionBytes :
    (Vector.ofFn fun i : Fin 40 => h.optionBytes.getD i.1 0) =
      Vector.ofFn fun i => if i.1 < optionLength h.ihl then h.optionBuf[i] else 0 := by
  congr
  funext i
  simp only [optionBytes, List.getD_eq_getElem?_getD, List.getElem?_take]
  split
  · simp
  · rfl

/-- The header decoded from the written fields is the header read back. -/
theorem decode_write (hv : h.version.toNat < 16) (hi : h.ihl.toNat < 16) (hd : h.dscp.toNat < 64)
    (he : h.ecn.toNat < 4) (hfo : h.fragmentOffset.toNat < 2 ^ 13) :
    decode (h.version <<< 4 ||| h.ihl) (h.dscp <<< 2 ||| h.ecn) (h.length >>> 8).toUInt8
      h.length.toUInt8 (h.id >>> 8).toUInt8 h.id.toUInt8 (h.flagsAndOffset >>> 8).toUInt8
      h.flagsAndOffset.toUInt8 h.ttl h.protocol (h.csum >>> 8).toUInt8 h.csum.toUInt8 h.srcAddr
      h.dstAddr h.optionBytes = h.readBack := by
  simp only [decode, readBack, versionIhl_shiftRight h hv hi, versionIhl_and h hv hi,
    dscpEcn_shiftRight h hd he, dscpEcn_and h hd he, ofBE16_be16, dontFragment_of_flagByte h hfo,
    moreFragments_of_flagByte h hfo, fragmentOffset_of_flagBytes h hfo, optionBuf_of_optionBytes]

/-- Parsing the written bytes gives the header back, as `readBack` says, and
the bytes after them. -/
theorem parse_write (hh : h.Valid) (rest : List UInt8) :
    ∃ bytes, h.write = some bytes ∧ bytes.length = h.size ∧
      parse (bytes ++ rest) = .ok (h.readBack, rest) := by
  obtain ⟨hv, hi, hi', hlen, httl, hd, he, hfo⟩ := hh
  rw [UInt8.le_iff_toNat_le] at hi hi'
  rw [UInt8.lt_iff_toNat_lt] at hd he
  rw [UInt16.lt_iff_toNat_lt] at hfo
  have hvn : h.version.toNat < 16 := by rw [hv]; decide
  simp only [UInt8.toNat_ofNat, Nat.reducePow, Nat.reduceMod, UInt16.toNat_ofNat] at hi hi' hd he hfo
  refine ⟨h.writeFixed ++ h.optionBytes, write_eq hi hi', ?_, ?_⟩
  · simp only [List.length_append, length_optionBytes hi', writeFixed, be16, be32,
      List.length_cons, List.length_nil, size, optionLength]
    omega
  · have hb0 : (h.version <<< 4 ||| h.ihl) >>> 4 = IPV4_VERSION :=
      (versionIhl_shiftRight h hvn (by omega)).trans hv
    have hb0' := versionIhl_and h hvn (by omega)
    have hdec := decode_write hvn (by omega) hd he hfo
    simp only [writeFixed, be16, be32, List.cons_append, List.nil_append, parse, hb0, hb0',
      ofBE16_be16, ofBE32_be32, ne_eq, not_true_eq_false, if_false]
    rw [if_neg (by rw [UInt8.lt_iff_toNat_lt]; simp only [UInt8.toNat_ofNat]; omega),
      if_neg (by unfold size at hlen; omega), if_neg httl]
    by_cases h5 : h.ihl > 5
    · -- the options are pulled, and what follows them is left
      have hlen' := length_optionBytes hi'
      rw [if_pos h5, if_neg (by simp only [List.length_append]; omega), List.take_left' hlen',
        List.drop_left' hlen', hdec]
    · -- a header of five words has no options
      have h0 : h.optionBytes = [] := by
        rw [← List.length_eq_zero_iff, length_optionBytes hi', optionLength]
        rw [gt_iff_lt, UInt8.lt_iff_toNat_lt] at h5
        simp only [UInt8.toNat_ofNat, Nat.reducePow, Nat.reduceMod] at h5
        omega
      rw [if_neg h5, h0, List.nil_append]
      rw [h0] at hdec
      rw [hdec]

/-- A UDP header from `10.0.0.1` to `10.0.0.2` with "don't fragment" set,
followed by two bytes. -/
theorem parse_write_udp :
    let h : IPv4Hdr := ⟨4, 5, 0, 0, 20, 1, true, false, 0, 64, 17, 0, 0x0a000001, 0x0a000002,
      Vector.replicate 40 0⟩
    h.Valid ∧ ∃ bytes, h.write = some bytes ∧ bytes.length = h.size ∧
      parse (bytes ++ [1, 2]) = .ok (h.readBack, [1, 2]) :=
  have hh : IPv4Hdr.Valid ⟨4, 5, 0, 0, 20, 1, true, false, 0, 64, 17, 0, 0x0a000001, 0x0a000002,
      Vector.replicate 40 0⟩ := ⟨rfl, by decide, by decide, by decide, by decide, by decide, by decide, by decide⟩
  ⟨hh, parse_write hh [1, 2]⟩

end WriteParse

/-- A fragment that is not the last one has "more fragments" set. Its header
comes back from the bytes `write` gives with "more fragments" clear and "don't
fragment" set; and the header parsed from such a fragment's bytes, bit 5 of
the flag byte set, is written back with bit 7 set instead. -/
theorem moreFragments_not_round_tripped :
    let h : IPv4Hdr := ⟨4, 5, 0, 0, 20, 1, false, true, 0, 64, 17, 0, 0x0a000001, 0x0a000002,
      Vector.replicate 40 0⟩
    let bytes : List UInt8 := [0x45, 0, 0, 20, 0, 1, 0x20, 0, 64, 17, 0, 0, 10, 0, 0, 1, 10, 0, 0, 2]
    (h.write.map fun b => (parse b).map fun r => (r.1.dontFragment, r.1.moreFragments)) =
        some (.ok (true, false)) ∧
      (parse bytes).map (fun r => r.1.write) =
        .ok (some [0x45, 0, 0, 20, 0, 1, 0x80, 0, 64, 17, 0, 0, 10, 0, 0, 1, 10, 0, 0, 2]) := by
  decide +kernel

/-! ### Parsing, then writing -/

section ParseWrite

/-- What the parser accepts: twelve bytes that pass its checks, the two
addresses, and as many option bytes as the header length says. -/
theorem parse_eq_ok {input rest : List UInt8} {h : IPv4Hdr} (hp : parse input = .ok (h, rest)) :
    ∃ b0 b1 b2 b3 b4 b5 b6 b7 b8 b9 b10 b11 s0 s1 s2 s3 d0 d1 d2 d3 : UInt8, ∃ opts : List UInt8,
      input = [b0, b1, b2, b3, b4, b5, b6, b7, b8, b9, b10, b11, s0, s1, s2, s3, d0, d1, d2, d3] ++
        opts ++ rest ∧
      b0 >>> 4 = IPV4_VERSION ∧ 5 ≤ (b0 &&& 0x0F).toNat ∧
      (b0 &&& 0x0F).toNat * 4 ≤ (ofBE16 b2 b3).toNat ∧ b8 ≠ 0 ∧
      opts.length = optionLength (b0 &&& 0x0F) ∧
      h = decode b0 b1 b2 b3 b4 b5 b6 b7 b8 b9 b10 b11 (ofBE32 s0 s1 s2 s3) (ofBE32 d0 d1 d2 d3)
        opts := by
  unfold parse at hp
  split at hp
  · rename_i b0 b1 b2 b3 b4 b5 b6 b7 b8 b9 b10 b11 rest'
    split_ifs at hp with hv hi hl ht h5
    · -- a header with options: they are the next bytes after the addresses
      split at hp
      · rename_i s0 s1 s2 s3 d0 d1 d2 d3 rest''
        split_ifs at hp with hshort
        simp only [Except.ok.injEq, Prod.mk.injEq] at hp
        obtain ⟨rfl, rfl⟩ := hp
        refine ⟨b0, b1, b2, b3, b4, b5, b6, b7, b8, b9, b10, b11, s0, s1, s2, s3, d0, d1, d2, d3,
          rest''.take (optionLength (b0 &&& 0x0F)), ?_, not_not.mp hv, ?_, by omega, ht, ?_, rfl⟩
        · simp
        · rw [UInt8.lt_iff_toNat_lt] at hi
          simp only [UInt8.toNat_ofNat, Nat.reducePow, Nat.reduceMod] at hi
          omega
        · simp only [List.length_take]
          omega
      · cases hp
    · -- a header of five words
      split at hp
      · rename_i s0 s1 s2 s3 d0 d1 d2 d3 rest''
        simp only [Except.ok.injEq, Prod.mk.injEq] at hp
        obtain ⟨rfl, rfl⟩ := hp
        have h5' : optionLength (b0 &&& 0x0F) = 0 := by
          rw [gt_iff_lt, UInt8.lt_iff_toNat_lt] at h5
          simp only [UInt8.toNat_ofNat, Nat.reducePow, Nat.reduceMod] at h5
          simp only [optionLength]
          omega
        refine ⟨b0, b1, b2, b3, b4, b5, b6, b7, b8, b9, b10, b11, s0, s1, s2, s3, d0, d1, d2, d3,
          [], by simp, not_not.mp hv, ?_, by omega, ht, by simp [h5'], rfl⟩
        rw [UInt8.lt_iff_toNat_lt] at hi
        simp only [UInt8.toNat_ofNat, Nat.reducePow, Nat.reduceMod] at hi
        omega
      · cases hp
  · cases hp

theorem toNat_ihl_lt (b0 : UInt8) : (b0 &&& 0x0F).toNat < 16 := by
  rw [UInt8.toNat_and, show (0x0F : UInt8).toNat = 2 ^ 4 - 1 from rfl,
    Nat.and_two_pow_sub_one_eq_mod]
  omega

/-- The options of a parsed header are written back as they were read. -/
theorem optionBytes_decode {b0 b1 b2 b3 b4 b5 b6 b7 b8 b9 b10 b11 : UInt8} {src dst : UInt32}
    {opts : List UInt8} (hopts : opts.length = optionLength (b0 &&& 0x0F)) :
    (decode b0 b1 b2 b3 b4 b5 b6 b7 b8 b9 b10 b11 src dst opts).optionBytes = opts := by
  have hle : opts.length ≤ 40 := by
    have := toNat_ihl_lt b0
    rw [hopts, optionLength]
    omega
  simp only [optionBytes, decode, Vector.toList_ofFn]
  apply List.ext_getElem
  · simp only [List.length_take, List.length_ofFn]
    omega
  · intro i h1 h2
    simp only [List.getElem_take, List.getElem_ofFn, List.getD_eq_getElem?_getD,
      List.getElem?_eq_getElem h2, Option.getD_some]

/-- The flag word of a parsed header is written back as read, when neither the
reserved bit nor the "more fragments" bit of its high byte is set. -/
theorem flagBytes_decode {b0 b1 b2 b3 b4 b5 b6 b7 b8 b9 b10 b11 : UInt8} {src dst : UInt32}
    {opts : List UInt8} (hres : b6.toNat < 0x80)
    (hmf : (decode b0 b1 b2 b3 b4 b5 b6 b7 b8 b9 b10 b11 src dst opts).moreFragments = false) :
    be16 (decode b0 b1 b2 b3 b4 b5 b6 b7 b8 b9 b10 b11 src dst opts).flagsAndOffset = [b6, b7] := by
  have hlow : (b6 &&& 0x1F).toNat = b6.toNat % 32 := by
    rw [UInt8.toNat_and, show (0x1F : UInt8).toNat = 2 ^ 5 - 1 from rfl,
      Nat.and_two_pow_sub_one_eq_mod]
  have hb7 := b7.toNat_lt
  have hfo : (ofBE16 (b6 &&& 0x1F) b7).toNat < 2 ^ 13 := by
    rw [toNat_ofBE16, hlow]
    omega
  -- bit 5 of the flag byte is clear
  have hbit5 : b6.toNat / 32 % 2 = 0 := by
    have hbit : ((b6 &&& 0x20) >>> 5).toNat = b6.toNat / 32 % 2 := by
      rw [UInt8.toNat_shiftRight, UInt8.toNat_and, show (0x20 : UInt8).toNat = 2 ^ 5 from rfl,
        and_two_pow_eq]
      simp only [UInt8.toNat_ofNat, Nat.reducePow, Nat.reduceMod, Nat.shiftRight_eq_div_pow]
      omega
    simp only [decode, bne_eq_false_iff_eq] at hmf
    rw [← hbit, hmf, UInt8.toNat_zero]
  -- "don't fragment" is bit 6, the reserved bit being clear
  have hdf : (b6 >>> 6 != 0).toNat = b6.toNat / 64 := by
    have hsh : (b6 >>> 6).toNat = b6.toNat / 64 := by
      simp only [UInt8.toNat_shiftRight, UInt8.toNat_ofNat, Nat.reducePow, Nat.reduceMod,
        Nat.shiftRight_eq_div_pow]
    by_cases h0 : b6.toNat / 64 = 0
    · have hz : b6 >>> 6 = 0 := UInt8.toNat_inj.mp (by rw [hsh, h0]; rfl)
      rw [hz, h0]
      rfl
    · have hnz : (b6 >>> 6 != 0) = true := by
        rw [bne_iff_ne, ne_eq, ← UInt8.toNat_inj, hsh, UInt8.toNat_zero]
        exact h0
      rw [hnz, Bool.toNat_true]
      omega
  apply be16_eq_of_toNat
  rw [toNat_flagsAndOffset _ hfo, hmf]
  simp only [decode, hdf, toNat_ofBE16, hlow, Bool.toNat_false]
  omega

/-- Every parsed header whose flag byte had neither the reserved nor the "more
fragments" bit set is written back as the bytes it was parsed from. -/
theorem write_parse {input rest : List UInt8} {h : IPv4Hdr} (hp : parse input = .ok (h, rest))
    (hres : (input.getD 6 0).toNat < 0x80) (hmf : h.moreFragments = false) :
    ∃ bytes, input = bytes ++ rest ∧ bytes.length = h.size ∧ h.write = some bytes := by
  obtain ⟨b0, b1, b2, b3, b4, b5, b6, b7, b8, b9, b10, b11, s0, s1, s2, s3, d0, d1, d2, d3, opts,
    rfl, -, hi, -, -, hopts, rfl⟩ := parse_eq_ok hp
  have hihl := toNat_ihl_lt b0
  refine ⟨[b0, b1, b2, b3, b4, b5, b6, b7, b8, b9, b10, b11, s0, s1, s2, s3, d0, d1, d2, d3] ++ opts,
    by simp, ?_, ?_⟩
  · simp only [List.length_append, List.length_cons, List.length_nil, hopts, size, decode,
      optionLength]
    omega
  · rw [write_eq (by simp only [decode]; omega) (by simp only [decode]; omega),
      optionBytes_decode hopts, writeFixed, flagBytes_decode (by simpa using hres) hmf]
    have hb0 : b0 >>> 4 <<< 4 ||| (b0 &&& 0x0F) = b0 :=
      shiftRight_shiftLeft_or_and b0 (by decide) (by decide)
    have hb1 : b1 >>> 2 <<< 2 ||| (b1 &&& 0x03) = b1 :=
      shiftRight_shiftLeft_or_and b1 (by decide) (by decide)
    simp only [decode, hb0, hb1, be16_ofBE16, be32_ofBE32, List.cons_append, List.nil_append]

/-- The same bytes are written back. -/
theorem write_parse_udp :
    let bytes : List UInt8 := [0x45, 0, 0, 20, 0, 1, 0x40, 0, 64, 17, 0, 0, 10, 0, 0, 1, 10, 0, 0, 2]
    let h : IPv4Hdr := ⟨4, 5, 0, 0, 20, 1, true, false, 0, 64, 17, 0, 0x0a000001, 0x0a000002,
      Vector.replicate 40 0⟩
    parse (bytes ++ [1, 2]) = .ok (h, [1, 2]) ∧ ((bytes ++ [1, 2]).getD 6 0).toNat < 0x80 ∧
      h.moreFragments = false ∧ ∃ b, bytes ++ [1, 2] = b ++ [1, 2] ∧ b.length = h.size ∧ h.write = some b := by
  intro bytes h
  have hp : parse (bytes ++ [1, 2]) = .ok (h, [1, 2]) := by
    simp only [bytes, h]
    decide +kernel
  have hres : ((bytes ++ [1, 2]).getD 6 0).toNat < 0x80 := by
    simp only [bytes]
    decide
  exact ⟨hp, hres, rfl, write_parse hp hres rfl⟩

end ParseWrite

end IPv4Hdr

end Fboss
