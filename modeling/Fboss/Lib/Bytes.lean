import Mathlib.Data.Nat.Bitwise
import Mathlib.Tactic.Ring

/-!
# Big-endian byte strings

Network headers store their fields high byte first. `be16` and `be32` are the
bytes a cursor's `writeBE` appends, `ofBE16` and `ofBE32` the value its
`readBE` reads back from them, and the two are inverse. Fields that share a
byte or a word are packed with shifts and `|||` over disjoint bits, which is
addition (`shiftLeft_or_eq_add`); with it every value is a number and `omega`
does the rest.
-/

namespace Bytes

/-- Bits below `k` and bits from `k` on do not overlap: `|||` adds them. -/
theorem shiftLeft_or_eq_add (a : Nat) {b k : Nat} (hb : b < 2 ^ k) :
    a <<< k ||| b = a * 2 ^ k + b := by
  rw [← Nat.shiftLeft_add_eq_or_of_lt hb, Nat.shiftLeft_eq]

/-- `x &&& 2 ^ i` keeps bit `i` of `x`. -/
theorem and_two_pow_eq (x i : Nat) : x &&& 2 ^ i = x / 2 ^ i % 2 * 2 ^ i := by
  rw [Nat.and_two_pow, Nat.testBit_eq_decide_div_mod_eq]
  rcases Nat.mod_two_eq_zero_or_one (x / 2 ^ i) with h | h <;> simp [h]

/-- A set bit above the bits of `x` adds its value. -/
theorem or_two_pow_eq_add {x k : Nat} (hx : x < 2 ^ k) : x ||| 2 ^ k = x + 2 ^ k := by
  have := shiftLeft_or_eq_add 1 hx
  rw [Nat.one_shiftLeft, one_mul] at this
  rw [Nat.lor_comm, this, Nat.add_comm]

/-- A byte of a field `hi` above a field `lo` of `s` bits. -/
theorem toNat_shiftLeft_or {hi lo s : UInt8} (hs : s.toNat < 8) (hlo : lo.toNat < 2 ^ s.toNat)
    (hhi : hi.toNat * 2 ^ s.toNat < 2 ^ 8) :
    (hi <<< s ||| lo).toNat = hi.toNat * 2 ^ s.toNat + lo.toNat := by
  rw [UInt8.toNat_or, UInt8.toNat_shiftLeft, Nat.mod_eq_of_lt hs, Nat.shiftLeft_eq,
    Nat.mod_eq_of_lt hhi, ← Nat.shiftLeft_eq, shiftLeft_or_eq_add _ hlo, Nat.shiftLeft_eq]

/-- A byte is its bits from `s` on, shifted back, above its low `s` bits. -/
theorem shiftRight_shiftLeft_or_and (b : UInt8) {s m : UInt8} (hs : s.toNat < 8)
    (hm : m.toNat = 2 ^ s.toNat - 1) : b >>> s <<< s ||| (b &&& m) = b := by
  have hb := b.toNat_lt
  have hpos : 0 < 2 ^ s.toNat := Nat.two_pow_pos _
  have hlo : (b &&& m).toNat = b.toNat % 2 ^ s.toNat := by
    rw [UInt8.toNat_and, hm, Nat.and_two_pow_sub_one_eq_mod]
  have hhi : (b >>> s).toNat = b.toNat / 2 ^ s.toNat := by
    rw [UInt8.toNat_shiftRight, Nat.mod_eq_of_lt hs, Nat.shiftRight_eq_div_pow]
  apply UInt8.toNat_inj.mp
  rw [toNat_shiftLeft_or hs (by rw [hlo]; exact Nat.mod_lt _ hpos)
    (by rw [hhi]; exact lt_of_le_of_lt (Nat.div_mul_le_self _ _) hb), hhi, hlo,
    Nat.div_add_mod']

/-- The bytes of a 16-bit value, high byte first (`writeBE<uint16_t>`). -/
def be16 (x : UInt16) : List UInt8 :=
  [(x >>> 8).toUInt8, x.toUInt8]

/-- Two bytes read high byte first (`readBE<uint16_t>`). -/
def ofBE16 (hi lo : UInt8) : UInt16 :=
  hi.toUInt16 <<< 8 ||| lo.toUInt16

/-- The bytes of a 32-bit value, high byte first (`writeBE<uint32_t>`). -/
def be32 (x : UInt32) : List UInt8 :=
  [(x >>> 24).toUInt8, (x >>> 16).toUInt8, (x >>> 8).toUInt8, x.toUInt8]

/-- Four bytes read high byte first (`readBE<uint32_t>`). -/
def ofBE32 (b0 b1 b2 b3 : UInt8) : UInt32 :=
  b0.toUInt32 <<< 24 ||| b1.toUInt32 <<< 16 ||| b2.toUInt32 <<< 8 ||| b3.toUInt32

theorem toNat_ofBE16 (hi lo : UInt8) : (ofBE16 hi lo).toNat = hi.toNat * 256 + lo.toNat := by
  have hhi := hi.toNat_lt
  have hlo := lo.toNat_lt
  simp only [ofBE16, UInt16.toNat_or, UInt16.toNat_shiftLeft, UInt8.toNat_toUInt16,
    UInt16.toNat_ofNat, Nat.reducePow, Nat.reduceMod]
  rw [Nat.mod_eq_of_lt (by rw [Nat.shiftLeft_eq]; omega), shiftLeft_or_eq_add _ (by omega)]
  omega

theorem toNat_ofBE32 (b0 b1 b2 b3 : UInt8) :
    (ofBE32 b0 b1 b2 b3).toNat =
      b0.toNat * 2 ^ 24 + b1.toNat * 2 ^ 16 + b2.toNat * 256 + b3.toNat := by
  have h0 := b0.toNat_lt
  have h1 := b1.toNat_lt
  have h2 := b2.toNat_lt
  have h3 := b3.toNat_lt
  simp only [ofBE32, UInt32.toNat_or, UInt32.toNat_shiftLeft, UInt8.toNat_toUInt32,
    UInt32.toNat_ofNat, Nat.reducePow, Nat.reduceMod]
  have e0 : b0.toNat <<< 24 % 4294967296 = b0.toNat <<< 24 :=
    Nat.mod_eq_of_lt (by rw [Nat.shiftLeft_eq]; omega)
  have e1 : b1.toNat <<< 16 % 4294967296 = b1.toNat <<< 16 :=
    Nat.mod_eq_of_lt (by rw [Nat.shiftLeft_eq]; omega)
  have e2 : b2.toNat <<< 8 % 4294967296 = b2.toNat <<< 8 :=
    Nat.mod_eq_of_lt (by rw [Nat.shiftLeft_eq]; omega)
  -- each step puts the next byte below the bytes read so far
  have s1 : b0.toNat <<< 24 ||| b1.toNat <<< 16 = (b0.toNat * 256 + b1.toNat) <<< 16 := by
    rw [shiftLeft_or_eq_add _ (show b1.toNat <<< 16 < 2 ^ 24 by rw [Nat.shiftLeft_eq]; omega)]
    simp only [Nat.shiftLeft_eq]
    ring
  have s2 : (b0.toNat * 256 + b1.toNat) <<< 16 ||| b2.toNat <<< 8 =
      (b0.toNat * 2 ^ 16 + b1.toNat * 256 + b2.toNat) <<< 8 := by
    rw [shiftLeft_or_eq_add _ (show b2.toNat <<< 8 < 2 ^ 16 by rw [Nat.shiftLeft_eq]; omega)]
    simp only [Nat.shiftLeft_eq]
    ring
  rw [e0, e1, e2, s1, s2, shiftLeft_or_eq_add _ (by omega)]
  omega

theorem ofBE16_be16 (x : UInt16) : ofBE16 (x >>> 8).toUInt8 x.toUInt8 = x := by
  apply UInt16.toNat_inj.mp
  have := x.toNat_lt
  simp only [toNat_ofBE16, UInt16.toNat_toUInt8, UInt16.toNat_shiftRight, UInt16.toNat_ofNat,
    Nat.reducePow, Nat.reduceMod, Nat.shiftRight_eq_div_pow]
  omega

theorem be16_ofBE16 (hi lo : UInt8) : be16 (ofBE16 hi lo) = [hi, lo] := by
  have hhi := hi.toNat_lt
  have hlo := lo.toNat_lt
  simp only [be16, List.cons.injEq, and_true]
  constructor
  · apply UInt8.toNat_inj.mp
    simp only [UInt16.toNat_toUInt8, UInt16.toNat_shiftRight, toNat_ofBE16, UInt16.toNat_ofNat,
      Nat.reducePow, Nat.reduceMod, Nat.shiftRight_eq_div_pow]
    omega
  · apply UInt8.toNat_inj.mp
    rw [UInt16.toNat_toUInt8, toNat_ofBE16]
    omega

/-- A 16-bit value whose value is that of two bytes is written as them. -/
theorem be16_eq_of_toNat {x : UInt16} {hi lo : UInt8} (h : x.toNat = hi.toNat * 256 + lo.toNat) :
    be16 x = [hi, lo] := by
  rw [show x = ofBE16 hi lo from UInt16.toNat_inj.mp (by rw [h, toNat_ofBE16]), be16_ofBE16]

theorem ofBE32_be32 (x : UInt32) :
    ofBE32 (x >>> 24).toUInt8 (x >>> 16).toUInt8 (x >>> 8).toUInt8 x.toUInt8 = x := by
  apply UInt32.toNat_inj.mp
  rw [toNat_ofBE32]
  have := x.toNat_lt
  simp only [UInt32.toNat_toUInt8, UInt32.toNat_shiftRight, UInt32.toNat_ofNat, Nat.reducePow,
    Nat.reduceMod, Nat.shiftRight_eq_div_pow]
  omega

theorem be32_ofBE32 (b0 b1 b2 b3 : UInt8) : be32 (ofBE32 b0 b1 b2 b3) = [b0, b1, b2, b3] := by
  have h0 := b0.toNat_lt
  have h1 := b1.toNat_lt
  have h2 := b2.toNat_lt
  have h3 := b3.toNat_lt
  simp only [be32, List.cons.injEq, and_true, ← UInt8.toNat_inj, UInt32.toNat_toUInt8,
    UInt32.toNat_shiftRight, toNat_ofBE32, UInt32.toNat_ofNat, Nat.reducePow, Nat.reduceMod,
    Nat.shiftRight_eq_div_pow]
  omega

/-! ### Values of any width

An address of `n` bytes is written as its bytes high byte first and read back
by folding them into a number. -/

/-- The low `n` bytes of a value, high byte first. -/
def beN : Nat → Nat → List UInt8
  | 0, _ => []
  | n + 1, x => UInt8.ofNat (x / 256 ^ n) :: beN n x

/-- Bytes read high byte first, as one value. -/
def ofBE (bs : List UInt8) : Nat :=
  bs.foldl (fun acc b => acc * 256 + b.toNat) 0

@[simp] theorem length_beN (n x : Nat) : (beN n x).length = n := by
  induction n with
  | zero => rfl
  | succ n ih => rw [beN, List.length_cons, ih]

/-- Folding the bytes of `x` into `acc` puts the low `n` bytes of `x` below it. -/
theorem foldl_beN (n x acc : Nat) :
    (beN n x).foldl (fun acc b => acc * 256 + b.toNat) acc = acc * 256 ^ n + x % 256 ^ n := by
  induction n generalizing acc with
  | zero => simp [beN, Nat.mod_one]
  | succ n ih =>
    rw [beN, List.foldl_cons, ih, UInt8.toNat_ofNat', show (2 : Nat) ^ 8 = 256 from rfl,
      Nat.mod_pow_succ (x := x), Nat.pow_succ]
    ring

theorem ofBE_beN (n x : Nat) : ofBE (beN n x) = x % 256 ^ n := by
  rw [ofBE, foldl_beN, Nat.zero_mul, Nat.zero_add]

end Bytes
