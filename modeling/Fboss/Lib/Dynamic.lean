import Mathlib

/-!
# Dynamic values and their decimal text

A dynamically typed value as `folly::dynamic` holds one: an integer, a
string, an array or an object. An object is a hash map. A read by key finds
the field of that name, and a read of a missing key or of a value of the wrong
type throws. Iteration over an object's fields (`items()`) visits them in the
order of the hash map, which nothing fixes: `items` takes that order as a
function that permutes the fields.

`folly::to<std::string>` writes an integer in decimal. `asInt()` on a string
parses it back as `folly::to<int64_t>` does, and throws on text that is not an
optionally signed run of decimal digits, or whose value is outside the range of
`int64_t`. Inside that range, the text of an integer reads back as it
(`asInt_toString`).
-/

namespace Folly

/-- A dynamically typed value: an integer, a string, an array or an object
with its fields in the order they were written. -/
inductive Dynamic where
  | int (i : Int)
  | string (s : String)
  | array (elems : List Dynamic)
  | object (fields : List (String × Dynamic))

namespace Dynamic

/-- The value of a run of decimal digits, if the text is one. -/
def parseDigits (cs : List Char) : Option Nat :=
  if !cs.isEmpty && cs.all Char.isDigit then some (Nat.ofDigitChars 10 cs 0) else none

/-- An integer in decimal: an optional minus sign, then digits. -/
def parseInteger : List Char → Option Int
  | '-' :: digits => (parseDigits digits).map fun n => -(n : Int)
  | digits => (parseDigits digits).map fun n => (n : Int)

/-- `folly::to<int64_t>` of a string. -/
def parseInt64 (s : String) : Except String Int :=
  match parseInteger s.toList with
  | none => .error "Invalid leading character"
  | some i => if -2 ^ 63 ≤ i ∧ i < 2 ^ 63 then .ok i else .error "Overflow during arithmetic conversion"

/-- `find(key)`: the field named `key` of an object. -/
def find : Dynamic → String → Option Dynamic
  | object fields, key => fields.lookup key
  | _, _ => none

/-- `operator[]` on a `const` value: the field named `key`, which must exist. -/
def get (d : Dynamic) (key : String) : Except String Dynamic :=
  match d.find key with
  | some v => .ok v
  | none => .error ("Couldn't find key " ++ key ++ " in dynamic object")

/-- `asInt()`: an integer, or a string read as one. -/
def asInt : Dynamic → Except String Int
  | int i => .ok i
  | string s => parseInt64 s
  | _ => .error "TypeError: expected dynamic type int64"

/-- `asString()` and `stringPiece()`. -/
def asString : Dynamic → Except String String
  | string s => .ok s
  | _ => .error "TypeError: expected dynamic type string"

/-- The elements a `for` loop over an array visits. -/
def elems : Dynamic → Except String (List Dynamic)
  | array elems => .ok elems
  | _ => .error "TypeError: expected dynamic type array"

/-- `items()` of an object: its fields, in the order `order` of the hash map. -/
def items (order : List (String × Dynamic) → List (String × Dynamic)) :
    Dynamic → Except String (List (String × Dynamic))
  | object fields => .ok (order fields)
  | _ => .error "TypeError: expected dynamic type object"

/-! ### Reading back what was written -/

@[simp] theorem find_object (fields : List (String × Dynamic)) (key : String) :
    (object fields).find key = fields.lookup key := rfl

@[simp] theorem get_of_find {d v : Dynamic} {key : String} (h : d.find key = some v) :
    d.get key = .ok v := by
  simp [get, h]

@[simp] theorem asInt_int (i : Int) : (int i).asInt = .ok i := rfl

@[simp] theorem asString_string (s : String) : (string s).asString = .ok s := rfl

@[simp] theorem elems_array (l : List Dynamic) : (array l).elems = .ok l := rfl

@[simp] theorem items_object (order : List (String × Dynamic) → List (String × Dynamic))
    (fields : List (String × Dynamic)) : (object fields).items order = .ok (order fields) := rfl

theorem parseDigits_toDigits (n : Nat) : parseDigits (Nat.toDigits 10 n) = some n := by
  have hdigits : (Nat.toDigits 10 n).all Char.isDigit = true :=
    List.all_eq_true.mpr fun _ hc => Nat.isDigit_of_mem_toDigits (by decide) (by decide) hc
  have hne : (Nat.toDigits 10 n).isEmpty = false := List.isEmpty_eq_false_iff.mpr Nat.toDigits_ne_nil
  simp [parseDigits, hdigits, hne, Nat.ofDigitChars_ten_toDigits]

/-- The first character of a natural number's decimal text is a digit. -/
theorem toDigits_eq_cons (n : Nat) : ∃ c cs, Nat.toDigits 10 n = c :: cs ∧ c ≠ '-' := by
  obtain ⟨c, cs, hcs⟩ := List.exists_cons_of_ne_nil (Nat.toDigits_ne_nil (n := n) (b := 10))
  refine ⟨c, cs, hcs, fun hc => ?_⟩
  have hdigit : c.isDigit = true :=
    Nat.isDigit_of_mem_toDigits (by decide) (by decide) (hcs ▸ List.mem_cons_self)
  rw [hc] at hdigit
  exact absurd hdigit (by decide)

theorem parseInteger_toString (i : Int) : parseInteger (toString i).toList = some i := by
  cases i with
  | ofNat n =>
    obtain ⟨c, cs, hcs, hc⟩ := toDigits_eq_cons n
    have hlist : (toString (Int.ofNat n)).toList = c :: cs := by
      rw [← hcs]
      exact Nat.toList_repr
    rw [hlist, parseInteger.eq_def]
    split
    · rename_i digits h
      exact absurd (List.cons.inj h).1 hc
    · rw [← hcs, parseDigits_toDigits]
      rfl
  | negSucc n =>
    have hlist : (toString (Int.negSucc n)).toList = '-' :: Nat.toDigits 10 (n + 1) := by
      show ("-" ++ (n + 1).repr).toList = _
      rw [String.toList_append, Nat.toList_repr]
      rfl
    rw [hlist, parseInteger, parseDigits_toDigits]
    rfl

/-- The decimal text of an integer in the range of `int64_t` reads back as it. -/
theorem asInt_toString {i : Int} (h : -2 ^ 63 ≤ i ∧ i < 2 ^ 63) : (string (toString i)).asInt = .ok i := by
  rw [asInt, parseInt64, parseInteger_toString]
  exact if_pos h

/-- The decimal text of a natural number below `2 ^ 63` reads back as it. -/
theorem asInt_toString_nat {n : Nat} (h : n < 2 ^ 63) : (string (toString n)).asInt = .ok n :=
  asInt_toString (i := (n : Int)) ⟨by omega, by exact_mod_cast h⟩

/-- The decimal text of an integer outside the range of `int64_t` does not read
back. -/
theorem asInt_toString_of_overflow {i : Int} (h : ¬(-2 ^ 63 ≤ i ∧ i < 2 ^ 63)) :
    (string (toString i)).asInt = .error "Overflow during arithmetic conversion" := by
  rw [asInt, parseInt64, parseInteger_toString]
  exact if_neg h

end Dynamic

end Folly
