/-!
# Numerals in a radix

Numerals are lists of digit characters, most significant digit first. Reading
accepts letters of either case as the digits above nine; writing uses lowercase
letters and a fixed number of digits.
-/

set_option autoImplicit false

namespace FlashHost.Numeral

/-- The value of a digit in `radix`: the ten decimal digits, then the letters. -/
def digit? (radix : Nat) (c : Char) : Option Nat :=
  let value :=
    if '0' ≤ c ∧ c ≤ '9' then some (c.toNat - '0'.toNat)
    else if 'a' ≤ c ∧ c ≤ 'z' then some (c.toNat - 'a'.toNat + 10)
    else if 'A' ≤ c ∧ c ≤ 'Z' then some (c.toNat - 'A'.toNat + 10)
    else none
  value.filter (· < radix)

/-- The value of further digits after a numeral whose value so far is `value`. -/
def extend? (radix : Nat) : Nat → List Char → Option Nat
  | value, [] => some value
  | value, c :: digits =>
    match digit? radix c with
    | some d => extend? radix (value * radix + d) digits
    | none => none

/-- The value of a numeral: at least one digit, and nothing but digits. -/
def value? (radix : Nat) : List Char → Option Nat
  | [] => none
  | c :: digits => extend? radix 0 (c :: digits)

/-- The `width` low digits of a number, leading zeros included. -/
def fixed (radix : Nat) : Nat → Nat → List Char
  | 0, _ => []
  | width + 1, n => fixed radix width (n / radix) ++ [Nat.digitChar (n % radix)]

/-- A number below `16 ^ width` as that many lowercase hexadecimal digits. -/
def hex (width n : Nat) : String :=
  String.ofList (fixed 16 width n)

@[simp] theorem length_fixed (radix width n : Nat) : (fixed radix width n).length = width := by
  induction width generalizing n with
  | zero => rfl
  | succ width ih => simp [fixed, ih]

end FlashHost.Numeral
