import FlashHost.Text.Numeral

/-!
# Seconds with three decimal places

A duration is counted in microseconds and shown in seconds. The seconds are a
double precision number first, and its exact value is then rounded to thousandths:
to the nearest, and to the even one of two that are equally near.
-/

set_option autoImplicit false

namespace FlashHost

structure Duration where
  microseconds : Nat
deriving DecidableEq, Repr

namespace Duration

/-- A quotient rounded to the nearest natural number, ties to the even one. -/
def roundDiv (numerator denominator : Nat) : Nat :=
  let quotient := numerator / denominator
  let twice := 2 * (numerator % denominator)
  if twice < denominator then quotient
  else if denominator < twice then quotient + 1
  else quotient + quotient % 2

/-- The duration in seconds: whole seconds plus the fraction, each a double. -/
def seconds (d : Duration) : Float :=
  Float.ofNat (d.microseconds / 1000000) +
    Float.ofNat (d.microseconds % 1000000 * 1000) / 1e9

/-- The value of the leading bit of a significand, which a double does not store. -/
def leadingBit : Nat := 0x10000000000000

/-- The exact value of a finite double that is not negative, in thousandths rounded
to the nearest. -/
def thousandths (x : Float) : Nat :=
  let bits := x.toBits.toNat
  let fraction := bits % leadingBit
  let exponent := bits / leadingBit % 0x800
  let significand := if exponent = 0 then fraction else leadingBit + fraction
  let scale := max exponent 1
  if 1075 ≤ scale then significand <<< (scale - 1075) * 1000
  else roundDiv (significand * 1000) (1 <<< (1075 - scale))

def text (d : Duration) : String :=
  let n := thousandths d.seconds
  toString (n / 1000) ++ "." ++ String.ofList (Numeral.fixed 10 3 (n % 1000))

/-- The seconds in a column at least seven characters wide, flush right. -/
def column (d : Duration) : String :=
  let text := d.text
  String.ofList (List.replicate (7 - text.length) ' ') ++ text

end Duration

end FlashHost
