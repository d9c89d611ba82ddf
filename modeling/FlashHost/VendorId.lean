import FlashHost.Error
import FlashHost.Text.Numeral

/-!
# Vendor ids

A vendor id is written in hexadecimal after `0x`, in octal after a zero, or in
decimal. The whole text must be such a numeral, with a value below `2 ^ 16`.
-/

set_option autoImplicit false

namespace FlashHost.VendorId

def limit : Nat := 0x10000

/-- The radix and the digits of a text, by the way it starts. -/
def radixOf : List Char → Nat × List Char
  | '0' :: 'x' :: digits => (16, digits)
  | '0' :: 'X' :: digits => (16, digits)
  | '0' :: digit :: digits => (8, digit :: digits)
  | digits => (10, digits)

def value? (text : List Char) : Option Nat :=
  let (radix, digits) := radixOf text
  (Numeral.value? radix digits).filter (· < limit)

def parse (text : String) : Except Error UInt16 :=
  match value? text.toList with
  | some value => .ok (UInt16.ofNat value)
  | none => .error (.invalidVendorId text)

end FlashHost.VendorId
