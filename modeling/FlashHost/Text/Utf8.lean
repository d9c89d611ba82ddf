/-!
# Reading bytes as text

A byte string is read as UTF-8. Every maximal run of bytes that begins a
character but does not complete one, and every byte that can begin none, is read
as the replacement character, so that every byte string has a reading.
-/

set_option autoImplicit false

namespace FlashHost.Utf8

def replacement : Char := '\uFFFD'

/-- A character whose first bytes have been read: how many continuation bytes it
still needs, the range of the next one, and the value of the bits so far. -/
structure Pending where
  owed : Nat
  low : Nat
  high : Nat
  bits : Nat

/-- What a byte means between characters: what it completes and what it begins. -/
def first (byte : Nat) : List Char × Option Pending :=
  if byte < 0x80 then ([Char.ofNat byte], none)
  else if byte < 0xC2 then ([replacement], none)
  else if byte < 0xE0 then ([], some ⟨1, 0x80, 0xBF, byte - 0xC0⟩)
  else if byte = 0xE0 then ([], some ⟨2, 0xA0, 0xBF, 0⟩)
  else if byte = 0xED then ([], some ⟨2, 0x80, 0x9F, 0xD⟩)
  else if byte < 0xF0 then ([], some ⟨2, 0x80, 0xBF, byte - 0xE0⟩)
  else if byte = 0xF0 then ([], some ⟨3, 0x90, 0xBF, 0⟩)
  else if byte < 0xF4 then ([], some ⟨3, 0x80, 0xBF, byte - 0xF0⟩)
  else if byte = 0xF4 then ([], some ⟨3, 0x80, 0x8F, 4⟩)
  else ([replacement], none)

/-- What a byte means after a possibly unfinished character. A byte that cannot
continue the character ends it as one replacement and is read afresh. -/
def step : Option Pending → Nat → List Char × Option Pending
  | none, byte => first byte
  | some p, byte =>
    if p.low ≤ byte ∧ byte ≤ p.high then
      let bits := p.bits * 64 + byte % 64
      if p.owed ≤ 1 then ([Char.ofNat bits], none)
      else ([], some ⟨p.owed - 1, 0x80, 0xBF, bits⟩)
    else
      let (text, next) := first byte
      (replacement :: text, next)

def decodeFrom : Option Pending → List UInt8 → List Char
  | none, [] => []
  | some _, [] => [replacement]
  | pending, byte :: bytes =>
    let (text, next) := step pending byte.toNat
    text ++ decodeFrom next bytes

def decode (bytes : List UInt8) : List Char :=
  decodeFrom none bytes

end FlashHost.Utf8

namespace FlashHost

def textOfBytes (bytes : ByteArray) : String :=
  String.ofList (Utf8.decode bytes.data.toList)

end FlashHost
