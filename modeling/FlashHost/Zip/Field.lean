/-!
# Fields of a record

Records in archives hold unsigned numbers, least significant byte first, at fixed
offsets.
-/

set_option autoImplicit false

namespace FlashHost.Zip

/-- The byte at an offset, zero beyond the end. -/
def byteAt (data : ByteArray) (offset : Nat) : UInt8 :=
  if h : offset < data.size then data[offset] else 0

def number (data : ByteArray) (offset : Nat) : Nat → Nat
  | 0 => 0
  | width + 1 => (byteAt data offset).toNat + 256 * number data (offset + 1) width

/-- The bytes from an offset on, at most `size` of them and no more than there are. -/
def slice (data : ByteArray) (offset size : Nat) : ByteArray :=
  data.extract offset (min (offset + size) data.size)

def holds (data : ByteArray) (offset size : Nat) : Bool :=
  offset + size ≤ data.size

def signed (data : ByteArray) (offset signature : Nat) : Bool :=
  holds data offset 4 && number data offset 4 == signature

def findSigned? (data : ByteArray) (signature start : Nat) : Nat → Option Nat
  | 0 => none
  | count + 1 =>
    if signed data start signature then some start
    else findSigned? data signature (start + 1) count

def findBetween? (data : ByteArray) (signature start stop : Nat) : Option Nat :=
  findSigned? data signature start (stop - start - 3)

end FlashHost.Zip
