/-!
# Checksums

The cyclic redundancy check of 32 bits that archives keep for each member.
-/

set_option autoImplicit false

namespace FlashHost.Zip.Checksum

/-- One bit of the division by the reversed generator polynomial. -/
def shift (remainder : UInt32) : UInt32 :=
  if remainder &&& 1 = 1 then (remainder >>> 1) ^^^ 0xEDB88320 else remainder >>> 1

def remainderOf (byte : Nat) : UInt32 :=
  Nat.repeat shift 8 (UInt32.ofNat byte)

def table : Array UInt32 :=
  (Array.range 256).map remainderOf

def update (register : UInt32) (byte : UInt8) : UInt32 :=
  let index := ((register ^^^ byte.toUInt32) &&& 0xFF).toNat
  table.getD index 0 ^^^ (register >>> 8)

def crc32 (data : ByteArray) : UInt32 :=
  data.foldl update 0xFFFFFFFF ^^^ 0xFFFFFFFF

end FlashHost.Zip.Checksum
