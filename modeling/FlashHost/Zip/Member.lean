import FlashHost.Text.Utf8
import FlashHost.Zip.Codepage
import FlashHost.Zip.Field

/-!
# Members

The central directory of an archive holds one record for each member: its name,
how and in how many bytes it is stored, how long it is and what its checksum is,
and where its local header stands.
-/

set_option autoImplicit false

namespace FlashHost.Zip

structure Member where
  name : String
  /-- The name as the record spells it. -/
  nameBytes : ByteArray
  comment : String
  encrypted : Bool
  /-- Whether an extra field describes a protection by AES. -/
  aes : Bool
  method : Nat
  checksum : Nat
  storedSize : Nat
  size : Nat
  /-- The offset of the local header. -/
  header : Nat

namespace Member

def signature : Nat := 0x02014B50

def recordSize : Nat := 46

/-- The value that refers a field of four bytes to the wide numbers. -/
def wide : Nat := 0xFFFFFFFF

/-- The number in place of the method of a member that is protected by AES. -/
def aesMethod : Nat := 99

def textOf (flags : Nat) (bytes : ByteArray) : String :=
  if flags.testBit 11 then textOfBytes bytes else Codepage.decode bytes

end Member

end FlashHost.Zip
