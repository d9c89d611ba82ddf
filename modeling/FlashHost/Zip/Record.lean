import FlashHost.Zip.ExtraField

/-!
# Records

A record of the central directory has a part of fixed length, and after it a name,
extra data and a comment.
-/

set_option autoImplicit false

namespace FlashHost.Zip.Member

/-- The record at an offset of the directory, and the offset after it. Its extra data
must be valid, and describe the protection of a member that has it in place of a
method. -/
def read? (data : ByteArray) (offset : Nat) : Option (Member × Nat) := do
  let flags := number data (offset + 8) 2
  let nameSize := number data (offset + 28) 2
  let extraSize := number data (offset + 30) 2
  let commentSize := number data (offset + 32) 2
  let total := recordSize + nameSize + extraSize + commentSize
  guard (signed data offset signature && holds data offset recordSize && holds data offset total)
  let nameBytes := slice data (offset + recordSize) nameSize
  let extra := slice data (offset + recordSize + nameSize) extraSize
  let comment := slice data (offset + recordSize + nameSize + extraSize) commentSize
  let member : Member :=
    { name := textOf flags nameBytes
      nameBytes
      comment := textOf flags comment
      encrypted := flags % 2 = 1
      aes := false
      method := number data (offset + 10) 2
      checksum := number data (offset + 16) 4
      storedSize := number data (offset + 20) 4
      size := number data (offset + 24) 4
      header := number data (offset + 42) 4 }
  let member ← member.withExtra? extra
  guard (member.method ≠ aesMethod || member.aes)
  return (member, offset + total)

end FlashHost.Zip.Member
