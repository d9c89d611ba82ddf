import FlashHost.Archive
import FlashHost.Zip.Checksum
import FlashHost.Zip.Deflate.Inflate
import FlashHost.Zip.Fault
import FlashHost.Zip.Member

/-!
# Contents of members

The stored bytes of a member follow its local header. Its content comes as a stream, and its
checksum is compared at the end of that.
-/

set_option autoImplicit false

namespace FlashHost.Zip.Member

open Archive (Stream)

def localSignature : Nat := 0x04034B50

def localSize : Nat := 30

/-- The numbers of the methods whose members can be looked up, besides those that are
decompressed: deflate64, bzip2, LZMA, Zstandard, XZ, and the mark of a protection. -/
def foreignMethods : List Nat := [9, 12, 14, 93, 95, aesMethod]

/-- How the bytes of a member are stored. A foreign method is known, but its members are not
decompressed here. -/
inductive Method where
  | stored
  | deflated
  | foreign
deriving DecidableEq, Repr

def method? (member : Member) : Option Method :=
  match member.method with
  | 0 => some .stored
  | 8 => some .deflated
  | number => if foreignMethods.contains number then some .foreign else none

/-- The stored bytes, and how they are stored. The local header's own name and extra data may
differ in length from those of the directory. -/
def stored (member : Member) (data : ByteArray) : Except MemberFault (Method × ByteArray) :=
  if member.encrypted then .error .encrypted
  else if !signed data member.header localSignature || !holds data member.header localSize then
    .error .badLocalHeader
  else
    match member.method? with
    | none => .error .unknownMethod
    | some method =>
      if member.aes then .error .wrongPassword
      else
        let nameSize := number data (member.header + 26) 2
        let extraSize := number data (member.header + 28) 2
        let start := member.header + localSize + nameSize + extraSize
        .ok (method, slice data start member.storedSize)

def expand (method : Method) (stored : ByteArray) : ByteArray × Option MemberFault :=
  match method with
  | .stored => (stored, none)
  | .foreign => (.empty, some .unknownMethod)
  | .deflated =>
    match Deflate.inflate stored with
    | (bytes, none) => (bytes, none)
    | (bytes, some .corrupt) => (bytes, some .corrupt)
    | (bytes, some .incomplete) => (bytes, some .incomplete)

/-- The content of a member. It is not decompressed before it is asked for. -/
def stream (member : Member) (method : Method) (stored : ByteArray) : Stream :=
  let expanded : Thunk (ByteArray × Archive.Next) := Thunk.mk fun _ =>
    let (bytes, fault?) := expand method stored
    let checked :=
      if (Checksum.crc32 bytes).toNat = member.checksum then none else some .badChecksum
    match fault? <|> checked with
    | none => (bytes, .finished)
    | some (fault : MemberFault) => (bytes, .failed fault.message)
  ⟨fun position => (Stream.of expanded.get.1 expanded.get.2).next position⟩

end FlashHost.Zip.Member
