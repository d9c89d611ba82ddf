import FlashHost.Zip.Content
import FlashHost.Zip.Directory

/-!
# ZIP files

A reader of ZIP files whose members are stored as they are or deflated. Members that are
compressed in another way are beyond it, and it says of them that they cannot be read. It is
one reader of archives among others: only the outermost layer of the program refers to it.
-/

set_option autoImplicit false

namespace FlashHost.Zip

/-- The members with one more: a later member of the same name takes the place of the
earlier one. -/
def addMember (members : Array Member) (member : Member) : Array Member :=
  match members.findIdx? (·.name == member.name) with
  | some position => members.setIfInBounds position member
  | none => members.push member

def memberAt (data : ByteArray) (members : Array Member) (position : Nat) :
    Except MemberFault Archive.Member :=
  match members[position]? with
  | none => .error .outOfRange
  | some member => do
    let (method, stored) ← member.stored data
    return ⟨member.storedSize, member.size, member.stream method stored⟩

def read (data : ByteArray) : Except String Archive :=
  match EndRecord.search data data.size none with
  | .error fault => .error fault.message
  | .ok found =>
    let members := found.foldl addMember #[]
    .ok {
      size := members.size
      find? name := members.findIdx? (·.name == name)
      member position := (memberAt data members position).mapError MemberFault.message }

end FlashHost.Zip
