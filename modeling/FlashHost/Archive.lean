import FlashHost.Outcome

/-!
# Archives

An archive says at which position the member of a name stands, and gives the content of the
member at a position as a stream of bytes. How the bytes of a file come to be an archive is a
parameter of everything that opens one.

The stream is taken into a buffer that is a little larger than the size that the member
declares, so that a member that is too long shows itself, and one that is not is read to its
end.
-/

set_option autoImplicit false

namespace FlashHost

namespace Archive

/-- What a stream gives when it is asked for one more byte. -/
inductive Next where
  | byte (value : UInt8)
  | finished
  | failed (reason : String)
deriving DecidableEq, Repr

/-- A stream of bytes: what it gives after so many of them. -/
structure Stream where
  next : (position : Nat) → Next

def Stream.of (bytes : ByteArray) (ending : Next) : Stream where
  next position := if within : position < bytes.size then .byte bytes[position] else ending

structure Member where
  storedSize : Nat
  size : Nat
  content : Stream

end Archive

structure Archive where
  size : Nat
  /-- The position of the member with exactly this name. -/
  find? : (name : String) → Option Nat
  /-- The member at a position, or why it cannot be read. -/
  member : (position : Nat) → Except String Archive.Member

namespace Archive

/-- A reader of archives: the archive in the bytes of a file, or why they are none. -/
abbrev Reader := ByteArray → Except String Archive

def «open» (reader : Reader) (data : ByteArray) : Outcome Archive :=
  match reader data with
  | .error reason => Outcome.fail (.invalidArchive reason)
  | .ok archive => do
    Outcome.note (.archiveOpened archive.size)
    return archive

/-- What a caller knows of a member: its name and sizes, and its place. -/
structure Entry where
  name : String
  storedSize : Nat
  size : Nat
  position : Nat
deriving DecidableEq, Repr

def memberOf (archive : Archive) (name : String) (position : Nat) : Outcome Member :=
  match archive.member position with
  | .error reason => Outcome.fail (.undecodable name (.unreadable reason))
  | .ok member => return member

/-- The entry of an exact name, if there is one. -/
def lookup (archive : Archive) (name : String) : Outcome (Option Entry) :=
  match archive.find? name with
  | none => return none
  | some position => do
    let member ← archive.memberOf name position
    return some ⟨name, member.storedSize, member.size, position⟩

def sizeLimit : Nat := 0xFFFFFFFFFFFFFFFF

/-- The greatest buffer that a process has room for. -/
def addressSpace : Nat := 0x800000000000

def saturatingAdd (a b : Nat) : Nat :=
  min (a + b) sizeLimit

/-- The size of the buffer for a content of a given size: a thousandth more, and one
byte, by which a content that is too long shows. -/
def capacity (size : Nat) : Nat :=
  saturatingAdd (saturatingAdd size (size / 1000)) 1

inductive Stop where
  /-- There is no room for another byte, and the stream is not asked for one. -/
  | full
  | finished
  | failed (reason : String)
deriving DecidableEq, Repr

/-- Take the bytes of a stream after those that are there, up to so many more. -/
def Stream.take (stream : Stream) : (room : Nat) → (taken : ByteArray) → ByteArray × Stop
  | 0, taken => (taken, .full)
  | room + 1, taken =>
    match stream.next taken.size with
    | .byte value => stream.take room (taken.push value)
    | .finished => (taken, .finished)
    | .failed reason => (taken, .failed reason)

/-- What was taken of a content is good if nothing failed, there was room to spare, and there
are exactly as many bytes as declared. -/
def accept (size : Nat) (bytes : ByteArray) : Stop → Except MemberFault ByteArray
  | .failed reason => .error (.unreadable reason)
  | .full | .finished =>
    if capacity size ≤ bytes.size then .error (.tooLong (capacity size) size)
    else if bytes.size ≠ size then .error (.wrongLength size bytes.size)
    else .ok bytes

def draw (entry : Entry) (stream : Stream) : Outcome ByteArray := do
  let (bytes, stop) := stream.take (capacity entry.size) .empty
  Outcome.emit (.drawn entry.position bytes.size (stop = .finished))
  match accept entry.size bytes stop with
  | .error fault => Outcome.fail (.undecodable entry.name fault)
  | .ok data => return data

def decompress (archive : Archive) (entry : Entry) : Outcome ByteArray := do
  if addressSpace < capacity entry.size then
    Outcome.fail (.undecodable entry.name (.noMemory entry.size))
  else
    let member ← archive.memberOf entry.name entry.position
    let data ← draw entry member.content
    Outcome.note (.memberExtracted entry.name entry.storedSize data.size)
    return data

def extract (archive : Archive) (name : String) : Outcome ByteArray := do
  match ← archive.lookup name with
  | none => Outcome.fail (.missingMember name)
  | some entry => archive.decompress entry

end Archive

end FlashHost
