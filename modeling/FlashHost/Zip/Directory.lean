import FlashHost.Zip.Fault
import FlashHost.Zip.Record

/-!
# Directories

An archive is read from its end: an end record says where the central directory
is and how many members it has. Whatever may stand before the archive shifts every
offset by the same amount.
-/

set_option autoImplicit false

namespace FlashHost.Zip

structure Directory where
  start : Nat
  count : Nat
  /-- How many bytes stand before the archive. -/
  shift : Nat
  /-- The number of the disk with the end record, and of the one with the directory. -/
  disk : Nat
  startDisk : Nat
deriving DecidableEq, Repr

namespace Directory

/-- The records of the directory from an offset on, if all of them can be read and
each local header stands before the directory. -/
def membersFrom? (directory : Directory) (data : ByteArray) :
    (count offset : Nat) → Option (List Member)
  | 0, _ => some []
  | count + 1, offset => do
    let (member, offset) ← Member.read? data offset
    let member := { member with header := member.header + directory.shift }
    if directory.start ≤ member.header then none
    else
      let members ← membersFrom? directory data count offset
      return member :: members

/-- The records of the directory, which must be on the disk with the end record. -/
def members? (directory : Directory) (data : ByteArray) : Option (List Member) :=
  if directory.disk = directory.startDisk then
    directory.membersFrom? data directory.count directory.start
  else none

end Directory

inductive Found where
  | directory (directory : Directory)
  /-- The candidate contradicts itself in a way that rules it out. -/
  | unusable
  /-- The candidate is broken, which counts unless a later one was, too. -/
  | broken (fault : Fault)
  /-- The candidate leads nowhere, which counts in any case. -/
  | misleading (fault : Fault)
deriving DecidableEq, Repr

namespace EndRecord

def signature : Nat := 0x06054B50
def size : Nat := 22

def locatorSignature : Nat := 0x07064B50
def locatorSize : Nat := 20

def wideSignature : Nat := 0x06064B50
def wideSize : Nat := 56

/-- The directory of a wide end record at an offset, for a locator whose own disk number
and position are given. The record must fill the space up to the locator. -/
def wideDirectory (data : ByteArray) (offset shift locatorDisk locator : Nat) :
    Except Fault Found :=
  let length := number data (offset + 4) 8
  let madeBy := number data (offset + 12) 2
  let needed := number data (offset + 14) 2
  let disk := number data (offset + 16) 4
  let startDisk := number data (offset + 20) 4
  let countHere := number data (offset + 24) 8
  let count := number data (offset + 32) 8
  let start := number data (offset + 48) 8
  if !holds data offset wideSize then .error .cutShort
  else if length < wideSize - 12 then .error .lowEndRecordLength
  else if locator < offset + length + 12 then .error .longEndRecord
  else if startDisk ≠ locatorDisk then .error .locatorDisagrees
  else if offset + length + 12 ≠ locator then .error .badEndRecordLength
  else if offset < count * Member.recordSize + start then .error .badEntryCount
  else if count < countHere ∨ madeBy < needed then .ok .unusable
  else .ok (.directory ⟨start + shift, count, shift, disk, startDisk⟩)

/-- The directory of the first wide end record that can be used, of those at or after an
offset and before the locator; otherwise the last fault. The fuel counts offsets. -/
def wideSearch (data : ByteArray) (stated locatorDisk locator : Nat) :
    (fuel offset : Nat) → Fault → Found
  | 0, _, fault => .misleading fault
  | fuel + 1, offset, fault =>
    match findBetween? data wideSignature offset locator with
    | none => .misleading fault
    | some position =>
      match wideDirectory data position (position - stated) locatorDisk locator with
      | .ok found => found
      | .error fault => wideSearch data stated locatorDisk locator fuel (position + 1) fault

def fromLocator (data : ByteArray) (locator : Nat) : Found :=
  let disk := number data (locator + 4) 4
  let stated := number data (locator + 8) 8
  let disks := number data (locator + 16) 4
  if locator ≤ stated then .misleading .badLocatorOffset
  else if 1 < disks then .misleading .severalDisks
  else wideSearch data stated disk locator (locator - stated) stated .noWideEndRecord

def directory (data : ByteArray) (position : Nat) : Found :=
  let disk := number data (position + 4) 2
  let startDisk := number data (position + 6) 2
  let countHere := number data (position + 8) 2
  let count := number data (position + 10) 2
  let stated := number data (position + 16) 4
  let commentSize := number data (position + 20) 2
  if !holds data position size then .broken .cutShort
  else if !holds data (position + size) commentSize then .broken .commentCutShort
  else if (count = 0xFFFF ∨ stated = Member.wide) ∧ locatorSize ≤ position ∧
      signed data (position - locatorSize) locatorSignature then
    fromLocator data (position - locatorSize)
  else if count = 0 then
    .directory ⟨stated + (position - stated), countHere, position - stated, disk, startDisk⟩
  else if position ≤ stated then .misleading .badDirectoryOffset
  else
    match findBetween? data Member.signature stated position with
    | none => .misleading .noDirectory
    | some start => .directory ⟨start, countHere, start - stated, disk, startDisk⟩

/-- The members that the last usable end record before an offset leads to. A candidate
whose directory cannot be read is passed over, together with all faults noted so far. -/
def search (data : ByteArray) :
    (stop : Nat) → Option Fault → Except Fault (List Member)
  | 0, noted => .error (noted.getD .noEndRecord)
  | position + 1, noted =>
    if signed data position signature then
      match directory data position with
      | .directory directory =>
        match directory.members? data with
        | some members => .ok members
        | none => search data position none
      | .unusable => search data position none
      | .broken fault => search data position (some (noted.getD fault))
      | .misleading fault => search data position (some fault)
    else search data position noted

end EndRecord

end FlashHost.Zip
