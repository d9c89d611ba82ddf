import FlashHost.Zip.Checksum
import FlashHost.Zip.Member

/-!
# Extra fields

The extra data of a record is a sequence of fields, each with an identifier, a length
and a body. Fields hold the numbers that are too wide for the record itself, its name
and comment in Unicode, times, and the kind of protection.

Extra data that ends within a field is no fault: the fields before it count, and of
wide numbers those that are there. A field that contradicts itself or the record makes
the record invalid.
-/

set_option autoImplicit false

namespace FlashHost.Zip

structure ExtraField where
  extra : ByteArray
  offset : Nat

namespace ExtraField

inductive Flaw where
  | cutShort
  | invalid
deriving DecidableEq, Repr

inductive Kind where
  | wideNumbers
  | times
  | fileTimes
  | protection
  | name
  | comment
  | other
deriving DecidableEq, Repr

/-- The length of an identifier and a length. -/
def headSize : Nat := 4

def kind (field : ExtraField) : Kind :=
  match number field.extra field.offset 2 with
  | 0x0001 => .wideNumbers
  | 0x000A => .fileTimes
  | 0x5455 => .times
  | 0x6375 => .comment
  | 0x7075 => .name
  | 0x9901 => .protection
  | _ => .other

def length (field : ExtraField) : Nat :=
  number field.extra (field.offset + 2) 2

def body (field : ExtraField) : Nat :=
  field.offset + headSize

def part (field : ExtraField) (place width : Nat) : Nat :=
  number field.extra (field.body + place) width

def has (field : ExtraField) (size : Nat) : Bool :=
  holds field.extra field.body size

def need (field : ExtraField) (size : Nat) : Except Flaw Unit :=
  if field.has size then .ok () else .error .cutShort

def require (fact : Bool) : Except Flaw Unit :=
  if fact then .ok () else .error .invalid

def wideWidth : Nat := 8

/-- Whether the field holds a wide number in place of a value: it does for a value that
says so, and a field with room for all three of them does for every value. -/
def widens (field : ExtraField) (value : Nat) : Bool :=
  decide (3 * wideWidth ≤ field.length) || value == Member.wide

/-- The record with its sizes and its header offset replaced by wide numbers, which
stand in this order, as far as they are there. -/
def widen (field : ExtraField) (member : Member) : Member :=
  let (size, place) := replace member.size 0
  let (storedSize, place) := replace member.storedSize place
  let (header, _) := replace member.header place
  { member with size, storedSize, header }
where
  /-- The value in place of one, and the place of the next wide number. -/
  replace (value place : Nat) : Nat × Nat :=
    if field.widens value && field.has (place + wideWidth) then
      (field.part place wideWidth, place + wideWidth)
    else (value, place)

def applyWideNumbers (field : ExtraField) (member : Member) : Except Flaw Member := do
  let values := [member.size, member.storedSize, member.header]
  let taken := wideWidth * values.countP field.widens
  field.need taken
  require (taken ≤ field.length)
  field.need field.length
  return field.widen member

/-- Times come after a byte whose three low bits say which of them are there, four bytes
for each, or the first one alone. -/
def checkTimes (field : ExtraField) : Except Flaw Unit := do
  field.need 1
  let flags := field.part 0 1
  let count := (List.range 8).countP flags.testBit
  require (field.length == 1 + 4 || field.length == 1 + 4 * count)
  require (flags < 8)
  field.need field.length

/-- File times are three numbers of eight bytes under a tag with a length of its own. -/
def checkFileTimes (field : ExtraField) : Except Flaw Unit := do
  require (field.length == 32)
  field.need 6
  require (field.part 4 2 == 1)
  field.need 8
  require (field.part 6 2 == 24)
  field.need field.length

/-- The compression method of a member that is protected by AES. It follows a version,
the letters `AE` and a strength. -/
def protectedMethod (field : ExtraField) : Except Flaw Nat := do
  require (field.length == 7)
  field.need field.length
  require (field.part 2 2 == 0x4541)
  require (field.part 0 2 == 1 || field.part 0 2 == 2)
  require (1 ≤ field.part 4 1 && field.part 4 1 ≤ 3)
  return field.part 5 2

/-- The Unicode text that stands for a text of the record. The field repeats the
checksum of that text, so that it no longer counts once the text is changed. -/
def unicodeText (field : ExtraField) (text : ByteArray) : Except Flaw String := do
  field.need 5
  require (5 ≤ field.length)
  field.need field.length
  require (field.part 1 4 == (Checksum.crc32 text).toNat)
  match String.fromUTF8? (slice field.extra (field.body + 5) (field.length - 5)) with
  | none => .error .invalid
  | some text => return text

def apply (field : ExtraField) (member : Member) : Except Flaw Member := do
  match field.kind with
  | .wideNumbers => field.applyWideNumbers member
  | .times =>
    field.checkTimes
    return member
  | .fileTimes =>
    field.checkFileTimes
    return member
  | .protection =>
    let method ← field.protectedMethod
    return { member with method, aes := true }
  | .name =>
    let name ← field.unicodeText member.nameBytes
    return { member with name, nameBytes := name.toUTF8 }
  | .comment =>
    let comment ← field.unicodeText member.comment.toUTF8
    return { member with comment }
  | .other =>
    field.need field.length
    return member

def salvage (field : ExtraField) (member : Member) : Member :=
  if field.kind = .wideNumbers then field.widen member else member

/-- The record after the fields from an offset on, if they are valid. A field takes at
least four bytes, so that the length of the extra data is fuel enough. -/
def applyFrom (extra : ByteArray) : (fuel offset : Nat) → Member → Option Member
  | 0, _, member => some member
  | fuel + 1, offset, member =>
    let field : ExtraField := ⟨extra, offset⟩
    if holds extra offset headSize then
      match field.apply member with
      | .ok member => applyFrom extra fuel (field.body + field.length) member
      | .error .cutShort => some (field.salvage member)
      | .error .invalid => none
    else some member

end ExtraField

def Member.withExtra? (member : Member) (extra : ByteArray) : Option Member :=
  ExtraField.applyFrom extra extra.size 0 member

end FlashHost.Zip
