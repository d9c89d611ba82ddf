import FlashHost.Proofs.CommandLine.Composition
import FlashHost.Proofs.CommandLine.Rearranging
import FlashHost.Proofs.Device.Filter

/-!
# Eligible devices

Which devices a line accepts, read off its commands and the default serial number. Of several
options of one kind the last one counts; vendors are only ever added to the known ones, and a
serial number only ever excludes devices.
-/

set_option autoImplicit false

namespace FlashHost

namespace CommandLine

def IsLast (commands : List Command) (command : Command) : Prop :=
  ∃ earlier later, commands = earlier ++ command :: later ∧
    ∀ other ∈ later, other.word ≠ command.word

/-- The serial number that a line asks for: that of the last option, or else the default one. -/
def Names (serial : Option String) (commands : List Command) (wanted : String) : Prop :=
  IsLast commands (.serial wanted) ∨
    (∀ command ∈ commands, command.word ≠ .serial) ∧ serial = some wanted

/-- Nothing is said of serial numbers, and the default one is missing or empty. -/
def Anonymous (serial : Option String) (commands : List Command) : Prop :=
  (∀ command ∈ commands, command.word ≠ .serial) ∧ (serial = none ∨ serial = some "")

structure Eligible (serial : Option String) (commands : List Command) (device : Descriptor) :
    Prop where
  kind : device.kind = ⟨0xFF, 0x42, 0x03⟩
  vendor : (∃ name, (device.vendorId, name) ∈ knownVendors) ∨
    ∃ text, IsLast commands (.vendor text) ∧ VendorId.parse text = .ok device.vendorId ∧
      device.vendorId ≠ 0
  serial : Anonymous serial commands ∨
    ∃ wanted, Names serial commands wanted ∧ device.serial.toUTF8 = wanted.toUTF8

theorem getLast?_filterMap_eq_some_iff {shown : Command → Option String} {text : String}
    {command : Command} (own : ∀ other, shown other = some text ↔ other = command)
    (silent : ∀ other, shown other = none ↔ other.word ≠ command.word) {commands : List Command} :
    (commands.filterMap shown).getLast? = some text ↔ IsLast commands command := by
  simp only [List.getLast?_filterMap, List.findSome?_eq_some_iff, own, silent]
  constructor
  · intro found
    obtain ⟨later, _, earlier, parts, rfl, others⟩ := found
    refine ⟨earlier.reverse, later.reverse, ?_, by simpa using others⟩
    rw [← List.reverse_reverse commands, parts]
    simp
  · intro found
    obtain ⟨earlier, later, rfl, others⟩ := found
    exact ⟨later.reverse, command, earlier.reverse, by simp, rfl, by simpa using others⟩

private theorem lastVendor?_eq_some_iff {commands : List Command} {text : String} :
    lastVendor? commands = some text ↔ IsLast commands (.vendor text) := by
  apply getLast?_filterMap_eq_some_iff
  · intro command
    cases command <;> simp [Command.vendor?]
  · intro command
    cases command <;> simp [Command.vendor?, Command.word]

private theorem lastSerial?_eq_some_iff {commands : List Command} {wanted : String} :
    lastSerial? commands = some wanted ↔ IsLast commands (.serial wanted) := by
  apply getLast?_filterMap_eq_some_iff
  · intro command
    cases command <;> simp [Command.serial?]
  · intro command
    cases command <;> simp [Command.serial?, Command.word]

theorem lastSerial?_eq_none_iff {commands : List Command} :
    lastSerial? commands = none ↔ ∀ command ∈ commands, command.word ≠ .serial := by
  have found : (lastSerial? commands).isSome ↔ _ := isSome_lastSerial?
  simpa using not_congr found

private theorem requestedVendor?_eq_some_iff {text : String} {id : UInt16} :
    requestedVendor? text = some id ↔ VendorId.parse text = .ok id ∧ id ≠ 0 := by
  rw [requestedVendor?, Option.filter_eq_some_iff]
  cases VendorId.parse text <;> simp [Except.toOption]

private theorem names_iff {serial : Option String} {commands : List Command} {wanted : String} :
    Names serial commands wanted ↔ (lastSerial? commands).or serial = some wanted := by
  rw [Names, ← lastSerial?_eq_some_iff, ← lastSerial?_eq_none_iff, Option.or_eq_some_iff]

theorem anonymous_iff {serial : Option String} {commands : List Command} :
    Anonymous serial commands ↔
      (lastSerial? commands).or (serial.filter (· ≠ "")) = none := by
  rw [Anonymous, ← lastSerial?_eq_none_iff, Option.or_eq_none_iff]
  cases serial <;> simp [Option.filter]

namespace Amounts

variable {files : Files} {serial : Option String} {commands : List Command}
  {invocation : Invocation} (amounts : Amounts files serial commands invocation)

include amounts

private theorem vendor_iff {id : UInt16} :
    invocation.filter.vendorId = some id ∧ id ≠ 0 ↔
      ∃ text, IsLast commands (.vendor text) ∧ VendorId.parse text = .ok id ∧ id ≠ 0 := by
  simp only [amounts.vendorId, Option.bind_eq_some_iff, requestedVendor?_eq_some_iff,
    lastVendor?_eq_some_iff]
  constructor
  · intro asked
    exact asked.1
  · intro asked
    obtain ⟨text, last, parsed, nonzero⟩ := asked
    exact ⟨⟨text, last, parsed, nonzero⟩, nonzero⟩

private theorem serial_iff {reported : String} :
    (∀ wanted, invocation.filter.serial = some wanted → reported = wanted) ↔
      Anonymous serial commands ∨
        ∃ wanted, Names serial commands wanted ∧ reported.toUTF8 = wanted.toUTF8 := by
  simp only [amounts.serial, anonymous_iff, names_iff, String.toUTF8, String.toByteArray_inj]
  cases lastSerial? commands with
  | some last => simp [eq_comm]
  | none =>
      cases serial with
      | none => simp
      | some fallback => by_cases empty : fallback = "" <;> simp [Option.filter, empty, eq_comm]

theorem accepts_iff {device : Descriptor} :
    invocation.filter.accepts device ↔ Eligible serial commands device := by
  rw [Filter.accepts_iff, amounts.vendor_iff, amounts.serial_iff]
  constructor
  · intro accepted
    obtain ⟨kind, vendor, named⟩ := accepted
    exact ⟨kind, vendor, named⟩
  · intro eligible
    exact ⟨eligible.kind, eligible.vendor, eligible.serial⟩

/-- More commands that can be carried out may stand after those of an open line. -/
theorem exists_read_append {words : List String} (cuts : Cuts words commands .complete)
    (others : List Command) (closed : ∀ command ∈ commands, command.word ≠ .oem)
    (closedToo : ∀ command ∈ others, command.word ≠ .oem)
    (more : ∀ command ∈ others, command.Accepted files) :
    ∃ whole, (read files serial (words ++ others.flatMap Command.words)).result = .ok whole ∧
      Amounts files serial (commands ++ others) whole := by
  have joined := cuts.append closed (cuts_words closedToo)
  have all : ∀ command ∈ commands ++ others, command.Accepted files :=
    List.forall_mem_append.mpr ⟨amounts.accepted, more⟩
  obtain ⟨blocks, queued⟩ := accepted_iff_queued.mp all
  have whole := amounts_invocation serial queued
  exact ⟨_, read_eq_ok_iff.mpr ⟨_, joined, whole⟩, whole⟩

private theorem accepts_known {options : List String} {whole : Invocation}
    (more : Amounts files serial (commands ++ options.map .vendor) whole) {device : Descriptor}
    (known : ∃ name, (device.vendorId, name) ∈ knownVendors)
    (eligible : invocation.filter.accepts device) : whole.filter.accepts device := by
  have silent : (options.map Command.vendor).filterMap Command.serial? = [] :=
    List.filterMap_eq_nil_iff.mpr (by simp [Command.serial?])
  have same : whole.filter.serial = invocation.filter.serial := by
    rw [more.serial, amounts.serial, lastSerial?, lastSerial?, List.filterMap_append, silent,
      List.append_nil]
  obtain ⟨kind, -, named⟩ := Filter.accepts_iff.mp eligible
  exact Filter.accepts_iff.mpr ⟨kind, .inl known, same ▸ named⟩

private theorem accepts_of_named {wanted : String} {whole : Invocation}
    (anonymous : Anonymous serial commands)
    (more : Amounts files serial (commands ++ [.serial wanted]) whole) {device : Descriptor}
    (eligible : whole.filter.accepts device) : invocation.filter.accepts device := by
  have free : invocation.filter.serial = none :=
    amounts.serial.trans (anonymous_iff.mp anonymous)
  have same : whole.filter.vendorId = invocation.filter.vendorId := by
    rw [more.vendorId, amounts.vendorId]
    simp [lastVendor?, Command.vendor?]
  obtain ⟨kind, vendor, -⟩ := Filter.accepts_iff.mp eligible
  exact Filter.accepts_iff.mpr ⟨kind, same ▸ vendor, by simp [free]⟩

end Amounts

/-- A device is eligible under an accepted line just if its interface, its vendor and its serial
number are. More vendors at the end of an open line exclude no device of a known vendor, and a
serial number at the end of an open line that asks for none adds no device. -/
theorem eligible_read {files : Files} {serial : Option String} {words : List String}
    {invocation : Invocation} (accepted : (read files serial words).result = .ok invocation) :
    ∃ commands, Cuts words commands .complete ∧
      (∀ device, invocation.filter.accepts device ↔ Eligible serial commands device) ∧
      ((∀ command ∈ commands, command.word ≠ .oem) →
        (∀ options : List String, (∀ text ∈ options, ∃ id, VendorId.parse text = .ok id) →
          ∃ whole,
            (read files serial (words ++ options.flatMap fun text => ["-i", text])).result =
              .ok whole ∧
            ∀ device, (∃ name, (device.vendorId, name) ∈ knownVendors) →
              invocation.filter.accepts device → whole.filter.accepts device) ∧
        (Anonymous serial commands → ∀ wanted, ∃ whole,
          (read files serial (words ++ ["-s", wanted])).result = .ok whole ∧
            ∀ device, whole.filter.accepts device → invocation.filter.accepts device)) := by
  obtain ⟨commands, cuts, amounts⟩ := read_eq_ok_iff.mp accepted
  refine ⟨commands, cuts, fun _ => amounts.accepts_iff, fun closed => ⟨?_, ?_⟩⟩
  · intro options valid
    obtain ⟨whole, read, more⟩ :=
      amounts.exists_read_append cuts (options.map .vendor) closed
        (by simp [Command.word]) (by simpa [Command.Accepted] using valid)
    rw [List.flatMap_map] at read
    exact ⟨whole, read, fun _ => amounts.accepts_known more⟩
  · intro anonymous wanted
    obtain ⟨whole, read, more⟩ :=
      amounts.exists_read_append cuts [.serial wanted] closed
        (by simp [Command.word]) (by simp [Command.Accepted])
    exact ⟨whole, read, fun _ => amounts.accepts_of_named anonymous more⟩

/-- A vendor that was taken back, and an option that is the argument of another command. -/
theorem eligible_read_taken_back :
    let files : Files := ⟨fun _ => .error .missing, fun _ => .error "no archive"⟩
    let words := ["-i", "0x1234", "erase", "-s", "-i", "0"]
    let invocation : Invocation := ⟨⟨none, none⟩, ⟨#[.erase "-s"]⟩⟩
    (read files (some "") words).result = .ok invocation ∧
      ∃ commands, Cuts words commands .complete ∧
        (∀ device, invocation.filter.accepts device ↔ Eligible (some "") commands device) ∧
        (∀ command ∈ commands, command.word ≠ .oem) ∧ Anonymous (some "") commands ∧
        ∃ whole, (read files (some "") (words ++ ["-s", "A"])).result = .ok whole ∧
          ∀ device, whole.filter.accepts device → invocation.filter.accepts device := by
  intro files words invocation
  have accepted : (read files (some "") words).result = .ok invocation := by decide +kernel
  have known : cut words = ([.vendor "0x1234", .erase "-s", .vendor "0"], .complete) := by
    decide +kernel
  obtain ⟨commands, cuts, eligible, extended⟩ := eligible_read accepted
  rw [cuts.cut_eq] at known
  cases known
  have anonymous : Anonymous (some "") [.vendor "0x1234", .erase "-s", .vendor "0"] :=
    ⟨by decide, .inr rfl⟩
  exact ⟨accepted, _, cuts, eligible, by decide, anonymous,
    (extended (by decide)).2 anonymous "A"⟩

end CommandLine

end FlashHost
