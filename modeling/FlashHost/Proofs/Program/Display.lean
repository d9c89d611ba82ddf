import FlashHost.Proofs.Program.Target
import FlashHost.Proofs.Progress.Printing

/-!
# The listing of devices as it is shown

The user sees one line for each bootloader interface of a known vendor. Its first column says
whether the device can be opened, and by which serial number it goes if it can.
-/

set_option autoImplicit false

namespace FlashHost

namespace Usb

/-- The interface belongs on the listing: it is a bootloader's, of a known vendor. -/
def Place.Listed (place : Place) : Prop :=
  place.interface.kind = .bootloader ∧
    place.device.location.vendorId ∈ knownVendors.map Prod.fst

instance (place : Place) : Decidable place.Listed :=
  inferInstanceAs (Decidable (_ ∧ _))

inductive Place.Shows (place : Place) : String → Prop where
  | locked {reason} : place.device.openFault = some reason → Shows place "no permissions"
  | unnamed :
      place.device.openFault = none →
      place.device.serial = none ∨ place.device.serial = some "" →
      Shows place "????????????"
  | named {serial} :
      place.device.openFault = none → place.device.serial = some serial → serial ≠ "" →
      Shows place serial

private theorem Place.accepts_any_iff {place : Place} :
    Filter.any.accepts place.candidate ↔ place.Listed := by
  simp [Filter.accepts, Filter.any, Filter.requests, isKnownVendor, Place.candidate,
    Place.Listed, and_comm]

private theorem Place.Listed.shows {place : Place} (listed : place.Listed) :
    place.Shows place.candidate.displaySerial := by
  have opens : place.candidate.writable = (place.device.openFault = none : Bool) := by
    simp [Place.candidate, Place.opens, listed.1]
  rw [Descriptor.displaySerial, opens]
  cases fault : place.device.openFault with
  | some reason => exact .locked fault
  | none =>
      have serial : place.candidate.serial = place.device.serial.getD "" := rfl
      rw [serial]
      cases reported : place.device.serial with
      | none => exact .unnamed fault (.inl reported)
      | some serial =>
          by_cases empty : serial = ""
          · subst empty
            exact .unnamed fault (.inr reported)
          · simpa [empty] using Shows.named fault reported empty

/-- A device is opened for just those interfaces that pass a filter's own test of the kind. -/
theorem Place.accepts_iff_openAttempted (place : Place) (filter : Filter) :
    filter.accepts place.candidate ↔
      filter.accepts { place.candidate with kind := .bootloader } ∧
        .openAttempted place.position ∈
          (openFor place.position place.device place.interface).2 := by
  have tried : .openAttempted place.position ∈
      (openFor place.position place.device place.interface).2 ↔
        place.interface.kind = .bootloader := by
    rw [openFor]
    by_cases kind : place.interface.kind = .bootloader
    · cases place.device.openFault <;> simp [kind]
    · simp [kind]
  rw [tried]
  simp only [Filter.accepts, Place.candidate, Bool.and_eq_true, beq_iff_eq]
  tauto

private theorem infix_glance {place : Place} {places : List Place} (member : place ∈ places) :
    glance place <:+: places.flatMap glance := by
  obtain ⟨before, after, rfl⟩ := List.append_of_mem member
  rw [List.flatMap_append, List.flatMap_cons, ← List.append_assoc]
  exact List.infix_append ..

end Usb

namespace Program

open Usb

theorem outputText_append (earlier later : List Event) :
    outputText (earlier ++ later) = outputText earlier ++ outputText later := by
  rw [outputText, List.map_append, String.join_append]
  rfl

private theorem outputText_deeds (events : List Event) : outputText (deeds events) = outputText events := by
  induction events with
  | nil => rfl
  | cons event events ih =>
      rw [← List.singleton_append, deeds_append, outputText_append, outputText_append, ih]
      cases event <;> rfl

private theorem outputText_map_printed (lines : List String) :
    outputText (lines.map .printed) = String.join (lines.map (· ++ "\n")) := by
  rw [outputText, List.map_map]
  rfl

private theorem outputText_glances (places : List Place) : outputText (places.flatMap glance) = "" := by
  induction places with
  | nil => rfl
  | cons place places ih =>
      rw [List.flatMap_cons, outputText_append, ih, glance, outputText_append]
      split <;> rfl

/-- What holds of the ways to look at a bus and of what is printed holds of all that is done to
list its devices. -/
theorem forall_of_lists {outcome : Outcome Rest} {devices : List Device} {holds : Event → Prop}
    (lists : Lists outcome (.ok devices)) (noted : ∀ note, holds (.noted note))
    (enumerated : holds .enumerated) (opened : ∀ position, holds (.openAttempted position))
    (visited : ∀ device, holds (.visited device .pass)) (printed : ∀ line, holds (.printed line)) :
    ∀ event ∈ outcome.events, holds event := by
  apply forall_of_deeds noted
  rw [lists.2]
  refine List.forall_mem_append.mpr ⟨List.forall_mem_cons.mpr ⟨enumerated, ?_⟩, ?_⟩
  · intro event member
    obtain ⟨place, -, own⟩ := List.mem_flatMap.mp member
    rw [glance] at own
    split at own
    · obtain rfl | rfl : event = .openAttempted place.position ∨
          event = .visited place.candidate .pass := by simpa using own
      · exact opened _
      · exact visited _
    · obtain rfl := List.mem_singleton.mp own
      exact visited _
  · intro event member
    obtain ⟨device, -, rfl⟩ := List.mem_map.mp member
    exact printed _

/-- What a run of the program shows of the devices on the bus, and what it does to find out. -/
structure Displays (devices : List Device) (run : Conclusion) : Prop where
  /-- There is a line for each interface of the listing, in the order of the bus, and nothing
  else. Before the lines are printed every interface is looked at once, in its turn. -/
  shown : ∃ serials, List.Forall₂ Place.Shows ((places devices).filter Place.Listed) serials ∧
    run.output = String.join (serials.map (· ++ "\tfastboot\n")) ∧
    deeds run.events = .enumerated :: (places devices).flatMap glance ++
      serials.map fun serial => .printed (serial ++ "\tfastboot")
  ended : run.code = some 0 ∧ run.errors = ""
  /-- The device of an interface on the listing is opened, or tried to be, to look at it. -/
  attempted : ∀ place ∈ places devices, place.Listed →
    [.openAttempted place.position, .visited place.candidate .pass] <:+: deeds run.events
  /-- The bus and every filter have the same test of the kind of an interface. -/
  tested : ∀ place ∈ places devices, ∀ filter : Filter, filter.accepts place.candidate ↔
    filter.accepts { place.candidate with kind := .bootloader } ∧
      .openAttempted place.position ∈ (openFor place.position place.device place.interface).2
  /-- No interface is claimed, and no device is written to or read from. -/
  untouched : ∀ event ∈ run.events, ¬ event.IsTraffic ∧
    ∀ position interface, event ≠ .claimAttempted position interface

private theorem invoke_of_done {files : Files} {serial : Option String} {words : List String}
    {passes : List Listing} (times : Times) (verbosity : Nat)
    (ended : (run bus Connection.transport id files serial words passes).result = .ok .done) :
    let events := (run bus Connection.transport id files serial words passes).events
    invoke bus Connection.transport id files serial times (.line verbosity words) passes =
      ⟨some 0, outputText events, terminalText times .initial events, events⟩ := by
  intro events
  rw [invoke, ended]

private theorem candidates_listed (places : List Place) :
    (places.map Place.candidate).filter Filter.any.accepts =
      (places.filter Place.Listed).map Place.candidate := by
  rw [List.filter_map]
  congr 2
  funext place
  exact Bool.eq_iff_iff.mpr (Place.accepts_any_iff.trans decide_eq_true_iff.symm)

def serialColumn (devices : List Device) : List String :=
  ((places devices).filter Place.Listed).map fun place => place.candidate.displaySerial

private theorem shows_serialColumn (devices : List Device) :
    List.Forall₂ Place.Shows ((places devices).filter Place.Listed) (serialColumn devices) := by
  rw [serialColumn, List.forall₂_map_right_iff, List.forall₂_same]
  intro place member
  have listed : place.Listed := by simpa using (List.mem_filter.mp member).2
  exact listed.shows

section Runs

variable {outcome : Outcome Rest} {devices : List Device} (lists : Lists outcome (.ok devices))

include lists

theorem deeds_of_lists :
    deeds outcome.events = .enumerated :: (places devices).flatMap glance ++
      (serialColumn devices).map fun serial => .printed (serial ++ "\tfastboot") := by
  rw [lists.2, candidates_listed, serialColumn, List.map_map, List.map_map]
  rfl

private theorem output_of_lists :
    outputText outcome.events = String.join ((serialColumn devices).map (· ++ "\tfastboot\n")) := by
  have lines : (serialColumn devices).map (fun serial => Event.printed (serial ++ "\tfastboot")) =
      ((serialColumn devices).map (· ++ "\tfastboot")).map .printed := by
    rw [List.map_map]
    rfl
  have ended (serial : String) : serial ++ "\tfastboot" ++ "\n" = serial ++ "\tfastboot\n" :=
    String.append_assoc
  rw [← outputText_deeds, deeds_of_lists lists, ← List.singleton_append, outputText_append,
    outputText_append, outputText_glances, lines, outputText_map_printed, List.map_map]
  simp only [Function.comp_def, ended]
  exact String.empty_append

private theorem terminalText_of_lists (times : Times) (terminal : Terminal) :
    terminalText times terminal outcome.events = "" := by
  have quiet : ∀ event ∈ outcome.events, ¬ event.IsNotice :=
    forall_of_lists lists (fun _ => id) id (fun _ => id) (fun _ => id) fun _ => id
  have unreported : reports outcome.events = [] :=
    List.filterMap_eq_nil_iff.mpr <|
      forall_of_lists lists (fun _ => rfl) rfl (fun _ => rfl) (fun _ => rfl) fun _ => rfl
  rw [terminalText_eq quiet, unreported]
  rfl

private theorem attempted_of_lists {place : Place} (member : place ∈ places devices)
    (listed : place.Listed) :
    [.openAttempted place.position, .visited place.candidate .pass] <:+:
      deeds outcome.events := by
  have seen : glance place = [.openAttempted place.position, .visited place.candidate .pass] := by
    rw [glance, if_pos listed.1]
    rfl
  rw [← seen, deeds_of_lists lists, List.cons_append, ← List.singleton_append]
  exact (infix_glance member).trans (List.infix_append' ..)

end Runs

/-- Whatever is on the bus, the listing shows each bootloader interface of a known vendor once,
as it is, and leaves the devices alone. -/
theorem displays_invoke (files : Files) (serial : Option String) (times : Times) (verbosity : Nat)
    (rest : List String) (devices : List Device) (passes : List Listing) :
    Displays devices
      (invoke bus Connection.transport id files serial times (.line verbosity ("devices" :: rest))
        (.ok devices :: passes)) := by
  have lists := lists_run files serial rest (.ok devices) passes
  rw [invoke_of_done times verbosity lists.1]
  exact
    { shown := ⟨_, shows_serialColumn devices, output_of_lists lists, deeds_of_lists lists⟩
      ended := ⟨rfl, terminalText_of_lists lists times .initial⟩
      attempted := fun place member listed => attempted_of_lists lists member listed
      tested := fun place _ filter => place.accepts_iff_openAttempted filter
      untouched := forall_of_lists lists (fun _ => ⟨id, nofun⟩) ⟨id, nofun⟩
        (fun _ => ⟨id, nofun⟩) (fun _ => ⟨id, nofun⟩) fun _ => ⟨id, nofun⟩ }

/-- Phones that are locked, nameless and named, the last with a disk interface beside the one for
the bootloader, and a bootloader of a vendor that is not known. -/
theorem displays_phones :
    let files : Files := ⟨fun _ => .error .missing, fun _ => .error "no archive"⟩
    let phone (vendorId : UInt16) (serial openFault : Option String)
        (kinds : List InterfaceKind) : Device :=
      { location := ⟨vendorId, 0x4EE0, 1, 1⟩, serial, openFault
        interfaces := kinds.map (⟨0, ·, none⟩)
        configuration := .error .notConfigured, outgoing := [], incoming := [] }
    let devices :=
      [phone 0x18D1 (some "A") (some "denied") [.bootloader], phone 0x0BB4 none none [.bootloader],
        phone 0x1234 (some "B") none [.bootloader],
        phone 0x22B8 (some "C") none [⟨0x08, 0x06, 0x50⟩, .bootloader]]
    let run := invoke bus Connection.transport id files none (fun _ => ⟨0⟩) (.line 1 ["devices"])
      [.ok devices]
    Displays devices run ∧
      run.output = "no permissions\tfastboot\n????????????\tfastboot\nC\tfastboot\n" := by
  intro files phone devices run
  exact ⟨displays_invoke files none _ 1 [] devices [], by decide +kernel⟩

end Program

end FlashHost
