import FlashHost.Proofs.CommandLine.Composition
import FlashHost.Proofs.CommandLine.Quiet
import FlashHost.Proofs.Device.Filter
import FlashHost.Proofs.Discovery.Provenance
import FlashHost.Proofs.Usb.Listing

/-!
# The device that is talked to

A run talks to one device at most, and only if its whole line was accepted: a device that the
line asks for, with a vendor that is known or named on the line. Runs that need no device, and
runs whose line is rejected, leave the bus alone; the listing of devices looks and no more.
-/

set_option autoImplicit false

namespace FlashHost

namespace Event

def IsTraffic : Event → Prop
  | .written _ _ | .read _ | .transferred _ => True
  | _ => False

def TouchesBus : Event → Prop
  | .enumerated | .visited _ _ | .openAttempted _ | .configurationRead _ | .claimAttempted _ _
  | .written _ _ | .read _ | .transferred _ => True
  | .progress _ | .waiting | .drawn _ _ _ | .printed _ | .usageShown | .noted _ => False

end Event

theorem forall_of_deeds {holds : Event → Prop} {events : List Event}
    (noted : ∀ note, holds (.noted note)) (own : ∀ event ∈ deeds events, holds event) :
    ∀ event ∈ events, holds event := by
  intro event member
  cases event with
  | noted note => exact noted note
  | _ => exact own _ (List.mem_filter.mpr ⟨member, rfl⟩)

theorem Outcome.Quiet.untouched {α : Type} {outcome : Outcome α} (quiet : outcome.Quiet) :
    ∀ event ∈ outcome.events, ¬ event.TouchesBus := by
  intro event member touches
  have silent := quiet event member
  cases event with
  | noted note => exact touches
  | drawn position size ended => exact touches
  | _ => exact silent

theorem Event.IsTraffic.touchesBus {event : Event} (traffic : event.IsTraffic) :
    event.TouchesBus := by
  cases event <;> trivial

namespace Usb

theorem Visit.not_traffic_of_mem_deeds (visit : Visit) :
    ∀ event ∈ visit.deeds, ¬ event.IsTraffic := by
  rw [Visit.deeds, Place.attempts]
  repeat' split
  all_goals simp [Event.IsTraffic]

private theorem not_traffic_of_mem_enumerate {κ : Type} (visit : Visitor κ) (state : κ)
    (listing : Listing) :
    ∀ event ∈ (enumerate visit state listing).events, ¬ event.IsTraffic := by
  refine forall_of_deeds (fun _ => id) ?_
  cases listing with
  | error reason => exact List.forall_mem_singleton.mpr id
  | ok devices =>
      obtain ⟨_, visited, _, -, -, -, -, done⟩ := visitPlaces_ends visit state (places devices)
      have all : deeds (enumerate visit state (.ok devices)).events =
          .enumerated :: visited.flatMap Visit.deeds := by
        rw [enumerate_ok, ← done]
        rfl
      rw [all]
      refine List.forall_mem_cons.mpr ⟨id, ?_⟩
      intro event member
      obtain ⟨visit, -, own⟩ := List.mem_flatMap.mp member
      exact visit.not_traffic_of_mem_deeds event own

end Usb

namespace Program

open CommandLine Usb

namespace Direct

theorem ofLine?_eq_some_iff {words : List String} {direct : Direct} :
    ofLine? words = some direct ↔ ∃ rest, words = direct.spelling :: rest := by
  cases words with
  | nil => simp [ofLine?]
  | cons word rest =>
      constructor
      · intro found
        have same := List.find?_some found
        exact ⟨rest, congrArg (· :: rest) (beq_iff_eq.mp same).symm⟩
      · rintro ⟨_, ⟨⟩⟩
        cases direct <;> rfl

theorem ne_spelling (direct : Direct) (word : Word) : direct.spelling ≠ word.spelling := by
  cases direct <;> cases word <;> decide

end Direct

section Runs

variable {ρ η σ : Type} {bus : Bus ρ η} {transport : Transport σ} {connect : η → σ}
  {files : Files} {serial : Option String} {words : List String} {passes left : List ρ}
  {invocation : Invocation} {events : List Event}

theorem run_of_help (line : Direct.ofLine? words = some .help) :
    run bus transport connect files serial words passes = ⟨.ok .done, [.usageShown]⟩ := by
  obtain ⟨rest, rfl⟩ := Direct.ofLine?_eq_some_iff.mp line
  rw [run.eq_def, if_neg (List.cons_ne_nil _ _), line]
  rfl

theorem run_of_rejected {error : Error} (some : words ≠ [])
    (indirect : Direct.ofLine? words = none)
    (rejected : (read files serial words).result = .error error) :
    run bus transport connect files serial words passes =
      ⟨.error error, (read files serial words).events⟩ := by
  rw [run.eq_def, if_neg some, indirect]
  exact Outcome.bind_of_error rejected

private theorem run_of_accepted (some : words ≠ []) (indirect : Direct.ofLine? words = none)
    (accepted : (read files serial words).result = .ok invocation) :
    (run bus transport connect files serial words passes).events =
      (read files serial words).events ++
        .noted (.lineRead invocation.queue.size invocation.filter) ::
          (carryOut bus transport connect invocation passes).events := by
  rw [run.eq_def, if_neg some, indirect]
  dsimp only
  rw [Outcome.bind_of_ok accepted, Outcome.after, Outcome.bind_of_ok (Outcome.result_note _)]
  rfl

private theorem events_carryOut_none
    (waited : Discovery.acquire bus invocation.filter passes = (none, events)) :
    (carryOut bus transport connect invocation passes).events = events := by
  rw [carryOut, waited]
  exact List.append_nil events

private theorem events_carryOut_some {device : η}
    (acquired : Discovery.acquire bus invocation.filter passes = (some (device, left), events)) :
    (carryOut bus transport connect invocation passes).events =
      events ++ (Protocol.execute transport invocation.queue (connect device)).1.events := by
  have sequence (executed : Outcome Unit) :
      (executed >>= fun _ => (Pure.pure Rest.done : Outcome Rest)).events = executed.events := by
    cases ended : executed.result with
    | error error => rw [Outcome.bind_of_error ended]
    | ok value =>
        rw [Outcome.bind_of_ok ended]
        exact List.append_nil _
  rw [carryOut, acquired]
  exact congrArg (events ++ ·) (sequence _)

end Runs

/-- A run lists a pass: it looks at the bus once, claims nothing, and shows the devices that the
filter accepts which asks for nothing. -/
def Lists (run : Outcome Rest) : Listing → Prop
  | .error reason =>
    run.result = .error (.transport (.usb (.enumerationFailed reason))) ∧
      deeds run.events = [.enumerated]
  | .ok devices =>
    run.result = .ok .done ∧
      deeds run.events = .enumerated :: (places devices).flatMap glance ++
        (((places devices).map Place.candidate).filter Filter.any.accepts).map
          fun device => .printed (listingLine device)

theorem lists_run (files : Files) (serial : Option String) (rest : List String) (pass : Listing)
    (passes : List Listing) :
    Lists (run bus Connection.transport id files serial ("devices" :: rest) (pass :: passes))
      pass := by
  have line : Direct.ofLine? ("devices" :: rest) = some .devices := rfl
  rw [run.eq_def, if_neg (List.cons_ne_nil _ _), line]
  cases pass with
  | error reason => exact ⟨rfl, rfl⟩
  | ok devices =>
      obtain ⟨events, listed, done⟩ := list_ok .any devices
      have shown (devices : List Descriptor) :
          deeds (devices.map fun device => .printed (listingLine device)) =
            devices.map fun device => .printed (listingLine device) := by
        simp [deeds]
      dsimp only [listDevices]
      rw [listed]
      refine ⟨rfl, ?_⟩
      change deeds (events ++ .noted _ :: List.map _ _ ++ []) = _
      rw [List.append_nil, deeds_append, done, deeds_noted, shown]

structure Requested (serial : Option String) (commands : List Command) (place : Place) :
    Prop where
  kind : place.interface.kind = .bootloader
  vendor : (∃ name, (place.device.location.vendorId, name) ∈ knownVendors) ∨
    (lastVendor? commands).bind requestedVendor? = some place.device.location.vendorId
  serial : ∀ wanted, (lastSerial? commands).or (serial.filter (· ≠ "")) = some wanted →
    place.device.serial.getD "" = wanted

private theorem requested_of_accepts {files : Files} {serial : Option String} {commands : List Command}
    {invocation : Invocation} {place : Place}
    (amounts : Amounts files serial commands invocation)
    (accepted : invocation.filter.accepts place.candidate) : Requested serial commands place := by
  obtain ⟨kind, vendor, wanted⟩ := Filter.accepts_iff.mp accepted
  refine ⟨kind, ?_, ?_⟩
  · rw [← amounts.vendorId]
    cases vendor with
    | inl known => exact .inl known
    | inr named => exact .inr named.1
  · intro serial asked
    exact wanted serial (amounts.serial.trans asked)

/-- What is sent in a run is sent in the execution of the queue of an accepted line, on the
connection to a device that the line asks for and that one of the passes listed. -/
def Addresses (files : Files) (serial : Option String) (words : List String)
    (passes : List Listing) (run : Outcome Rest) : Prop :=
  ∃ invocation commands devices place connection before,
    (read files serial words).result = .ok invocation ∧ Cuts words commands .complete ∧
      .ok devices ∈ passes ∧ place ∈ places devices ∧ Requested serial commands place ∧
      place.Usable connection ∧
      run.events = before ++
        (Protocol.execute Connection.transport invocation.queue connection).1.events ∧
      ∀ event ∈ before, ¬ event.IsTraffic

structure Targets (files : Files) (serial : Option String) (words : List String)
    (passes : List Listing) (run : Outcome Rest) : Prop where
  /-- No more than one device is talked to, and only one that the whole line asks for. -/
  addressed : (∃ event ∈ run.events, event.IsTraffic) →
    Addresses files serial words passes run
  listed : ∀ rest pass others, words = "devices" :: rest → passes = pass :: others →
    Lists run pass
  /-- The bus is left alone if no device is needed or the line is not accepted. -/
  untouched : (words = [] ∨ (∃ rest, words = "help" :: rest) ∨
      (∀ rest, words ≠ "devices" :: rest) ∧
        ∃ error, (read files serial words).result = .error error) →
    ∀ event ∈ run.events, ¬ event.TouchesBus
  /-- The words that are carried out at once are no command words further on. -/
  direct : ∀ front commands direct rest, front ≠ [] →
    words = front ++ Direct.spelling direct :: rest → Cuts front commands .complete →
    (∀ command ∈ commands, command.word ≠ .oem ∧ command.Accepted files) →
    run.result = .error (.unknownCommand direct.spelling) ∧
      (Error.unknownCommand direct.spelling).kind = .usage ∧
      ∀ event ∈ run.events, ¬ event.TouchesBus

section Bus

variable {files : Files} {serial : Option String} {words : List String}
  {passes : List Listing} {invocation : Invocation}

private theorem not_traffic_of_lists {outcome : Outcome Rest} {pass : Listing}
    (lists : Lists outcome pass) : ∀ event ∈ outcome.events, ¬ event.IsTraffic := by
  refine forall_of_deeds (fun _ => id) ?_
  cases pass with
  | error reason =>
      rw [lists.2]
      exact List.forall_mem_singleton.mpr id
  | ok devices =>
      rw [lists.2]
      refine List.forall_mem_append.mpr ⟨List.forall_mem_cons.mpr ⟨id, ?_⟩, ?_⟩
      · intro event member
        obtain ⟨place, -, own⟩ := List.mem_flatMap.mp member
        exact Visit.not_traffic_of_mem_deeds ⟨place, .pass⟩ event own
      · intro event member
        obtain ⟨device, -, rfl⟩ := List.mem_map.mp member
        exact id

/-- An acquired device is that of an interface which the filter accepts. -/
theorem place_of_acquire {filter : Filter} {connection : Connection} {left : List Listing}
    {events : List Event}
    (acquired : Discovery.acquire bus filter passes = (some (connection, left), events)) :
    ∃ devices place, .ok devices ∈ passes ∧ place ∈ places devices ∧
      filter.accepts place.candidate ∧ place.Usable connection := by
  have found : (Discovery.acquireFrom bus filter false passes).1 = some (connection, left) :=
    congrArg Prod.fst acquired
  obtain ⟨pass, member, offer, offered, accepted, there⟩ :=
    Discovery.gives_of_acquireFrom offers_bus found
  cases pass with
  | error reason => cases offered
  | ok devices =>
      obtain ⟨place, listed, rfl⟩ := List.mem_map.mp offered
      exact ⟨devices, place, member, listed, accepted, Place.connection?_eq_some_iff.mp there⟩

private theorem not_traffic_of_acquire {filter : Filter} {found : Option (Connection × List Listing)}
    {events : List Event} (acquired : Discovery.acquire bus filter passes = (found, events)) :
    ∀ event ∈ events, ¬ event.IsTraffic := by
  have all : ∀ event ∈ (Discovery.acquireFrom bus filter false passes).2, ¬ event.IsTraffic :=
    Discovery.forall_acquireFrom
      (fun pass => not_traffic_of_mem_enumerate (Discovery.accepting filter) () pass)
      (fun _ => id) id false passes
  have same : Discovery.acquireFrom bus filter false passes = (found, events) := acquired
  rwa [same] at all

/-- A line that was accepted is carried out without traffic, or on a device that it asks for. -/
theorem addresses_of_accepted (some : words ≠ []) (indirect : Direct.ofLine? words = none)
    (accepted : (read files serial words).result = .ok invocation)
    (traffic : ∃ event ∈ (run bus Connection.transport id files serial words passes).events,
      event.IsTraffic) :
    Addresses files serial words passes
      (run bus Connection.transport id files serial words passes) := by
  obtain ⟨commands, cuts, amounts⟩ := read_eq_ok_iff.mp accepted
  have quiet : ∀ event ∈ (read files serial words).events, ¬ event.IsTraffic :=
    fun event member own => (quiet_read files serial words).untouched event member own.touchesBus
  have whole : (run bus Connection.transport id files serial words passes).events = _ :=
    run_of_accepted some indirect accepted
  rcases acquired : Discovery.acquire bus invocation.filter passes with ⟨found, events⟩
  have calm := not_traffic_of_acquire acquired
  have front (noted : Note) : ∀ event ∈ (read files serial words).events ++ .noted noted :: events,
      ¬ event.IsTraffic :=
    List.forall_mem_append.mpr ⟨quiet, List.forall_mem_cons.mpr ⟨id, calm⟩⟩
  cases found with
  | none =>
      rw [events_carryOut_none acquired] at whole
      obtain ⟨event, member, own⟩ := traffic
      rw [whole] at member
      exact absurd own (front _ event member)
  | some found =>
      obtain ⟨connection, left⟩ := found
      obtain ⟨devices, place, listed, member, fits, usable⟩ := place_of_acquire acquired
      rw [events_carryOut_some acquired, ← List.cons_append, ← List.append_assoc] at whole
      exact ⟨invocation, commands, devices, place, connection, _, accepted, cuts, listed, member,
        requested_of_accepts amounts fits, usable, whole, front _⟩

private theorem untouched_of_rejected {error : Error} (direct : ∀ rest, words ≠ "devices" :: rest)
    (rejected : (read files serial words).result = .error error) :
    ∀ event ∈ (run bus Connection.transport id files serial words passes).events,
      ¬ event.TouchesBus := by
  by_cases empty : words = []
  · subst empty
    exact List.forall_mem_nil _
  · cases line : Direct.ofLine? words with
    | none =>
        rw [run_of_rejected empty line rejected]
        exact (quiet_read files serial words).untouched
    | some found =>
        cases found with
        | devices =>
            obtain ⟨rest, same⟩ := Direct.ofLine?_eq_some_iff.mp line
            exact absurd same (direct rest)
        | help =>
            rw [run_of_help line]
            exact List.forall_mem_singleton.mpr id

private theorem ofLine?_of_cuts {front : List String} {commands : List Command}
    (cuts : Cuts front commands .complete) (some : front ≠ []) (rest : List String) :
    Direct.ofLine? (front ++ rest) = none := by
  obtain ⟨word, others, rfl⟩ : ∃ word others, front = Word.spelling word :: others := by
    cases cuts with
    | nil => exact absurd rfl some
    | @command command rest => exact ⟨command.word, command.arguments ++ rest, rfl⟩
    | oem => exact ⟨.oem, _, rfl⟩
  rw [Option.eq_none_iff_forall_ne_some]
  intro direct found
  obtain ⟨_, same⟩ := Direct.ofLine?_eq_some_iff.mp found
  exact direct.ne_spelling word (List.cons.inj same).1.symm

/-- The commands on a line are carried out before the word that is none is seen. -/
theorem read_of_direct (files : Files) (serial : Option String) {front : List String}
    {commands : List Command} (direct : Direct) (cuts : Cuts front commands .complete)
    (carried : ∀ command ∈ commands, command.word ≠ .oem ∧ command.Accepted files)
    (rest : List String) :
    (read files serial (front ++ direct.spelling :: rest)).result =
      .error (.unknownCommand direct.spelling) := by
  have last : Cuts (direct.spelling :: rest) [] (.unknownCommand direct.spelling) :=
    .unknown direct.ne_spelling
  have whole := cuts.append (fun command member => (carried command member).1) last
  rw [List.append_nil] at whole
  exact read_eq_error_iff.mpr
    (.unfinished whole (fun command member => (carried command member).2) rfl)

/-- Whatever the line, the files and the bus are, a run writes to the device that the line asks
for and to no other, and leaves the bus alone if the line is not accepted. -/
theorem targets_run (files : Files) (serial : Option String) (words : List String)
    (passes : List Listing) :
    Targets files serial words passes
      (run bus Connection.transport id files serial words passes) where
  addressed traffic := by
    by_cases empty : words = []
    · subst empty
      obtain ⟨_, member, -⟩ := traffic
      cases member
    · cases line : Direct.ofLine? words with
      | none =>
          cases ended : (read files serial words).result with
          | ok invocation => exact addresses_of_accepted empty line ended traffic
          | error error =>
              obtain ⟨event, member, own⟩ := traffic
              rw [run_of_rejected empty line ended] at member
              exact absurd own.touchesBus ((quiet_read files serial words).untouched event member)
      | some direct =>
          obtain ⟨event, member, own⟩ := traffic
          obtain ⟨rest, rfl⟩ := Direct.ofLine?_eq_some_iff.mp line
          cases direct with
          | help =>
              rw [run_of_help line] at member
              obtain rfl := List.mem_singleton.mp member
              exact own.elim
          | devices =>
              cases passes with
              | nil => cases member
              | cons pass passes =>
                  have lists := lists_run files serial rest pass passes
                  exact absurd own (not_traffic_of_lists lists event member)
  listed rest pass others line bus := by
    subst line bus
    exact lists_run files serial rest pass others
  untouched := by
    rintro (rfl | ⟨rest, rfl⟩ | ⟨direct, error, rejected⟩)
    · exact List.forall_mem_nil _
    · rw [run_of_help rfl]
      exact List.forall_mem_singleton.mpr id
    · exact untouched_of_rejected direct rejected
  direct := by
    rintro front commands direct rest some rfl cuts carried
    have rejected := read_of_direct files serial direct cuts carried rest
    have indirect := ofLine?_of_cuts cuts some (direct.spelling :: rest)
    have empty : front ++ direct.spelling :: rest ≠ [] := List.append_ne_nil_of_left_ne_nil some _
    refine ⟨by rw [run_of_rejected empty indirect rejected], rfl, ?_⟩
    rw [run_of_rejected empty indirect rejected]
    exact (quiet_read files serial _).untouched

end Bus

end Program

end FlashHost
