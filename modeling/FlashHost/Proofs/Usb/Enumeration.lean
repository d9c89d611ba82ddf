import FlashHost.Proofs.Discovery.Offering
import FlashHost.Proofs.Protocol.Composition
import FlashHost.Proofs.Usb.Endpoints
import FlashHost.Usb.Bus

/-!
# Enumeration of the USB bus

What a visitor is shown of a listing, what is done on the host on its behalf, and what it is
given in the end. The interfaces are gone through in their order, and nothing that goes wrong
with one of them keeps the others from being looked at.
-/

set_option autoImplicit false

namespace FlashHost

/-- Notes for the log are no part of a search. -/
theorem search_deeds (events : List Event) : search (deeds events) = search events := by
  rw [search, search, deeds, List.filter_filter]
  congr 1
  funext event
  cases event <;> rfl

namespace Usb

def places (devices : List Device) : List Place :=
  devices.zipIdx.flatMap fun (device, position) => device.interfaces.map (⟨position, device, ·⟩)

namespace Place

/-- Whether the device is opened for the interface: a bootloader's, if the host lets it. -/
def opens (place : Place) : Bool :=
  place.interface.kind = .bootloader ∧ place.device.openFault = none

def candidate (place : Place) : Descriptor where
  vendorId := place.device.location.vendorId
  kind := place.interface.kind
  serial := place.device.serial.getD ""
  writable := place.opens

def Finds (place : Place) (pair : EndpointPair) : Prop :=
  ∃ settings, place.device.configuration = .ok settings ∧
    Pairs settings place.interface.number pair

structure Usable (place : Place) (connection : Connection) : Prop where
  kind : place.interface.kind = .bootloader
  opened : place.device.openFault = none
  endpoints : place.Finds connection.endpoints
  claimed : place.interface.claimFault = none
  serial : connection.serial = place.device.serial.getD ""
  outgoing : connection.outgoing = place.device.outgoing
  incoming : connection.incoming = place.device.incoming

def pair? (place : Place) : Option EndpointPair :=
  place.device.configuration.toOption.bind fun settings =>
    (findBulkPair settings place.interface.number).toOption

theorem pair?_eq_some_iff {place : Place} {pair : EndpointPair} :
    place.pair? = some pair ↔ place.Finds pair := by
  have good {ε α : Type} {result : Except ε α} {value : α} :
      result.toOption = some value ↔ result = .ok value := by
    cases result <;> simp [Except.toOption]
  simp only [pair?, Finds, Option.bind_eq_some_iff, good, findBulkPair_eq_ok_iff]

instance (place : Place) : Decidable (∃ pair, place.Finds pair) :=
  decidable_of_iff (place.pair?.isSome = true) <| by
    simp only [Option.isSome_iff_exists, pair?_eq_some_iff]

def attempts (place : Place) : List Event :=
  if place.opens then
    .configurationRead place.position ::
      if ∃ pair, place.Finds pair then [.claimAttempted place.position place.interface.number]
      else []
  else []

end Place

structure Visit where
  place : Place
  verdict : Verdict

namespace Visit

def Gives (visit : Visit) (connection : Connection) : Prop :=
  visit.verdict = .accept ∧ visit.place.Usable connection

/-- What is done for a visit: the device is opened before it if the interface is a
bootloader's, and claimed after it if everything was right so far. -/
def deeds (visit : Visit) : List Event :=
  (if visit.place.interface.kind = .bootloader then [.openAttempted visit.place.position]
    else []) ++
  .visited visit.place.candidate visit.verdict ::
    if visit.verdict = .accept then visit.place.attempts else []

theorem search_deeds (visit : Visit) :
    search visit.deeds = [.visited visit.place.candidate visit.verdict] := by
  rw [deeds, Place.attempts]
  repeat' split
  all_goals simp [search]

end Visit

variable {κ : Type}

def visits (visit : Visitor κ) : κ → List Place → List Visit
  | _, [] => []
  | state, place :: places =>
    ⟨place, (visit place.candidate state).1⟩ ::
      visits visit (visit place.candidate state).2.2 places

def leaves (visit : Visitor κ) (state : κ) (places : List Place) : κ :=
  places.foldl (fun state place => (visit place.candidate state).2.2) state

private theorem placesFrom_eq (position : Nat) (devices : List Device) :
    placesFrom position devices = (devices.zipIdx position).flatMap
      fun (device, index) => device.interfaces.map (⟨index, device, ·⟩) := by
  induction devices generalizing position with
  | nil => rfl
  | cons device devices ih =>
      rw [placesFrom, ih, List.zipIdx_cons, List.flatMap_cons]

theorem enumerate_ok (visit : Visitor κ) (state : κ) (devices : List Device) :
    enumerate visit state (.ok devices) =
      { visitPlaces visit state (places devices) with
        events := .enumerated :: (visitPlaces visit state (places devices)).events } := by
  rw [enumerate, placesFrom_eq, places]

section Steps

variable {place : Place} {connection : Connection}

theorem opens_iff : place.opens ↔
    place.interface.kind = .bootloader ∧ place.device.openFault = none := by
  simp [Place.opens]

/-- The device is opened for a bootloader's interface and for no other. -/
theorem openFor_eq (place : Place) :
    (openFor place.position place.device place.interface).1 = place.opens ∧
      deeds (openFor place.position place.device place.interface).2 =
        if place.interface.kind = .bootloader then [.openAttempted place.position] else [] := by
  rw [openFor, Place.opens]
  by_cases kind : place.interface.kind = .bootloader
  · rw [if_pos kind]
    cases place.device.openFault with
    | none => simp [kind, deeds]
    | some reason => simp [kind, deeds]
  · simp [kind]

private theorem claim_eq_ok_iff :
    (claim place.position place.device place.interface).1 = .ok connection ↔
      place.Finds connection.endpoints ∧ place.interface.claimFault = none ∧
        connection = ⟨place.device.serial.getD "", connection.endpoints, place.device.outgoing,
          place.device.incoming⟩ := by
  rw [claim, Place.Finds]
  cases configured : place.device.configuration with
  | error fault => simp
  | ok settings =>
      simp only [Except.ok.injEq, exists_eq_left', ← findBulkPair_eq_ok_iff]
      cases searched : findBulkPair settings place.interface.number with
      | error fault => simp
      | ok pair =>
          cases place.interface.claimFault with
          | some reason => simp
          | none =>
              simp only [Except.ok.injEq, true_and]
              constructor
              · rintro rfl
                exact ⟨rfl, rfl⟩
              · rintro ⟨rfl, same⟩
                exact same.symm

private theorem usable_iff (opened : place.opens) : place.Usable connection ↔
    (claim place.position place.device place.interface).1 = .ok connection := by
  obtain ⟨kind, free⟩ := opens_iff.mp opened
  rw [claim_eq_ok_iff]
  constructor
  · intro usable
    rcases connection with ⟨serial, pair, outgoing, incoming⟩
    cases usable.serial
    cases usable.outgoing
    cases usable.incoming
    exact ⟨usable.endpoints, usable.claimed, rfl⟩
  · rintro ⟨endpoints, claimed, same⟩
    exact ⟨kind, free, endpoints, claimed, by rw [same], by rw [same], by rw [same]⟩

/-- The interface is claimed just if the configuration read gives it a bulk pair. -/
theorem claim_deeds (place : Place) :
    deeds (claim place.position place.device place.interface).2 =
      .configurationRead place.position ::
        if ∃ pair, place.Finds pair then
          [.claimAttempted place.position place.interface.number]
        else [] := by
  have finds : (∃ pair, place.Finds pair) ↔ place.pair?.isSome := by
    simp only [Option.isSome_iff_exists, Place.pair?_eq_some_iff]
  simp only [finds]
  rw [claim, Place.pair?]
  cases place.device.configuration with
  | error fault => simp [Except.toOption, deeds]
  | ok settings =>
      cases searched : findBulkPair settings place.interface.number with
      | error fault => simp [searched, Except.toOption, deeds]
      | ok pair =>
          cases place.interface.claimFault with
          | some reason => simp [searched, Except.toOption, deeds]
          | none => simp [searched, Except.toOption, deeds]

def serve (place : Place) : Verdict → Option Connection × List Event
  | .pass => (none, [])
  | .accept => useAccepted place.position place.device place.interface place.opens

theorem serve_eq_some_iff {verdict : Verdict} :
    (serve place verdict).1 = some connection ↔ Visit.Gives ⟨place, verdict⟩ connection := by
  cases verdict with
  | pass => simp [serve, Visit.Gives]
  | accept =>
      rw [serve, useAccepted]
      cases opened : place.opens with
      | false =>
          have locked (usable : place.Usable connection) : False := by
            simpa [opened] using opens_iff.mpr ⟨usable.kind, usable.opened⟩
          simpa [Visit.Gives] using locked
      | true =>
          simp only [Visit.Gives, true_and, usable_iff opened]
          rcases claim place.position place.device place.interface with ⟨_ | _, events⟩
          · simp
          · simp

private theorem serve_deeds (place : Place) (verdict : Verdict) :
    deeds (serve place verdict).2 =
      if verdict = .accept then place.attempts else [] := by
  cases verdict with
  | pass => rfl
  | accept =>
      rw [serve, useAccepted, Place.attempts]
      cases place.opens with
      | false => rfl
      | true =>
          have claimed := claim_deeds place
          rcases taken : claim place.position place.device place.interface with ⟨_ | _, events⟩
          · rw [taken] at claimed
            simpa using claimed
          · rw [taken] at claimed
            simpa using claimed

end Steps

/-- One visit of an enumeration: what is done for it, and that it ends the enumeration just if
it comes to a connection. -/
theorem visitPlaces_cons {visit : Visitor κ} {state next : κ} {place : Place} {verdict : Verdict}
    {notes : List Note} (places : List Place)
    (judged : visit place.candidate state = (verdict, notes, next)) :
    ∃ events, deeds events = Visit.deeds ⟨place, verdict⟩ ∧
      visitPlaces visit state (place :: places) =
        match (serve place verdict).1 with
        | some connection => ⟨.ok (some connection), next, events⟩
        | none =>
          let rest := visitPlaces visit next places
          { rest with events := events ++ rest.events } := by
  obtain ⟨opened, tried⟩ := openFor_eq place
  refine ⟨(openFor place.position place.device place.interface).2 ++ notes.map .noted ++
    [.visited place.candidate verdict] ++ (serve place verdict).2, ?_, ?_⟩
  · rw [Visit.deeds, deeds_append, serve_deeds, deeds_append, deeds_append, tried,
      deeds_map_noted]
    simp [deeds]
  · have shown : descriptor place.device place.interface place.opens = place.candidate := rfl
    rw [visitPlaces]
    simp only [opened, shown, judged]
    cases verdict with
    | pass => rfl
    | accept =>
        cases used : (useAccepted place.position place.device place.interface place.opens).1 <;>
          simp [serve, used]

/-- How the visits of an enumeration end: with the first that gives a connection, or without
one and with none left. -/
def Ends (visited left : List Visit) : Option Connection → Prop
  | some connection => ∃ earlier last, visited = earlier ++ [last] ∧ last.Gives connection ∧
      ∀ visit ∈ earlier, ∀ other, ¬ visit.Gives other
  | none => left = [] ∧ ∀ visit ∈ visited, ∀ connection, ¬ visit.Gives connection

theorem Ends.cons {visit : Visit} {visited left : List Visit} {opened : Option Connection}
    (missed : ∀ connection, ¬ visit.Gives connection) (ended : Ends visited left opened) :
    Ends (visit :: visited) left opened := by
  cases opened with
  | none => exact ⟨ended.1, List.forall_mem_cons.mpr ⟨missed, ended.2⟩⟩
  | some connection =>
      obtain ⟨earlier, last, rfl, gives, first⟩ := ended
      exact ⟨visit :: earlier, last, rfl, gives, List.forall_mem_cons.mpr ⟨missed, first⟩⟩

theorem visitPlaces_ends (visit : Visitor κ) (state : κ) (places : List Place) :
    ∃ opened visited left, visits visit state places = visited ++ left ∧
      Ends visited left opened ∧
      (visitPlaces visit state places).result = .ok opened ∧
      (visitPlaces visit state places).visitor = leaves visit state (visited.map Visit.place) ∧
      deeds (visitPlaces visit state places).events = visited.flatMap Visit.deeds := by
  induction places generalizing state with
  | nil => exact ⟨none, [], [], rfl, ⟨rfl, nofun⟩, rfl, rfl, rfl⟩
  | cons place places ih =>
      rcases judged : visit place.candidate state with ⟨verdict, notes, next⟩
      obtain ⟨events, done, stepped⟩ := visitPlaces_cons places judged
      rw [stepped, visits, judged]
      cases served : (serve place verdict).1 with
      | some connection =>
          refine ⟨some connection, [⟨place, verdict⟩], visits visit next places, rfl,
            ⟨[], _, rfl, serve_eq_some_iff.mp served, nofun⟩, rfl, ?_, ?_⟩
          · simp [leaves, judged]
          · simpa using done
      | none =>
          obtain ⟨opened, visited, left, parts, ended, result, visitor, others⟩ := ih next
          have missed : ∀ connection, ¬ Visit.Gives ⟨place, verdict⟩ connection := by
            intro connection gives
            rw [serve_eq_some_iff.mpr gives] at served
            cases served
          refine ⟨opened, ⟨place, verdict⟩ :: visited, left, congrArg _ parts, ended.cons missed,
            result, ?_, ?_⟩
          · rw [visitor, List.map_cons, leaves, leaves, List.foldl_cons, judged]
          · rw [deeds_append, done, others, List.flatMap_cons]

/-- What an enumeration does and comes to. Without a listing it fails, and no visitor is asked.
With one, the visits go through the interfaces up to the one that gives a connection. -/
structure Surveys (visit : Visitor κ) (state : κ) (listing : Listing)
    (run : Enumeration κ Connection) : Prop where
  unlisted : ∀ reason, listing = .error reason →
    run.result = .error (.usb (.enumerationFailed reason)) ∧ run.visitor = state ∧
      deeds run.events = [.enumerated]
  listed : ∀ devices, listing = .ok devices →
    ∃ opened visited left, visits visit state (places devices) = visited ++ left ∧
      Ends visited left opened ∧ run.result = .ok opened ∧
      run.visitor = leaves visit state (visited.map Visit.place) ∧
      deeds run.events = .enumerated :: visited.flatMap Visit.deeds

/-- An enumeration visits the interfaces of the devices listed, in order, up to the first that
was accepted and can be used. -/
theorem surveys_enumerate (visit : Visitor κ) (state : κ) (listing : Listing) :
    Surveys visit state listing (enumerate visit state listing) where
  unlisted reason failed := by
    subst failed
    exact ⟨rfl, rfl, rfl⟩
  listed devices found := by
    subst found
    obtain ⟨opened, visited, left, parts, ended, result, visitor, done⟩ :=
      visitPlaces_ends visit state (places devices)
    rw [enumerate_ok]
    exact ⟨opened, visited, left, parts, ended, result, visitor, congrArg _ done⟩

def Place.connection? (place : Place) : Option Connection :=
  (serve place .accept).1

theorem Place.connection?_eq_some_iff {place : Place} {connection : Connection} :
    place.connection? = some connection ↔ place.Usable connection := by
  rw [Place.connection?, serve_eq_some_iff, Visit.Gives, and_iff_right rfl]

def offers (listing : Listing) : Except TransportFault (List (Offer Connection)) :=
  match listing with
  | .error reason => .error (.usb (.enumerationFailed reason))
  | .ok devices => .ok ((places devices).map fun place => ⟨place.candidate, place.connection?⟩)

private theorem walks_visitPlaces (visit : Visitor κ) (state : κ) (places : List Place) :
    ∃ opened seen,
      Walks visit state (places.map fun place => ⟨place.candidate, place.connection?⟩) opened
        (visitPlaces visit state places).visitor seen ∧
      (visitPlaces visit state places).result = .ok opened ∧
      search (visitPlaces visit state places).events =
        seen.map fun (device, verdict) => .visited device verdict := by
  induction places generalizing state with
  | nil => exact ⟨none, [], .ended, rfl, rfl⟩
  | cons place places ih =>
      rcases judged : visit place.candidate state with ⟨verdict, notes, next⟩
      obtain ⟨events, done, stepped⟩ := visitPlaces_cons places judged
      have sought : search events = [.visited place.candidate verdict] := by
        rw [← search_deeds, done, Visit.search_deeds]
      rw [stepped, List.map_cons]
      cases served : (serve place verdict).1 with
      | some connection =>
          obtain ⟨rfl, -⟩ := serve_eq_some_iff.mp served
          exact ⟨some connection, _, .opened judged served, rfl, sought⟩
      | none =>
          obtain ⟨opened, seen, walked, result, others⟩ := ih next
          refine ⟨opened, (place.candidate, verdict) :: seen, .skipped judged ?_ walked, result, ?_⟩
          · rintro rfl
            exact served
          · rw [search_append, sought, others, List.map_cons, List.singleton_append]

theorem offers_bus : bus.Offers offers where
  failed visit state listing fault listed := by
    cases listing with
    | error reason =>
        cases listed
        exact ⟨rfl, rfl, rfl⟩
    | ok devices => cases listed
  walked visit state listing candidates listed := by
    cases listing with
    | error reason => cases listed
    | ok devices =>
        cases listed
        obtain ⟨opened, seen, walked, result, events⟩ :=
          walks_visitPlaces visit state (places devices)
        rw [show bus.enumerate visit state (.ok devices) = _ from enumerate_ok visit state devices]
        exact ⟨opened, seen, walked, result, congrArg (Event.enumerated :: ·) events⟩

end Usb

end FlashHost
