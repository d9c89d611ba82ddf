import FlashHost.Discovery.Roster

/-!
# Passes as lists of offers

What a bus is to a search: in each pass it fails to list its devices, or offers candidates to
the visitor one by one until an accepted one can be opened.
-/

set_option autoImplicit false

namespace FlashHost

structure Offer (η : Type) where
  descriptor : Descriptor
  device? : Option η

/-- The events of a search: the passes, the candidates with the verdicts on them, and the word
to the user that none was there. -/
def search (events : List Event) : List Event :=
  events.filter fun
    | .enumerated | .visited _ _ | .waiting => true
    | _ => false

/-- A visitor is offered candidates in order, up to the first that it accepts and that can be
opened. The relation gives the device opened, the state in which the visitor is left, and what
it was offered with its verdicts. -/
inductive Walks {κ η : Type} (visit : Visitor κ) :
    κ → List (Offer η) → Option η → κ → List (Descriptor × Verdict) → Prop where
  | ended {state} : Walks visit state [] none state []
  | opened {state offer offers device notes next} :
      visit offer.descriptor state = (.accept, notes, next) → offer.device? = some device →
      Walks visit state (offer :: offers) (some device) next [(offer.descriptor, .accept)]
  | skipped {state offer offers verdict notes next opened last seen} :
      visit offer.descriptor state = (verdict, notes, next) →
      (verdict = .accept → offer.device? = none) →
      Walks visit next offers opened last seen →
      Walks visit state (offer :: offers) opened last ((offer.descriptor, verdict) :: seen)

/-- What the passes over a bus offer: they fail as given, or walk the candidates given. -/
structure Bus.Offers {ρ η : Type} (bus : Bus ρ η)
    (offers : ρ → Except TransportFault (List (Offer η))) : Prop where
  failed : ∀ {κ : Type} (visit : Visitor κ) (state : κ) {pass fault},
    offers pass = .error fault →
    (bus.enumerate visit state pass).result = .error fault ∧
      (bus.enumerate visit state pass).visitor = state ∧
      search (bus.enumerate visit state pass).events = [.enumerated]
  walked : ∀ {κ : Type} (visit : Visitor κ) (state : κ) {pass candidates},
    offers pass = .ok candidates →
    ∃ opened seen,
      Walks visit state candidates opened (bus.enumerate visit state pass).visitor seen ∧
      (bus.enumerate visit state pass).result = .ok opened ∧
      search (bus.enumerate visit state pass).events =
        .enumerated :: seen.map fun (device, verdict) => .visited device verdict

@[simp] theorem search_nil : search [] = [] := rfl

@[simp] theorem search_append (earlier later : List Event) :
    search (earlier ++ later) = search earlier ++ search later :=
  List.filter_append ..

@[simp] theorem search_enumerated (events : List Event) :
    search (.enumerated :: events) = .enumerated :: search events := rfl

@[simp] theorem search_visited (device : Descriptor) (verdict : Verdict) (events : List Event) :
    search (.visited device verdict :: events) = .visited device verdict :: search events := rfl

@[simp] theorem search_waiting (events : List Event) :
    search (.waiting :: events) = .waiting :: search events := rfl

@[simp] theorem search_noted (note : Note) (events : List Event) :
    search (.noted note :: events) = search events := rfl

@[simp] theorem search_map_noted (notes : List Note) : search (notes.map .noted) = [] := by
  induction notes with
  | nil => rfl
  | cons note notes ih => exact ih

namespace Roster

variable {κ δ : Type}

/-- The candidates of a roster from a position on. One that the user may not open cannot be
opened. -/
def offersFrom : (position : Nat) → List (Candidate δ) → List (Offer (RosterDevice δ))
  | _, [] => []
  | position, candidate :: candidates =>
    ⟨candidate.descriptor,
        if candidate.descriptor.writable then some ⟨position, candidate⟩ else none⟩ ::
      offersFrom (position + 1) candidates

def offers (pass : RosterPass δ) : Except TransportFault (List (Offer (RosterDevice δ))) :=
  pass.map (offersFrom 0)

private theorem walks_visitFrom (visit : Visitor κ) (state : κ) (position : Nat)
    (candidates : List (Candidate δ)) :
    ∃ opened seen,
      Walks visit state (offersFrom position candidates) opened
        (visitFrom visit position state candidates).visitor seen ∧
      (visitFrom visit position state candidates).result = .ok opened ∧
      search (visitFrom visit position state candidates).events =
        seen.map fun (device, verdict) => .visited device verdict := by
  induction candidates generalizing position state with
  | nil => exact ⟨none, [], .ended, rfl, rfl⟩
  | cons candidate candidates ih =>
      rcases judged : visit candidate.descriptor state with ⟨verdict, notes, next⟩
      rw [visitFrom, judged]
      dsimp only
      by_cases taken : verdict = .accept ∧ candidate.descriptor.writable
      · obtain ⟨rfl, writable⟩ := taken
        rw [if_pos ⟨rfl, writable⟩]
        exact ⟨_, _, .opened judged (if_pos writable), rfl, by simp⟩
      · rw [if_neg taken]
        obtain ⟨opened, seen, walked, result, events⟩ := ih next (position + 1)
        refine ⟨opened, (candidate.descriptor, verdict) :: seen, .skipped judged ?_ walked, result,
          by simp [events]⟩
        intro accepted
        exact if_neg fun writable => taken ⟨accepted, writable⟩

theorem offers_bus : (bus δ).Offers offers where
  failed visit state pass fault listed := by
    cases pass with
    | error own =>
        cases listed
        exact ⟨rfl, rfl, rfl⟩
    | ok candidates => cases listed
  walked visit state pass candidates listed := by
    cases pass with
    | error fault => cases listed
    | ok members =>
        cases listed
        obtain ⟨opened, seen, walked, result, events⟩ := walks_visitFrom visit state 0 members
        exact ⟨opened, seen, walked, result, congrArg (Event.enumerated :: ·) events⟩

end Roster

end FlashHost
