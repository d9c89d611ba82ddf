import FlashHost.Outcome

/-!
# Discovery

A bus is looked at in passes. In each pass a visitor says of one candidate after
another whether to open it, and the pass ends with the first one that could be
opened. A device is acquired by looking at one pass after another; devices are listed
by accepting none.
-/

set_option autoImplicit false

namespace FlashHost

/-- Says whether to open a candidate. A visitor may write to the log and carry a state
of its own from candidate to candidate. -/
def Visitor (κ : Type) : Type :=
  Descriptor → κ → Verdict × List Note × κ

/-- How a pass ends: with an opened device, with none, or without a listing. The visitor
leaves a state behind. -/
structure Enumeration (κ η : Type) where
  result : Except TransportFault (Option η)
  visitor : κ
  events : List Event

/-- A bus is known by what happens when a pass over it is visited. Its passes are of
type `ρ` and its opened devices of type `η`. -/
structure Bus (ρ η : Type) where
  enumerate : {κ : Type} → Visitor κ → κ → ρ → Enumeration κ η

namespace Discovery

/-- The time between two passes when waiting for a device, in milliseconds. -/
def pollInterval : Nat := 1000

def accepting (filter : Filter) : Visitor Unit :=
  fun device _ =>
    if filter.accepts device then (.accept, [.accepting device], ()) else (.pass, [], ())

def collecting (filter : Filter) : Visitor (List Descriptor) :=
  fun device found =>
    (.pass, [], if filter.accepts device then found ++ [device] else found)

variable {ρ η : Type}

/-- Look at passes until a device is opened, from one before which the user may have been
told to wait. The result holds the passes that are left, and there is none if the passes
end first: the waiting goes on. -/
def acquireFrom (bus : Bus ρ η) (filter : Filter) :
    (told : Bool) → List ρ → Option (η × List ρ) × List Event
  | _, [] => (none, [])
  | told, pass :: passes =>
    let enumeration := bus.enumerate (accepting filter) () pass
    match enumeration.result with
    | .ok (some device) => (some (device, passes), enumeration.events)
    | unopened =>
      let warning := match unopened with
        | .error fault => [.noted (.enumerationFailed fault)]
        | .ok _ => []
      let notice := if told then [] else [.waiting]
      let (acquired, events) := acquireFrom bus filter true passes
      (acquired, enumeration.events ++ warning ++ notice ++ events)

def acquire (bus : Bus ρ η) (filter : Filter) (passes : List ρ) :
    Option (η × List ρ) × List Event :=
  acquireFrom bus filter false passes

def list (bus : Bus ρ η) (filter : Filter) (pass : ρ) : Outcome (List Descriptor) :=
  let enumeration := bus.enumerate (collecting filter) [] pass
  match enumeration.result with
  | .error fault => ⟨.error (.transport fault), enumeration.events⟩
  | .ok _ => ⟨.ok enumeration.visitor, enumeration.events⟩

end Discovery

end FlashHost
