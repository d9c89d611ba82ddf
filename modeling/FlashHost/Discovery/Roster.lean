import FlashHost.Discovery

/-!
# Rosters

The plainest bus: each pass fails or is a list of candidates, and a candidate that is
accepted is opened if the user may, and passed over if not.
-/

set_option autoImplicit false

namespace FlashHost

structure Candidate (δ : Type) where
  descriptor : Descriptor
  device : δ

/-- A pass over a roster: a failed listing, or the candidates in order. -/
abbrev RosterPass (δ : Type) := Except TransportFault (List (Candidate δ))

structure RosterDevice (δ : Type) where
  position : Nat
  candidate : Candidate δ

namespace Roster

variable {κ δ : Type}

def visitFrom (visit : Visitor κ) :
    (position : Nat) → κ → List (Candidate δ) → Enumeration κ (RosterDevice δ)
  | _, state, [] => ⟨.ok none, state, []⟩
  | position, state, candidate :: candidates =>
    let (verdict, notes, state) := visit candidate.descriptor state
    let events := notes.map .noted ++ [.visited candidate.descriptor verdict]
    if verdict = .accept ∧ candidate.descriptor.writable then
      ⟨.ok (some ⟨position, candidate⟩), state, events⟩
    else
      let rest := visitFrom visit (position + 1) state candidates
      ⟨rest.result, rest.visitor, events ++ rest.events⟩

def enumerate (visit : Visitor κ) (state : κ) (pass : RosterPass δ) :
    Enumeration κ (RosterDevice δ) :=
  match pass with
  | .error fault => ⟨.error fault, state, [.enumerated]⟩
  | .ok candidates =>
    let visited := visitFrom visit 0 state candidates
    ⟨visited.result, visited.visitor, .enumerated :: visited.events⟩

def bus (δ : Type) : Bus (RosterPass δ) (RosterDevice δ) where
  enumerate := enumerate

end Roster

end FlashHost
