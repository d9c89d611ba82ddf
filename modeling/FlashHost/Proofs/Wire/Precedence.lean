import FlashHost.Proofs.Wire.Following
import FlashHost.Proofs.Wire.Position

/-!
# Precedence

What has been said and heard by the time a certain command is written. Nothing is written but
the parcels of the wire plan in their places, so the place of a command singles it out among
equal ones.
-/

set_option autoImplicit false

namespace FlashHost

/-- Every write hands over the parcel that has its number. -/
def WrittenInPlace (exchanges : List Exchange) (parcels : List Parcel) : Prop :=
  ∀ before data outcome after, exchanges = before ++ .write data outcome :: after →
    ∃ parcel, parcels[(written before).length]? = some parcel ∧ data = parcel.bytes

/-- The line of the command that follows some rounds is written only when the calls so far
have gone through these rounds. -/
def WrittenAfter (exchanges : List Exchange) (earlier : List Round) (line : String) : Prop :=
  ∀ before data outcome after, exchanges = before ++ .write data outcome :: after →
    (written before).length = (earlier.flatMap Round.parcels).length →
    data = line.toUTF8 ∧ Completes (earlier.flatMap Round.turns) before

/-- The number of parcels sent before it singles out a turn in which one is sent. -/
theorem split_at_send {front others rest tail : List Turn} {parcel another : Parcel}
    (same : front ++ .send parcel :: rest = others ++ .send another :: tail)
    (counted : (sends front).length = (sends others).length) :
    front = others ∧ parcel = another := by
  induction front generalizing others with
  | nil =>
      cases others with
      | nil =>
          cases same
          exact ⟨rfl, rfl⟩
      | cons turn others =>
          obtain ⟨rfl, -⟩ := List.cons.inj same
          simp at counted
  | cons turn front ih =>
      cases others with
      | nil =>
          obtain ⟨rfl, -⟩ := List.cons.inj same
          simp at counted
      | cons first others =>
          obtain ⟨rfl, equal⟩ := List.cons.inj same
          have remaining : (sends front).length = (sends others).length := by
            cases turn with
            | send parcel => simpa using counted
            | await due => exact counted
          obtain ⟨rfl, rfl⟩ := ih equal remaining
          exact ⟨rfl, rfl⟩

/-- No command is written early, late or twice. -/
theorem Outcome.Follows.writtenInPlace {α : Type} {outcome : Outcome α} {turns : List Turn}
    (followed : outcome.Follows turns) : WrittenInPlace outcome.exchanges (sends turns) := by
  intro before data result after made
  obtain ⟨done, turn, rest, start, waited, rfl, rfl, completed, waits, makes, -⟩ :=
    followed.standsIn made
  cases turn with
  | await due => exact makes.elim
  | send parcel =>
      cases waits
      rw [List.append_nil]
      exact ⟨parcel, completed.sends_at parcel rest, makes⟩

/-- A command is written only after all rounds before its own. -/
theorem Outcome.Follows.writtenAfter {α : Type} {outcome : Outcome α} {rounds : List Round}
    (followed : outcome.Follows (rounds.flatMap Round.turns)) {earlier later : List Round}
    {line : String} (parts : rounds = earlier ++ .command line :: later) :
    WrittenAfter outcome.exchanges earlier line := by
  intro before data result after made counted
  obtain ⟨done, turn, rest, start, waited, same, rfl, completed, waits, makes, -⟩ :=
    followed.standsIn made
  cases turn with
  | await due => exact makes.elim
  | send parcel =>
      cases waits
      rw [List.append_nil] at counted ⊢
      have place : done ++ .send parcel :: rest =
          earlier.flatMap Round.turns ++ .send (.command line) ::
            .await .okay :: later.flatMap Round.turns := by
        rw [← same, parts]
        simp [Round.turns]
      have number : (sends done).length = (sends (earlier.flatMap Round.turns)).length := by
        rw [Round.sends_flatMap_turns, ← counted, completed.written_eq, List.length_map]
      obtain ⟨rfl, rfl⟩ := split_at_send place number
      exact ⟨makes, completed⟩

end FlashHost
