import FlashHost.Proofs.Wire.Conversation
import Mathlib.Data.List.Forall2

/-!
# Positions in a conversation

Where in a conversation a call is made: the turn that it belongs to, the turns that were
completed by then, and the round in which that turn stands.
-/

set_option autoImplicit false

namespace FlashHost

/-- The calls other than reads of information. -/
def essential (exchanges : List Exchange) : List Exchange :=
  exchanges.filter fun
    | .write _ _ => true
    | .read outcome => heard outcome ≠ .info

def Parcel.taken (parcel : Parcel) : Exchange :=
  .write parcel.bytes (.ok parcel.bytes.size)

def Turn.Makes : Turn → Exchange → Prop
  | .send parcel, .write data _ => data = parcel.bytes
  | .await _, .read _ => True
  | _, _ => False

/-- A call in a turn comes out as it has to for the conversation to go on. -/
def Turn.Fulfils : Turn → Exchange → Prop
  | .send _, .write data outcome => outcome = .ok data.size
  | .await due, .read outcome => heard outcome = .info ∨ heard outcome = .reply due
  | _, _ => False

def Turn.Ends : Turn → Exchange → Prop
  | .send parcel, call => call = parcel.taken
  | .await due, .read outcome => heard outcome = .reply due
  | .await _, .write _ _ => False

/-- The calls that were made in a turn before another one of its calls: reads of
information, and none at all when a parcel is sent. -/
def Turn.Waits (turn : Turn) (exchanges : List Exchange) : Prop :=
  match turn with
  | .send _ => exchanges = []
  | .await _ => essential exchanges = [] ∧ written exchanges = [] ∧
      finals (received exchanges) = []

@[simp] theorem essential_nil : essential [] = [] := rfl

@[simp] theorem essential_append (earlier later : List Exchange) :
    essential (earlier ++ later) = essential earlier ++ essential later := by
  simp [essential]

@[simp] theorem essential_write (data : ByteArray) (outcome : Except TransportFault Nat)
    (exchanges : List Exchange) :
    essential (.write data outcome :: exchanges) = .write data outcome :: essential exchanges :=
  rfl

theorem essential_info {outcome : Except TransportFault ByteArray}
    (silent : heard outcome = .info) (exchanges : List Exchange) :
    essential (.read outcome :: exchanges) = essential exchanges := by
  simp [essential, silent]

theorem essential_final {outcome : Except TransportFault ByteArray}
    (final : heard outcome ≠ .info) (exchanges : List Exchange) :
    essential (.read outcome :: exchanges) = .read outcome :: essential exchanges := by
  simp [essential, final]

@[simp] theorem written_essential (exchanges : List Exchange) :
    written (essential exchanges) = written exchanges := by
  induction exchanges with
  | nil => rfl
  | cons call exchanges ih =>
      cases call with
      | write data outcome => simp [ih]
      | read outcome =>
          by_cases silent : heard outcome = .info
          · simp [essential_info silent, ih]
          · simp [essential_final silent, ih]

/-- Information left out, a conversation has one call for each of its turns. -/
theorem Completes.essential_ends {turns : List Turn} {exchanges : List Exchange}
    (whole : Completes turns exchanges) : List.Forall₂ Turn.Ends turns (essential exchanges) := by
  induction whole with
  | nil => exact .nil
  | send _ _ ih => exact .cons rfl ih
  | info silent _ ih => rwa [essential_info silent]
  | reply answered _ ih =>
      rw [essential_final (by simp [answered])]
      exact .cons answered ih

/-- The parcels sent so far are the number of the next one. -/
theorem Completes.sends_at {done : List Turn} {start : List Exchange}
    (first : Completes done start) (parcel : Parcel) (rest : List Turn) :
    (sends (done ++ .send parcel :: rest))[(written start).length]? = some parcel := by
  simp [first.written_eq]

theorem Completes.awaits_at {done : List Turn} {start : List Exchange}
    (first : Completes done start) (due : Due) (rest : List Turn) :
    (awaits (done ++ .await due :: rest))[(finals (received start)).length]? = some due := by
  simp [first.finals_eq]

/-- Where a call is made in the course of some turns: those before its own have been
completed, and it comes out right unless the conversation is over with it. -/
def StandsIn (turns : List Turn) (before : List Exchange) (call : Exchange) (ended : Prop) :
    Prop :=
  ∃ done turn rest start waited,
    turns = done ++ turn :: rest ∧ before = start ++ waited ∧ Completes done start ∧
      turn.Waits waited ∧ turn.Makes call ∧ (turn.Fulfils call ∨ ended)

variable {turns : List Turn} {before after : List Exchange} {call : Exchange}

theorem Completes.standsIn (whole : Completes turns (before ++ call :: after)) :
    StandsIn turns before call False := by
  generalize parts : before ++ call :: after = exchanges at whole
  induction whole generalizing before with
  | nil => simp at parts
  | @send parcel turns exchanges allowed _ ih =>
      cases before with
      | nil =>
          cases parts
          exact ⟨[], _, turns, [], [], rfl, rfl, .nil, rfl, rfl, .inl rfl⟩
      | cons first before =>
          obtain ⟨rfl, tail⟩ := List.cons.inj parts
          obtain ⟨done, turn, rest, start, waited, rfl, rfl, completed, facts⟩ := ih tail
          exact ⟨_ :: done, turn, rest, _ :: start, waited, rfl, rfl, .send allowed completed,
            facts⟩
  | @info due turns outcome exchanges silent _ ih =>
      cases before with
      | nil =>
          cases parts
          exact ⟨[], _, turns, [], [], rfl, rfl, .nil, ⟨rfl, rfl, rfl⟩, trivial, .inl (.inl silent)⟩
      | cons first before =>
          obtain ⟨rfl, tail⟩ := List.cons.inj parts
          obtain ⟨done, turn, rest, start, waited, same, rfl, completed, waits, facts⟩ := ih tail
          cases done with
          | nil =>
              obtain ⟨rfl, rfl⟩ := List.cons.inj same
              cases completed
              obtain ⟨calm, unwritten, unheard⟩ := waits
              exact ⟨[], _, _, [], .read outcome :: waited, rfl, rfl, .nil,
                ⟨by simpa [essential_info silent] using calm, by simpa using unwritten,
                  by simpa [finals_cons_info silent] using unheard⟩, facts⟩
          | cons awaited done =>
              obtain ⟨rfl, rfl⟩ := List.cons.inj same
              exact ⟨_ :: done, turn, rest, .read outcome :: start, waited, rfl, rfl,
                .info silent completed, waits, facts⟩
  | @reply due turns outcome exchanges answered _ ih =>
      cases before with
      | nil =>
          cases parts
          exact ⟨[], _, turns, [], [], rfl, rfl, .nil, ⟨rfl, rfl, rfl⟩, trivial,
            .inl (.inr answered)⟩
      | cons first before =>
          obtain ⟨rfl, tail⟩ := List.cons.inj parts
          obtain ⟨done, turn, rest, start, waited, rfl, rfl, completed, facts⟩ := ih tail
          exact ⟨_ :: done, turn, rest, _ :: start, waited, rfl, rfl,
            .reply answered completed, facts⟩

theorem Halts.standsIn {turn : Turn} (last : Halts turn (before ++ call :: after)) :
    turn.Waits before ∧ turn.Makes call ∧ (turn.Fulfils call ∨ after = []) := by
  generalize parts : before ++ call :: after = exchanges at last
  induction last generalizing before with
  | barred _ => simp at parts
  | cutShort _ _ =>
      obtain ⟨rfl, parts⟩ | ⟨_, rfl, parts⟩ := List.append_eq_cons_iff.mp parts
      · cases parts
        exact ⟨rfl, rfl, .inr rfl⟩
      · simp at parts
  | @info due outcome exchanges silent _ ih =>
      cases before with
      | nil =>
          cases parts
          exact ⟨⟨rfl, rfl, rfl⟩, trivial, .inl (.inl silent)⟩
      | cons first before =>
          obtain ⟨rfl, tail⟩ := List.cons.inj parts
          obtain ⟨⟨calm, unwritten, unheard⟩, facts⟩ := ih tail
          exact ⟨⟨by simpa [essential_info silent] using calm, by simpa using unwritten,
            by simpa [finals_cons_info silent] using unheard⟩, facts⟩
  | misread _ _ =>
      obtain ⟨rfl, parts⟩ | ⟨_, rfl, parts⟩ := List.append_eq_cons_iff.mp parts
      · cases parts
        exact ⟨⟨rfl, rfl, rfl⟩, trivial, .inr rfl⟩
      · simp at parts

theorem Breaks.standsIn (broken : Breaks turns (before ++ call :: after)) :
    StandsIn turns before call (after = []) := by
  obtain ⟨done, turn, rest, start, last, rfl, parts, completed, halted⟩ := broken
  obtain ⟨others, rfl, tail⟩ | ⟨waited, rfl, rfl⟩ := List.append_eq_append_iff.mp parts
  · obtain ⟨rfl, rfl⟩ | ⟨others, rfl, rfl⟩ := List.cons_eq_append_iff.mp tail
    · rw [List.append_nil] at completed
      exact ⟨done, turn, rest, before, [], rfl, by simp, completed, halted.standsIn⟩
    · obtain ⟨earlier, own, later, start, waited, rfl, rfl, first, waits, makes, right⟩ :=
        completed.standsIn
      exact ⟨earlier, own, later ++ turn :: rest, start, waited, by simp, rfl, first, waits, makes,
        right.imp_right False.elim⟩
  · exact ⟨done, turn, rest, start, waited, rfl, rfl, completed, halted.standsIn⟩

/-- Every call of an activity belongs to a turn at whose beginning all earlier turns had
been completed, and every call but the last comes out right. -/
theorem Outcome.Follows.standsIn {α : Type} {outcome : Outcome α}
    (followed : outcome.Follows turns) (made : outcome.exchanges = before ++ call :: after) :
    StandsIn turns before call (after = []) := by
  cases ended : outcome.result with
  | ok value =>
      have whole := followed.completes ended
      rw [made] at whole
      obtain ⟨done, turn, rest, start, waited, same, parts, first, waits, makes, right⟩ :=
        whole.standsIn
      exact ⟨done, turn, rest, start, waited, same, parts, first, waits, makes,
        right.imp_right False.elim⟩
  | error error =>
      have broken := followed.breaks ended
      rw [made] at broken
      exact broken.standsIn

end FlashHost
