import FlashHost.Outcome

/-!
# Exchanges

The calls of a transport as the events of an activity show them: what was handed over
or asked for, and what came of it. Everything that is said of the order of reads and
writes is said of these.
-/

set_option autoImplicit false

namespace FlashHost

inductive Exchange where
  | write (data : ByteArray) (outcome : Except TransportFault Nat)
  | read (outcome : Except TransportFault ByteArray)

def Event.exchange? : Event → Option Exchange
  | .written data outcome => some (.write data outcome)
  | .read outcome => some (.read outcome)
  | _ => none

def Outcome.exchanges {α : Type} (outcome : Outcome α) : List Exchange :=
  outcome.events.filterMap Event.exchange?

@[simp] theorem Outcome.exchanges_mk {α : Type} (result : Except Error α) (events : List Event) :
    (Outcome.mk result events).exchanges = events.filterMap Event.exchange? := rfl

@[simp] theorem Outcome.exchanges_after {α : Type} (events : List Event) (outcome : Outcome α) :
    (outcome.after events).exchanges = events.filterMap Event.exchange? ++ outcome.exchanges := by
  simp [Outcome.after, Outcome.exchanges]

@[simp] theorem Outcome.result_after {α : Type} (events : List Event) (outcome : Outcome α) :
    (outcome.after events).result = outcome.result := rfl

/-- The transfers below a call are no calls of the transport themselves. -/
theorem exchanges_written (transfers : List Transfer) (data : ByteArray)
    (outcome : Except TransportFault Nat) :
    (transfers.map Event.transferred ++ [Event.written data outcome]).filterMap Event.exchange? =
      [.write data outcome] := by
  simp [Event.exchange?, Function.comp_def]

theorem exchanges_read (transfers : List Transfer) (outcome : Except TransportFault ByteArray) :
    (transfers.map Event.transferred ++ [Event.read outcome]).filterMap Event.exchange? =
      [.read outcome] := by
  simp [Event.exchange?, Function.comp_def]

def written (exchanges : List Exchange) : List ByteArray :=
  exchanges.filterMap fun
    | .write data _ => some data
    | .read _ => none

def received (exchanges : List Exchange) : List (Except TransportFault ByteArray) :=
  exchanges.filterMap fun
    | .write _ _ => none
    | .read outcome => some outcome

/-- A reply that a device can be due to give: a result, or the invitation to send a payload
of some size. -/
inductive Due where
  | okay
  | data (size : Nat)
deriving DecidableEq, Repr

inductive Heard where
  /-- Information; the reply is still to come. -/
  | info
  | reply (due : Due)
  /-- No packet, a packet without meaning, or a refusal. -/
  | broken
deriving DecidableEq, Repr

def heard : Except TransportFault ByteArray → Heard
  | .error _ => .broken
  | .ok packet =>
    match Response.parse packet with
    | .ok (.info _) => .info
    | .ok (.okay _) => .reply .okay
    | .ok (.data size) => .reply (.data size)
    | .ok (.fail _) | .error _ => .broken

/-- What reads amount to, information left out. -/
def finals (outcomes : List (Except TransportFault ByteArray)) : List Heard :=
  (outcomes.map heard).filter (· ≠ .info)

@[simp] theorem written_nil : written [] = [] := rfl

@[simp] theorem written_write (data : ByteArray) (outcome : Except TransportFault Nat)
    (exchanges : List Exchange) :
    written (.write data outcome :: exchanges) = data :: written exchanges := rfl

@[simp] theorem written_read (outcome : Except TransportFault ByteArray)
    (exchanges : List Exchange) :
    written (.read outcome :: exchanges) = written exchanges := rfl

@[simp] theorem written_append (earlier later : List Exchange) :
    written (earlier ++ later) = written earlier ++ written later := by
  simp [written]

/-- Every buffer that was handed over was handed over in a call of its own. -/
theorem exists_write {exchanges : List Exchange} {number : Nat} {data : ByteArray}
    (present : (written exchanges)[number]? = some data) :
    ∃ before outcome after, exchanges = before ++ .write data outcome :: after ∧
      (written before).length = number := by
  induction exchanges generalizing number with
  | nil => simp at present
  | cons call exchanges ih =>
      cases call with
      | read outcome =>
          obtain ⟨before, result, after, rfl, index⟩ := ih present
          exact ⟨.read outcome :: before, result, after, rfl, index⟩
      | write bytes outcome =>
          cases number with
          | zero =>
              rw [written_write, List.getElem?_cons_zero, Option.some_inj] at present
              exact ⟨[], outcome, exchanges, by rw [present]; rfl, rfl⟩
          | succ number =>
              obtain ⟨before, result, after, rfl, index⟩ := ih (by simpa using present)
              exact ⟨.write bytes outcome :: before, result, after, rfl, by simp [index]⟩

@[simp] theorem received_nil : received [] = [] := rfl

@[simp] theorem received_write (data : ByteArray) (outcome : Except TransportFault Nat)
    (exchanges : List Exchange) :
    received (.write data outcome :: exchanges) = received exchanges := rfl

@[simp] theorem received_read (outcome : Except TransportFault ByteArray)
    (exchanges : List Exchange) :
    received (.read outcome :: exchanges) = outcome :: received exchanges := rfl

@[simp] theorem received_append (earlier later : List Exchange) :
    received (earlier ++ later) = received earlier ++ received later := by
  simp [received]

@[simp] theorem finals_nil : finals [] = [] := rfl

@[simp] theorem finals_append (earlier later : List (Except TransportFault ByteArray)) :
    finals (earlier ++ later) = finals earlier ++ finals later := by
  simp [finals]

theorem finals_cons_info {outcome : Except TransportFault ByteArray}
    (info : heard outcome = .info) (outcomes : List (Except TransportFault ByteArray)) :
    finals (outcome :: outcomes) = finals outcomes := by
  simp [finals, info]

theorem finals_cons_final {outcome : Except TransportFault ByteArray}
    (final : heard outcome ≠ .info) (outcomes : List (Except TransportFault ByteArray)) :
    finals (outcome :: outcomes) = heard outcome :: finals outcomes := by
  simp [finals, final]

end FlashHost
