import FlashHost.Operation
import FlashHost.Proofs.Wire.Exchange
import Mathlib.Algebra.Group.Nat.Defs

/-!
# Wire plans

What a queue has to say to a device and what it has to hear, laid down before the
device is asked for anything. An operation is a few rounds, each of which ends with an
OKAY. A round is a sequence of turns: a parcel is sent, or a reply is awaited.
-/

set_option autoImplicit false

namespace FlashHost

/-- What is handed over in one write. -/
inductive Parcel where
  | command (line : String)
  | announcement (payload : ByteArray)
  /-- The piece of a payload with a given number, counted from zero. -/
  | piece (payload : ByteArray) (number : Nat)

namespace Parcel

/-- The bytes of a parcel. An announcement gives the size of the payload in eight
hexadecimal digits, and a payload is cut every `2 ^ 20` bytes. -/
def bytes : Parcel → ByteArray
  | .command line => line.toUTF8
  | .announcement payload =>
    ("download:" ++ String.ofList ((Nat.toDigits 16 payload.size).leftpad 8 '0')).toUTF8
  | .piece payload number => payload.extract (number * 2 ^ 20) ((number + 1) * 2 ^ 20)

/-- Whether a parcel is a command, announcements included. -/
def IsCommand : Parcel → Prop
  | .command _ | .announcement _ => True
  | .piece _ _ => False

def Allowed : Parcel → Prop
  | .command line => line.utf8ByteSize ≤ 64
  | .announcement payload => payload.size < 2 ^ 32
  | .piece _ _ => True

def count (payload : ByteArray) : Nat :=
  -- The constant stands first so that no comparison of terms counts it down.
  (2 ^ 20 - 1 + payload.size) / 2 ^ 20

def pieces (payload : ByteArray) : List Parcel :=
  (List.range (count payload)).map (.piece payload)

end Parcel

/-- A part of the conversation that ends with an OKAY. -/
inductive Round where
  | command (line : String)
  | payload (payload : ByteArray)

/-- One turn of the conversation: the host sends a parcel, or the device owes a reply. -/
inductive Turn where
  | send (parcel : Parcel)
  | await (due : Due)

namespace Round

def parcels : Round → List Parcel
  | .command line => [.command line]
  | .payload data => .announcement data :: Parcel.pieces data

def replies : Round → List Due
  | .command _ => [.okay]
  | .payload data => [.data data.size, .okay]

def turns : Round → List Turn
  | .command line => [.send (.command line), .await .okay]
  | .payload data =>
    [.send (.announcement data), .await (.data data.size)] ++
      (Parcel.pieces data).map .send ++ [.await .okay]

end Round

def Operation.rounds : Operation → List Round
  | .flash partition image => [.payload image, .command ("flash:" ++ partition)]
  | .erase partition => [.command ("erase:" ++ partition)]
  | .display name _ => [.command ("getvar:" ++ name)]
  | .notice _ => []
  | .command line _ => [.command line]
  | .reboot => [.command "reboot"]
  | .rebootBootloader => [.command "reboot-bootloader"]
  | .download _ payload => [.payload payload]

def rounds (operations : List Operation) : List Round :=
  operations.flatMap Operation.rounds

/-- Everything that several operations send, in order. -/
def plan (operations : List Operation) : List Parcel :=
  (rounds operations).flatMap Round.parcels

def replies (operations : List Operation) : List Due :=
  (rounds operations).flatMap Round.replies

def sends (turns : List Turn) : List Parcel :=
  turns.filterMap fun
    | .send parcel => some parcel
    | .await _ => none

def awaits (turns : List Turn) : List Due :=
  turns.filterMap fun
    | .send _ => none
    | .await due => some due

@[simp] theorem rounds_nil : rounds [] = [] := rfl

@[simp] theorem rounds_cons (operation : Operation) (operations : List Operation) :
    rounds (operation :: operations) = operation.rounds ++ rounds operations := rfl

@[simp] theorem rounds_append (earlier later : List Operation) :
    rounds (earlier ++ later) = rounds earlier ++ rounds later := by
  simp [rounds]

@[simp] theorem sends_send (parcel : Parcel) (turns : List Turn) :
    sends (.send parcel :: turns) = parcel :: sends turns := rfl

@[simp] theorem sends_await (due : Due) (turns : List Turn) :
    sends (.await due :: turns) = sends turns := rfl

@[simp] theorem sends_nil : sends [] = [] := rfl

@[simp] theorem awaits_nil : awaits [] = [] := rfl

@[simp] theorem sends_append (earlier later : List Turn) :
    sends (earlier ++ later) = sends earlier ++ sends later := by
  simp [sends]

@[simp] theorem awaits_send (parcel : Parcel) (turns : List Turn) :
    awaits (.send parcel :: turns) = awaits turns := rfl

@[simp] theorem awaits_await (due : Due) (turns : List Turn) :
    awaits (.await due :: turns) = due :: awaits turns := rfl

@[simp] theorem awaits_append (earlier later : List Turn) :
    awaits (earlier ++ later) = awaits earlier ++ awaits later := by
  simp [awaits]

@[simp] theorem sends_map_send (parcels : List Parcel) : sends (parcels.map .send) = parcels := by
  induction parcels with
  | nil => rfl
  | cons parcel parcels ih => rw [List.map_cons, sends_send, ih]

@[simp] theorem awaits_map_send (parcels : List Parcel) : awaits (parcels.map .send) = [] := by
  simp [awaits]

namespace Round

@[simp] theorem sends_turns (round : Round) : sends round.turns = round.parcels := by
  cases round with
  | command line => rfl
  | payload data => simp [turns, parcels]

@[simp] theorem awaits_turns (round : Round) : awaits round.turns = round.replies := by
  cases round with
  | command line => rfl
  | payload data => simp [turns, replies]

theorem sends_flatMap_turns (rounds : List Round) :
    sends (rounds.flatMap turns) = rounds.flatMap parcels := by
  induction rounds with
  | nil => rfl
  | cons round rounds ih => simp [ih]

theorem awaits_flatMap_turns (rounds : List Round) :
    awaits (rounds.flatMap turns) = rounds.flatMap replies := by
  induction rounds with
  | nil => rfl
  | cons round rounds ih => simp [ih]

end Round

end FlashHost
