import FlashHost.Outcome
import FlashHost.Protocol.Transport

/-!
# Sessions

A session is an activity that talks to a device. It runs from a state of the device
to an outcome and the state in which it leaves the device. Sessions in sequence hand
the device on, and the first error ends the sequence.
-/

set_option autoImplicit false

namespace FlashHost

def Session (σ α : Type) : Type :=
  σ → Outcome α × σ

namespace Session

variable {σ α β : Type}

def lift (outcome : Outcome α) : Session σ α :=
  fun device => (outcome, device)

def bind (first : Session σ α) (next : α → Session σ β) : Session σ β :=
  fun device =>
    match first device with
    | (⟨.ok value, events⟩, device) =>
      let (outcome, device) := next value device
      (outcome.after events, device)
    | (⟨.error error, events⟩, device) => (⟨.error error, events⟩, device)

instance : Monad (Session σ) where
  pure value := lift (.pure value)
  bind := bind

def fail (error : Error) : Session σ α :=
  lift (.fail error)

def note (note : Note) : Session σ Unit :=
  lift (.note note)

def report (progress : Progress) : Session σ Unit :=
  lift (.emit (.progress progress))

/-- Run a session to its end and go on with its result, even if that is an error. -/
def attempt (session : Session σ α) : Session σ (Except Error α) :=
  fun device =>
    let (outcome, device) := session device
    (⟨.ok outcome.result, outcome.events⟩, device)

def write (transport : Transport σ) (data : ByteArray) : Session σ Nat :=
  fun device =>
    let call := transport.write data device
    (⟨call.result.mapError .transport,
      call.transfers.map .transferred ++ [.written data call.result]⟩, call.device)

/-- Ask the device for a packet, in a buffer that is used over and over. -/
def read (transport : Transport σ) (buffer : ByteArray) : Session σ (Nat × ByteArray) :=
  fun device =>
    let call := transport.read buffer device
    let packet := call.result.map fun (size, buffer) => buffer.extract 0 size
    (⟨call.result.mapError .transport, call.transfers.map .transferred ++ [.read packet]⟩,
      call.device)

/-- A packet that was read uses up the bound on the packets to come. -/
theorem pending_lt_of_read {transport : Transport σ} {buffer : ByteArray} {device next : σ}
    {value : Nat × ByteArray} {events : List Event}
    (received : read transport buffer device = (⟨.ok value, events⟩, next)) :
    transport.pending next < transport.pending device := by
  simp only [read, Prod.mk.injEq, Outcome.mk.injEq] at received
  obtain ⟨⟨result, -⟩, rfl⟩ := received
  apply transport.pending_read
  cases outcome : (transport.read buffer device).result with
  | error fault =>
    rw [outcome] at result
    cases result
  | ok value => rfl

end Session

end FlashHost
