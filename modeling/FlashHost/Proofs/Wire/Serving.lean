import FlashHost.Proofs.Outcome
import FlashHost.Proofs.Protocol.Invariant
import FlashHost.Proofs.Protocol.Reply
import FlashHost.Proofs.Protocol.Session
import FlashHost.Proofs.Wire.Exchange

/-!
# Calls and the state of the device

The calls that the events of a session show are the calls that took its device from the
first state to the last, one after another, and there are no others.
-/

set_option autoImplicit false

namespace FlashHost

/-- The calls take a device from one state to another: each was made in the state in which
the one before it left the device, and its outcome is what the transport answered there. -/
inductive Serves {σ : Type} (transport : Transport σ) : σ → List Exchange → σ → Prop where
  | nil {device} : Serves transport device [] device
  | write {device data exchanges last} :
      Serves transport (transport.write data device).device exchanges last →
      Serves transport device (.write data (transport.write data device).result :: exchanges)
        last
  | read {device buffer exchanges last} :
      buffer.size = Protocol.maxPacketSize →
      Serves transport (transport.read buffer device).device exchanges last →
      Serves transport device
        (.read ((transport.read buffer device).result.map
          fun (size, filled) => filled.extract 0 size) :: exchanges) last

def Transport.KeepsSize {σ : Type} (transport : Transport σ) : Prop :=
  ∀ {buffer filled : ByteArray} {device : σ} {size : Nat},
    (transport.read buffer device).result = .ok (size, filled) → filled.size = buffer.size

/-- The calls of a session are the ones that its device saw. -/
def Session.Served {σ α : Type} (transport : Transport σ) (session : Session σ α) : Prop :=
  ∀ device, Serves transport device (session device).1.exchanges (session device).2

variable {σ α β : Type} {transport : Transport σ}

theorem Serves.append {first middle last : σ} {exchanges others : List Exchange}
    (earlier : Serves transport first exchanges middle)
    (later : Serves transport middle others last) :
    Serves transport first (exchanges ++ others) last := by
  induction earlier with
  | nil => exact later
  | write _ ih => exact .write (ih later)
  | read sized _ ih => exact .read sized (ih later)

namespace Session

private theorem served_pure (value : α) : (pure value : Session σ α).Served transport :=
  fun _ => .nil

private theorem served_fail (error : Error) : (fail error : Session σ α).Served transport :=
  fun _ => .nil

theorem served_report (progress : Progress) : (report progress).Served transport :=
  fun _ => .nil

private theorem served_note (text : Note) : (note text).Served transport :=
  fun _ => .nil

private theorem served_write (data : ByteArray) : (write transport data).Served transport := by
  intro device
  rw [write, Outcome.exchanges_mk, exchanges_written]
  exact .write .nil

theorem Served.bind {first : Session σ α} {next : α → Session σ β}
    (head : first.Served transport) (tail : ∀ value, (next value).Served transport) :
    (first >>= next).Served transport := by
  intro device
  have served := head device
  rcases ran : first device with ⟨⟨result, events⟩, after⟩
  rw [ran] at served
  cases result with
  | error error => rw [bind_error ran]; exact served
  | ok value =>
      rw [bind_ok ran, Outcome.exchanges_after]
      exact served.append (tail value after)

theorem Served.attempt {session : Session σ α} (served : session.Served transport) :
    session.attempt.Served transport :=
  served

end Session

namespace Protocol

open Session

private theorem serves_read {buffer : ByteArray} {device next : σ}
    {result : Except Error (Nat × ByteArray)} {events : List Event}
    (sized : buffer.size = maxPacketSize)
    (ran : Session.read transport buffer device = (⟨result, events⟩, next)) :
    Serves transport device (events.filterMap Event.exchange?) next := by
  simp only [Session.read, Prod.mk.injEq, Outcome.mk.injEq] at ran
  obtain ⟨⟨-, rfl⟩, rfl⟩ := ran
  rw [exchanges_read]
  exact .read sized .nil

private theorem filled_size (keeps : transport.KeepsSize) {buffer filled : ByteArray}
    {device next : σ} {size : Nat} {events : List Event}
    (ran : Session.read transport buffer device = (⟨.ok (size, filled), events⟩, next)) :
    filled.size = buffer.size := by
  simp only [Session.read, Prod.mk.injEq, Outcome.mk.injEq] at ran
  obtain ⟨⟨result, -⟩, -⟩ := ran
  cases outcome : (transport.read buffer device).result with
  | error fault => simp [outcome] at result
  | ok value =>
      rw [outcome] at result
      cases result
      exact keeps outcome

private theorem noted_silent (events : List Event) (note : Note) :
    (events ++ [Event.noted note]).filterMap Event.exchange? =
      events.filterMap Event.exchange? := by
  simp [Event.exchange?]

private theorem served_readReplyInto (keeps : transport.KeepsSize) {buffer : ByteArray}
    (sized : buffer.size = maxPacketSize) :
    (readReplyInto transport buffer).Served transport := by
  intro device
  revert sized
  apply readReplyInto_induction fun buffer device run =>
    buffer.size = maxPacketSize → Serves transport device run.1.exchanges run.2
  case unread =>
    intro buffer device error events next failed sized
    exact serves_read sized failed
  case undecodable =>
    intro buffer device size filled events next fault received parsed sized
    exact serves_read sized received
  case refused =>
    intro buffer device size filled events next reason received parsed sized
    rw [Outcome.exchanges_mk, noted_silent]
    exact serves_read sized received
  case replied =>
    intro buffer device size filled events next reply received parsed sized
    rw [Outcome.exchanges_mk, noted_silent]
    exact serves_read sized received
  case informed =>
    intro buffer device size filled events next text rest last received parsed served sized
    have told : (events ++ [Event.noted (.received (.info text))] ++
        [Event.progress (.info text)]).filterMap Event.exchange? =
          events.filterMap Event.exchange? := by
      simp [Event.exchange?]
    rw [Outcome.exchanges_after, told]
    exact (serves_read sized received).append (served ((filled_size keeps received).trans sized))

private theorem served_readReply (keeps : transport.KeepsSize) : (readReply transport).Served transport :=
  served_readReplyInto keeps rfl

private theorem served_invariant (keeps : transport.KeepsSize) :
    ExecutionInvariant transport fun _ session => session.Served transport where
  pure := served_pure
  fail := served_fail
  note := served_note
  transfer report _ := served_report report
  write := served_write
  readReply := served_readReply keeps
  bind := Served.bind
  report progress _ := served_report progress
  attempt := Served.attempt

/-- The calls that the events of an execution show took the device from its first state
to its last one. -/
theorem served_execute (keeps : transport.KeepsSize) (queue : Queue) :
    (execute transport queue).Served transport :=
  (served_invariant keeps).execute queue

end Protocol

end FlashHost
