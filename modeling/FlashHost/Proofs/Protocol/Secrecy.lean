import FlashHost.Device.Script
import FlashHost.Proofs.Progress.Phase
import FlashHost.Proofs.Protocol.Alike
import FlashHost.Proofs.Wire.Sending
import FlashHost.Usb.Connection

/-!
# Payloads out of sight

Two executions whose payloads have the same sizes cannot be told apart by anything but the
pieces of the payloads themselves, as long as the device does not go by their bytes.
-/

set_option autoImplicit false

namespace FlashHost

def Parcel.Alike (parcel other : Parcel) : Prop :=
  parcel.IsCommand → parcel.bytes = other.bytes

/-- Where the first of two alike lists of parcels has no piece, the bytes are the same. -/
theorem Parcel.Alike.bytes_at {parcels others : List Parcel} {number : Nat}
    (same : List.Forall₂ Parcel.Alike parcels others)
    (other : ∀ payload index, parcels[number]? ≠ some (.piece payload index)) :
    parcels[number]?.map Parcel.bytes = others[number]?.map Parcel.bytes := by
  induction same generalizing number with
  | nil => rfl
  | @cons parcel _ _ _ first _ ih =>
      cases number with
      | succ number => exact ih other
      | zero =>
          have command : parcel.IsCommand := by
            cases parcel with
            | command line => trivial
            | announcement payload => trivial
            | piece payload index => exact absurd rfl (other payload index)
          exact congrArg some (first command)

theorem Round.parcels_alike {payload other : ByteArray} (size : payload.size = other.size) :
    List.Forall₂ Parcel.Alike (Round.payload payload).parcels (Round.payload other).parcels := by
  have announced : Parcel.Alike (.announcement payload) (.announcement other) := by
    intro _
    rw [Parcel.bytes, Parcel.bytes, size]
  refine .cons announced ?_
  rw [Parcel.pieces, Parcel.pieces, Parcel.count, Parcel.count, size, List.forall₂_map_left_iff,
    List.forall₂_map_right_iff]
  refine List.forall₂_same.mpr ?_
  intro number _ command
  cases command

theorem Operation.Alike.parcels {operation other : Operation} (same : operation.Alike other) :
    List.Forall₂ Parcel.Alike (operation.rounds.flatMap Round.parcels)
      (other.rounds.flatMap Round.parcels) := by
  cases same with
  | same => exact List.forall₂_same.mpr fun _ _ _ => rfl
  | flash size =>
      exact List.rel_append (Round.parcels_alike size) (.cons (fun _ => rfl) .nil)
  | download size => exact List.rel_append (Round.parcels_alike size) .nil

private theorem Operation.Alike.summary_eq {operation other : Operation}
    (same : operation.Alike other) : operation.summary = other.summary := by
  cases same with
  | same => rfl
  | flash size => rw [summary, summary, size]
  | download size => rw [summary, summary, size]

private theorem Transfer.Alike.note_eq {transfer other : Transfer} (same : transfer.Alike other) :
    (Event.transferred transfer).note? = (Event.transferred other).note? := by
  cases same with
  | same => rfl
  | @outgoing _ _ _ outcome _ => cases outcome <;> rfl

inductive Exchange.Alike : Exchange → Exchange → Prop where
  | same (call) : Alike call call
  | write {data other outcome} :
      data.size = other.size → Alike (.write data outcome) (.write other outcome)

theorem Exchange.Alike.sizes {exchanges others : List Exchange}
    (same : List.Forall₂ Exchange.Alike exchanges others) :
    List.Forall₂ (fun data other => data.size = other.size) (written exchanges)
      (written others) := by
  refine List.rel_filterMap ?_ same
  intro call other alike
  cases alike with
  | same => cases call <;> constructor; rfl
  | write size => exact .some size

namespace Event

variable {events others : List Event}

theorem Alike.filterMap_eq {α : Type} {shown : Event → Option α}
    (blind : ∀ event other : Event, event.Alike other → shown event = shown other)
    (same : List.Forall₂ Event.Alike events others) :
    events.filterMap shown = others.filterMap shown := by
  induction same with
  | nil => rfl
  | cons first _ ih => rw [List.filterMap_cons, List.filterMap_cons, blind _ _ first, ih]

private theorem Alike.reports_eq (same : List.Forall₂ Event.Alike events others) :
    reports events = reports others := by
  refine Alike.filterMap_eq ?_ same
  intro event other alike
  cases alike <;> rfl

def line? (level : Level) (event : Event) : Option String :=
  (event.note?.filter fun note => note.level.within level).map Note.line

theorem logLines_eq_filterMap (level : Level) (events : List Event) :
    logLines level events = events.filterMap (line? level) := by
  rw [logLines, ← List.filterMap_eq_filter, List.filterMap_filterMap, List.map_filterMap]
  simp only [Option.bind_guard]
  rfl

private theorem Alike.line_eq {event other : Event} (alike : event.Alike other) (level : Level) :
    event.line? level = other.line? level := by
  cases alike with
  | same => rfl
  | written size => rfl
  | transferred same => rw [line?, line?, same.note_eq]
  | @queued operation other same =>
      have line : (Note.queued operation).line = (Note.queued other).line :=
        congrArg (fun text => Level.trace.name ++ " " ++ ("Queued " ++ text)) same.summary_eq
      cases held : Level.trace.within level <;>
        simp [line?, note?, Note.level, held, Option.filter, line]

private theorem Alike.logLines_eq (same : List.Forall₂ Event.Alike events others) (level : Level) :
    logLines level events = logLines level others := by
  rw [logLines_eq_filterMap, logLines_eq_filterMap]
  exact Alike.filterMap_eq (fun _ _ alike => alike.line_eq level) same

theorem Alike.exchanges (same : List.Forall₂ Event.Alike events others) :
    List.Forall₂ Exchange.Alike (events.filterMap exchange?) (others.filterMap exchange?) := by
  refine List.rel_filterMap ?_ same
  intro event other alike
  cases alike with
  | same event =>
      cases event.exchange? with
      | none => exact .none
      | some call => exact .some (.same call)
  | written size => exact .some (.write size)
  | transferred | queued => exact .none

end Event

/-- Two outcomes of submitting some operations differ at most in the bytes of payloads that
were written, and only where the wire plan has a piece of a payload. -/
structure Indistinguishable {α : Type} (operations : List Operation) (first second : Outcome α) :
    Prop where
  result : first.result = second.result
  reports : reports first.events = reports second.events
  log : ∀ level, Event.logLines level first.events = Event.logLines level second.events
  calls : List.Forall₂ Exchange.Alike first.exchanges second.exchanges
  commands : ∀ number : Nat,
    (∀ payload index, (plan operations)[number]? ≠ some (.piece payload index)) →
    (written first.exchanges)[number]? = (written second.exchanges)[number]?

namespace Protocol

open Session

def submit {σ : Type} (transport : Transport σ) (operations : List Operation) :
    Session σ Unit := do
  let queue ← lift (Queue.empty.enqueueAll operations)
  execute transport queue

variable {σ : Type} {transport : Transport σ}

private theorem events_enqueueAll (queue : Queue) (operations : List Operation) :
    (queue.enqueueAll operations).events =
      operations.map fun operation => .noted (.queued operation) := by
  induction operations generalizing queue with
  | nil => rfl
  | cons operation operations ih => exact congrArg _ (ih (queue.push operation))

theorem submit_eq (operations : List Operation) (device : σ) :
    submit transport operations device =
      ((execute transport (Queue.empty.extend operations) device).1.after
          (operations.map fun operation => .noted (.queued operation)),
        (execute transport (Queue.empty.extend operations) device).2) := by
  rw [← events_enqueueAll Queue.empty]
  refine bind_ok ?_
  rw [lift, ← Queue.result_enqueueAll]

theorem written_submit (transport : Transport σ) (operations : List Operation) (device : σ) :
    let handed := written (submit transport operations device).1.exchanges
    handed = ((plan operations).take handed.length).map Parcel.bytes := by
  intro handed
  obtain ⟨sent, front, same, -⟩ :=
    (follows_execute transport (Queue.empty.extend operations) device).written_eq
  rw [Round.sends_flatMap_turns, Queue.toList_extend, Queue.toList_empty, List.nil_append] at front
  have parts : sent = (plan operations).take sent.length := List.prefix_iff_eq_take.mp front
  have all : handed = sent.map Parcel.bytes := by
    rw [← same]
    simp [handed, submit_eq, Event.exchange?, Function.comp_def]
  rw [all, List.length_map, ← parts]

private theorem plan_alike {operations others : List Operation}
    (same : List.Forall₂ Operation.Alike operations others) :
    List.Forall₂ Parcel.Alike (plan operations) (plan others) := by
  rw [plan, plan, rounds, rounds, List.flatMap_assoc, List.flatMap_assoc]
  exact List.rel_flatMap same fun _ _ => Operation.Alike.parcels

private theorem commands_eq {operations others : List Operation}
    (same : List.Forall₂ Operation.Alike operations others) {first second : σ}
    (calls : List.Forall₂ Exchange.Alike (submit transport operations first).1.exchanges
      (submit transport others second).1.exchanges) {number : Nat}
    (other : ∀ payload index, (plan operations)[number]? ≠ some (.piece payload index)) :
    (written (submit transport operations first).1.exchanges)[number]? =
      (written (submit transport others second).1.exchanges)[number]? := by
  have counted := (Exchange.Alike.sizes calls).length_eq
  have sent := written_submit transport operations first
  have resent := written_submit transport others second
  rw [sent, resent, ← counted, List.getElem?_map, List.getElem?_map, List.getElem?_take,
    List.getElem?_take]
  split
  · exact Parcel.Alike.bytes_at (plan_alike same) other
  · rfl

variable {alike : σ → σ → Prop} (blind : transport.Blind alike)

include blind

private theorem alike_submit {operations others : List Operation}
    (same : List.Forall₂ Operation.Alike operations others) :
    (submit transport operations).Alike alike (submit transport others) := by
  intro first second start
  rw [submit_eq, submit_eq]
  refine (alike_execute blind ?_ first second start).after ?_
  · simpa using same
  · rw [List.forall₂_map_left_iff, List.forall₂_map_right_iff]
    exact same.imp fun _ _ => .queued

/-- On a device that does not go by the bytes it is given, queueing and executing operations
that differ only in the bytes of payloads comes to the same: the result, what the user is told,
every line of the log, and the calls but for the bytes of pieces of payloads. -/
theorem indistinguishable_submit {operations others : List Operation} {first second : σ}
    (same : List.Forall₂ Operation.Alike operations others) (start : alike first second) :
    Indistinguishable operations (submit transport operations first).1
      (submit transport others second).1 := by
  obtain ⟨result, events, -⟩ := alike_submit blind same first second start
  have calls := Event.Alike.exchanges events
  exact ⟨result, Event.Alike.reports_eq events, Event.Alike.logLines_eq events, calls,
    fun _ other => commands_eq same calls other⟩

end Protocol

/-- A scripted device goes by the number of a call. -/
theorem Script.blind : Script.transport.Blind Eq where
  write := by
    intro script _ data other start size
    subst start
    have same : transport.write data script = transport.write other script := by
      simp only [transport, write, size]
    rw [same]
    exact ⟨rfl, List.forall₂_same.mpr fun transfer _ => .same transfer, rfl⟩
  read := by
    intro script _ buffer start
    subst start
    exact ⟨rfl, List.forall₂_same.mpr fun transfer _ => .same transfer, rfl⟩

namespace Usb.Connection

private theorem alike_writePieces {pieces others : List ByteArray}
    (sizes : List.Forall₂ (fun piece other => piece.size = other.size) pieces others)
    (written : Nat) (connection : Connection) :
    let call := writePieces written pieces connection
    let other := writePieces written others connection
    call.result = other.result ∧ List.Forall₂ Transfer.Alike call.transfers other.transfers ∧
      call.device = other.device := by
  induction sizes generalizing written connection with
  | nil => exact ⟨rfl, .nil, rfl⟩
  | @cons piece other pieces others size _ ih =>
      have submitted : connection.submit piece = connection.submit other := by
        simp only [submit, size]
      rw [writePieces, writePieces, submitted, size]
      rcases connection.submit other with ⟨outcome, left⟩
      cases outcome with
      | error fault => exact ⟨rfl, .cons (.outgoing size) .nil, rfl⟩
      | ok taken =>
          dsimp only
          split
          · exact ⟨rfl, .cons (.outgoing size) .nil, rfl⟩
          · obtain ⟨result, transfers, device⟩ := ih (written + taken) left
            exact ⟨result, .cons (.outgoing size) transfers, device⟩

/-- The host's side of the bus goes by the number of a transfer. -/
theorem blind : transport.Blind Eq where
  write := by
    intro connection _ data other start size
    subst start
    exact alike_writePieces (Protocol.sizes_piecesFrom size 0) 0 connection
  read := by
    intro connection _ buffer start
    subst start
    exact ⟨rfl, List.forall₂_same.mpr fun transfer _ => .same transfer, rfl⟩

end Usb.Connection

theorem Protocol.indistinguishable_flash :
    let operations : List Operation := [.flash "boot" ⟨#[1, 2]⟩, .download "sig" ⟨#[3]⟩, .reboot]
    let others : List Operation := [.flash "boot" ⟨#[7, 8]⟩, .download "sig" ⟨#[9]⟩, .reboot]
    let script : Script := ⟨[.all, .count 1], [.packet "DATA00000002".toUTF8]⟩
    Script.transport.Blind Eq ∧ List.Forall₂ Operation.Alike operations others ∧
      Indistinguishable operations (submit Script.transport operations script).1
        (submit Script.transport others script).1 := by
  intro operations others script
  have same : List.Forall₂ Operation.Alike operations others :=
    .cons (.flash rfl) (.cons (.download rfl) (.cons (.same _) .nil))
  exact ⟨Script.blind, same, indistinguishable_submit Script.blind same rfl⟩

end FlashHost
