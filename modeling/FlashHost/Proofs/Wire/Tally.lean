import FlashHost.Proofs.Wire.Delivery
import FlashHost.Proofs.Wire.Sending
import Mathlib.Algebra.GroupWithZero.Nat

/-!
# Payloads by the byte

The size of a queue is the sum of all payloads that were ever added to it. An execution that
succeeds announces and hands over just as many bytes, and one that fails hands over no more.
-/

set_option autoImplicit false

namespace FlashHost

-- One fixed instance, whatever other instances are imported.
local instance decidableHanded : DecidableEq ByteArray := ByteArray.instDecidableEq

inductive Growth where
  | push (operation : Operation)
  | extend (operations : List Operation)
  /-- A copy of the queue is added to it. -/
  | double

def Growth.operations (queued : List Operation) : Growth → List Operation
  | .push operation => [operation]
  | .extend operations => operations
  | .double => queued

def added (growths : List Growth) : List Operation :=
  growths.foldl (fun queued growth => queued ++ growth.operations queued) []

def Queue.grow (queue : Queue) : Growth → Queue
  | .push operation => queue.push operation
  | .extend operations => queue.extend operations
  | .double => queue.extend queue.toList

def payloadTotal (operations : List Operation) : Nat :=
  ((operations.filterMap Operation.payload?).map ByteArray.size).sum

def Event.announced : Event → Nat
  | .progress (.transferStarted size) => size
  | _ => 0

def announcedTotal (events : List Event) : Nat :=
  (events.map Event.announced).sum

/-- The bytes of a write that count as payload in the place of a parcel: all of them, unless
they are the command that is due there. -/
def Parcel.charge (data : ByteArray) : Parcel → Nat
  | .piece _ _ => data.size
  | parcel => if data = parcel.bytes then 0 else data.size

/-- The bytes of all writes but the commands of a plan, each of which has a place of its own. -/
def handedTotal : List Parcel → List ByteArray → Nat
  | _, [] => 0
  | [], data :: writes => data.size + handedTotal [] writes
  | parcel :: parcels, data :: writes => parcel.charge data + handedTotal parcels writes

structure Outcome.Tallies (outcome : Outcome Unit) (queue : Queue) : Prop where
  announced : outcome.result = .ok () → announcedTotal outcome.events = queue.payloadSize
  handed : outcome.result = .ok () →
    handedTotal (plan queue.toList) (written outcome.exchanges) = queue.payloadSize
  /-- No more is handed over in an execution that fails, either. -/
  bounded : handedTotal (plan queue.toList) (written outcome.exchanges) ≤ queue.payloadSize

/-! ## Queues -/

private theorem payloadTotal_append (earlier later : List Operation) :
    payloadTotal (earlier ++ later) = payloadTotal earlier + payloadTotal later := by
  simp [payloadTotal]

theorem payloadTotal_cons (operation : Operation) (operations : List Operation) :
    payloadTotal (operation :: operations) = operation.payloadSize + payloadTotal operations := by
  cases carried : operation.payload? <;> simp [payloadTotal, Operation.payloadSize, carried]

namespace Queue

theorem payloadSize_eq_total (queue : Queue) : queue.payloadSize = payloadTotal queue.toList := by
  rw [payloadSize]
  induction queue.toList with
  | nil => rfl
  | cons operation operations ih => rw [List.foldr_cons, ih, payloadTotal_cons]

theorem payloadSize_extend (queue : Queue) (operations : List Operation) :
    (queue.extend operations).payloadSize = queue.payloadSize + payloadTotal operations := by
  rw [payloadSize_eq_total, payloadSize_eq_total, toList_extend, payloadTotal_append]

theorem grow_eq_extend (queue : Queue) (growth : Growth) :
    queue.grow growth = queue.extend (growth.operations queue.toList) := by
  cases growth <;> rfl

private theorem toList_foldl_grow (queue : Queue) (growths : List Growth) :
    (growths.foldl grow queue).toList =
      growths.foldl (fun queued growth => queued ++ growth.operations queued) queue.toList := by
  induction growths generalizing queue with
  | nil => rfl
  | cons growth growths ih =>
      rw [List.foldl_cons, List.foldl_cons, ih, grow_eq_extend, toList_extend]

end Queue

/-! ## Writes -/

namespace Parcel

def load : Parcel → Nat
  | .piece payload number => (Parcel.piece payload number).bytes.size
  | _ => 0

private theorem charge_bytes (parcel : Parcel) : parcel.charge parcel.bytes = parcel.load := by
  cases parcel with
  | piece payload number => rfl
  | command line => exact if_pos rfl
  | announcement payload => exact if_pos rfl

/-- The pieces of a payload take all of it to the device. -/
theorem sum_load_pieces (payload : ByteArray) :
    ((pieces payload).map load).sum = payload.size :=
  calc
    ((pieces payload).map load).sum
    _ = (((List.range (count payload)).map fun number =>
          (piece payload number).bytes).flatMap octets).length := by
      simp only [pieces, load, List.length_flatMap, List.map_map, Function.comp_def, length_octets]
    _ = payload.size := by rw [flatMap_octets_pieces, take_octets_count, length_octets]

end Parcel

private theorem Operation.sum_load_parcels (operation : Operation) :
    ((operation.rounds.flatMap Round.parcels).map Parcel.load).sum = operation.payloadSize := by
  have payload (data : ByteArray) :
      ((Round.payload data).parcels.map Parcel.load).sum = data.size := by
    rw [Round.parcels, List.map_cons, List.sum_cons, Parcel.sum_load_pieces]
    exact Nat.zero_add _
  cases operation with
  | flash partition image =>
      rw [rounds, List.flatMap_cons, List.map_append, List.sum_append, payload image]
      rfl
  | download tag data =>
      rw [rounds, List.flatMap_singleton, payload data]
      rfl
  | _ => rfl

private theorem sum_load_plan (operations : List Operation) :
    ((plan operations).map Parcel.load).sum = payloadTotal operations := by
  induction operations with
  | nil => rfl
  | cons operation operations ih =>
      have parts : plan (operation :: operations) =
          operation.rounds.flatMap Round.parcels ++ plan operations :=
        List.flatMap_append ..
      rw [parts, List.map_append, List.sum_append, ih, operation.sum_load_parcels,
        payloadTotal_cons]

/-- In the course of a plan nothing but pieces of payloads counts. -/
theorem handedTotal_append (sent rest : List Parcel) :
    handedTotal (sent ++ rest) (sent.map Parcel.bytes) = (sent.map Parcel.load).sum := by
  induction sent with
  | nil => cases rest <;> rfl
  | cons parcel sent ih =>
      rw [List.cons_append, List.map_cons, handedTotal, ih, parcel.charge_bytes]
      rfl

/-! ## Reports -/

@[simp] theorem announcedTotal_nil : announcedTotal [] = 0 := rfl

@[simp] theorem announcedTotal_cons (event : Event) (events : List Event) :
    announcedTotal (event :: events) = event.announced + announcedTotal events := rfl

@[simp] theorem announcedTotal_append (earlier later : List Event) :
    announcedTotal (earlier ++ later) = announcedTotal earlier + announcedTotal later := by
  simp [announcedTotal]

theorem announcedTotal_acts (events : List Event) :
    announcedTotal (acts events) = announcedTotal events := by
  induction events with
  | nil => rfl
  | cons event events ih =>
      cases event with
      | written | read | progress => exact congrArg (_ + ·) ih
      | _ => exact ih.trans (Nat.zero_add _).symm

theorem Hearing.announcedTotal_eq {steps : List Event} {result : Except Error Reply}
    (hearing : Hearing steps result) : announcedTotal steps = 0 := by
  induction hearing with
  | last => rfl
  | info _ _ ih => simp [Event.announced, ih]

theorem Asking.announcedTotal_eq {line : String} {steps : List Event}
    {result : Except Error Reply} (asking : Asking line steps result) :
    announcedTotal steps = 0 := by
  cases asking with
  | unwritten => rfl
  | cutShort => rfl
  | whole hearing => simp [Event.announced, hearing.announcedTotal_eq]

theorem Sending.announcedTotal_eq {payload : ByteArray} {number : Nat} {steps : List Event}
    {result : Except Error Unit} (sending : Sending payload number steps result) :
    announcedTotal steps = 0 := by
  induction sending with
  | done => rfl
  | unwritten => rfl
  | cutShort => rfl
  | piece _ _ ih => simp [Event.announced, ih]

/-- A download that goes well announces its payload once. -/
theorem Downloading.announcedTotal_eq {payload : ByteArray} {steps : List Event}
    (downloading : Downloading payload steps (.ok ())) : announcedTotal steps = payload.size := by
  generalize ended : Except.ok () = result at downloading
  cases downloading with
  | sent asking sending hearing =>
      simp [Event.announced, asking.announcedTotal_eq, sending.announcedTotal_eq,
        hearing.announcedTotal_eq]
  | _ => cases ended

/-- A session announces so many bytes to the user if it goes well. -/
def Session.Announces {σ α : Type} (session : Session σ α) (size : Nat) : Prop :=
  ∀ device value, (session device).1.result = .ok value →
    announcedTotal (session device).1.events = size

namespace Session

variable {σ α β : Type} {size more : Nat}

theorem announces_pure (value : α) : (pure value : Session σ α).Announces 0 :=
  fun _ _ _ => rfl

theorem announces_fail (error : Error) : (fail error : Session σ α).Announces size :=
  nofun

private theorem announces_note (text : Note) : (note text : Session σ Unit).Announces 0 :=
  fun _ _ _ => rfl

theorem announces_report {report : Progress} (other : ¬ report.IsTransfer) :
    (Session.report report : Session σ Unit).Announces 0 := by
  intro device value _
  cases report with
  | transferStarted | transferProgress | transferDone => exact absurd trivial other
  | _ => rfl

theorem Announces.bind {first : Session σ α} {next : α → Session σ β}
    (head : first.Announces size) (tail : ∀ value, (next value).Announces more) :
    (first >>= next).Announces (size + more) := by
  intro device last done
  have own := head device
  rcases ran : first device with ⟨⟨result, events⟩, after⟩
  rw [ran] at own
  cases result with
  | error error =>
      rw [bind_error ran] at done
      cases done
  | ok value =>
      rw [bind_ok ran] at done ⊢
      rw [Outcome.after, announcedTotal_append, own value rfl, tail value after last done]

/-- A session whose error is caught only to be raised in other words. -/
theorem Announces.attempt {session : Session σ α} {next : Except Error α → Session σ β}
    (announced : session.Announces size) (right : ∀ value, (next (.ok value)).Announces 0)
    (wrong : ∀ error device, ∃ failure, (next (.error error) device).1.result = .error failure) :
    (session.attempt >>= next).Announces size := by
  intro device last done
  have own := announced device
  rcases ran : session device with ⟨⟨result, events⟩, after⟩
  rw [ran] at own
  rw [bind_ok (attempt_of_run ran)] at done ⊢
  cases result with
  | error error =>
      obtain ⟨failure, failed⟩ := wrong error after
      cases failed.symm.trans done
  | ok value =>
      rw [Outcome.after, announcedTotal_append, own value rfl, right value after last done,
        Nat.add_zero]

end Session

namespace Protocol

open Session

variable {σ : Type} {size : Nat}

private theorem announces_sendCommand (transport : Transport σ) (line : String) :
    (sendCommand transport line).Announces 0 := by
  by_cases short : line.utf8ByteSize ≤ 64
  · intro device _ _
    rw [← announcedTotal_acts]
    exact (shows_sendCommand transport short device).announcedTotal_eq
  · have large : maxCommandSize < line.utf8ByteSize := Nat.not_le.mp short
    rw [sendCommand, if_pos large]
    exact announces_fail _

theorem announces_expectOkay (transport : Transport σ) (line : String) :
    (expectOkay transport line).Announces 0 := by
  have asked : (expectOkay transport line).Announces (0 + 0) := by
    refine (announces_sendCommand transport line).bind fun reply => ?_
    cases reply with
    | okay text => exact announces_pure text
    | data accepted => exact announces_fail _
  exact asked

theorem announces_download (transport : Transport σ) (payload : ByteArray) :
    (download transport payload).Announces payload.size := by
  by_cases small : payload.size < 2 ^ 32
  · intro device value done
    have course := shows_download transport small device
    rw [done] at course
    rw [← announcedTotal_acts]
    exact course.announcedTotal_eq
  · have large : Response.sizeLimit ≤ payload.size := Nat.not_lt.mp small
    rw [download, if_pos large]
    exact announces_fail _

theorem announces_step {body : Session σ Unit} (description : String)
    (announced : body.Announces size) : (step description body).Announces size := by
  have whole : (step description body).Announces (0 + size) :=
    (announces_report id).bind fun _ =>
      announced.attempt (fun _ => announces_report id) fun _ _ => ⟨_, rfl⟩
  rwa [Nat.zero_add] at whole

theorem announces_commandStep (transport : Transport σ) (description line : String) :
    (commandStep transport description line).Announces 0 :=
  announces_step description ((announces_expectOkay transport line).bind fun _ => announces_pure ())

private theorem announces_showVariable (transport : Transport σ) (name label : String) :
    (showVariable transport name label).Announces 0 :=
  (announces_expectOkay transport _).attempt (fun _ => announces_report id) fun _ _ => ⟨_, rfl⟩

private theorem announces_run (transport : Transport σ) (operation : Operation) :
    (run transport operation).Announces operation.payloadSize := by
  cases operation with
  | flash partition image =>
      exact (announces_step _ (announces_download transport image)).bind fun _ =>
        announces_commandStep transport _ _
  | erase partition => exact announces_commandStep transport _ _
  | display name label => exact announces_showVariable transport name label
  | notice message => exact announces_report id
  | command line message => exact announces_commandStep transport _ _
  | reboot => exact announces_commandStep transport _ _
  | rebootBootloader => exact announces_commandStep transport _ _
  | download tag payload => exact announces_step _ (announces_download transport payload)

private theorem announces_runAll (transport : Transport σ) (operations : List Operation) :
    (runAll transport operations).Announces (payloadTotal operations) := by
  induction operations with
  | nil => exact announces_pure ()
  | cons operation operations ih =>
      rw [payloadTotal_cons]
      exact (announces_run transport operation).bind fun _ => ih

private theorem announces_execute (transport : Transport σ) (queue : Queue) :
    (execute transport queue).Announces queue.payloadSize := by
  have ran : (execute transport queue).Announces (0 + (payloadTotal queue.toList + 0)) :=
    (announces_note _).bind fun _ => (announces_runAll transport queue.toList).bind fun _ =>
      announces_report id
  rwa [Nat.zero_add, Nat.add_zero, ← queue.payloadSize_eq_total] at ran

private theorem tallies_execute (transport : Transport σ) (queue : Queue) (device : σ) :
    (execute transport queue device).1.Tallies queue := by
  have total : ((plan queue.toList).map Parcel.load).sum = queue.payloadSize := by
    rw [sum_load_plan, queue.payloadSize_eq_total]
  obtain ⟨sent, ⟨rest, parts⟩, same, -, whole⟩ :=
    (follows_execute transport queue device).written_eq
  rw [Round.sends_flatMap_turns] at parts whole
  have handed : handedTotal (plan queue.toList)
      (written (execute transport queue device).1.exchanges) = (sent.map Parcel.load).sum := by
    rw [same, plan, ← parts, handedTotal_append]
  refine ⟨announces_execute transport queue device (), fun done => ?_, ?_⟩
  · rw [handed, whole () done, ← total, plan]
  · rw [handed, ← total, plan, ← parts, List.map_append, List.sum_append]
    exact Nat.le_add_right ..

/-- However a queue came to be, its size is that of all payloads that were added to it, and its
execution announces and hands over just as many bytes, or no more if it fails. -/
theorem payloads_tally (growths : List Growth) :
    let queue := growths.foldl Queue.grow .empty
    queue.toList = added growths ∧
    queue.payloadSize = payloadTotal (added growths) ∧
    (∀ growth, (queue.grow growth).payloadSize =
      queue.payloadSize + payloadTotal (growth.operations queue.toList)) ∧
    (∀ other : Queue,
      (queue.extend other.toList).payloadSize = queue.payloadSize + other.payloadSize) ∧
    ∀ {σ : Type} (transport : Transport σ) (device : σ),
      (execute transport queue device).1.Tallies queue := by
  intro queue
  have whole : queue.toList = added growths := Queue.toList_foldl_grow .empty growths
  refine ⟨whole, ?_, ?_, ?_, fun transport device => tallies_execute transport queue device⟩
  · rw [queue.payloadSize_eq_total, whole]
  · intro growth
    rw [queue.grow_eq_extend, queue.payloadSize_extend]
  · intro other
    rw [queue.payloadSize_extend, other.payloadSize_eq_total]

end Protocol

end FlashHost
