import FlashHost.Proofs.Wire.Following
import FlashHost.Proofs.Wire.Position

/-!
# What an error says

The error of an execution tells what happened and where. A refusal by the device is reported
under the stage in which it came; all other errors stay as they were raised. What may not be
sent is an error of its own, and is not sent.
-/

set_option autoImplicit false

namespace FlashHost

namespace Error

@[simp] theorem kind_inStep (step : String) (error : Error) :
    (error.inStep step).kind = error.kind := by
  cases error with
  | remote named reason => cases named <;> rfl
  | _ => rfl

private theorem inStep_of_kind_ne {error : Error} (other : error.kind ≠ .remote) (step : String) :
    error.inStep step = error := by
  cases error with
  | remote named reason => exact absurd rfl other
  | _ => rfl

private theorem message_remote (step reason : String) :
    (remote (some step) reason).message = step ++ " failed (remote: " ++ reason ++ ")" := by
  have joined : " failed (remote: " = " failed (" ++ "remote: " := by simp
  calc (remote (some step) reason).message
    _ = stepText step (remoteText reason) := rfl
    _ = step ++ (" failed (" ++ ("remote: " ++ (reason ++ ")"))) := by
        rw [stepText, remoteText, String.append_assoc, String.append_assoc, String.append_assoc]
    _ = step ++ " failed (remote: " ++ reason ++ ")" := by
        rw [joined, String.append_assoc, String.append_assoc, String.append_assoc]

end Error

/-- Nothing was heard in a completed conversation but information and replies. -/
theorem Completes.heard_ne {turns : List Turn} {exchanges : List Exchange}
    (whole : Completes turns exchanges) {outcome : Except TransportFault ByteArray}
    (member : .read outcome ∈ exchanges) : heard outcome ≠ .broken := by
  induction whole with
  | nil => cases member
  | send _ _ ih => exact ih (by simpa using member)
  | info silent _ ih =>
      rcases List.mem_cons.mp member with same | member
      · cases same
        simp [silent]
      · exact ih member
  | reply answered _ ih =>
      rcases List.mem_cons.mp member with same | member
      · cases same
        simp [answered]
      · exact ih member

private theorem Completes.cancel {done rest : List Turn} {before after : List Exchange}
    (first : Completes done before) (whole : Completes (done ++ rest) (before ++ after)) :
    Completes rest after := by
  induction first with
  | nil => exact whole
  | send _ _ ih =>
      cases whole with
      | send _ others => exact ih others
  | info silent _ ih =>
      cases whole with
      | info _ others => exact ih others
      | reply answered _ => simp [silent] at answered
  | reply answered _ ih =>
      cases whole with
      | info silent _ => simp [silent] at answered
      | reply _ others => exact ih others

private theorem Halts.not_completes {turn : Turn} {exchanges : List Exchange}
    (halted : Halts turn exchanges) (rest : List Turn) : ¬ Completes (turn :: rest) exchanges := by
  induction halted with
  | barred _ => exact nofun
  | cutShort _ cut =>
      intro whole
      cases whole with
      | send _ _ => exact cut rfl
  | info silent _ ih =>
      intro whole
      cases whole with
      | info _ others => exact ih others
      | reply answered _ => simp [silent] at answered
  | misread final other =>
      intro whole
      cases whole with
      | info silent _ => exact final silent
      | reply answered _ => exact other answered

theorem Halts.of_barred {parcel : Parcel} {exchanges : List Exchange}
    (halted : Halts (.send parcel) exchanges) (barred : ¬ parcel.Allowed) : exchanges = [] := by
  cases halted with
  | barred _ => rfl
  | cutShort allowed _ => exact absurd allowed barred

namespace Round.Raises

variable {round : Round} {turn : Turn} {call : Option Exchange} {error : Error}

theorem refusal (raised : round.Raises turn call error) (remote : error.kind = .remote) :
    ∃ packet reason, call = some (.read (.ok packet)) ∧
      Response.parse packet = .ok (.fail reason) ∧ error = .remote none reason := by
  cases raised with
  | misread misread =>
      cases misread with
      | refused parsed => exact ⟨_, _, rfl, parsed, rfl⟩
      | unread | undecodable => cases remote
  | _ => cases remote

theorem eq_of_refused {packet : ByteArray} {reason : String}
    (raised : round.Raises turn (some (.read (.ok packet))) error)
    (refused : Response.parse packet = .ok (.fail reason)) : error = .remote none reason := by
  cases raised with
  | misread misread =>
      cases misread with
      | refused parsed =>
          rw [refused] at parsed
          cases parsed
          rfl
      | undecodable parsed => simp [refused] at parsed
  | unexpectedData parsed => simp [refused] at parsed
  | expectedData parsed => simp [refused] at parsed
  | sizeMismatch parsed _ => simp [refused] at parsed
  | dataAfterPayload parsed => simp [refused] at parsed

theorem barred (raised : round.Raises turn call error) (argument : error.kind = .argument) :
    ∃ parcel, turn = .send parcel ∧ ¬ parcel.Allowed := by
  cases raised with
  | commandTooLarge long => exact ⟨_, rfl, Nat.not_le.mpr long⟩
  | payloadTooLarge large => exact ⟨_, rfl, Nat.not_lt.mpr large⟩
  | misread misread => cases misread <;> cases argument
  | _ => cases argument

private theorem kind_of_none (raised : round.Raises turn none error) : error.kind = .argument := by
  cases raised <;> rfl

end Round.Raises

namespace Aborts

variable {round : Round} {turns : List Turn} {exchanges : List Exchange} {error : Error}

theorem refusal (aborted : Aborts round turns exchanges error) (remote : error.kind = .remote) :
    ∃ packet reason, .read (.ok packet) ∈ exchanges ∧
      Response.parse packet = .ok (.fail reason) ∧ error = .remote none reason := by
  obtain ⟨done, turn, rest, before, last, -, rfl, -, -, raised⟩ := aborted
  obtain ⟨packet, reason, final, parsed, same⟩ := raised.refusal remote
  exact ⟨packet, reason, List.mem_append_right _ (List.mem_of_getLast? final), parsed, same⟩

theorem eq_of_refused {before : List Exchange} {packet : ByteArray} {reason : String}
    (aborted : Aborts round turns (before ++ [.read (.ok packet)]) error)
    (refused : Response.parse packet = .ok (.fail reason)) : error = .remote none reason := by
  obtain ⟨done, turn, rest, start, last, -, calls, completed, -, raised⟩ := aborted
  rcases List.eq_nil_or_concat last with rfl | ⟨others, final, rfl⟩
  · rw [List.append_nil] at calls
    have member : .read (.ok packet) ∈ start := by simp [← calls]
    exact absurd (Misread.refused refused).heard_eq (completed.heard_ne member)
  · rw [List.concat_eq_append, ← List.append_assoc] at calls
    obtain ⟨-, same⟩ := List.append_inj' calls rfl
    cases same
    rw [List.concat_eq_append, List.getLast?_append, List.getLast?_singleton] at raised
    exact raised.eq_of_refused refused

/-- An argument is at fault just if all turns before that of a parcel that may not be sent
have been gone through. -/
theorem argument_iff (aborted : Aborts round turns exchanges error) :
    error.kind = .argument ↔ ∃ done parcel rest,
      turns = done ++ .send parcel :: rest ∧ ¬ parcel.Allowed ∧ Completes done exchanges := by
  obtain ⟨done, turn, rest, before, last, parts, rfl, completed, halted, raised⟩ := aborted
  constructor
  · intro argument
    obtain ⟨parcel, rfl, barred⟩ := raised.barred argument
    obtain rfl := halted.of_barred barred
    exact ⟨done, parcel, rest, parts, barred, by simpa using completed⟩
  · intro ⟨others, parcel, tail, same, barred, reached⟩
    have here : turn = .send parcel := by
      rw [parts] at same
      obtain ⟨more, rfl, cut⟩ | ⟨more, rfl, cut⟩ := List.append_eq_append_iff.mp same
      · cases more with
        | nil => exact (List.cons.inj cut).1
        | cons first more =>
            obtain ⟨rfl, -⟩ := List.cons.inj cut
            exact absurd (completed.cancel reached) (halted.not_completes more)
      · cases more with
        | nil => exact (List.cons.inj cut).1.symm
        | cons first more =>
            obtain ⟨rfl, -⟩ := List.cons.inj cut
            exact absurd (completed.allowed parcel (by simp)) barred
    subst here
    obtain rfl := halted.of_barred barred
    exact raised.kind_of_none

end Aborts

structure Outcome.Accounts (outcome : Outcome Unit) (stages : List Stage) : Prop where
  /-- The device is at fault if and only if it refused something. -/
  remote_iff : (∃ error, outcome.result = .error error ∧ error.kind = .remote) ↔
    ∃ packet reason, .read (.ok packet) ∈ outcome.exchanges ∧
      Response.parse packet = .ok (.fail reason)
  /-- A refusal is the last of all calls. The error and the last report name the stage in which
  it came, and the reason that was given. -/
  refused : ∀ before packet after reason,
    outcome.exchanges = before ++ .read (.ok packet) :: after →
    Response.parse packet = .ok (.fail reason) →
    after = [] ∧ ∃ stage error,
      FailsIn stages stage outcome.exchanges (.remote none reason) ∧
        outcome.result = .error error ∧ error.kind = .remote ∧
        error.message = stage.description ++ " failed (remote: " ++ reason ++ ")" ∧
        stage.Reported ("remote: " ++ reason) (reports outcome.events)
  /-- Every other error is the one that the round of a stage raised. -/
  raised : ∀ error, outcome.result = .error error → error.kind ≠ .remote →
    ∃ stage, FailsIn stages stage outcome.exchanges error ∧
      stage.Reported error.message (reports outcome.events)
  /-- An argument is at fault if and only if the turn of a parcel is reached that may not be
  sent. -/
  argument_iff : (∃ error, outcome.result = .error error ∧ error.kind = .argument) ↔
    ∃ done parcel rest, stages.flatMap Stage.turns = done ++ .send parcel :: rest ∧
      ¬ parcel.Allowed ∧ Completes done outcome.exchanges
  /-- Then nothing was written but the parcels before it. -/
  unsent : ∀ done parcel rest, stages.flatMap Stage.turns = done ++ .send parcel :: rest →
    ¬ parcel.Allowed → Completes done outcome.exchanges →
    written outcome.exchanges = (sends done).map Parcel.bytes

namespace Outcome.Undergoes

variable {outcome : Outcome Unit} {stages : List Stage} {before after : List Exchange}
  {packet : ByteArray} {reason : String}

theorem failsIn (undergone : outcome.Undergoes stages) {error : Error}
    (failed : outcome.result = .error error) :
    ∃ stage cause, FailsIn stages stage outcome.exchanges cause ∧
      error = cause.inStep stage.description ∧
      stage.Reported cause.message (reports outcome.events) := by
  rwa [Outcome.Undergoes, failed] at undergone

theorem refused_last (undergone : outcome.Undergoes stages)
    (made : outcome.exchanges = before ++ .read (.ok packet) :: after)
    (refused : Response.parse packet = .ok (.fail reason)) : after = [] := by
  have broken : heard (.ok packet) = .broken := (Misread.refused refused).heard_eq
  obtain ⟨done, turn, rest, start, waited, -, -, -, -, -, right⟩ := undergone.follows.standsIn made
  refine right.resolve_left fun fulfilled => ?_
  cases turn with
  | send parcel => exact fulfilled
  | await due => simp [Turn.Fulfils, broken] at fulfilled

theorem of_refused (undergone : outcome.Undergoes stages)
    (made : outcome.exchanges = before ++ [.read (.ok packet)])
    (refused : Response.parse packet = .ok (.fail reason)) :
    ∃ stage, FailsIn stages stage outcome.exchanges (.remote none reason) ∧
      outcome.result = .error (.remote (some stage.description) reason) ∧
      stage.Reported ("remote: " ++ reason) (reports outcome.events) := by
  cases ended : outcome.result with
  | ok value =>
      have completed := undergone.follows.completes ended
      have member : .read (.ok packet) ∈ outcome.exchanges := by simp [made]
      exact absurd (Misread.refused refused).heard_eq (completed.heard_ne member)
  | error error =>
      obtain ⟨stage, cause, failed, rfl, reported⟩ := undergone.failsIn ended
      obtain rfl : cause = .remote none reason := (made ▸ failed.aborts).eq_of_refused refused
      exact ⟨stage, failed, rfl, reported⟩

theorem remote_iff (undergone : outcome.Undergoes stages) :
    (∃ error, outcome.result = .error error ∧ error.kind = .remote) ↔
      ∃ packet reason, .read (.ok packet) ∈ outcome.exchanges ∧
        Response.parse packet = .ok (.fail reason) := by
  constructor
  · intro ⟨error, ended, remote⟩
    obtain ⟨stage, cause, failed, rfl, -⟩ := undergone.failsIn ended
    rw [Error.kind_inStep] at remote
    obtain ⟨packet, reason, member, parsed, -⟩ := failed.aborts.refusal remote
    exact ⟨packet, reason, member, parsed⟩
  · intro ⟨packet, reason, member, parsed⟩
    obtain ⟨before, after, made⟩ := List.append_of_mem member
    obtain rfl := undergone.refused_last made parsed
    obtain ⟨stage, -, ended, -⟩ := undergone.of_refused made parsed
    exact ⟨_, ended, rfl⟩

theorem argument_iff (undergone : outcome.Undergoes stages) :
    (∃ error, outcome.result = .error error ∧ error.kind = .argument) ↔
      ∃ done parcel rest, stages.flatMap Stage.turns = done ++ .send parcel :: rest ∧
        ¬ parcel.Allowed ∧ Completes done outcome.exchanges := by
  cases ended : outcome.result with
  | ok value =>
      have completed := undergone.follows.completes ended
      constructor
      · exact nofun
      · intro ⟨done, parcel, rest, parts, barred, _⟩
        exact absurd (completed.allowed parcel (by simp [parts])) barred
  | error error =>
      obtain ⟨stage, cause, failed, rfl, -⟩ := undergone.failsIn ended
      rw [← failed.aborts.argument_iff, ← Error.kind_inStep stage.description]
      simp

end Outcome.Undergoes

/-- The error of an execution says what happened and where. A refusal by the device ends it, with
an error that names the stage in which it came; every other error is as it was raised, and one
about an argument is raised just where a command or a payload is too large to be sent. -/
theorem Protocol.accounts_execute {σ : Type} (transport : Transport σ) (queue : Queue)
    (device : σ) :
    (execute transport queue device).1.Accounts (stages queue.toList) := by
  have undergone := undergoes_execute transport queue device
  refine ⟨undergone.remote_iff, ?_, ?_, undergone.argument_iff, ?_⟩
  · intro before packet after reason made refused
    obtain rfl := undergone.refused_last made refused
    obtain ⟨stage, failed, ended, reported⟩ := undergone.of_refused made refused
    exact ⟨rfl, stage, _, failed, ended, rfl, Error.message_remote _ _, reported⟩
  · intro error ended other
    obtain ⟨stage, cause, failed, rfl, reported⟩ := undergone.failsIn ended
    rw [Error.kind_inStep] at other
    rw [Error.inStep_of_kind_ne other]
    exact ⟨stage, failed, reported⟩
  · intro done parcel rest _ _ reached
    exact reached.written_eq

end FlashHost
