import FlashHost.Proofs.CommandLine.Cutting
import FlashHost.Proofs.CommandLine.Reading
import FlashHost.Proofs.Loading

/-!
# What is queued

Every operation is noted when it is queued. These notes are the operations of the commands
that could be carried out; a command in error adds nothing to them.
-/

set_option autoImplicit false

namespace FlashHost

def queued (events : List Event) : List Operation :=
  events.filterMap fun
    | .noted (.queued operation) => some operation
    | _ => none

@[simp] theorem queued_append (earlier later : List Event) :
    queued (earlier ++ later) = queued earlier ++ queued later :=
  List.filterMap_append

/-- To load files is to queue nothing. -/
theorem Outcome.Loads.queued_eq {α : Type} {outcome : Outcome α} (loads : outcome.Loads) :
    queued outcome.events = [] := by
  refine List.filterMap_eq_nil_iff.mpr fun event member => ?_
  have loading := loads event member
  cases event with
  | noted note =>
      cases note with
      | queued operation => exact loading.elim
      | _ => rfl
  | _ => rfl

theorem Outcome.queued_bind_of_ok {α β : Type} {first : Outcome α} {next : α → Outcome β}
    {value : α} (good : first.result = .ok value) :
    queued (first >>= next).events = queued first.events ++ queued (next value).events := by
  rw [bind_of_ok good, Outcome.after, queued_append]

theorem Outcome.queued_bind_of_error {α β : Type} {first : Outcome α} {next : α → Outcome β}
    {error : Error} (failed : first.result = .error error) :
    queued (first >>= next).events = queued first.events := by
  rw [bind_of_error failed]

private theorem Queue.queued_enqueueAll (queue : Queue) (operations : List Operation) :
    queued (queue.enqueueAll operations).events = operations := by
  induction operations generalizing queue with
  | nil => rfl
  | cons operation operations ih => exact congrArg (operation :: ·) (ih (queue.push operation))

namespace CommandLine

theorem Draft.queued_add (draft : Draft) (operations : List Operation) :
    queued (draft.add operations).events = operations := by
  rw [add, Outcome.queued_bind_of_ok (Queue.result_enqueueAll _ _), Queue.queued_enqueueAll]
  exact List.append_nil operations

variable {files : Files} {command : Command}

/-- A command that is carried out queues its own operations. -/
theorem Draft.queued_apply {operations : List Operation}
    (accepted : command.operations files = .ok operations) (draft : Draft) :
    queued (draft.apply files command).events = operations := by
  cases command with
  | serial wanted => cases accepted; rfl
  | vendor text =>
      obtain ⟨id, parsed, rfl⟩ := Result.map_eq_ok_iff.mp accepted
      rw [apply, Outcome.queued_bind_of_ok parsed]
      rfl
  | getvar name => cases accepted; exact draft.queued_add _
  | erase partition => cases accepted; exact draft.queued_add _
  | signature path =>
      obtain ⟨data, loaded, checked⟩ := Result.bind_eq_ok_iff.mp accepted
      rw [← Files.result_load] at loaded
      rw [apply, Outcome.queued_bind_of_ok loaded, (files.loads_load path).queued_eq]
      split at checked
      · cases checked
      case isFalse right =>
        cases checked
        rw [if_neg right, queued_add]
        rfl
  | reboot => cases accepted; rfl
  | rebootBootloader => cases accepted; rfl
  | resume => cases accepted; exact draft.queued_add _
  | flash partition path =>
      obtain ⟨image, loaded, ⟨⟩⟩ := Result.bind_eq_ok_iff.mp accepted
      rw [← Files.result_load] at loaded
      rw [apply, Outcome.queued_bind_of_ok loaded, (files.loads_load path).queued_eq, queued_add]
      rfl
  | flashAll path =>
      have planned : (Package.plan files path).result = .ok operations := accepted
      rw [apply, Outcome.queued_bind_of_ok planned, (Package.loads_plan files path).queued_eq,
        Outcome.queued_bind_of_ok (draft.result_add operations), queued_add]
      exact List.append_nil operations
  | oem words =>
      cases words with
      | nil => cases accepted; rfl
      | cons word words => cases accepted; exact draft.queued_add _

/-- A command in error queues nothing. -/
theorem Draft.queued_apply_of_error {error : Error}
    (refused : command.operations files = .error error) (draft : Draft) :
    (draft.apply files command).result = .error error ∧
      queued (draft.apply files command).events = [] := by
  refine ⟨by rw [result_apply, refused, Result.map_error], ?_⟩
  cases command with
  | vendor text =>
      cases parsed : VendorId.parse text with
      | error error =>
          have failed : (Outcome.ofExcept (VendorId.parse text)).result = .error error := parsed
          rw [apply, Outcome.queued_bind_of_error failed]
          rfl
      | ok id =>
          rw [Command.operations, parsed] at refused
          cases refused
  | signature path =>
      rw [apply]
      obtain failed | ⟨data, loaded, checked⟩ := Result.bind_eq_error_iff.mp refused
      · rw [← Files.result_load] at failed
        rw [Outcome.queued_bind_of_error failed, (files.loads_load path).queued_eq]
      · rw [← Files.result_load] at loaded
        rw [Outcome.queued_bind_of_ok loaded, (files.loads_load path).queued_eq]
        split at checked
        case isTrue wrong =>
          rw [if_pos wrong]
          rfl
        · cases checked
  | flash partition path =>
      obtain failed | ⟨_, -, ⟨⟩⟩ := Result.bind_eq_error_iff.mp refused
      rw [← Files.result_load] at failed
      rw [apply, Outcome.queued_bind_of_error failed, (files.loads_load path).queued_eq]
  | flashAll path =>
      have failed : (Package.plan files path).result = .error error := refused
      rw [apply, Outcome.queued_bind_of_error failed, (Package.loads_plan files path).queued_eq]
  | oem words => cases words <;> cases refused
  | _ => cases refused

section Refused

variable {earlier : List Command} {blocks : List (List Operation)} {error : Error}

/-- Up to a command in error, the commands queue their operations one after the other. -/
theorem Draft.queued_applyAll (done : earlier.mapM (Command.operations files) = .ok blocks)
    (refused : command.operations files = .error error) (later : List Command) (draft : Draft) :
    (draft.applyAll files (earlier ++ command :: later)).result = .error error ∧
      queued (draft.applyAll files (earlier ++ command :: later)).events = blocks.flatten := by
  induction earlier generalizing draft blocks with
  | nil =>
      cases done
      obtain ⟨failed, nothing⟩ := queued_apply_of_error refused draft
      rw [List.nil_append, applyAll, Outcome.bind_of_error failed]
      exact ⟨rfl, nothing⟩
  | cons one earlier ih =>
      rw [List.mapM_cons] at done
      obtain ⟨operations, own, good⟩ := Result.bind_eq_ok_iff.mp done
      obtain ⟨others, rest, ⟨⟩⟩ := Result.bind_eq_ok_iff.mp good
      have good := draft.result_apply files one
      rw [own, Result.map_ok] at good
      obtain ⟨failed, before⟩ := ih rest (draft.extend [one] [operations])
      rw [List.cons_append, applyAll]
      refine ⟨by rw [Outcome.bind_of_ok good]; exact failed, ?_⟩
      rw [Outcome.queued_bind_of_ok good, queued_apply own, before]
      rfl

/-- A line ends with its first command in error, which leaves what was queued before it. -/
theorem read_refused {words : List String} {later : List Command} {ending : Ending}
    (cuts : Cuts words (earlier ++ command :: later) ending)
    (done : earlier.mapM (Command.operations files) = .ok blocks)
    (refused : command.operations files = .error error) (serial : Option String) :
    (read files serial words).result = .error error ∧
      queued (read files serial words).events = blocks.flatten := by
  obtain ⟨failed, before⟩ := Draft.queued_applyAll done refused later (.initial serial)
  rw [read, cuts.cut_eq]
  dsimp only
  rw [Outcome.bind_of_error failed]
  exact ⟨rfl, before⟩

end Refused

end CommandLine

end FlashHost
