import FlashHost.CommandLine
import FlashHost.Proofs.Package

/-!
# The reading of a command line

What each command contributes by itself, and the invocation of a line as what its commands
contribute in their order.
-/

set_option autoImplicit false

namespace FlashHost

@[simp] theorem Reboot.request_none (reboot : Reboot) : reboot.request .none = reboot := by
  cases reboot <;> rfl

@[simp] theorem Queue.extend_nil (queue : Queue) : queue.extend [] = queue := rfl

namespace CommandLine

namespace Command

def operations (files : Files) : Command → Except Error (List Operation)
  | .serial _ => .ok []
  | .vendor text => (VendorId.parse text).map fun _ => []
  | .getvar name => .ok [.display name name]
  | .erase partition => .ok [.erase partition]
  | .signature path => do
    let data ← (files.read path).mapError (.cannotLoad path)
    if data.size ≠ signatureSize then .error (.signatureSize signatureSize)
    else .ok [.download "signature" data, .command "signature" "installing signature"]
  | .reboot | .rebootBootloader => .ok []
  | .resume => .ok [.command "continue" "resuming boot"]
  | .flash partition path => do
    let image ← (files.read path).mapError (.cannotLoad path)
    .ok [.flash partition image]
  | .flashAll path => (Package.plan files path).result
  | .oem [] => .ok []
  | .oem words => .ok [.command (" ".intercalate ("oem" :: words)) ""]

def narrow (filter : Filter) : Command → Filter
  | .serial wanted => { filter with serial := some wanted }
  | .vendor text =>
    match VendorId.parse text with
    | .ok id => { filter with vendorId := if id = 0 then none else some id }
    | .error _ => filter
  | _ => filter

def reboot? : Command → Reboot
  | .reboot | .flashAll _ => .toSystem
  | .rebootBootloader => .toBootloader
  | _ => .none

end Command

namespace Draft

def extend (draft : Draft) (commands : List Command) (blocks : List (List Operation)) : Draft where
  filter := commands.foldl Command.narrow draft.filter
  queue := draft.queue.extend blocks.flatten
  reboot := (commands.map Command.reboot?).foldl Reboot.request draft.reboot

@[simp] theorem result_add (draft : Draft) (operations : List Operation) :
    (draft.add operations).result =
      .ok { draft with queue := draft.queue.extend operations } := by
  simp [add]

/-- A command changes a draft by its own contributions. -/
theorem result_apply (files : Files) (draft : Draft) (command : Command) :
    (draft.apply files command).result =
      (command.operations files).map fun operations => draft.extend [command] [operations] := by
  cases command with
  | serial serial => rfl
  | vendor text =>
      cases parsed : VendorId.parse text <;>
        simp [apply, Command.operations, extend, Command.narrow, Command.reboot?, parsed]
  | getvar name => simp [apply, Command.operations, extend, Command.narrow, Command.reboot?]
  | erase partition => simp [apply, Command.operations, extend, Command.narrow, Command.reboot?]
  | signature path =>
      simp only [apply, Command.operations, Outcome.result_bind, Files.result_load]
      cases (files.read path).mapError (Error.cannotLoad path) with
      | error error => rfl
      | ok data =>
          rw [Result.ok_bind, Result.ok_bind]
          by_cases size : data.size = signatureSize <;>
            simp [extend, Command.narrow, Command.reboot?, size]
  | reboot => rfl
  | rebootBootloader => rfl
  | resume => simp [apply, Command.operations, extend, Command.narrow, Command.reboot?]
  | flash partition path =>
      simp only [apply, Command.operations, Outcome.result_bind, Files.result_load]
      cases (files.read path).mapError (Error.cannotLoad path) with
      | error error => rfl
      | ok image => simp [extend, Command.narrow, Command.reboot?]
  | flashAll path =>
      cases planned : (Package.plan files path).result <;>
        simp [apply, request, Command.operations, extend, Command.narrow, Command.reboot?, planned]
  | oem words =>
      cases words <;> simp [apply, Command.operations, extend, Command.narrow, Command.reboot?]

private theorem extend_extend (draft : Draft) (commands others : List Command)
    (blocks rest : List (List Operation)) :
    (draft.extend commands blocks).extend others rest =
      draft.extend (commands ++ others) (blocks ++ rest) := by
  simp [extend, Queue.extend]

/-- Commands in sequence contribute in sequence, unless one of them is in error. -/
theorem result_applyAll (files : Files) (draft : Draft) (commands : List Command) :
    (draft.applyAll files commands).result =
      (commands.mapM (Command.operations files)).map (draft.extend commands) := by
  induction commands generalizing draft with
  | nil => rfl
  | cons command commands ih =>
      rw [applyAll, Outcome.result_bind, result_apply, List.mapM_cons]
      cases command.operations files with
      | error error => rfl
      | ok operations =>
          rw [Result.map_ok, Result.ok_bind, Result.ok_bind, ih]
          cases commands.mapM (Command.operations files) with
          | error error => rfl
          | ok blocks =>
              rw [Result.map_ok, extend_extend]
              rfl

end Draft

def reboot (commands : List Command) : Reboot :=
  (commands.map Command.reboot?).foldl Reboot.request .none

def invocation (serial : Option String) (commands : List Command)
    (blocks : List (List Operation)) : Invocation where
  filter := commands.foldl Command.narrow (Draft.initial serial).filter
  queue := Queue.empty.extend (blocks.flatten ++ (reboot commands).operation?.toList)

/-- The commands of a line come first, in order, and an ending that is no proper one after
all of them. -/
theorem result_read (files : Files) (serial : Option String) (words : List String) :
    (read files serial words).result =
      (cut words).1.mapM (Command.operations files) >>= fun blocks =>
        match (cut words).2.error? with
        | some error => .error error
        | none => .ok (invocation serial (cut words).1 blocks) := by
  rw [read, Outcome.result_bind, Draft.result_applyAll]
  cases (cut words).1.mapM (Command.operations files) with
  | error error => rfl
  | ok blocks =>
      rw [Result.map_ok, Result.ok_bind, Result.ok_bind]
      cases (cut words).2.error? with
      | some error => rfl
      | none =>
          simp [Draft.finish, Reboot.resolve, Draft.extend, Draft.initial, invocation, reboot,
            Queue.extend]

/-- A line that is accepted is complete, and each of its commands queued its operations. A
reboot comes last. -/
theorem read_ok {files : Files} {serial : Option String} {words : List String}
    {invocation : Invocation} (accepted : (read files serial words).result = .ok invocation) :
    (cut words).2 = .complete ∧ ∃ blocks,
      (cut words).1.mapM (Command.operations files) = .ok blocks ∧
      invocation.queue.toList = blocks.flatten ++ (reboot (cut words).1).operation?.toList := by
  rw [result_read, Result.bind_eq_ok_iff] at accepted
  obtain ⟨blocks, queued, ended⟩ := accepted
  cases ending : (cut words).2 with
  | complete =>
      rw [ending] at ended
      cases ended
      exact ⟨rfl, blocks, queued, Queue.toList_extend _ _⟩
  | missingArguments word => simp [ending, Ending.error?] at ended
  | unknownCommand word => simp [ending, Ending.error?] at ended

end CommandLine

end FlashHost
