import FlashHost.Proofs.CommandLine.Cutting
import FlashHost.Proofs.CommandLine.Reading

/-!
# The command table

What a line means, read off its commands one by one: when it is accepted and what its
invocation is then, and which of several errors ends the reading otherwise.
-/

set_option autoImplicit false

namespace FlashHost

theorem Queue.toList_inj {queue other : Queue} (same : queue.toList = other.toList) :
    queue = other := by
  rcases queue with ⟨operations⟩
  rcases other with ⟨others⟩
  exact congrArg Queue.mk (Array.toList_inj.mp same)

namespace CommandLine

namespace Command

/-- Nothing keeps a command with all of its arguments from being carried out. -/
def Accepted (files : Files) : Command → Prop
  | .vendor text => ∃ id, VendorId.parse text = .ok id
  | .signature path => ∃ data, files.read path = .ok data ∧ data.size = 256
  | .flash _ path => ∃ image, files.read path = .ok image
  | .flashAll path => ∃ operations, (Package.plan files path).result = .ok operations
  | _ => True

def vendor? : Command → Option String
  | .vendor text => some text
  | _ => none

def serial? : Command → Option String
  | .serial wanted => some wanted
  | _ => none

theorem accepted_iff {files : Files} {command : Command} :
    command.Accepted files ↔ ∃ operations, command.operations files = .ok operations := by
  cases command with
  | vendor text => simp [Accepted, operations, Result.map_eq_ok_iff, -exists_eq_right']
  | signature path =>
      simp only [Accepted, operations, Result.bind_eq_ok_iff, Result.mapError_eq_ok_iff]
      constructor
      · rintro ⟨data, loaded, size⟩
        exact ⟨_, data, loaded, if_neg (by simp [size, signatureSize])⟩
      · rintro ⟨_, data, loaded, checked⟩
        by_cases size : data.size = signatureSize
        · exact ⟨data, loaded, size⟩
        · rw [if_pos size] at checked
          cases checked
  | flash partition path =>
      simp [Accepted, operations, Result.bind_eq_ok_iff, Result.mapError_eq_ok_iff]
  | flashAll path => exact Iff.rfl
  | oem words => cases words <;> simp [Accepted, operations]
  | _ => simp [Accepted, operations]

end Command

def lastVendor? (commands : List Command) : Option String :=
  (commands.filterMap Command.vendor?).getLast?

def lastSerial? (commands : List Command) : Option String :=
  (commands.filterMap Command.serial?).getLast?

/-- The vendor that a text asks for; zero asks for none. -/
def requestedVendor? (text : String) : Option UInt16 :=
  (VendorId.parse text).toOption.filter (· ≠ 0)

/-- The operation at the end of a line: a reboot to the system wins over one to the
bootloader. -/
def restart (commands : List Command) : List Operation :=
  if ∃ command ∈ commands, command.word = .reboot ∨ command.word = .flashAll then [.reboot]
  else if ∃ command ∈ commands, command.word = .rebootBootloader then
    [.command "reboot-bootloader" "rebooting into bootloader"]
  else []

structure Amounts (files : Files) (serial : Option String) (commands : List Command)
    (invocation : Invocation) : Prop where
  /-- The operations of each command stand in the order of the line. -/
  queue : ∃ blocks,
    List.Forall₂ (fun command block => command.operations files = .ok block) commands blocks ∧
    invocation.queue.toList = blocks.flatten ++ restart commands
  vendorId : invocation.filter.vendorId = (lastVendor? commands).bind requestedVendor?
  /-- A serial number on the line counts even if it is empty, a default one does not. -/
  serial : invocation.filter.serial = (lastSerial? commands).or (serial.filter (· ≠ ""))

inductive Rejects (files : Files) (words : List String) (error : Error) : Prop where
  /-- A command is in error and none before it. -/
  | refused {earlier command later ending} :
      Cuts words (earlier ++ command :: later) ending →
      (∀ one ∈ earlier, one.Accepted files) → command.operations files = .error error →
      Rejects files words error
  /-- All commands can be carried out, but the line does not end after them. -/
  | unfinished {commands ending} :
      Cuts words commands ending → (∀ one ∈ commands, one.Accepted files) →
      ending.error? = some error → Rejects files words error

end CommandLine

namespace Reboot

private theorem request_assoc (first second third : Reboot) :
    (first.request second).request third = first.request (second.request third) := by
  cases first <;> cases second <;> cases third <;> rfl

private theorem request_eq_toSystem_iff {first second : Reboot} :
    first.request second = .toSystem ↔ first = .toSystem ∨ second = .toSystem := by
  cases first <;> cases second <;> decide

private theorem request_eq_none_iff {first second : Reboot} :
    first.request second = .none ↔ first = .none ∧ second = .none := by
  cases first <;> cases second <;> decide

private theorem foldl_request (first : Reboot) (others : List Reboot) :
    others.foldl request first = first.request (others.foldl request .none) := by
  induction others generalizing first with
  | nil => exact (request_none first).symm
  | cons other others ih =>
      have own : Reboot.none.request other = other := by cases other <;> rfl
      rw [List.foldl_cons, List.foldl_cons, ih, request_assoc, ← ih other, own]

end Reboot

namespace CommandLine

theorem reboot_append (commands others : List Command) :
    reboot (commands ++ others) = (reboot commands).request (reboot others) := by
  rw [reboot, List.map_append, List.foldl_append, Reboot.foldl_request]
  rfl

theorem reboot_cons (command : Command) (commands : List Command) :
    reboot (command :: commands) = command.reboot?.request (reboot commands) := by
  have own : reboot [command] = command.reboot? := by cases command <;> rfl
  rw [← own, ← reboot_append, List.singleton_append]

theorem reboot_eq_toSystem_iff {commands : List Command} :
    reboot commands = .toSystem ↔
      ∃ command ∈ commands, command.word = .reboot ∨ command.word = .flashAll := by
  induction commands with
  | nil => simp [reboot]
  | cons command commands ih =>
      rw [reboot_cons, Reboot.request_eq_toSystem_iff, ih, List.exists_mem_cons_iff]
      cases command <;> simp [Command.reboot?, Command.word]

theorem reboot_eq_none_iff {commands : List Command} :
    reboot commands = .none ↔
      (¬ ∃ command ∈ commands, command.word = .reboot ∨ command.word = .flashAll) ∧
      ¬ ∃ command ∈ commands, command.word = .rebootBootloader := by
  induction commands with
  | nil => simp [reboot]
  | cons command commands ih =>
      rw [reboot_cons, Reboot.request_eq_none_iff, ih, List.exists_mem_cons_iff,
        List.exists_mem_cons_iff]
      cases command <;> simp [Command.reboot?, Command.word]

theorem lastVendor?_cons (command : Command) (commands : List Command) :
    lastVendor? (command :: commands) = (lastVendor? commands).or command.vendor? := by
  cases own : command.vendor? <;> simp [lastVendor?, own, List.getLast?_cons]

theorem lastSerial?_cons (command : Command) (commands : List Command) :
    lastSerial? (command :: commands) = (lastSerial? commands).or command.serial? := by
  cases own : command.serial? <;> simp [lastSerial?, own, List.getLast?_cons]

private theorem vendorId_narrow {files : Files} {command : Command} (accepted : command.Accepted files)
    (filter : Filter) :
    (command.narrow filter).vendorId = command.vendor?.elim filter.vendorId requestedVendor? := by
  cases command with
  | vendor text =>
      obtain ⟨id, parsed⟩ := accepted
      by_cases zero : id = 0 <;>
        simp [Command.narrow, Command.vendor?, requestedVendor?, parsed, zero, Except.toOption,
          Option.filter]
  | _ => rfl

private theorem serial_narrow (command : Command) (filter : Filter) :
    (command.narrow filter).serial = command.serial?.or filter.serial := by
  cases command with
  | vendor text =>
      cases parsed : VendorId.parse text <;> simp [Command.narrow, Command.serial?, parsed]
  | _ => rfl

theorem vendorId_foldl_narrow {files : Files} {commands : List Command}
    (accepted : ∀ command ∈ commands, command.Accepted files) (filter : Filter) :
    (commands.foldl Command.narrow filter).vendorId =
      (lastVendor? commands).elim filter.vendorId requestedVendor? := by
  induction commands generalizing filter with
  | nil => rfl
  | cons command commands ih =>
      obtain ⟨own, others⟩ := List.forall_mem_cons.mp accepted
      rw [List.foldl_cons, ih others, lastVendor?_cons, vendorId_narrow own]
      cases lastVendor? commands <;> rfl

theorem serial_foldl_narrow (commands : List Command) (filter : Filter) :
    (commands.foldl Command.narrow filter).serial = (lastSerial? commands).or filter.serial := by
  induction commands generalizing filter with
  | nil => rfl
  | cons command commands ih =>
      rw [List.foldl_cons, ih, lastSerial?_cons, serial_narrow, Option.or_assoc]

private theorem restart_eq (commands : List Command) :
    restart commands = (reboot commands).operation?.toList := by
  have system := @reboot_eq_toSystem_iff commands
  have silent := @reboot_eq_none_iff commands
  rw [restart]
  cases asked : reboot commands with
  | toSystem => rw [if_pos (system.mp asked)]; rfl
  | none =>
      obtain ⟨stays, quiet⟩ := silent.mp asked
      rw [if_neg stays, if_neg quiet]
      rfl
  | toBootloader =>
      have stays := mt system.mpr (by simp [asked])
      have loads := Classical.not_not.mp fun quiet => by
        simpa [asked] using silent.mpr ⟨stays, quiet⟩
      rw [if_neg stays, if_pos loads]
      rfl

theorem accepted_iff_queued {files : Files} {commands : List Command} :
    (∀ command ∈ commands, command.Accepted files) ↔
      ∃ blocks, commands.mapM (Command.operations files) = .ok blocks := by
  simp only [Command.accepted_iff, Result.exists_mapM_eq_ok_iff]

theorem amounts_invocation {files : Files} (serial : Option String) {commands : List Command}
    {blocks : List (List Operation)}
    (queued : commands.mapM (Command.operations files) = .ok blocks) :
    Amounts files serial commands (invocation serial commands blocks) where
  queue := by
    refine ⟨blocks, Result.mapM_eq_ok_iff.mp queued, ?_⟩
    rw [restart_eq, invocation, Queue.toList_extend]
    rfl
  vendorId := by
    have accepted := accepted_iff_queued.mpr ⟨blocks, queued⟩
    rw [invocation, vendorId_foldl_narrow accepted]
    cases lastVendor? commands <;> rfl
  serial := serial_foldl_narrow commands _

theorem Amounts.accepted {files : Files} {serial : Option String} {commands : List Command}
    {invocation : Invocation} (amounts : Amounts files serial commands invocation) :
    ∀ command ∈ commands, command.Accepted files := by
  obtain ⟨blocks, queued, -⟩ := amounts.queue
  exact accepted_iff_queued.mpr ⟨blocks, Result.mapM_eq_ok_iff.mpr queued⟩

theorem Amounts.unique {files : Files} {serial : Option String} {commands : List Command}
    {first second : Invocation} (one : Amounts files serial commands first)
    (other : Amounts files serial commands second) : first = second := by
  obtain ⟨blocks, queued, operations⟩ := one.queue
  obtain ⟨others, requeued, same⟩ := other.queue
  rw [← Result.mapM_eq_ok_iff] at queued requeued
  rw [queued] at requeued
  cases requeued
  rcases first with ⟨⟨vendorId, wanted⟩, queue⟩
  rcases second with ⟨⟨_, _⟩, _⟩
  rw [Invocation.mk.injEq, Filter.mk.injEq]
  exact ⟨⟨one.vendorId.trans other.vendorId.symm, one.serial.trans other.serial.symm⟩,
    Queue.toList_inj (operations.trans same.symm)⟩

/-- The result of a line, from the way it is cut. -/
theorem Cuts.result_read {words : List String} {commands : List Command} {ending : Ending}
    (cuts : Cuts words commands ending) (files : Files) (serial : Option String) :
    (read files serial words).result =
      commands.mapM (Command.operations files) >>= fun blocks =>
        match ending.error? with
        | some error => .error error
        | none => .ok (invocation serial commands blocks) := by
  have whole := CommandLine.result_read files serial words
  rwa [cuts.cut_eq] at whole

theorem read_eq_ok_iff {files : Files} {serial : Option String} {words : List String}
    {result : Invocation} :
    (read files serial words).result = .ok result ↔
      ∃ commands, Cuts words commands .complete ∧ Amounts files serial commands result := by
  constructor
  · intro accepted
    obtain ⟨complete, blocks, queued, -⟩ := read_ok accepted
    have cuts := cuts_cut words
    rw [complete] at cuts
    rw [cuts.result_read, queued] at accepted
    cases accepted
    exact ⟨(cut words).1, cuts, amounts_invocation serial queued⟩
  · rintro ⟨commands, cuts, amounts⟩
    obtain ⟨blocks, queued, -⟩ := amounts.queue
    rw [← Result.mapM_eq_ok_iff] at queued
    rw [← (amounts_invocation serial queued).unique amounts, cuts.result_read, queued]
    rfl

theorem read_eq_error_iff {files : Files} {serial : Option String} {words : List String}
    {error : Error} :
    (read files serial words).result = .error error ↔ Rejects files words error := by
  have cuts := cuts_cut words
  constructor
  · intro failed
    rw [cuts.result_read, Result.bind_eq_error_iff, Result.mapM_eq_error_iff] at failed
    obtain ⟨earlier, command, later, parts, right, refused⟩ | ⟨blocks, queued, ended⟩ := failed
    · rw [parts] at cuts
      exact .refused cuts (fun one member => Command.accepted_iff.mpr (right one member)) refused
    · cases unfinished : (cut words).2.error? with
      | none => simp [unfinished] at ended
      | some fault =>
          rw [unfinished] at ended
          cases ended
          exact .unfinished cuts (accepted_iff_queued.mpr ⟨blocks, queued⟩) unfinished
  · rintro (⟨cuts, right, refused⟩ | ⟨cuts, right, ended⟩)
    · rw [cuts.result_read, Result.mapM_append_error _ refused]
      · rfl
      · exact fun one member => Command.accepted_iff.mp (right one member)
    · obtain ⟨blocks, queued⟩ := accepted_iff_queued.mp right
      rw [cuts.result_read, queued, ended]
      rfl

/-- Every line is read as the command table says. It is accepted just if it is cut into
commands that can all be carried out, and its invocation is what these amount to; otherwise
it ends with the first error. -/
theorem read_by_table (files : Files) (serial : Option String) (words : List String) :
    ((∃ invocation, (read files serial words).result = .ok invocation) ↔
      ∃ commands, Cuts words commands .complete ∧
        ∀ command ∈ commands, command.Accepted files) ∧
    (∀ invocation, (read files serial words).result = .ok invocation ↔
      ∃ commands, Cuts words commands .complete ∧ Amounts files serial commands invocation) ∧
    (∀ error, (read files serial words).result = .error error ↔ Rejects files words error) := by
  refine ⟨?_, fun _ => read_eq_ok_iff, fun _ => read_eq_error_iff⟩
  simp only [read_eq_ok_iff, accepted_iff_queued]
  constructor
  · rintro ⟨invocation, commands, cuts, amounts⟩
    obtain ⟨blocks, queued, -⟩ := amounts.queue
    exact ⟨commands, cuts, blocks, Result.mapM_eq_ok_iff.mpr queued⟩
  · rintro ⟨commands, cuts, blocks, queued⟩
    exact ⟨_, commands, cuts, amounts_invocation serial queued⟩

end CommandLine

end FlashHost
