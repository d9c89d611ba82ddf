import FlashHost.Device.Script
import FlashHost.Proofs.CommandLine.Reading
import FlashHost.Proofs.Wire.Precedence

/-!
# Safety of a line

Nothing is written to a partition before the device has all of it, the images of a package
follow one another, and the device restarts only after everything else, whatever stands on
the line and whatever the device answers.
-/

set_option autoImplicit false

namespace FlashHost.CommandLine

def restarts : List String := ["reboot", "reboot-bootloader"]

/-- Some operations are safe in some calls of a transport, which may end anywhere. The
operations are those of a list of commands. -/
structure Safe (files : Files) (commands : List Command) (operations : List Operation)
    (exchanges : List Exchange) : Prop where
  /-- Nothing is written but the wire plan, so no command comes before its turn. -/
  inPlace : WrittenInPlace exchanges (plan operations)
  /-- The command that writes an image comes after the device has taken that image. -/
  flash : ∀ earlier partition image later,
    operations = earlier ++ .flash partition image :: later →
    WrittenAfter exchanges (rounds earlier ++ [.payload image]) ("flash:" ++ partition)
  /-- The images of a package have the contents of their own members, and the command that
  writes one comes after those that precede it in the manifest. -/
  package : ∀ former path latter, commands = former ++ .flashAll path :: latter →
    ∃ data archive contents blocks later,
      files.read path = .ok data ∧ files.archives data = .ok archive ∧
      List.Forall₂ (Package.Holds archive) Package.manifest contents ∧
      former.mapM (Command.operations files) = .ok blocks ∧
      operations = blocks.flatten ++
        (Package.versionDump ++ Package.writes Package.manifest contents) ++ later ∧
      ∀ number image content, (Package.manifest.zip contents)[number]? = some (image, content) →
        WrittenAfter exchanges
          (rounds (blocks.flatten ++ Package.versionDump ++
            (Package.writes Package.manifest contents).take number) ++ [.payload content])
          ("flash:" ++ image.partition)
  /-- Only the last operation makes the device restart, and its command comes after all of
  the other operations. -/
  restart : ∀ earlier last later line, operations = earlier ++ last :: later →
    .command line ∈ last.rounds → line ∈ restarts →
    later = [] ∧ last.rounds = [.command line] ∧ WrittenAfter exchanges (rounds earlier) line

def Continues (operation : Operation) : Prop :=
  ∀ line, .command line ∈ operation.rounds → line ∉ restarts

theorem not_restart {line : String} (other : line.toList.head? ≠ some 'r') : line ∉ restarts := by
  intro member
  rcases List.mem_cons.mp member with rfl | member
  · exact other rfl
  · rcases List.mem_singleton.mp member with rfl
    exact other rfl

theorem continues_flash (partition : String) (image : ByteArray) :
    Continues (.flash partition image) := by
  intro line member
  have text : line = "flash:" ++ partition := by simpa [Operation.rounds] using member
  exact not_restart (by simp [text])

theorem continues_display (name label : String) : Continues (.display name label) := by
  intro line member
  have text : line = "getvar:" ++ name := by simpa [Operation.rounds] using member
  exact not_restart (by simp [text])

private theorem continues_erase (partition : String) : Continues (.erase partition) := by
  intro line member
  have text : line = "erase:" ++ partition := by simpa [Operation.rounds] using member
  exact not_restart (by simp [text])

theorem continues_notice (message : String) : Continues (.notice message) := by
  simp [Continues, Operation.rounds]

private theorem continues_download (tag : String) (payload : ByteArray) :
    Continues (.download tag payload) := by
  simp [Continues, Operation.rounds]

theorem continues_command {line : String} (message : String)
    (other : line.toList.head? ≠ some 'r') : Continues (.command line message) := by
  intro sent member
  have text : sent = line := by simpa [Operation.rounds] using member
  exact not_restart (by rwa [text])

private theorem Command.operations_continue {files : Files} {command : Command}
    {operations : List Operation} (queued : command.operations files = .ok operations) :
    ∀ operation ∈ operations, Continues operation := by
  cases command with
  | serial wanted => cases queued; simp
  | vendor text =>
      obtain ⟨_, -, rfl⟩ := Result.map_eq_ok_iff.mp queued
      simp
  | getvar name =>
      cases queued
      simpa using continues_display name name
  | erase partition =>
      cases queued
      simpa using continues_erase partition
  | signature path =>
      obtain ⟨data, -, checked⟩ := Result.bind_eq_ok_iff.mp queued
      split at checked
      · cases checked
      · cases checked
        simpa using ⟨continues_download "signature" data, continues_command _ (by simp)⟩
  | reboot => cases queued; simp
  | rebootBootloader => cases queued; simp
  | resume =>
      cases queued
      simpa using continues_command "resuming boot" (by simp)
  | flash partition path =>
      obtain ⟨image, -, ⟨⟩⟩ := Result.bind_eq_ok_iff.mp queued
      simpa using continues_flash partition image
  | flashAll path =>
      obtain ⟨data, archive, contents, -, -, -, rfl⟩ := Package.plan_eq_ok_iff.mp queued
      intro operation member
      rcases List.mem_append.mp member with shown | written
      · simp only [Package.versionDump, List.mem_cons, List.not_mem_nil, or_false] at shown
        obtain rfl | rfl | rfl | rfl := shown
        · exact continues_notice _
        · exact continues_display _ _
        · exact continues_display _ _
        · exact continues_notice _
      · obtain ⟨partition, image, rfl⟩ := Package.mem_writes written
        exact continues_flash partition image
  | oem words =>
      cases words with
      | nil => cases queued; simp
      | cons word words =>
          cases queued
          simpa using continues_command "" (by simp)

theorem blocks_continue {files : Files} {commands : List Command} {blocks : List (List Operation)}
    (queued : commands.mapM (Command.operations files) = .ok blocks) :
    ∀ operation ∈ blocks.flatten, Continues operation := by
  have each := Result.mapM_eq_ok_iff.mp queued
  clear queued
  induction each with
  | nil => simp
  | cons own _ ih =>
      intro operation member
      rw [List.flatten_cons] at member
      rcases List.mem_append.mp member with first | rest
      · exact Command.operations_continue own operation first
      · exact ih operation rest

theorem split_last {operations earlier later : List Operation} {final : Option Operation}
    {operation : Operation}
    (parts : operations ++ final.toList = earlier ++ operation :: later) :
    operation ∈ operations ∨ (later = [] ∧ final = some operation) := by
  cases final with
  | none =>
      left
      rw [Option.toList_none, List.append_nil] at parts
      simp [parts]
  | some last =>
      obtain rfl | ⟨others, another, rfl⟩ := later.eq_nil_or_concat
      · obtain ⟨-, same⟩ := List.append_inj' parts rfl
        cases same
        exact .inr ⟨rfl, rfl⟩
      · left
        rw [List.concat_eq_append, ← List.cons_append, ← List.append_assoc] at parts
        obtain ⟨rfl, -⟩ := List.append_inj' parts rfl
        simp

private theorem rounds_reboot {reboot : Reboot} {operation : Operation}
    (asked : reboot.operation? = some operation) {line : String}
    (sent : .command line ∈ operation.rounds) : operation.rounds = [.command line] := by
  cases reboot with
  | none => cases asked
  | toBootloader =>
      cases asked
      have text : line = "reboot-bootloader" := by simpa [Operation.rounds] using sent
      rw [text]
      rfl
  | toSystem =>
      cases asked
      have text : line = "reboot" := by simpa [Operation.rounds] using sent
      rw [text]
      rfl

variable {α : Type} {outcome : Outcome α} {files : Files}

theorem flash_safe {operations earlier later : List Operation} {partition : String}
    {image : ByteArray} (followed : outcome.Follows ((rounds operations).flatMap Round.turns))
    (parts : operations = earlier ++ .flash partition image :: later) :
    WrittenAfter outcome.exchanges (rounds earlier ++ [.payload image])
      ("flash:" ++ partition) := by
  have place : rounds operations =
      (rounds earlier ++ [.payload image]) ++ .command ("flash:" ++ partition) :: rounds later := by
    simp [parts, Operation.rounds]
  exact followed.writtenAfter place

/-- The images of a package are written in the order of the manifest. -/
theorem package_safe {operations later : List Operation} {former latter : List Command}
    {blocks : List (List Operation)} {path : String}
    (followed : outcome.Follows ((rounds operations).flatMap Round.turns))
    (queued : (former ++ .flashAll path :: latter).mapM (Command.operations files) = .ok blocks)
    (parts : operations = blocks.flatten ++ later) :
    ∃ data archive contents front rest,
      files.read path = .ok data ∧ files.archives data = .ok archive ∧
      List.Forall₂ (Package.Holds archive) Package.manifest contents ∧
      former.mapM (Command.operations files) = .ok front ∧
      operations = front.flatten ++
        (Package.versionDump ++ Package.writes Package.manifest contents) ++ rest ∧
      ∀ number image content, (Package.manifest.zip contents)[number]? = some (image, content) →
        WrittenAfter outcome.exchanges
          (rounds (front.flatten ++ Package.versionDump ++
            (Package.writes Package.manifest contents).take number) ++ [.payload content])
          ("flash:" ++ image.partition) := by
  rw [List.mapM_append] at queued
  obtain ⟨front, first, others⟩ := Result.bind_eq_ok_iff.mp queued
  obtain ⟨back, second, ⟨⟩⟩ := Result.bind_eq_ok_iff.mp others
  rw [List.mapM_cons] at second
  obtain ⟨own, planned, others⟩ := Result.bind_eq_ok_iff.mp second
  obtain ⟨behind, -, ⟨⟩⟩ := Result.bind_eq_ok_iff.mp others
  obtain ⟨data, archive, contents, loaded, opened, held, rfl⟩ := Package.plan_eq_ok_iff.mp planned
  have whole : operations = front.flatten ++
      (Package.versionDump ++ Package.writes Package.manifest contents) ++
        (behind.flatten ++ later) := by
    simp [parts]
  refine ⟨data, archive, contents, front, _, loaded, opened, held, first, whole, ?_⟩
  intro number image content present
  have split := Package.writes_split present
  generalize Package.writes Package.manifest contents = writes at whole split ⊢
  have place :=
    calc
      operations = front.flatten ++ (Package.versionDump ++ writes) ++
          (behind.flatten ++ later) := whole
      _ = front.flatten ++ (Package.versionDump ++ (writes.take number ++
            .flash image.partition content :: writes.drop (number + 1))) ++
          (behind.flatten ++ later) := by rw [← split]
      _ = (front.flatten ++ Package.versionDump ++ writes.take number) ++
            .flash image.partition content ::
              (writes.drop (number + 1) ++ (behind.flatten ++ later)) := by simp
  exact flash_safe followed place

/-- Only a reboot at the end makes the device restart, and it comes after everything else. -/
theorem restart_safe {operations earlier later : List Operation} {commands : List Command}
    {blocks : List (List Operation)} {reboot : Reboot} {last : Operation} {line : String}
    (followed : outcome.Follows ((rounds operations).flatMap Round.turns))
    (queued : commands.mapM (Command.operations files) = .ok blocks)
    (whole : operations = blocks.flatten ++ reboot.operation?.toList)
    (parts : operations = earlier ++ last :: later)
    (sent : .command line ∈ last.rounds) (restarted : line ∈ restarts) :
    later = [] ∧ last.rounds = [.command line] ∧
      WrittenAfter outcome.exchanges (rounds earlier) line := by
  obtain inside | ⟨rfl, asked⟩ := split_last (whole.symm.trans parts)
  · exact absurd restarted (blocks_continue queued last inside line sent)
  · have own := rounds_reboot asked sent
    have place : rounds operations = rounds earlier ++ .command line :: [] := by
      simp [parts, own]
    exact ⟨rfl, own, followed.writtenAfter place⟩

/-- Every line that is accepted is safe to execute, with any files, any transport and any
device. -/
theorem safe_execute {serial : Option String} {words : List String} {invocation : Invocation}
    (accepted : (read files serial words).result = .ok invocation)
    {σ : Type} (transport : Transport σ) (device : σ) :
    Safe files (cut words).1 invocation.queue.toList
      (Protocol.execute transport invocation.queue device).1.exchanges := by
  have followed := Protocol.follows_execute transport invocation.queue device
  have inPlace := followed.writtenInPlace
  rw [Round.sends_flatMap_turns] at inPlace
  obtain ⟨-, blocks, queued, whole⟩ := read_ok accepted
  exact
    { inPlace
      flash := fun _ _ _ _ parts => flash_safe followed parts
      package := fun _ _ _ parts => package_safe followed (parts ▸ queued) whole
      restart := fun _ _ _ _ => restart_safe followed queued whole }

/-- A line that asks for the reboot first, and a device that does not take the image. -/
theorem safe_reboot_before_flash :
    let files : Files := ⟨fun _ => .ok ⟨#[1, 2]⟩, fun _ => .error "no archive"⟩
    let words := ["reboot", "flash", "boot", "boot.img"]
    let invocation : Invocation := ⟨⟨none, none⟩, ⟨#[.flash "boot" ⟨#[1, 2]⟩, .reboot]⟩⟩
    let device : Script := ⟨[], [.packet "DATA00000002".toUTF8, .packet "FAIL".toUTF8]⟩
    (read files none words).result = .ok invocation ∧
      Safe files (cut words).1 invocation.queue.toList
        (Protocol.execute Script.transport invocation.queue device).1.exchanges := by
  intro files words invocation device
  have accepted : (read files none words).result = .ok invocation := by decide +kernel
  exact ⟨accepted, safe_execute accepted Script.transport device⟩

end FlashHost.CommandLine
