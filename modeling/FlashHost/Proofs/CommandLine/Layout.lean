import FlashHost.Proofs.CommandLine.Safety
import FlashHost.Proofs.CommandLine.Table

/-!
# The layout of a queue

The queues that lines are read into are laid out in one way: blocks of operations, then a
vendor's own command, then a reboot. Every queue of this layout comes from some line, packages
left aside.
-/

set_option autoImplicit false

namespace FlashHost

/-- Files given one by one; of those with the same path the first counts. -/
def Files.ofList (archives : Archive.Reader) (entries : List (String × ByteArray)) : Files where
  read path :=
    match entries.lookup path with
    | some data => .ok data
    | none => .error .missing
  archives

theorem Files.ofList_eq_ok {archives : Archive.Reader} {entries : List (String × ByteArray)}
    {path : String} {data : ByteArray} (present : entries.lookup path = some data) :
    (ofList archives entries).read path = .ok data := by
  simp only [ofList, present]

namespace CommandLine

inductive Block where
  | display (name : String)
  | erase (partition : String)
  | flash (partition : String) (image : ByteArray)
  | resume
  | signature (data : ByteArray) (complete : data.size = 256)
  | package (contents : List ByteArray) (complete : contents.length = Package.manifest.length)

namespace Block

def operations : Block → List Operation
  | .display name => [.display name name]
  | .erase partition => [.erase partition]
  | .flash partition image => [.flash partition image]
  | .resume => [.command "continue" "resuming boot"]
  | .signature data _ =>
    [.download "signature" data, .command "signature" "installing signature"]
  | .package contents _ => Package.versionDump ++ Package.writes Package.manifest contents

example : Package.versionDump.length = 4 ∧ Package.manifest.length = 5 := by decide

def IsPackage : Block → Prop
  | .package _ _ => True
  | _ => False

def content : Block → ByteArray
  | .flash _ image => image
  | .signature data _ => data
  | _ => .empty

def command (path : String) : Block → Command
  | .display name => .getvar name
  | .erase partition => .erase partition
  | .flash partition _ => .flash partition path
  | .resume => .resume
  | .signature _ _ => .signature path
  | .package _ _ => .flashAll path

private theorem operations_command {files : Files} {path : String} {block : Block}
    (plain : ¬ block.IsPackage) (loaded : files.read path = .ok block.content) :
    (block.command path).operations files = .ok block.operations := by
  cases block with
  | flash partition image => simp [command, Command.operations, loaded, content, operations]
  | signature data complete =>
      simp [command, Command.operations, loaded, content, operations, complete, signatureSize]
  | package contents complete => exact absurd trivial plain
  | _ => rfl

end Block

/-- The layout of a queue. If a package is among the blocks, the device reboots to the system
in the end. -/
structure Layout where
  blocks : List Block
  vendorCommand : Option String
  reboot : Reboot
  reboot_eq : (∃ block ∈ blocks, block.IsPackage) → reboot = .toSystem

def vendorOperation (text : String) : Operation := .command ("oem " ++ text) ""

def Layout.operations (layout : Layout) : List Operation :=
  layout.blocks.flatMap Block.operations ++ (layout.vendorCommand.map vendorOperation).toList ++
    layout.reboot.operation?.toList

theorem Command.exists_blocks {files : Files} {command : Command} {operations : List Operation}
    (queued : command.operations files = .ok operations) (closed : command.word ≠ .oem) :
    ∃ blocks : List Block, operations = blocks.flatMap Block.operations ∧
      ∀ block ∈ blocks, block.IsPackage → command.word = .flashAll := by
  cases command with
  | serial wanted => cases queued; exact ⟨[], rfl, by simp⟩
  | vendor text =>
      obtain ⟨_, -, rfl⟩ := Result.map_eq_ok_iff.mp queued
      exact ⟨[], rfl, by simp⟩
  | getvar name => cases queued; exact ⟨[.display name], rfl, by simp [Block.IsPackage]⟩
  | erase partition => cases queued; exact ⟨[.erase partition], rfl, by simp [Block.IsPackage]⟩
  | signature path =>
      obtain ⟨data, -, checked⟩ := Result.bind_eq_ok_iff.mp queued
      split at checked
      · cases checked
      · rename_i size
        cases checked
        exact ⟨[.signature data (Classical.not_not.mp size)], rfl, by simp [Block.IsPackage]⟩
  | reboot => cases queued; exact ⟨[], rfl, by simp⟩
  | rebootBootloader => cases queued; exact ⟨[], rfl, by simp⟩
  | resume => cases queued; exact ⟨[.resume], rfl, by simp [Block.IsPackage]⟩
  | flash partition path =>
      obtain ⟨image, -, ⟨⟩⟩ := Result.bind_eq_ok_iff.mp queued
      exact ⟨[.flash partition image], rfl, by simp [Block.IsPackage]⟩
  | flashAll path =>
      obtain ⟨data, archive, contents, -, -, held, rfl⟩ := Package.plan_eq_ok_iff.mp queued
      exact ⟨[.package contents held.length_eq.symm], by simp [Block.operations], fun _ _ _ => rfl⟩
  | oem words => exact absurd rfl closed

theorem Cuts.exists_blocks {files : Files} {words : List String} {commands : List Command}
    (cuts : Cuts words commands .complete) {queues : List (List Operation)}
    (queued : commands.mapM (Command.operations files) = .ok queues) :
    ∃ (blocks : List Block) (vendorCommand : Option String),
      queues.flatten =
        blocks.flatMap Block.operations ++ (vendorCommand.map vendorOperation).toList ∧
      ((∃ block ∈ blocks, block.IsPackage) → ∃ command ∈ commands, command.word = .flashAll) := by
  generalize ends : Ending.complete = ending at cuts
  induction cuts generalizing queues with
  | nil =>
      cases queued
      exact ⟨[], none, rfl, by simp⟩
  | @command command rest commands ending closed _ ih =>
      rw [Result.mapM_eq_ok_iff, List.forall₂_cons_left_iff] at queued
      obtain ⟨own, tail, first, others, rfl⟩ := queued
      obtain ⟨front, rfl, packages⟩ := Command.exists_blocks first closed
      obtain ⟨back, vendorCommand, parts, further⟩ := ih (Result.mapM_eq_ok_iff.mpr others) ends
      refine ⟨front ++ back, vendorCommand, by simp [parts], ?_⟩
      rintro ⟨block, member, package⟩
      rcases List.mem_append.mp member with member | member
      · exact ⟨command, List.mem_cons_self, packages block member package⟩
      · obtain ⟨other, among, word⟩ := further ⟨block, member, package⟩
        exact ⟨other, List.mem_cons_of_mem _ among, word⟩
  | @oem arguments =>
      -- The command takes the rest of the line, so that nothing but a reboot can follow it.
      cases arguments with
      | nil =>
          cases queued
          exact ⟨[], none, rfl, by simp⟩
      | cons word arguments =>
          cases queued
          refine ⟨[], some (" ".intercalate (word :: arguments)), ?_, by simp⟩
          simp [vendorOperation]
  | _ => cases ends

theorem exists_layout {files : Files} {serial : Option String} {words : List String}
    {invocation : Invocation} (accepted : (read files serial words).result = .ok invocation) :
    ∃ layout : Layout, invocation.queue.toList = layout.operations := by
  obtain ⟨complete, queues, queued, whole⟩ := read_ok accepted
  have cuts := cuts_cut words
  rw [complete] at cuts
  obtain ⟨blocks, vendorCommand, parts, packages⟩ := cuts.exists_blocks queued
  refine ⟨⟨blocks, vendorCommand, reboot (cut words).1, ?_⟩, by rw [whole, parts]; rfl⟩
  intro package
  obtain ⟨command, member, word⟩ := packages package
  exact reboot_eq_toSystem_iff.mpr ⟨command, member, .inr word⟩

theorem Block.line_ne_empty {block : Block} {line message : String}
    (member : .command line message ∈ block.operations) : line ≠ "" := by
  cases block with
  | resume =>
      obtain ⟨rfl, -⟩ : line = "continue" ∧ message = "resuming boot" := by
        simpa [operations] using member
      decide
  | signature data complete =>
      obtain ⟨rfl, -⟩ : line = "signature" ∧ message = "installing signature" := by
        simpa [operations] using member
      decide
  | package contents complete =>
      rcases List.mem_append.mp member with shown | written
      · simp [Package.versionDump] at shown
      · obtain ⟨partition, image, same⟩ := Package.mem_writes written
        cases same
  | _ => simp [operations] at member

/-- Every command that is sent for an accepted line has some text. -/
theorem line_ne_empty_of_read {files : Files} {serial : Option String} {words : List String}
    {invocation : Invocation} (accepted : (read files serial words).result = .ok invocation)
    {line message : String} (member : .command line message ∈ invocation.queue.toList) :
    line ≠ "" := by
  obtain ⟨layout, operations⟩ := exists_layout accepted
  rw [operations, Layout.operations, List.mem_append, List.mem_append] at member
  rcases member with (own | vendor) | restart
  · obtain ⟨block, -, member⟩ := List.mem_flatMap.mp own
    exact block.line_ne_empty member
  · cases named : layout.vendorCommand with
    | none => simp [named] at vendor
    | some text =>
        obtain ⟨rfl, -⟩ : line = "oem " ++ text ∧ message = "" := by
          simpa [named, vendorOperation] using vendor
        simp
  · cases asked : layout.reboot with
    | toBootloader =>
        obtain ⟨rfl, -⟩ : line = "reboot-bootloader" ∧ message = "rebooting into bootloader" := by
          simpa [asked, Reboot.operation?] using restart
        decide
    | _ => simp [asked, Reboot.operation?] at restart

private theorem toString_inj {first second : Nat} (same : toString first = toString second) :
    first = second := by
  have digits := congrArg (fun text : String => Nat.ofDigitChars 10 text.toList 0) same
  simpa [Nat.toString_eq_ofList_toDigits] using digits

def numbered (start : Nat) : List ByteArray → List (String × ByteArray)
  | [] => []
  | content :: contents => (toString start, content) :: numbered (start + 1) contents

private theorem lookup_numbered {contents : List ByteArray} {number : Nat} {content : ByteArray}
    (present : contents[number]? = some content) (start : Nat) :
    (numbered start contents).lookup (toString (start + number)) = some content := by
  induction contents generalizing start number with
  | nil => simp at present
  | cons first contents ih =>
      cases number with
      | zero =>
          cases present
          exact List.lookup_cons_self
      | succ number =>
          have other : (toString (start + (number + 1)) == toString start) = false := by
            refine beq_eq_false_iff_ne.mpr fun same => ?_
            have equal := toString_inj same
            omega
          have later := ih present (start + 1)
          rw [numbered, List.lookup_cons, other]
          rwa [Nat.add_right_comm] at later

namespace Layout

variable (layout : Layout)

def files : List (String × ByteArray) :=
  numbered 0 (layout.blocks.map Block.content)

def blockCommands : List Command :=
  layout.blocks.zipIdx.map fun (block, number) => block.command (toString number)

def rebootCommands : List Command :=
  match layout.reboot with
  | .none => []
  | .toBootloader => [.rebootBootloader]
  | .toSystem => [.reboot]

def vendorCommands : List Command :=
  (layout.vendorCommand.map fun text => .oem [text]).toList

def commands : List Command :=
  layout.rebootCommands ++ layout.blockCommands ++ layout.vendorCommands

variable {layout} (archives : Archive.Reader)

private theorem blockCommands_queued (plain : ∀ block ∈ layout.blocks, ¬ block.IsPackage) :
    layout.blockCommands.mapM (Command.operations (.ofList archives layout.files)) =
      .ok (layout.blocks.map Block.operations) := by
  have counted : layout.blocks.map Block.operations =
      (layout.blocks.zipIdx.map Prod.fst).map Block.operations := by
    rw [List.zipIdx_map_fst]
  rw [Result.mapM_eq_ok_iff, blockCommands, counted, List.forall₂_map_left_iff,
    List.forall₂_map_right_iff, List.forall₂_map_right_iff, List.forall₂_same]
  rintro ⟨block, number⟩ member
  have present : layout.blocks[number]? = some block := List.mk_mem_zipIdx_iff_getElem?.mp member
  have content : (layout.blocks.map Block.content)[number]? = some block.content := by
    rw [List.getElem?_map, present]
    rfl
  have stored := lookup_numbered content 0
  rw [Nat.zero_add] at stored
  exact Block.operations_command (plain block (List.mem_of_getElem? present))
    (Files.ofList_eq_ok stored)

private theorem commands_queued (plain : ∀ block ∈ layout.blocks, ¬ block.IsPackage) :
    ∃ queues,
      layout.commands.mapM (Command.operations (.ofList archives layout.files)) = .ok queues ∧
      queues.flatten = layout.blocks.flatMap Block.operations ++
        (layout.vendorCommand.map vendorOperation).toList := by
  have front : ∃ queues,
      layout.rebootCommands.mapM (Command.operations (.ofList archives layout.files)) =
        .ok queues ∧ queues.flatten = [] := by
    rw [rebootCommands]
    split
    · exact ⟨[], rfl, rfl⟩
    · exact ⟨[[]], rfl, rfl⟩
    · exact ⟨[[]], rfl, rfl⟩
  have back : ∃ queues,
      layout.vendorCommands.mapM (Command.operations (.ofList archives layout.files)) =
        .ok queues ∧ queues.flatten = (layout.vendorCommand.map vendorOperation).toList := by
    rw [vendorCommands]
    cases layout.vendorCommand with
    | none => exact ⟨[], rfl, rfl⟩
    | some text =>
        refine ⟨[[vendorOperation text]], Result.mapM_eq_ok_iff.mpr (.cons ?_ .nil), rfl⟩
        simp [Command.operations, vendorOperation]
  obtain ⟨first, before, silent⟩ := front
  obtain ⟨last, after, spoken⟩ := back
  refine ⟨first ++ layout.blocks.map Block.operations ++ last, ?_, ?_⟩
  · rw [commands, List.mapM_append, List.mapM_append, before, blockCommands_queued archives plain,
      after]
    rfl
  · simp [silent, spoken, List.flatMap_def]

private theorem reboot_blockCommands (plain : ∀ block ∈ layout.blocks, ¬ block.IsPackage) :
    CommandLine.reboot layout.blockCommands = .none := by
  have other : ∀ command ∈ layout.blockCommands, ¬ (command.word = .reboot ∨
      command.word = .flashAll) ∧ command.word ≠ .rebootBootloader := by
    intro command member
    obtain ⟨⟨block, number⟩, among, rfl⟩ := List.mem_map.mp member
    have own := plain block (List.fst_mem_of_mem_zipIdx among)
    cases block with
    | package contents complete => exact absurd trivial own
    | _ => simp [Block.command, Command.word]
  refine reboot_eq_none_iff.mpr ⟨?_, ?_⟩
  · rintro ⟨command, member, asked⟩
    exact (other command member).1 asked
  · rintro ⟨command, member, asked⟩
    exact (other command member).2 asked

private theorem reboot_commands (plain : ∀ block ∈ layout.blocks, ¬ block.IsPackage) :
    CommandLine.reboot layout.commands = layout.reboot := by
  have front : CommandLine.reboot layout.rebootCommands = layout.reboot := by
    rw [rebootCommands]
    cases layout.reboot <;> rfl
  have back : CommandLine.reboot layout.vendorCommands = .none := by
    rw [vendorCommands]
    cases layout.vendorCommand <;> rfl
  rw [commands, reboot_append, reboot_append, front, reboot_blockCommands plain, back,
    Reboot.request_none, Reboot.request_none]

private theorem cuts_commands : Cuts (layout.commands.flatMap Command.words) layout.commands .complete := by
  have back : Cuts (layout.vendorCommands.flatMap Command.words) layout.vendorCommands
      .complete := by
    rw [vendorCommands]
    cases layout.vendorCommand with
    | none => exact .nil
    | some text => exact .oem
  rw [commands, List.flatMap_append]
  refine back.after fun command member => ?_
  rcases List.mem_append.mp member with member | member
  · rw [rebootCommands] at member
    split at member <;> simp at member <;> simp [member, Command.word]
  · rw [blockCommands] at member
    obtain ⟨⟨block, number⟩, -, rfl⟩ := List.mem_map.mp member
    cases block <;> simp [Block.command, Command.word]

end Layout

/-- What a queue can look like. Every accepted line gives a queue with a layout, in which a
reboot stands at the end if at all; and every layout without a package is that of some line
with some files. -/
theorem read_layout :
    (∀ files serial words invocation, (read files serial words).result = .ok invocation →
      (∃ layout : Layout, invocation.queue.toList = layout.operations) ∧
      (∀ earlier later, invocation.queue.toList = earlier ++ .reboot :: later → later = []) ∧
      .rebootBootloader ∉ invocation.queue.toList) ∧
    ∀ (layout : Layout) (archives : Archive.Reader), (∀ block ∈ layout.blocks, ¬ block.IsPackage) →
      ∃ entries words, ∀ serial, ∃ invocation,
        (read (.ofList archives entries) serial words).result = .ok invocation ∧
          invocation.queue.toList = layout.operations := by
  constructor
  · intro files serial words invocation accepted
    obtain ⟨-, queues, queued, whole⟩ := read_ok accepted
    refine ⟨exists_layout accepted, fun earlier later parts => ?_, fun member => ?_⟩
    · obtain inside | ⟨last, -⟩ := split_last (whole.symm.trans parts)
      · have stays := blocks_continue queued _ inside "reboot" (by simp [Operation.rounds])
        exact absurd (by decide) stays
      · exact last
    · rw [whole] at member
      obtain inside | final := List.mem_append.mp member
      · have stays := blocks_continue queued _ inside "reboot-bootloader"
          (by simp [Operation.rounds])
        exact absurd (by decide) stays
      · cases asked : reboot (cut words).1 <;> simp [asked, Reboot.operation?] at final
  · intro layout archives plain
    obtain ⟨queues, queued, operations⟩ := layout.commands_queued archives plain
    refine ⟨layout.files, layout.commands.flatMap Command.words, fun serial =>
      ⟨invocation serial layout.commands queues, ?_, ?_⟩⟩
    · rw [layout.cuts_commands.result_read, queued]
      rfl
    · rw [invocation, Queue.toList_extend, operations, layout.reboot_commands plain]
      rfl

end CommandLine

end FlashHost
