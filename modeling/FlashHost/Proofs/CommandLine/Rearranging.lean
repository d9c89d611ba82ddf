import FlashHost.Proofs.CommandLine.Table

/-!
# Lines in another order

Three kinds of commands do not get into each other's way: those that queue operations, those
that set the filter, and those that ask for a reboot. As long as each kind keeps its own order,
and requests are only repeated, a line may be put in any order.
-/

set_option autoImplicit false

namespace FlashHost.CommandLine

def queueing : List Word :=
  [.getvar, .erase, .signature, .resume, .flash, .flashAll]

/-- The other commands are the first ones in another order, with requests for a reboot repeated.
Commands that queue operations stay in order among themselves, and so do options of the same
name. -/
structure Rearranges (commands others : List Command) : Prop where
  perm : ∃ copies, others.Perm (commands ++ copies) ∧
    ∀ copy ∈ copies, copy ∈ commands ∧ (copy = .reboot ∨ copy = .rebootBootloader)
  queued : others.filter (·.word ∈ queueing) = commands.filter (·.word ∈ queueing)
  serials : others.filter (·.word = .serial) = commands.filter (·.word = .serial)
  vendors : others.filter (·.word = .vendor) = commands.filter (·.word = .vendor)

private theorem Command.operations_of_not_queueing {files : Files} {command : Command}
    {operations : List Operation} (queued : command.operations files = .ok operations)
    (closed : command.word ≠ .oem) (silent : command.word ∉ queueing) : operations = [] := by
  cases command with
  | serial wanted => cases queued; rfl
  | vendor text =>
      obtain ⟨_, -, rfl⟩ := Result.map_eq_ok_iff.mp queued
      rfl
  | reboot => cases queued; rfl
  | rebootBootloader => cases queued; rfl
  | oem words => exact absurd rfl closed
  | _ => simp [Command.word, queueing] at silent

/-- What a line queues is queued by the commands that queue operations. -/
theorem blocks_of_queueing {files : Files} {commands : List Command}
    {blocks : List (List Operation)}
    (queued : List.Forall₂ (fun command block => command.operations files = .ok block)
      commands blocks)
    (closed : ∀ command ∈ commands, command.word ≠ .oem) :
    ∃ kept, List.Forall₂ (fun command block => command.operations files = .ok block)
      (commands.filter (·.word ∈ queueing)) kept ∧ kept.flatten = blocks.flatten := by
  induction queued with
  | nil => exact ⟨[], .nil, rfl⟩
  | @cons command block commands blocks own _ ih =>
      obtain ⟨first, others⟩ := List.forall_mem_cons.mp closed
      obtain ⟨kept, held, same⟩ := ih others
      by_cases queues : command.word ∈ queueing
      · rw [List.filter_cons_of_pos (by simpa using queues)]
        exact ⟨block :: kept, .cons own held, congrArg (block ++ ·) same⟩
      · obtain rfl := command.operations_of_not_queueing own first queues
        rw [List.filter_cons_of_neg (by simpa using queues)]
        exact ⟨kept, held, same⟩

theorem lastVendor?_filter (commands : List Command) :
    lastVendor? (commands.filter (·.word = .vendor)) = lastVendor? commands := by
  rw [lastVendor?, List.filterMap_filter, lastVendor?]
  congr 2
  funext command
  cases command <;> rfl

theorem lastSerial?_filter (commands : List Command) :
    lastSerial? (commands.filter (·.word = .serial)) = lastSerial? commands := by
  rw [lastSerial?, List.filterMap_filter, lastSerial?]
  congr 2
  funext command
  cases command <;> rfl

/-- It does not matter for a reboot where, or how often, it is asked for. -/
theorem restart_congr {commands others : List Command}
    (same : ∀ command, command ∈ others ↔ command ∈ commands) :
    restart others = restart commands := by
  simp only [restart, same]

namespace Rearranges

variable {commands others : List Command} (rearranges : Rearranges commands others)

include rearranges

theorem mem_iff (command : Command) : command ∈ others ↔ command ∈ commands := by
  obtain ⟨copies, perm, known⟩ := rearranges.perm
  rw [perm.mem_iff, List.mem_append]
  constructor
  · rintro (member | copy)
    · exact member
    · exact (known command copy).1
  · exact .inl

theorem closed (before : ∀ command ∈ commands, command.word ≠ .oem) :
    ∀ command ∈ others, command.word ≠ .oem :=
  fun command member => before command ((rearranges.mem_iff command).mp member)

/-- The same invocation comes of the commands in either order. -/
theorem amounts {files : Files} {serial : Option String} {invocation : Invocation}
    (closed : ∀ command ∈ commands, command.word ≠ .oem)
    (amounts : Amounts files serial commands invocation) :
    Amounts files serial others invocation where
  queue := by
    obtain ⟨blocks, queued, operations⟩ := amounts.queue
    obtain ⟨rest, requeued⟩ := accepted_iff_queued.mp fun command member =>
      amounts.accepted command ((rearranges.mem_iff command).mp member)
    have again := Result.mapM_eq_ok_iff.mp requeued
    obtain ⟨kept, held, front⟩ := blocks_of_queueing queued closed
    obtain ⟨left, left_held, back⟩ := blocks_of_queueing again (rearranges.closed closed)
    -- The commands that queue operations are the same ones, and so is what they queue.
    rw [rearranges.queued, ← Result.mapM_eq_ok_iff, Result.mapM_eq_ok_iff.mpr held] at left_held
    cases left_held
    refine ⟨rest, again, ?_⟩
    rw [operations, restart_congr rearranges.mem_iff, ← front, ← back]
  vendorId := by
    rw [amounts.vendorId, ← lastVendor?_filter others, rearranges.vendors, lastVendor?_filter]
  serial := by
    rw [amounts.serial, ← lastSerial?_filter others, rearranges.serials, lastSerial?_filter]

end Rearranges

theorem cuts_words {commands : List Command} (closed : ∀ command ∈ commands, command.word ≠ .oem) :
    Cuts (commands.flatMap Command.words) commands .complete := by
  simpa using Cuts.nil.after closed

/-- A line that is accepted is accepted in every other order in which its commands may be put,
with requests for a reboot repeated at will, and amounts to the same invocation. -/
theorem read_rearranged {files : Files} {serial : Option String} {commands others : List Command}
    {invocation : Invocation} (closed : ∀ command ∈ commands, command.word ≠ .oem)
    (accepted : (read files serial (commands.flatMap Command.words)).result = .ok invocation)
    (rearranges : Rearranges commands others) :
    (read files serial (others.flatMap Command.words)).result = .ok invocation := by
  obtain ⟨own, cuts, amounts⟩ := read_eq_ok_iff.mp accepted
  obtain rfl : own = commands := by
    have same := cuts.cut_eq.symm.trans (cuts_words closed).cut_eq
    exact congrArg Prod.fst same
  exact read_eq_ok_iff.mpr ⟨others, cuts_words (rearranges.closed closed),
    rearranges.amounts closed amounts⟩

/-- Requests before, between and after the commands whose order counts. -/
theorem read_rearranged_requests :
    let files : Files := ⟨fun _ => .ok ⟨#[1, 2]⟩, fun _ => .error "no archive"⟩
    let commands : List Command :=
      [.serial "A", .rebootBootloader, .erase "cache", .vendor "0x1234", .flash "boot" "boot.img",
        .serial "B", .reboot]
    let others : List Command :=
      [.reboot, .erase "cache", .rebootBootloader, .reboot, .flash "boot" "boot.img", .serial "A",
        .serial "B", .vendor "0x1234", .rebootBootloader]
    let invocation : Invocation :=
      ⟨⟨some 0x1234, some "B"⟩, ⟨#[.erase "cache", .flash "boot" ⟨#[1, 2]⟩, .reboot]⟩⟩
    (∀ command ∈ commands, command.word ≠ .oem) ∧
      (read files none (commands.flatMap Command.words)).result = .ok invocation ∧
      Rearranges commands others ∧
      (read files none (others.flatMap Command.words)).result = .ok invocation := by
  intro files commands others invocation
  have closed : ∀ command ∈ commands, command.word ≠ .oem := by decide
  have accepted : (read files none (commands.flatMap Command.words)).result = .ok invocation := by
    decide +kernel
  have rearranges : Rearranges commands others :=
    ⟨⟨[.reboot, .rebootBootloader], by decide, by decide⟩, by decide, by decide, by decide⟩
  exact ⟨closed, accepted, rearranges, read_rearranged closed accepted rearranges⟩

end FlashHost.CommandLine
