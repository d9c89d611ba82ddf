import FlashHost.Proofs.CommandLine.Cutting
import FlashHost.Proofs.CommandLine.Safety
import FlashHost.Proofs.CommandLine.Table
import FlashHost.Proofs.Package.Planning

/-!
# Lines one after another

What becomes of a line when more words are added to it. An error in it stays, except that
missing arguments may be among the new words; a line that is accepted and open to further
commands goes on as if the new words stood alone.
-/

set_option autoImplicit false

namespace FlashHost.CommandLine

/-- The last command on a line has too few arguments, by so many. -/
inductive Lacks : List String → Word → Nat → Prop where
  | last {word arguments lacking} :
      arguments.length + lacking = word.arity → 0 < lacking →
      Lacks (word.spelling :: arguments) word lacking
  | later {command : Command} {rest word lacking} :
      command.word ≠ .oem → Lacks rest word lacking →
      Lacks (command.words ++ rest) word lacking

private theorem Lacks.cut_append {xs : List String} {word : Word} {lacking : Nat}
    (lacks : Lacks xs word lacking) {ys : List String} (few : ys.length < lacking) :
    cut (xs ++ ys) = cut xs := by
  induction lacks with
  | @last word arguments lacking size missing =>
      -- The new words all go to the last command, which still lacks some.
      have short : (arguments ++ ys).length < word.arity := by
        rw [List.length_append]
        omega
      rw [List.cons_append, cut_missing short, cut_missing (by omega)]
  | later closed _ ih =>
      rw [List.append_assoc, cut_words_append closed, cut_words_append closed, ih few]

theorem Cuts.lacks {words : List String} {commands : List Command} {word : Word}
    (cuts : Cuts words commands (.missingArguments word)) :
    ∃ lacking, Lacks words word lacking := by
  generalize ends : Ending.missingArguments word = ending at cuts
  induction cuts with
  | missing short =>
      cases ends
      exact ⟨_, .last (Nat.add_sub_of_le (Nat.le_of_lt short)) (Nat.sub_pos_of_lt short)⟩
  | command closed _ ih =>
      obtain ⟨lacking, lacks⟩ := ih ends
      exact ⟨lacking, .later closed lacks⟩
  | _ => cases ends

theorem Cuts.append {xs ys : List String} {commands others : List Command} {last : Ending}
    (first : Cuts xs commands .complete) (closed : ∀ command ∈ commands, command.word ≠ .oem)
    (second : Cuts ys others last) : Cuts (xs ++ ys) (commands ++ others) last := by
  generalize ends : Ending.complete = ending at first
  induction first with
  | nil => exact second
  | command own _ ih =>
      rw [List.append_assoc]
      exact .command own (ih (List.forall_mem_cons.mp closed).2 ends)
  | oem => exact absurd rfl (List.forall_mem_cons.mp closed).1
  | _ => cases ends

private theorem Cuts.append_unknown {xs : List String} {commands : List Command} {text : String}
    (cuts : Cuts xs commands (.unknownCommand text)) (ys : List String) :
    Cuts (xs ++ ys) commands (.unknownCommand text) := by
  generalize ends : Ending.unknownCommand text = ending at cuts ⊢
  induction cuts with
  | unknown unknown => exact .unknown unknown
  | command closed _ ih =>
      rw [List.append_assoc]
      exact .command closed (ih ends)
  | _ => cases ends

/-- A command with all of its arguments is not in error for the shape of the line. -/
theorem Command.kind_of_refused {files : Files} {command : Command} {error : Error}
    (refused : command.operations files = .error error) : error.kind ≠ .usage := by
  cases command with
  | vendor text =>
      cases parsed : VendorId.value? text.toList <;>
        simp only [operations, VendorId.parse, parsed] at refused <;> cases refused
      simp [Error.kind]
  | signature path =>
      obtain failed | ⟨data, -, size⟩ := Result.bind_eq_error_iff.mp refused
      · obtain ⟨fault, -, rfl⟩ := Result.mapError_eq_error_iff.mp failed
        simp [Error.kind]
      · split at size <;> cases size
        simp [Error.kind]
  | flash partition path =>
      obtain failed | ⟨image, -, ⟨⟩⟩ := Result.bind_eq_error_iff.mp refused
      obtain ⟨fault, -, rfl⟩ := Result.mapError_eq_error_iff.mp failed
      simp [Error.kind]
  | flashAll path =>
      obtain kind | kind | kind := Package.kind_of_plan refused <;> simp [kind]
  | oem words => cases words <;> cases refused
  | _ => cases refused

/-- A command that is in error stays in its place when words are added. -/
theorem Cuts.refused_append {files : Files} {xs : List String} {commands : List Command}
    {ending : Ending} {error : Error} (cuts : Cuts xs commands ending)
    (refused : commands.mapM (Command.operations files) = .error error) (ys : List String) :
    (cut (xs ++ ys)).1.mapM (Command.operations files) = .error error := by
  induction cuts with
  | @command command rest commands ending closed _ ih =>
      rw [List.append_assoc, cut_words_append closed, List.mapM_cons]
      rw [List.mapM_cons] at refused
      obtain own | ⟨operations, own, others⟩ := Result.bind_eq_error_iff.mp refused
      · rw [own, Result.error_bind]
      · obtain failed | ⟨_, -, ⟨⟩⟩ := Result.bind_eq_error_iff.mp others
        rw [own, Result.ok_bind, ih failed, Result.error_bind]
  | @oem arguments => cases arguments <;> cases refused
  | _ => cases refused

def endingReboot (operations : List Operation) : Reboot :=
  if operations.getLast? = some .reboot then .toSystem
  else if operations.getLast? =
      some (.command "reboot-bootloader" "rebooting into bootloader") then .toBootloader
  else .none

def withoutReboot (operations : List Operation) : List Operation :=
  if endingReboot operations = .none then operations else operations.dropLast

theorem endingReboot_append {operations : List Operation}
    (continues : ∀ operation ∈ operations, Continues operation) (reboot : Reboot) :
    endingReboot (operations ++ reboot.operation?.toList) = reboot := by
  cases reboot with
  | toSystem => simp [endingReboot, Reboot.operation?]
  | toBootloader => simp [endingReboot, Reboot.operation?]
  | none =>
      have other (line : String) (restarted : line ∈ restarts) {operation : Operation}
          (sent : .command line ∈ operation.rounds) : operations.getLast? ≠ some operation := by
        intro last
        exact continues operation (List.mem_of_getLast? last) line sent restarted
      simp only [Reboot.operation?, Option.toList_none, List.append_nil]
      rw [endingReboot, if_neg (other "reboot" (by decide) (by simp [Operation.rounds])),
        if_neg (other "reboot-bootloader" (by decide) (by simp [Operation.rounds]))]

theorem withoutReboot_append {operations : List Operation}
    (continues : ∀ operation ∈ operations, Continues operation) (reboot : Reboot) :
    withoutReboot (operations ++ reboot.operation?.toList) = operations := by
  rw [withoutReboot, endingReboot_append continues]
  cases reboot <;> simp [Reboot.operation?]

private theorem isSome_lastVendor? {commands : List Command} :
    (lastVendor? commands).isSome ↔ ∃ command ∈ commands, command.word = .vendor := by
  induction commands with
  | nil => simp [lastVendor?]
  | cons command commands ih =>
      rw [lastVendor?_cons, Option.isSome_or, Bool.or_eq_true, ih, or_comm,
        List.exists_mem_cons_iff]
      cases command <;> simp [Command.vendor?, Command.word]

theorem isSome_lastSerial? {commands : List Command} :
    (lastSerial? commands).isSome ↔ ∃ command ∈ commands, command.word = .serial := by
  induction commands with
  | nil => simp [lastSerial?]
  | cons command commands ih =>
      rw [lastSerial?_cons, Option.isSome_or, Bool.or_eq_true, ih, or_comm,
        List.exists_mem_cons_iff]
      cases command <;> simp [Command.serial?, Command.word]

/-- The invocation of two lines in one, in terms of the invocations of either and of the
commands of the second. -/
structure Joins (first second : Invocation) (others : List Command) (whole : Invocation) :
    Prop where
  queue : whole.queue.toList =
    withoutReboot first.queue.toList ++ withoutReboot second.queue.toList ++
      ((endingReboot first.queue.toList).request
        (endingReboot second.queue.toList)).operation?.toList
  vendorId : whole.filter.vendorId =
    if ∃ command ∈ others, command.word = .vendor then second.filter.vendorId
    else first.filter.vendorId
  serial : whole.filter.serial =
    if ∃ command ∈ others, command.word = .serial then second.filter.serial
    else first.filter.serial

private theorem joins_invocation {files : Files} {commands others : List Command}
    {blocks rest : List (List Operation)}
    (queued : commands.mapM (Command.operations files) = .ok blocks)
    (requeued : others.mapM (Command.operations files) = .ok rest) (serial : Option String) :
    Joins (invocation serial commands blocks) (invocation serial others rest) others
      (invocation serial (commands ++ others) (blocks ++ rest)) where
  queue := by
    simp only [invocation, Queue.toList_extend, Queue.toList_empty, List.nil_append,
      endingReboot_append (blocks_continue queued), withoutReboot_append (blocks_continue queued),
      endingReboot_append (blocks_continue requeued),
      withoutReboot_append (blocks_continue requeued), reboot_append, List.flatten_append]
  vendorId := by
    have accepted := accepted_iff_queued.mpr ⟨rest, requeued⟩
    simp only [invocation, List.foldl_append, vendorId_foldl_narrow accepted,
      ← isSome_lastVendor?]
    cases lastVendor? others <;> rfl
  serial := by
    simp only [invocation, List.foldl_append, serial_foldl_narrow others,
      ← isSome_lastSerial?]
    cases lastSerial? others <;> rfl

/-- A line that is accepted and open to further commands leaves the rest of the words to
themselves. -/
theorem read_append_of_ok {files : Files} {serial : Option String} {xs : List String}
    {first : Invocation} (accepted : (read files serial xs).result = .ok first)
    (closed : ∀ command ∈ (cut xs).1, command.word ≠ .oem) (ys : List String) :
    (∀ error, (read files serial (xs ++ ys)).result = .error error ↔
      (read files serial ys).result = .error error) ∧
    ∀ second, (read files serial ys).result = .ok second →
      ∃ whole, (read files serial (xs ++ ys)).result = .ok whole ∧
        Joins first second (cut ys).1 whole := by
  obtain ⟨complete, blocks, queued, -⟩ := read_ok accepted
  have front := cuts_cut xs
  rw [complete] at front
  rw [front.result_read, queued] at accepted
  cases accepted
  have back := cuts_cut ys
  rw [(front.append closed back).result_read, back.result_read, List.mapM_append, queued]
  cases requeued : (cut ys).1.mapM (Command.operations files) with
  | error error => exact ⟨fun _ => Iff.rfl, nofun⟩
  | ok rest =>
      cases ended : (cut ys).2.error? with
      | some error => exact ⟨fun _ => Iff.rfl, nofun⟩
      | none =>
          refine ⟨fun _ => ⟨nofun, nofun⟩, ?_⟩
          rintro second ⟨⟩
          exact ⟨_, rfl, joins_invocation queued requeued serial⟩

private theorem read_append_of_error {files : Files} {serial : Option String} {xs : List String}
    {error : Error} (failed : (read files serial xs).result = .error error)
    (other : ∀ name count, error ≠ .missingArguments name count) (ys : List String) :
    (read files serial (xs ++ ys)).result = .error error := by
  have cuts := cuts_cut xs
  rw [cuts.result_read, Result.bind_eq_error_iff] at failed
  obtain refused | ⟨blocks, queued, ended⟩ := failed
  · rw [result_read, cuts.refused_append refused, Result.error_bind]
  · cases ending : (cut xs).2 with
    | complete => simp [ending, Ending.error?] at ended
    | missingArguments word =>
        rw [ending] at ended
        cases ended
        exact absurd rfl (other _ _)
    | unknownCommand text =>
        rw [ending] at cuts ended
        rw [(cuts.append_unknown ys).result_read, queued]
        exact ended

private theorem read_append_of_lacks {xs : List String} {word : Word} {lacking : Nat}
    (lacks : Lacks xs word lacking) {ys : List String} (few : ys.length < lacking)
    (files : Files) (serial : Option String) :
    (read files serial (xs ++ ys)).result = (read files serial xs).result := by
  rw [result_read, result_read, lacks.cut_append few]

private theorem lacks_of_missingArguments {files : Files} {serial : Option String} {xs : List String}
    {name : String} {count : Nat}
    (failed : (read files serial xs).result = .error (.missingArguments name count)) :
    ∃ word lacking, name = word.spelling ∧ count = word.arity ∧ Lacks xs word lacking := by
  obtain ⟨-, -, refused⟩ | ⟨cuts, -, ended⟩ := read_eq_error_iff.mp failed
  · have kind := Command.kind_of_refused refused
    simp [Error.kind] at kind
  · rename_i ending
    cases ending with
    | missingArguments word =>
        obtain ⟨lacking, lacks⟩ := cuts.lacks
        cases ended
        exact ⟨word, lacking, rfl, rfl, lacks⟩
    | _ => simp [Ending.error?] at ended

/-- How a line takes more words. -/
theorem read_append (files : Files) (serial : Option String) (xs ys : List String) :
    (∀ error, (read files serial xs).result = .error error →
      (∀ name count, error ≠ .missingArguments name count) →
      (read files serial (xs ++ ys)).result = .error error) ∧
    (∀ name count, (read files serial xs).result = .error (.missingArguments name count) →
      (∃ word lacking, name = word.spelling ∧ count = word.arity ∧ Lacks xs word lacking) ∧
      ∀ word lacking, Lacks xs word lacking → ys.length < lacking →
        (read files serial (xs ++ ys)).result = .error (.missingArguments name count)) ∧
    ∀ first, (read files serial xs).result = .ok first →
      (∀ command ∈ (cut xs).1, command.word ≠ .oem) →
      (∀ error, (read files serial (xs ++ ys)).result = .error error ↔
        (read files serial ys).result = .error error) ∧
      ∀ second, (read files serial ys).result = .ok second →
        ∃ whole, (read files serial (xs ++ ys)).result = .ok whole ∧
          Joins first second (cut ys).1 whole := by
  refine ⟨fun error failed other => read_append_of_error failed other ys, ?_,
    fun first accepted closed => read_append_of_ok accepted closed ys⟩
  intro name count failed
  refine ⟨lacks_of_missingArguments failed, fun word lacking lacks few => ?_⟩
  rw [read_append_of_lacks lacks few, failed]

end FlashHost.CommandLine
