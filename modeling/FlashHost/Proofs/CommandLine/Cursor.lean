import FlashHost.CommandLine
import FlashHost.Proofs.CommandLine.Cutting
import FlashHost.Proofs.Outcome

/-!
# Reading with a cursor

The reading of a line as a loop with a position in it. Each turn takes the command that begins
at the word under the cursor and moves the cursor behind it; every access to the line is checked
against its bounds. No check ever fails, every turn that ends well moves the cursor on, and the
turns together are the reading of the line.
-/

set_option autoImplicit false

namespace FlashHost.CommandLine

/-- How far a line has been read, and what the commands up to there amount to. -/
structure Reading where
  position : Nat
  draft : Draft

/-- How many words stand from a position on, if that is within the line. -/
def remaining? (words : List String) (position : Nat) : Option Nat :=
  if position ≤ words.length then some (words.length - position) else none

def slice? (words : List String) (start stop : Nat) : Option (List String) :=
  if start ≤ stop ∧ stop ≤ words.length then some ((words.drop start).take (stop - start))
  else none

/-- The arguments of the command word at a position, and the position behind them. It is an
error if they run past the end; nothing comes of an access out of bounds. -/
def take? (words : List String) (position : Nat) (word : Word) :
    Option (Except Error (List String × Nat)) :=
  if word = .oem then do
    let rest ← slice? words position words.length
    return .ok (rest.tail, words.length)
  else do
    let left ← remaining? words position
    if left < word.arity + 1 then
      return .error (.missingArguments word.spelling word.arity)
    else
      let arguments ← slice? words (position + 1) (position + 1 + word.arity)
      return .ok (arguments, position + word.arity + 1)

/-- One turn of the loop: the command it takes and the reading after it, or no command if no
words are left. Nothing comes of an access out of bounds. -/
def turn? (files : Files) (words : List String) (reading : Reading) :
    Option (Outcome (Option (Command × Reading))) := do
  let left ← remaining? words reading.position
  if left = 0 then return pure none
  else
    let text ← words[reading.position]?
    match Word.ofString? text with
    | none => return Outcome.fail (.unknownCommand text)
    | some word =>
      match ← take? words reading.position word with
      | .error error => return Outcome.fail error
      | .ok (arguments, position) =>
        let (command, _) ← word.command? arguments
        return do
          let draft ← reading.draft.apply files command
          return some (command, ⟨position, draft⟩)

def Reading.apply (reading : Reading) (files : Files) (command : Command) :
    Outcome (Option (Command × Reading)) := do
  let draft ← reading.draft.apply files command
  return some (command, ⟨reading.position + command.words.length, draft⟩)

/-- The turns that lead from one reading to another, by the commands that they take and all that
can be seen of them. -/
inductive Reaches (files : Files) (words : List String) :
    Reading → List Command → List Event → Reading → Prop where
  | refl (reading : Reading) : Reaches files words reading [] [] reading
  | turn {reading next last : Reading} {outcome : Outcome (Option (Command × Reading))}
      {command : Command} {commands : List Command} {events : List Event} :
      turn? files words reading = some outcome →
      outcome.result = .ok (some (command, next)) →
      Reaches files words next commands events last →
      Reaches files words reading (command :: commands) (outcome.events ++ events) last

inductive Ends (files : Files) (words : List String) (last : Reading) : Outcome Draft → Prop where
  | finished : turn? files words last = some (pure none) → Ends files words last (pure last.draft)
  | failed {outcome : Outcome (Option (Command × Reading))} {error : Error} :
      turn? files words last = some outcome → outcome.result = .error error →
      Ends files words last ⟨.error error, outcome.events⟩

def Loops (files : Files) (words : List String) (start : Reading) (outcome : Outcome Draft) :
    Prop :=
  ∃ commands events last ending, Reaches files words start commands events last ∧
    Ends files words last ending ∧ outcome = ending.after events

/-- What holds whenever the loop comes to a turn after some commands. -/
structure Within (files : Files) (words : List String) (commands : List Command)
    (reading : Reading) : Prop where
  position_le : reading.position ≤ words.length
  length_le : commands.length ≤ reading.position
  /-- The words so far belong to the commands, each to one. -/
  taken : words.take reading.position = commands.flatMap Command.words
  checked : ∃ outcome, turn? files words reading = some outcome ∧
    (outcome.result = .ok none ↔ reading.position = words.length) ∧
    ∀ command next, outcome.result = .ok (some (command, next)) →
      reading.position < next.position ∧ next.position ≤ words.length ∧
      slice? words reading.position next.position = some command.words
  /-- A command with too few arguments is refused whatever the files and the draft, and nothing
  can be seen of it. -/
  missing : ∀ (word : Word) (arguments : List String),
    words.drop reading.position = word.spelling :: arguments → arguments.length < word.arity →
    ∃ error, turn? files words reading = some (Outcome.fail error) ∧
      error = .missingArguments word.spelling word.arity ∧ error.kind = .usage ∧
      error.message = "'" ++ word.spelling ++ "' requires " ++ toString word.arity ++ " argument" ++
        (if word.arity = 1 then "" else "s")

private theorem Word.not_oem_of_short {word : Word} {arguments : List String}
    (short : arguments.length < word.arity) : word ≠ .oem := by
  intro same
  rw [same] at short
  exact Nat.not_lt_zero _ short

private theorem Command.length_arguments {command : Command} (closed : command.word ≠ .oem) :
    command.arguments.length = command.word.arity := by
  cases command with
  | oem words => exact absurd rfl closed
  | _ => rfl

theorem Command.words_oem (arguments : List String) :
    Word.oem.spelling :: arguments = (Command.oem arguments).words ++ [] :=
  (List.append_nil _).symm

theorem remaining?_eq {words rest : List String} {position : Nat}
    (within : position ≤ words.length) (left : words.drop position = rest) :
    remaining? words position = some rest.length := by
  rw [remaining?, if_pos within, ← left, List.length_drop]

theorem slice?_eq {words front rest : List String} {position : Nat}
    (within : position ≤ words.length) (left : words.drop position = front ++ rest) :
    slice? words position (position + front.length) = some front := by
  have size := congrArg List.length left
  rw [List.length_drop, List.length_append] at size
  rw [slice?, if_pos (by omega), left, Nat.add_sub_cancel_left, List.take_left]

private theorem take?_missing {words arguments : List String} {position : Nat} {word : Word}
    (within : position ≤ words.length)
    (left : words.drop position = word.spelling :: arguments)
    (short : arguments.length < word.arity) :
    take? words position word = some (.error (.missingArguments word.spelling word.arity)) := by
  rw [take?, if_neg (Word.not_oem_of_short short), remaining?_eq within left]
  exact if_pos (Nat.succ_lt_succ short)

private theorem take?_command {words rest : List String} {position : Nat} {command : Command}
    (within : position ≤ words.length) (left : words.drop position = command.words ++ rest)
    (last : command.word = .oem → rest = []) :
    take? words position command.word =
      some (.ok (command.arguments, position + command.words.length)) := by
  have size := congrArg List.length left
  rw [List.length_drop, List.length_append] at size
  have shape : command.words = command.word.spelling :: command.arguments := rfl
  -- One command word takes the words up to the end, the others count theirs.
  by_cases final : command.word = .oem
  · obtain rfl := last final
    have behind : words.length = position + command.words.length := by
      simp only [List.length_nil] at size
      omega
    rw [take?, if_pos final, behind, slice?_eq within left]
    rfl
  · have arity := Command.length_arguments final
    have long : ¬ (command.words ++ rest).length < command.word.arity + 1 := by
      simp only [shape, List.length_append, List.length_cons]
      omega
    have behind : words.drop (position + 1) = command.arguments ++ rest := by
      rw [← List.drop_drop, left]
      rfl
    have inside : position + 1 ≤ words.length := by
      simp only [shape, List.length_cons] at size
      omega
    rw [take?, if_neg final, remaining?_eq within left]
    dsimp only [Option.bind_eq_bind, Option.bind_some]
    rw [if_neg long, ← arity, slice?_eq inside behind]
    rfl

section Turns

variable {files : Files} {words : List String} {reading : Reading}
  (within : reading.position ≤ words.length)

include within

theorem turn?_done (left : words.drop reading.position = []) :
    turn? files words reading = some (pure none) := by
  rw [turn?, remaining?_eq within left]
  rfl

/-- A turn looks at the word under the cursor before anything else. -/
theorem turn?_cons {text : String} {rest : List String}
    (left : words.drop reading.position = text :: rest) :
    turn? files words reading =
      match Word.ofString? text with
      | none => some (Outcome.fail (.unknownCommand text))
      | some word =>
        take? words reading.position word >>= fun taken =>
          match taken with
          | .error error => some (Outcome.fail error)
          | .ok (arguments, position) =>
            word.command? arguments >>= fun parsed =>
              some (reading.draft.apply files parsed.1 >>= fun draft =>
                pure (some (parsed.1, ⟨position, draft⟩))) := by
  have under : words[reading.position]? = some text := by
    rw [← List.head?_drop, left]
    rfl
  rw [turn?, remaining?_eq within left, under]
  rfl

theorem turn?_unknown {text : String} {rest : List String}
    (left : words.drop reading.position = text :: rest)
    (unknown : ∀ word : Word, text ≠ word.spelling) :
    turn? files words reading = some (Outcome.fail (.unknownCommand text)) := by
  rw [turn?_cons within left, Word.ofString?_eq_none unknown]

theorem turn?_missing {word : Word} {arguments : List String}
    (left : words.drop reading.position = word.spelling :: arguments)
    (short : arguments.length < word.arity) :
    turn? files words reading =
      some (Outcome.fail (.missingArguments word.spelling word.arity)) := by
  rw [turn?_cons within left, Word.ofString?_spelling]
  dsimp only
  rw [take?_missing within left short]
  rfl

theorem turn?_command {command : Command} {rest : List String}
    (left : words.drop reading.position = command.words ++ rest)
    (last : command.word = .oem → rest = []) :
    turn? files words reading = some (reading.apply files command) := by
  have parsed : command.word.command? command.arguments = some (command, []) := by
    cases command <;> rfl
  rw [turn?_cons within left, Word.ofString?_spelling]
  dsimp only
  rw [take?_command within left last, Option.bind_eq_bind, Option.bind_some]
  dsimp only
  rw [parsed]
  rfl

end Turns

inductive Faces (files : Files) (words : List String) (reading : Reading) :
    Outcome (Option (Command × Reading)) → Prop where
  | nothing : words.drop reading.position = [] → Faces files words reading (pure none)
  | unknown {text : String} {rest : List String} :
      words.drop reading.position = text :: rest → (∀ word : Word, text ≠ word.spelling) →
      Faces files words reading (Outcome.fail (.unknownCommand text))
  | missing {word : Word} {arguments : List String} :
      words.drop reading.position = word.spelling :: arguments →
      arguments.length < word.arity →
      Faces files words reading (Outcome.fail (.missingArguments word.spelling word.arity))
  | command {command : Command} {rest : List String} :
      words.drop reading.position = command.words ++ rest →
      (command.word = .oem → rest = []) →
      Faces files words reading (reading.apply files command)

theorem exists_turn (files : Files) {words : List String} {reading : Reading}
    (within : reading.position ≤ words.length) :
    ∃ outcome, turn? files words reading = some outcome ∧ Faces files words reading outcome := by
  obtain ⟨commands, ending, cuts⟩ : ∃ commands ending,
      Cuts (words.drop reading.position) commands ending := ⟨_, _, cuts_cut _⟩
  generalize left : words.drop reading.position = rest at cuts
  cases cuts with
  | nil => exact ⟨_, turn?_done within left, .nothing left⟩
  | unknown unknown => exact ⟨_, turn?_unknown within left unknown, .unknown left unknown⟩
  | missing short => exact ⟨_, turn?_missing within left short, .missing left short⟩
  | command closed others =>
      exact ⟨_, turn?_command within left (absurd · closed), .command left (absurd · closed)⟩
  | @oem arguments =>
      have whole := left.trans (Command.words_oem arguments)
      exact ⟨_, turn?_command within whole fun _ => rfl, .command whole fun _ => rfl⟩

theorem Reading.apply_eq_ok {reading : Reading} {files : Files} {command : Command}
    {taken : Option (Command × Reading)}
    (good : (reading.apply files command).result = .ok taken) :
    ∃ draft, taken = some (command, ⟨reading.position + command.words.length, draft⟩) := by
  rw [Reading.apply, Outcome.result_bind, Result.bind_eq_ok_iff] at good
  obtain ⟨draft, applied, same⟩ := good
  cases same
  exact ⟨draft, rfl⟩

theorem position_of_drop {words front rest : List String} {position : Nat}
    (within : position ≤ words.length) (left : words.drop position = front ++ rest) :
    position + front.length ≤ words.length ∧ words.drop (position + front.length) = rest := by
  have size := congrArg List.length left
  rw [List.length_drop, List.length_append] at size
  refine ⟨by omega, ?_⟩
  rw [← List.drop_drop, left, List.drop_left]

/-- A turn that takes a command moves the cursor behind it. -/
theorem Faces.advances {files : Files} {words : List String} {reading next : Reading}
    {outcome : Outcome (Option (Command × Reading))} {command : Command}
    (faces : Faces files words reading outcome) (within : reading.position ≤ words.length)
    (good : outcome.result = .ok (some (command, next))) :
    next.position = reading.position + command.words.length ∧ next.position ≤ words.length ∧
      words.drop reading.position = command.words ++ words.drop next.position := by
  cases faces with
  | nothing | unknown | missing => cases good
  | command left last =>
      obtain ⟨draft, same⟩ := Reading.apply_eq_ok good
      cases same
      obtain ⟨inside, behind⟩ := position_of_drop within left
      exact ⟨rfl, inside, by rw [behind, left]⟩

theorem Faces.finished_iff {files : Files} {words : List String} {reading : Reading}
    {outcome : Outcome (Option (Command × Reading))} (faces : Faces files words reading outcome)
    (within : reading.position ≤ words.length) :
    outcome.result = .ok none ↔ reading.position = words.length := by
  have empty : words.drop reading.position = [] ↔ reading.position = words.length :=
    List.drop_eq_nil_iff.trans ⟨Nat.le_antisymm within, fun same => Nat.le_of_eq same.symm⟩
  rw [← empty]
  cases faces with
  | nothing left => simp [left]
  | unknown left => simp [left]
  | missing left => simp [left]
  | command left =>
      constructor
      · intro good
        obtain ⟨draft, same⟩ := Reading.apply_eq_ok good
        cases same
      · intro nothing
        rw [nothing] at left
        cases left

private theorem Reaches.spans {files : Files} {words : List String} {start last : Reading}
    {commands : List Command} {events : List Event}
    (reaches : Reaches files words start commands events last)
    (within : start.position ≤ words.length) :
    last.position ≤ words.length ∧ start.position + commands.length ≤ last.position ∧
      words.drop start.position = commands.flatMap Command.words ++ words.drop last.position := by
  induction reaches with
  | refl reading => exact ⟨within, Nat.le_refl _, rfl⟩
  | @turn reading next last outcome command commands events taken good _ ih =>
      obtain ⟨other, same, faces⟩ := exists_turn files within
      obtain rfl : outcome = other := Option.some.inj (taken.symm.trans same)
      obtain ⟨moved, inside, left⟩ := faces.advances within good
      obtain ⟨bound, count, behind⟩ := ih inside
      refine ⟨bound, ?_, by rw [left, behind, List.flatMap_cons, List.append_assoc]⟩
      simp only [Command.words, List.length_cons] at moved ⊢
      omega

theorem Reaches.within {files : Files} {words : List String} {draft : Draft} {last : Reading}
    {commands : List Command} {events : List Event}
    (reaches : Reaches files words ⟨0, draft⟩ commands events last) :
    Within files words commands last := by
  obtain ⟨within, count, left⟩ := reaches.spans (Nat.zero_le _)
  obtain ⟨outcome, taken, faces⟩ := exists_turn files within
  refine ⟨within, by simpa using count, ?_, ⟨outcome, taken, faces.finished_iff within, ?_⟩, ?_⟩
  · have parts : words.take last.position ++ words.drop last.position = _ :=
      (List.take_append_drop ..).trans left
    exact List.append_cancel_right parts
  · intro command next good
    obtain ⟨moved, inside, behind⟩ := faces.advances within good
    refine ⟨?_, inside, moved ▸ slice?_eq within behind⟩
    rw [moved]
    exact Nat.lt_add_of_pos_right (Nat.zero_lt_succ _)
  · intro word arguments behind short
    exact ⟨_, turn?_missing within behind short, rfl, rfl, rfl⟩

def conclude (ending : Ending) (draft : Draft) : Outcome Draft :=
  match ending.error? with
  | some error => Outcome.fail error
  | none => pure draft

private theorem read_eq_conclude (files : Files) (serial : Option String) (words : List String) :
    read files serial words =
      (Draft.initial serial).applyAll files (cut words).1 >>= conclude (cut words).2 >>=
        Draft.finish := by
  rw [Outcome.bind_regroup, read]
  dsimp only
  congr 1
  funext draft
  rw [conclude]
  cases (cut words).2.error? with
  | some error => rfl
  | none => rfl

section Loop

variable {files : Files} {words : List String} {reading : Reading}

theorem Loops.command {command : Command} {others : Draft → Outcome Draft}
    (taken : turn? files words reading = some (reading.apply files command))
    (rest : ∀ draft,
      Loops files words ⟨reading.position + command.words.length, draft⟩ (others draft)) :
    Loops files words reading (reading.draft.apply files command >>= others) := by
  cases applied : (reading.draft.apply files command).result with
  | error error =>
      have turned : reading.apply files command =
          ⟨.error error, (reading.draft.apply files command).events⟩ :=
        Outcome.bind_of_error applied
      rw [turned] at taken
      refine ⟨[], [], reading, _, .refl reading, .failed taken rfl, ?_⟩
      rw [Outcome.bind_of_error applied]
      rfl
  | ok draft =>
      obtain ⟨commands, events, last, ending, reaches, ends, same⟩ := rest draft
      have turned : reading.apply files command = _ := Outcome.bind_of_ok applied
      rw [turned] at taken
      refine ⟨command :: commands, _, last, ending, .turn taken rfl reaches, ends, ?_⟩
      rw [Outcome.bind_of_ok applied, same, Outcome.after_after]
      simp [Outcome.after, Pure.pure, Outcome.pure]

theorem Cuts.loops {rest : List String} {commands : List Command} {ending : Ending}
    (cuts : Cuts rest commands ending) (within : reading.position ≤ words.length)
    (left : words.drop reading.position = rest) :
    Loops files words reading
      (reading.draft.applyAll files commands >>= conclude ending) := by
  -- A line begins in as many ways as a turn can go, so the turns follow the cut.
  induction cuts generalizing reading with
  | nil => exact ⟨[], [], reading, _, .refl reading, .finished (turn?_done within left), rfl⟩
  | unknown unknown =>
      exact ⟨[], [], reading, _, .refl reading,
        .failed (turn?_unknown within left unknown) rfl, rfl⟩
  | missing short =>
      exact ⟨[], [], reading, _, .refl reading,
        .failed (turn?_missing within left short) rfl, rfl⟩
  | @command command rest commands ending closed _ ih =>
      obtain ⟨inside, behind⟩ := position_of_drop within left
      rw [Draft.applyAll, Outcome.bind_regroup]
      exact .command (turn?_command within left (absurd · closed)) fun draft => ih inside behind
  | @oem arguments =>
      have whole := left.trans (Command.words_oem arguments)
      obtain ⟨inside, behind⟩ := position_of_drop within whole
      rw [Draft.applyAll, Outcome.bind_regroup]
      exact .command (turn?_command within whole fun _ => rfl) fun draft =>
        ⟨[], [], _, _, .refl _, .finished (turn?_done inside behind), rfl⟩

private theorem Ends.complete_iff {last : Reading} {ending : Outcome Draft}
    (ends : Ends files words last ending) (within : last.position ≤ words.length) :
    (∃ draft, ending.result = .ok draft) ↔ last.position = words.length := by
  obtain ⟨outcome, taken, faces⟩ := exists_turn files within
  rw [← faces.finished_iff within]
  cases ends with
  | finished turned =>
      cases turned.symm.trans taken
      exact ⟨fun _ => rfl, fun _ => ⟨last.draft, rfl⟩⟩
  | failed turned wrong =>
      cases turned.symm.trans taken
      simp [wrong]

end Loop

/-- The reading of a line as a loop. Wherever it stands, the cursor is within the line and the
next turn makes no access out of bounds. The loop ends after no more turns than there are words,
one that ends in an error included, and unless there is one every word belongs to a command. -/
theorem read_by_cursor (files : Files) (serial : Option String) (words : List String) :
    (∀ commands events reading,
      Reaches files words ⟨0, .initial serial⟩ commands events reading →
      Within files words commands reading) ∧
    ∃ commands events last ending,
      Reaches files words ⟨0, .initial serial⟩ commands events last ∧
      Ends files words last ending ∧
      (∀ draft, ending.result = .ok draft →
        commands.length ≤ words.length ∧ words = commands.flatMap Command.words) ∧
      (∀ error, ending.result = .error error → commands.length < words.length) ∧
      read files serial words = ending.after events >>= Draft.finish := by
  refine ⟨fun commands events reading reaches => reaches.within, ?_⟩
  have loops : Loops files words ⟨0, .initial serial⟩ _ :=
    (cuts_cut words).loops (Nat.zero_le _) rfl
  obtain ⟨commands, events, last, ending, reaches, ends, same⟩ := loops
  have within := reaches.within
  have complete := ends.complete_iff within.position_le
  refine ⟨commands, events, last, ending, reaches, ends, ?_, ?_, ?_⟩
  · intro draft good
    have whole := complete.mp ⟨draft, good⟩
    have taken := within.taken
    rw [whole, List.take_length] at taken
    exact ⟨Nat.le_trans within.length_le within.position_le, taken⟩
  · intro error failed
    have short : last.position ≠ words.length := by
      intro whole
      obtain ⟨draft, good⟩ := complete.mpr whole
      cases failed.symm.trans good
    exact Nat.lt_of_le_of_lt within.length_le (Nat.lt_of_le_of_ne within.position_le short)
  · rw [read_eq_conclude, same]

end FlashHost.CommandLine
