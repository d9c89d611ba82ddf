import FlashHost.CommandLine.Command

/-!
# Lines and their commands

How a line is cut into commands, as a relation with one rule for each way in which a line can
begin. The relation determines commands and ending, and `cut` finds them.
-/

set_option autoImplicit false

namespace FlashHost.CommandLine

namespace Word

theorem ofString?_spelling (word : Word) : ofString? word.spelling = some word := by
  cases word <;> decide

theorem ofString?_eq_none {text : String} (unknown : ∀ word : Word, text ≠ word.spelling) :
    ofString? text = none := by
  refine List.find?_eq_none.mpr fun word _ same => ?_
  exact unknown word (beq_iff_eq.mp same).symm

theorem spelling_of_ofString? {text : String} {word : Word} (known : ofString? text = some word) :
    text = word.spelling := by
  rw [ofString?] at known
  have same := List.find?_some known
  exact (beq_iff_eq.mp same).symm

private theorem ne_spelling_of_ofString? {text : String} (unknown : ofString? text = none) (word : Word) :
    text ≠ word.spelling := by
  rintro rfl
  rw [ofString?_spelling] at unknown
  cases unknown

/-- A command is taken from the words after its own if these begin with its arguments. -/
theorem command?_arguments {command : Command} (closed : command.word ≠ .oem)
    (rest : List String) :
    command.word.command? (command.arguments ++ rest) = some (command, rest) := by
  cases command with
  | oem words => exact absurd rfl closed
  | _ => rfl

theorem command?_eq_none_iff {word : Word} {words : List String} :
    word.command? words = none ↔ words.length < word.arity := by
  rcases words with _ | ⟨first, _ | ⟨second, words⟩⟩ <;> cases word <;> simp [command?, arity]

private theorem arguments_of_command? {word : Word} {words rest : List String} {command : Command}
    (taken : word.command? words = some (command, rest)) :
    command.word = word ∧ words = command.arguments ++ rest ∧ (word = .oem → rest = []) := by
  unfold command? at taken
  split at taken <;> cases taken <;> simp [Command.word, Command.arguments]

end Word

/-- The commands of a line and its ending. A command has all of its arguments; the one that
takes every word that is left is the last. -/
inductive Cuts : List String → List Command → Ending → Prop where
  | nil : Cuts [] [] .complete
  | unknown {text words} :
      (∀ word : Word, text ≠ word.spelling) → Cuts (text :: words) [] (.unknownCommand text)
  | missing {word arguments} :
      arguments.length < word.arity →
      Cuts (word.spelling :: arguments) [] (.missingArguments word)
  | command {command rest commands ending} :
      command.word ≠ .oem → Cuts rest commands ending →
      Cuts (command.words ++ rest) (command :: commands) ending
  | oem {arguments} : Cuts (Word.oem.spelling :: arguments) [.oem arguments] .complete

/-- Commands that leave words to others may stand before any line. -/
theorem Cuts.after {words : List String} {commands : List Command} {ending : Ending}
    (cuts : Cuts words commands ending) {front : List Command}
    (closed : ∀ command ∈ front, command.word ≠ .oem) :
    Cuts (front.flatMap Command.words ++ words) (front ++ commands) ending := by
  induction front with
  | nil => exact cuts
  | cons command front ih =>
      obtain ⟨own, others⟩ := List.forall_mem_cons.mp closed
      rw [List.flatMap_cons, List.append_assoc]
      exact .command own (ih others)

private theorem cut_unknown {text : String} (unknown : ∀ word : Word, text ≠ word.spelling)
    (words : List String) : cut (text :: words) = ([], .unknownCommand text) := by
  rw [cut, Word.ofString?_eq_none unknown]

theorem cut_spelling (word : Word) (words : List String) :
    cut (word.spelling :: words) =
      match word.command? words with
      | none => ([], .missingArguments word)
      | some (command, rest) => (command :: (cut rest).1, (cut rest).2) := by
  rw [cut, Word.ofString?_spelling]
  dsimp only
  split <;> simp [*]

theorem cut_missing {word : Word} {arguments : List String}
    (short : arguments.length < word.arity) :
    cut (word.spelling :: arguments) = ([], .missingArguments word) := by
  rw [cut_spelling, Word.command?_eq_none_iff.mpr short]

theorem cut_words_append {command : Command} (closed : command.word ≠ .oem)
    (rest : List String) :
    cut (command.words ++ rest) = (command :: (cut rest).1, (cut rest).2) := by
  rw [Command.words, List.cons_append, cut_spelling, Word.command?_arguments closed]

private theorem cut_oem (arguments : List String) :
    cut (Word.oem.spelling :: arguments) = ([.oem arguments], .complete) := by
  rw [cut_spelling]
  simp [Word.command?, cut]

theorem cuts_cut (words : List String) : Cuts words (cut words).1 (cut words).2 := by
  fun_induction cut words with
  | case1 => exact .nil
  | case2 text words unknown => exact .unknown (Word.ne_spelling_of_ofString? unknown)
  | case3 text words word known missing =>
      rw [Word.spelling_of_ofString? known]
      exact .missing (Word.command?_eq_none_iff.mp missing)
  | case4 text words word known command rest taken commands ending same ih =>
      rw [same] at ih
      obtain ⟨rfl, rfl, last⟩ := Word.arguments_of_command? taken
      rw [Word.spelling_of_ofString? known]
      by_cases final : command.word = .oem
      · cases command with
        | oem arguments =>
            obtain rfl := last final
            rw [cut] at same
            cases same
            rw [List.append_nil]
            exact .oem
        | _ => cases final
      · exact .command final ih

theorem Cuts.cut_eq {words : List String} {commands : List Command} {ending : Ending}
    (cuts : Cuts words commands ending) : cut words = (commands, ending) := by
  induction cuts with
  | nil => rw [cut]
  | unknown unknown => exact cut_unknown unknown _
  | missing short => exact cut_missing short
  | command closed _ ih => rw [cut_words_append closed, ih]
  | oem => exact cut_oem _

end FlashHost.CommandLine
