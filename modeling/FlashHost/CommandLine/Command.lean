/-!
# Commands

The words of a command line are cut into commands from left to right: a command
word and as many arguments as it takes. One command word takes all words that are
left. A line may end too early or hold a word that is no command word; the commands
before that stand all the same.
-/

set_option autoImplicit false

namespace FlashHost.CommandLine

inductive Command where
  | serial (serial : String)
  /-- Accept devices of this vendor, too. -/
  | vendor (id : String)
  | getvar (name : String)
  | erase (partition : String)
  | signature (path : String)
  | reboot
  | rebootBootloader
  | resume
  | flash (partition path : String)
  | flashAll (path : String)
  /-- A vendor's own command, in the words after its command word. -/
  | oem (words : List String)
deriving DecidableEq, Repr

inductive Word where
  | serial
  | vendor
  | getvar
  | erase
  | signature
  | reboot
  | rebootBootloader
  | resume
  | flash
  | flashAll
  | oem
deriving DecidableEq, Repr

namespace Word

def all : List Word :=
  [.serial, .vendor, .getvar, .erase, .signature, .reboot, .rebootBootloader, .resume, .flash,
   .flashAll, .oem]

def spelling : Word → String
  | .serial => "-s"
  | .vendor => "-i"
  | .getvar => "getvar"
  | .erase => "erase"
  | .signature => "signature"
  | .reboot => "reboot"
  | .rebootBootloader => "reboot-bootloader"
  | .resume => "continue"
  | .flash => "flash"
  | .flashAll => "flashall"
  | .oem => "oem"

def ofString? (text : String) : Option Word :=
  all.find? fun word => word.spelling == text

def arity : Word → Nat
  | .serial | .vendor | .getvar | .erase | .signature | .flashAll => 1
  | .flash => 2
  | .reboot | .rebootBootloader | .resume | .oem => 0

/-- The command of a word with the arguments that stand after it, and what is left of
those; nothing if there are too few. -/
def command? : Word → List String → Option (Command × List String)
  | .serial, text :: rest => some (.serial text, rest)
  | .vendor, id :: rest => some (.vendor id, rest)
  | .getvar, name :: rest => some (.getvar name, rest)
  | .erase, partition :: rest => some (.erase partition, rest)
  | .signature, path :: rest => some (.signature path, rest)
  | .reboot, rest => some (.reboot, rest)
  | .rebootBootloader, rest => some (.rebootBootloader, rest)
  | .resume, rest => some (.resume, rest)
  | .flash, partition :: path :: rest => some (.flash partition path, rest)
  | .flashAll, path :: rest => some (.flashAll path, rest)
  | .oem, words => some (.oem words, [])
  | _, _ => none

/-- A command leaves no more words than stood after its command word. -/
theorem length_le_of_command? {word : Word} {words rest : List String} {command : Command}
    (taken : word.command? words = some (command, rest)) : rest.length ≤ words.length := by
  unfold command? at taken
  split at taken <;> grind

end Word

namespace Command

def word : Command → Word
  | .serial _ => .serial
  | .vendor _ => .vendor
  | .getvar _ => .getvar
  | .erase _ => .erase
  | .signature _ => .signature
  | .reboot => .reboot
  | .rebootBootloader => .rebootBootloader
  | .resume => .resume
  | .flash _ _ => .flash
  | .flashAll _ => .flashAll
  | .oem _ => .oem

def arguments : Command → List String
  | .serial text => [text]
  | .vendor id => [id]
  | .getvar name => [name]
  | .erase partition => [partition]
  | .signature path => [path]
  | .reboot | .rebootBootloader | .resume => []
  | .flash partition path => [partition, path]
  | .flashAll path => [path]
  | .oem words => words

def words (command : Command) : List String :=
  command.word.spelling :: command.arguments

def path? : Command → Option String
  | .signature path | .flash _ path | .flashAll path => some path
  | _ => none

end Command

inductive Ending where
  | complete
  | missingArguments (word : Word)
  | unknownCommand (word : String)
deriving DecidableEq, Repr

def cut : List String → List Command × Ending
  | [] => ([], .complete)
  | text :: words =>
    match Word.ofString? text with
    | none => ([], .unknownCommand text)
    | some word =>
      match _taken : word.command? words with
      | none => ([], .missingArguments word)
      | some (command, rest) =>
        let (commands, ending) := cut rest
        (command :: commands, ending)
termination_by words => words.length
decreasing_by
  have := Word.length_le_of_command? _taken
  simp only [List.length_cons]
  omega

end FlashHost.CommandLine
