import FlashHost.Program

/-!
# Arguments

Flags that concern the program as a whole stand before the words of the command
line. The first argument that is no such flag ends them; a double dash ends them,
too, and is not itself part of the line. Only the outermost layer of the program refers to
this reader of arguments.
-/

set_option autoImplicit false

namespace FlashHost.Program.Arguments

inductive Flag where
  | verbose
  | help
  | version
deriving DecidableEq, Repr

namespace Flag

def all : List Flag := [.verbose, .help, .version]

def letter : Flag → Char
  | .verbose => 'v'
  | .help => 'h'
  | .version => 'V'

def longForm : Flag → String
  | .verbose => "--verbose"
  | .help => "--help"
  | .version => "--version"

/-- The long form with dots if the flag may be given more than once. -/
def shownForm : Flag → String
  | .verbose => "--verbose..."
  | flag => flag.longForm

def ofLetter? (c : Char) : Option Flag :=
  all.find? fun flag => flag.letter == c

def value? (flag : Flag) (argument : String) : Option String :=
  let stem := (flag.longForm ++ "=").toList
  let argument := argument.toList
  if stem.isPrefixOf argument then some (String.ofList (argument.drop stem.length)) else none

end Flag

inductive Argument where
  | flags (flags : List Flag)
  | endOfFlags
  | valued (flag : Flag) (value : String)
  | ordinary
deriving DecidableEq, Repr

/-- The flags of a cluster, if it holds nothing else. -/
def cluster? : List Char → Option (List Flag)
  | [] => some []
  | c :: cs =>
    match Flag.ofLetter? c, cluster? cs with
    | some flag, some flags => some (flag :: flags)
    | _, _ => none

def Argument.of (argument : String) : Argument :=
  if argument = "--" then .endOfFlags
  else
    match Flag.all.find? (·.longForm == argument) with
    | some flag => .flags [flag]
    | none =>
      match Flag.all.findSome? fun flag => (flag.value? argument).map (flag, ·) with
      | some (flag, value) => .valued flag value
      | none =>
        match argument.toList with
        | '-' :: c :: cs =>
          match cluster? (c :: cs) with
          | some given => .flags given
          | none => .ordinary
        | _ => .ordinary

inductive Reading where
  /-- A command line is to be carried out, with a degree of verbosity. -/
  | line (verbosity : Nat) (words : List String)
  | help
  | version
  /-- A flag was given a value, after flags that amount to some verbosity. -/
  | unexpectedValue (verbosity : Nat) (flag : Flag) (value : String)
deriving DecidableEq, Repr

def maxVerbosity : Nat := 255

def countFlags : (verbosity : Nat) → List Flag → Except Reading Nat
  | verbosity, [] => .ok verbosity
  | verbosity, .verbose :: flags => countFlags (min (verbosity + 1) maxVerbosity) flags
  | _, .help :: _ => .error .help
  | _, .version :: _ => .error .version

def readFrom : (verbosity : Nat) → List String → Reading
  | verbosity, [] => .line verbosity []
  | verbosity, argument :: rest =>
    match Argument.of argument with
    | .endOfFlags => .line verbosity rest
    | .ordinary => .line verbosity (argument :: rest)
    | .valued flag value => .unexpectedValue verbosity flag value
    | .flags flags =>
      match countFlags verbosity flags with
      | .ok verbosity => readFrom verbosity rest
      | .error reading => reading

def read (arguments : List String) : Reading :=
  readFrom 0 arguments

/-- The usage of the program as a report shows it: the flag that is reported, and how the
line may go on. Verbosity and words belong to one group, which is shown as a whole in
place of its members once one of them is given. -/
def usageForms (verbosity : Nat) (flag : Flag) : List String :=
  if verbosity = 0 then [flag.shownForm, "[COMMAND]..."]
  else
    let group := "<" ++ Flag.shownForm .verbose ++ "|COMMAND>"
    if flag = .verbose then [group] else [flag.shownForm, group]

def unexpectedValueText (verbosity : Nat) (flag : Flag) (value : String) : String :=
  "error: unexpected value '" ++ value ++ "' for '" ++ flag.shownForm ++
    "' found; no more were expected\n\nUsage: " ++
    " ".intercalate ("fastboot" :: usageForms verbosity flag) ++
    "\n\nFor more information, try '--help'.\n"

def request (arguments : List String) : Request :=
  match read arguments with
  | .line verbosity words => .line verbosity words
  | .help => .text Usage.helpText
  | .version => .text Usage.versionText
  | .unexpectedValue verbosity flag value =>
    .refusal (unexpectedValueText verbosity flag value)

end FlashHost.Program.Arguments
