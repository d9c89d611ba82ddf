import FlashHost.CommandLine
import FlashHost.Discovery.Roster
import FlashHost.Protocol.Execution
import FlashHost.Terminal
import FlashHost.Usage

/-!
# The program

A command line is read in full before the bus is looked at. Two words are carried out
at once, without a queue, if they come first: one lists the devices and one shows the
usage text. All else needs a device, and waits for one if there is none.
-/

set_option autoImplicit false

namespace FlashHost.Program

/-- A word that is carried out without a queue. -/
inductive Direct where
  | devices
  | help
deriving DecidableEq, Repr

namespace Direct

def spelling : Direct → String
  | .devices => "devices"
  | .help => "help"

/-- The word that a line begins with, if it is one of these. -/
def ofLine? : List String → Option Direct
  | [] => none
  | word :: _ => [devices, help].find? fun direct => direct.spelling == word

end Direct

inductive Rest where
  | done
  | waiting
deriving DecidableEq, Repr

def listingLine (device : Descriptor) : String :=
  device.displaySerial ++ "\tfastboot"

variable {ρ η σ : Type}

def listDevices (bus : Bus ρ η) (pass : ρ) : Outcome Unit := do
  let devices ← Discovery.list bus .any pass
  Outcome.note (.devicesFound devices.length)
  Outcome.emitAll (devices.map fun device => .printed (listingLine device))

def carryOut (bus : Bus ρ η) (transport : Transport σ) (connect : η → σ)
    (invocation : Invocation) (passes : List ρ) : Outcome Rest := do
  let (acquired, events) := Discovery.acquire bus invocation.filter passes
  Outcome.emitAll events
  match acquired with
  | none => return .waiting
  | some (device, _) => do
    (Protocol.execute transport invocation.queue (connect device)).1
    return .done

/-- Run a command line against the passes over a bus. A device of the bus is talked to
through a transport, once connected. -/
def run (bus : Bus ρ η) (transport : Transport σ) (connect : η → σ) (files : Files)
    (defaultSerial : Option String) (words : List String) (passes : List ρ) : Outcome Rest := do
  if words = [] then Outcome.fail .noCommand
  else
    match Direct.ofLine? words with
    | some .devices =>
      match passes with
      | [] => return .waiting
      | pass :: _ => do
        listDevices bus pass
        return .done
    | some .help => do
      Outcome.emit .usageShown
      return .done
    | none => do
      let invocation ← CommandLine.read files defaultSerial words
      Outcome.note (.lineRead invocation.queue.size invocation.filter)
      carryOut bus transport connect invocation passes

/-- The text that reports an error. Errors in the line come with the usage text. -/
def errorReport (error : Error) : String :=
  (if error.kind = .usage then Usage.text else "") ++ "error: " ++ error.message ++ "\n"

def waitingText : String :=
  "< waiting for device >\n"

def outputText (events : List Event) : String :=
  String.join (events.map fun
    | .printed line => line ++ "\n"
    | _ => "")

/-- What events other than progress put on the standard error. -/
def noticeText (events : List Event) : String :=
  String.join (events.map fun
    | .waiting => waitingText
    | .usageShown => Usage.text
    | _ => "")

/-- What events put on the standard error, progress included. Each report that shows a time
shows the next one. -/
def terminalText : Times → Terminal → List Event → String
  | _, _, [] => ""
  | times, terminal, .progress report :: events =>
    let (terminal, text) := terminal.print (times 0) report
    text ++ terminalText (times.after report) terminal events
  | times, terminal, event :: events =>
    noticeText [event] ++ terminalText times terminal events

inductive Request where
  | line (verbosity : Nat) (words : List String)
  | text (text : String)
  | refusal (text : String)
deriving DecidableEq, Repr

/-- What the program leaves behind: its exit code, unless it still waits, its two output
streams, and everything that it did. -/
structure Conclusion where
  code : Option Nat
  output : String
  errors : String
  events : List Event

/-- Carry out a request. The times that are shown on the way are given in their order. -/
def invoke (bus : Bus ρ η) (transport : Transport σ) (connect : η → σ) (files : Files)
    (defaultSerial : Option String) (times : Times) (request : Request) (passes : List ρ) :
    Conclusion :=
  match request with
  | .text text => ⟨some 0, text, "", []⟩
  | .refusal text => ⟨some 2, "", text, []⟩
  | .line _ words =>
    let outcome := run bus transport connect files defaultSerial words passes
    let output := outputText outcome.events
    let errors := terminalText times .initial outcome.events
    match outcome.result with
    | .ok .done => ⟨some 0, output, errors, outcome.events⟩
    | .ok .waiting => ⟨none, output, errors, outcome.events⟩
    | .error error => ⟨some 1, output, errors ++ errorReport error, outcome.events⟩

end FlashHost.Program
