import FlashHost.CommandLine.Command
import FlashHost.Package
import FlashHost.Reboot
import FlashHost.VendorId

/-!
# Command lines

A command line is read into a filter that selects the device and a queue of
operations. Commands take effect from left to right, except that reboots wait for
the end of the line. The first error ends the reading and nothing of it remains.
-/

set_option autoImplicit false

namespace FlashHost

structure Invocation where
  filter : Filter
  queue : Queue
deriving DecidableEq

namespace CommandLine

def signatureSize : Nat := 256

/-- What the commands so far amount to. -/
structure Draft where
  filter : Filter
  queue : Queue
  reboot : Reboot
deriving DecidableEq

namespace Draft

/-- The draft before the first command. An empty default serial number is none. -/
def initial (defaultSerial : Option String) : Draft :=
  ⟨⟨none, defaultSerial.filter (· ≠ "")⟩, .empty, .none⟩

def add (draft : Draft) (operations : List Operation) : Outcome Draft := do
  let queue ← draft.queue.enqueueAll operations
  return { draft with queue }

def request (draft : Draft) (reboot : Reboot) : Draft :=
  { draft with reboot := draft.reboot.request reboot }

def apply (files : Files) (draft : Draft) : Command → Outcome Draft
  | .serial serial =>
    return { draft with filter := { draft.filter with serial := some serial } }
  | .vendor text => do
    let id ← Outcome.ofExcept (VendorId.parse text)
    let vendorId := if id = 0 then none else some id
    return { draft with filter := { draft.filter with vendorId } }
  | .getvar name => draft.add [.display name name]
  | .erase partition => draft.add [.erase partition]
  | .signature path => do
    let data ← files.load path
    if data.size ≠ signatureSize then Outcome.fail (.signatureSize signatureSize)
    else draft.add [.download "signature" data, .command "signature" "installing signature"]
  | .reboot => return draft.request .toSystem
  | .rebootBootloader => return draft.request .toBootloader
  | .resume => draft.add [.command "continue" "resuming boot"]
  | .flash partition path => do
    let image ← files.load path
    draft.add [.flash partition image]
  | .flashAll path => do
    let operations ← Package.plan files path
    let draft ← draft.add operations
    return draft.request .toSystem
  | .oem [] => do
    Outcome.note .vendorCommandMissing
    return draft
  | .oem words => draft.add [.command (" ".intercalate ("oem" :: words)) ""]

def applyAll (files : Files) : Draft → List Command → Outcome Draft
  | draft, [] => return draft
  | draft, command :: commands => do
    let draft ← draft.apply files command
    applyAll files draft commands

def finish (draft : Draft) : Outcome Invocation := do
  let queue ← draft.reboot.resolve draft.queue
  return ⟨draft.filter, queue⟩

end Draft

def Ending.error? : Ending → Option Error
  | .complete => none
  | .missingArguments word => some (.missingArguments word.spelling word.arity)
  | .unknownCommand word => some (.unknownCommand word)

def read (files : Files) (defaultSerial : Option String) (words : List String) :
    Outcome Invocation := do
  let (commands, ending) := cut words
  let draft ← (Draft.initial defaultSerial).applyAll files commands
  match ending.error? with
  | some error => Outcome.fail error
  | none => draft.finish

end CommandLine

end FlashHost
