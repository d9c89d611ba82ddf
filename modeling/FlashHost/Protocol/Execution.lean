import FlashHost.Protocol.Download

/-!
# Execution of queues

The operations of a queue run one after another, in order, and the first failure
ends the run. All that an operation does on the device is done in steps, each of
which is begun and then closed as done or as failed.
-/

set_option autoImplicit false

namespace FlashHost.Protocol

variable {σ : Type}

/-- Run one step and close it. A refusal by the device is reported with the name of the
step. -/
def step (description : String) (body : Session σ Unit) : Session σ Unit := do
  Session.report (.begin description)
  match ← body.attempt with
  | .ok () => Session.report .okay
  | .error error =>
    Session.report (.failed error.message)
    Session.fail (error.inStep description)

def commandStep (transport : Transport σ) (description command : String) : Session σ Unit :=
  step description do
    let _ ← expectOkay transport command

def sendingText (name : String) (size : Nat) : String :=
  "sending '" ++ name ++ "' (" ++ toString (size / 1024) ++ " KB)"

def downloadStep (transport : Transport σ) (name : String) (payload : ByteArray) :
    Session σ Unit :=
  step (sendingText name payload.size) (download transport payload)

def showVariable (transport : Transport σ) (name label : String) : Session σ Unit := do
  let command := "getvar:" ++ name
  match ← (expectOkay transport command).attempt with
  | .ok value => Session.report (.display label value)
  | .error error =>
    Session.report (.failed (command ++ " (" ++ error.message ++ ")"))
    Session.fail (error.inStep command)

def run (transport : Transport σ) : Operation → Session σ Unit
  | .flash partition image => do
    downloadStep transport partition image
    commandStep transport ("writing '" ++ partition ++ "'") ("flash:" ++ partition)
  | .erase partition =>
    commandStep transport ("erasing '" ++ partition ++ "'") ("erase:" ++ partition)
  | .display name label => showVariable transport name label
  | .notice message => Session.report (.notice message)
  | .command line message => commandStep transport (if message = "" then line else message) line
  | .reboot => commandStep transport "rebooting" "reboot"
  | .rebootBootloader =>
    commandStep transport "rebooting into bootloader" "reboot-bootloader"
  | .download tag payload => downloadStep transport tag payload

def runAll (transport : Transport σ) : List Operation → Session σ Unit
  | [] => return ()
  | operation :: operations => do
    run transport operation
    runAll transport operations

def execute (transport : Transport σ) (queue : Queue) : Session σ Unit := do
  Session.note (.executing queue.size queue.payloadSize)
  runAll transport queue.toList
  Session.report .finished

end FlashHost.Protocol
