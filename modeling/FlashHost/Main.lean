import FlashHost.Program.Arguments
import FlashHost.Usb.Bus
import FlashHost.Zip

/-!
# The command line program

The arguments, the environment and the disk are read here, and the output is written.
All that is decided is decided by `Program.invoke`. No bus is attached: every pass
lists no devices, so that a command line that needs one waits.
-/

set_option autoImplicit false

namespace FlashHost

def serialVariable : String := "ANDROID_SERIAL"

/-- The number of a system error, whose sign depends on the call that failed. -/
def errorNumber (code : UInt32) : Nat :=
  (min code (0 - code)).toNat

def faultOf (error : IO.Error) : FileFault :=
  match error with
  | .noFileOrDirectory _ _ _ => .missing
  | .inappropriateType _ code _ =>
    if errorNumber code = 21 then .isDirectory else .notDirectory
  | .invalidArgument _ code _ =>
    if errorNumber code = 36 then .nameTooLong else .system error.toString
  | _ => .system error.toString

def readPath (path : String) : IO (Except FileFault ByteArray) := do
  try
    return .ok (← IO.FS.readBinFile path)
  catch error =>
    return .error (faultOf error)

def readFiles (words : List String) : IO Files := do
  let paths := (CommandLine.cut words).1.filterMap (·.path?)
  let contents ← paths.mapM fun path => return (path, ← readPath path)
  return ⟨fun path => (contents.lookup path).getD (.error .missing), Zip.read⟩

def wordsOf : Program.Request → List String
  | .line _ words => words
  | .text _ | .refusal _ => []

end FlashHost

open FlashHost in
/-- Invoke the program, and go on waiting if it waits. -/
def main (arguments : List String) : IO UInt32 := do
  let request := Program.Arguments.request arguments
  let files ← readFiles (wordsOf request)
  let serial ← IO.getEnv serialVariable
  -- No step is ever timed, since no device is ever there.
  let conclusion :=
    Program.invoke Usb.bus Usb.Connection.transport id files serial (fun _ => ⟨0⟩) request [.ok []]
  IO.print conclusion.output
  IO.eprint conclusion.errors
  match conclusion.code with
  | some code => return UInt32.ofNat code
  | none =>
    repeat IO.sleep (UInt32.ofNat Discovery.pollInterval)
    return 0
