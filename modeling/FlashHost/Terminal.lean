import FlashHost.Event
import FlashHost.Text.Seconds

/-!
# Progress on a terminal

Each step on the device becomes one line when it is closed. While a payload is on its
way a bar is active, which is only drawn where there is something to draw on.
-/

set_option autoImplicit false

namespace FlashHost

/-- The times that are shown on a terminal, in order. -/
abbrev Times := (number : Nat) → Duration

/-- The times that are left after a report: a step that is done, and the end of the queue, show
one. -/
def Times.after (times : Times) : Progress → Times
  | .okay | .finished => fun number => times (number + 1)
  | _ => times

/-- What the terminal keeps in mind: the step that is not closed, and whether a bar is
active. -/
structure Terminal where
  step : String
  bar : Bool
deriving DecidableEq, Repr

namespace Terminal

def initial : Terminal := ⟨"", false⟩

def line (text : String) : String :=
  text ++ "\n"

/-- The terminal after one piece of progress, and what is printed for it. Steps that are
done, and the end of the queue, show the time that has passed. -/
def print (elapsed : Duration) (terminal : Terminal) : Progress → Terminal × String
  | .begin description => ({ terminal with step := description }, "")
  | .transferStarted _ => ({ terminal with bar := true }, "")
  | .transferProgress _ => (terminal, "")
  | .transferDone => ({ terminal with bar := false }, "")
  | .okay => (initial, line (terminal.step ++ "... OKAY [" ++ elapsed.column ++ "s]"))
  | .failed reason =>
    let failure := "FAILED (" ++ reason ++ ")"
    (initial, line (if terminal.step = "" then failure else terminal.step ++ "... " ++ failure))
  | .info text => (terminal, line ("(bootloader) " ++ text))
  | .display label value => (terminal, line (label ++ ": " ++ value))
  | .notice message => (terminal, line message)
  | .finished =>
    ({ terminal with bar := false }, line ("finished. total time: " ++ elapsed.text ++ "s"))

end Terminal

end FlashHost
