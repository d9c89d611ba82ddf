import FlashHost.CommandLine
import FlashHost.Proofs.Loading

/-!
# Reading in quiet

A command line is read in quiet: files are loaded and archives unpacked, but nothing is printed
and no device is looked at.
-/

set_option autoImplicit false

namespace FlashHost

/-- What leaves the user and the devices alone: notes for the log, and bytes that are taken of
an archive in memory. -/
def Event.IsQuiet : Event → Prop
  | .noted _ | .drawn _ _ _ => True
  | _ => False

abbrev Outcome.Quiet {α : Type} (outcome : Outcome α) : Prop :=
  outcome.Only Event.IsQuiet

open Outcome

theorem Queue.quiet_enqueueAll (queue : Queue) (operations : List Operation) :
    (queue.enqueueAll operations).Quiet := by
  induction operations generalizing queue with
  | nil => exact only_pure _
  | cons operation operations ih =>
      exact ((only_emit trivial).bind fun _ => only_pure _).bind fun queue => ih queue

theorem Outcome.Loads.quiet {α : Type} {outcome : Outcome α} (loads : outcome.Loads) :
    outcome.Quiet := by
  refine loads.imp fun event loading => ?_
  cases event with
  | noted note => trivial
  | drawn position size ended => trivial
  | _ => exact loading.elim

namespace CommandLine

namespace Draft

theorem quiet_add (draft : Draft) (operations : List Operation) : (draft.add operations).Quiet :=
  (draft.queue.quiet_enqueueAll operations).bind fun _ => only_pure _

private theorem quiet_apply (files : Files) (draft : Draft) (command : Command) :
    (draft.apply files command).Quiet := by
  cases command with
  | serial serial => exact only_pure _
  | vendor text => exact (only_ofExcept _).bind fun _ => only_pure _
  | signature path =>
      refine (files.loads_load path).quiet.bind fun data => ?_
      split
      · exact only_fail _
      · exact draft.quiet_add _
  | reboot => exact only_pure _
  | rebootBootloader => exact only_pure _
  | flash partition path =>
      exact (files.loads_load path).quiet.bind fun image => draft.quiet_add _
  | flashAll path =>
      exact (Package.loads_plan files path).quiet.bind fun operations =>
        (draft.quiet_add operations).bind fun _ => only_pure _
  | oem words =>
      cases words with
      | nil => exact Only.bind (only_emit trivial) fun _ => only_pure _
      | cons word words => exact draft.quiet_add _
  | getvar name => exact draft.quiet_add _
  | erase partition => exact draft.quiet_add _
  | resume => exact draft.quiet_add _

private theorem quiet_applyAll (files : Files) (draft : Draft) (commands : List Command) :
    (draft.applyAll files commands).Quiet := by
  induction commands generalizing draft with
  | nil => exact only_pure _
  | cons command commands ih => exact (draft.quiet_apply files command).bind ih

end Draft

/-- A line is read in quiet, whether it is accepted or not. -/
theorem quiet_read (files : Files) (serial : Option String) (words : List String) :
    (read files serial words).Quiet := by
  refine (Draft.quiet_applyAll files (Draft.initial serial) (cut words).1).bind fun draft => ?_
  cases (cut words).2.error? with
  | some error => exact only_fail error
  | none => exact (draft.queue.quiet_enqueueAll _).bind fun _ => only_pure _

end CommandLine

end FlashHost
