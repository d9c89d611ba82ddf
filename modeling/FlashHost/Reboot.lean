import FlashHost.Outcome

/-!
# Reboot requests

Reboots asked for on the command line are only carried out at its end, and only the
one of highest priority is.
-/

set_option autoImplicit false

namespace FlashHost

/-- What the command line asks for at its end, the least first. -/
inductive Reboot where
  | none
  | toBootloader
  | toSystem
deriving DecidableEq, Repr

namespace Reboot

def priority : Reboot → Nat
  | .none => 0
  | .toBootloader => 1
  | .toSystem => 2

/-- The request of higher priority. -/
def request (earlier later : Reboot) : Reboot :=
  if earlier.priority < later.priority then later else earlier

def operation? : Reboot → Option Operation
  | .none => Option.none
  | .toBootloader => some (.command "reboot-bootloader" "rebooting into bootloader")
  | .toSystem => some .reboot

def resolve (reboot : Reboot) (queue : Queue) : Outcome Queue :=
  queue.enqueueAll reboot.operation?.toList

end Reboot

end FlashHost
