import FlashHost.Note

/-!
# Events

Everything that an invocation does that can be seen from outside it, in order:
what it hands to the device and the host and what they answer, what it reports to
the user, and what it notes in the log.
-/

set_option autoImplicit false

namespace FlashHost

/-- What the execution of a queue reports to the user. -/
inductive Progress where
  | begin (description : String)
  | transferStarted (size : Nat)
  | transferProgress (sent : Nat)
  | transferDone
  | okay
  | failed (reason : String)
  | info (text : String)
  | display (label value : String)
  | notice (message : String)
  | finished
deriving DecidableEq, Repr

inductive Transfer where
  /-- Bytes were submitted, and so many of them taken. -/
  | outgoing (endpoint : UInt8) (data : ByteArray) (outcome : Except TransferFault Nat)
  /-- A packet was asked for, and this one received. -/
  | incoming (endpoint : UInt8) (limit : Nat) (outcome : Except TransferFault ByteArray)

inductive Verdict where
  | accept
  | pass
deriving DecidableEq, Repr

inductive Event where
  | enumerated
  | visited (device : Descriptor) (verdict : Verdict)
  /-- The device at a position of the listing was opened, or tried to be. -/
  | openAttempted (position : Nat)
  | configurationRead (position : Nat)
  | claimAttempted (position : Nat) (interface : UInt8)
  | written (data : ByteArray) (outcome : Except TransportFault Nat)
  | read (outcome : Except TransportFault ByteArray)
  | transferred (transfer : Transfer)
  | progress (progress : Progress)
  | waiting
  /-- So many bytes were taken of the content at a position of an archive, up to its end
  or not. -/
  | drawn (position size : Nat) (ended : Bool)
  | printed (line : String)
  | usageShown
  | noted (note : Note)

namespace Event

/-- The log note that an event leaves. A transfer that succeeds leaves one too. -/
def note? : Event → Option Note
  | .noted note => some note
  | .transferred (.outgoing _ _ (.ok size)) => some (.transferredOut size)
  | .transferred (.incoming _ _ (.ok packet)) => some (.transferredIn packet.size)
  | _ => none

def logLines (level : Level) (events : List Event) : List String :=
  let notes := events.filterMap note?
  (notes.filter fun note => note.level.within level).map Note.line

end Event

end FlashHost
