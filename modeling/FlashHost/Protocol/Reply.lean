import FlashHost.Protocol.Session

/-!
# Commands and replies

A command is a short text. The device answers it with any number of packets of
information, which go to the user, and one final packet: a result, an invitation to
send a payload, or a refusal.
-/

set_option autoImplicit false

namespace FlashHost

/-- What a command that was not refused leads to. -/
inductive Reply where
  | okay (text : String)
  | data (size : Nat)
deriving DecidableEq, Repr

namespace Protocol

variable {σ : Type}

def maxCommandSize : Nat := 64

def maxPacketSize : Nat := 64

def packetBuffer : ByteArray :=
  ⟨Array.replicate maxPacketSize 0⟩

/-- Read packets up to the final one, in a buffer that may hold what earlier packets left
behind. -/
def readReplyInto (transport : Transport σ) (buffer : ByteArray) : Session σ Reply :=
  fun device =>
    match _received : Session.read transport buffer device with
    | (⟨.error error, events⟩, device) => (⟨.error error, events⟩, device)
    | (⟨.ok (size, buffer), events⟩, next) =>
      match Response.parse (buffer.extract 0 size) with
      | .error fault => (⟨.error (.protocol fault), events⟩, next)
      | .ok response =>
        let events := events ++ [.noted (.received response)]
        match response with
        | .okay text => (⟨.ok (.okay text), events⟩, next)
        | .data size => (⟨.ok (.data size), events⟩, next)
        | .fail reason => (⟨.error (.remote none reason), events⟩, next)
        | .info text =>
          let (outcome, last) := readReplyInto transport buffer next
          (outcome.after (events ++ [.progress (.info text)]), last)
termination_by device => transport.pending device
decreasing_by exact Session.pending_lt_of_read _received

def readReply (transport : Transport σ) : Session σ Reply :=
  readReplyInto transport packetBuffer

def sendCommand (transport : Transport σ) (command : String) : Session σ Reply := do
  if maxCommandSize < command.utf8ByteSize then Session.fail (.commandTooLarge command)
  else
    Session.note (.sent command)
    let written ← Session.write transport command.toUTF8
    if written ≠ command.utf8ByteSize then
      Session.fail (.transport (.commandCutShort written command.utf8ByteSize))
    else readReply transport

def expectOkay (transport : Transport σ) (command : String) : Session σ String := do
  match ← sendCommand transport command with
  | .okay text => return text
  | .data _ => Session.fail (.protocol (.unexpectedData command))

end Protocol

end FlashHost
