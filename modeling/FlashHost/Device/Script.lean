import FlashHost.Protocol.Transport

/-!
# Scripted devices

A device whose behaviour is laid down in advance: what each write reports, by its
number, and what each read gives, until there is nothing more to read.
-/

set_option autoImplicit false

namespace FlashHost

inductive WriteAnswer where
  | all
  /-- So many bytes as written, whatever was handed over. -/
  | count (size : Nat)
  | fault (text : String)
deriving DecidableEq, Repr

def WriteAnswer.result (size : Nat) : WriteAnswer → Except TransportFault Nat
  | .all => .ok size
  | .count written => .ok written
  | .fault text => .error (.other text)

inductive ReadAnswer where
  | packet (data : ByteArray)
  | fault (text : String)

/-- The answers that a device has left. Once the answers to writes are used up, every
write is reported as complete. -/
structure Script where
  writes : List WriteAnswer
  reads : List ReadAnswer

namespace Script

def write (data : ByteArray) (script : Script) : Call Script Nat :=
  match script.writes with
  | [] => ⟨.ok data.size, [], script⟩
  | answer :: writes => ⟨answer.result data.size, [], { script with writes }⟩

def read (buffer : ByteArray) (script : Script) : Call Script (Nat × ByteArray) :=
  match script.reads with
  | [] => ⟨.error (.other "no response"), [], script⟩
  | .packet data :: reads => ⟨.ok (receive data buffer), [], { script with reads }⟩
  | .fault text :: reads => ⟨.error (.other text), [], { script with reads }⟩

def transport : Transport Script where
  write := write
  read := read
  pending script := script.reads.length
  pending_read buffer script received := by
    unfold read at received ⊢
    split at received <;> simp_all [Except.isOk, Except.toBool]

end Script

end FlashHost
