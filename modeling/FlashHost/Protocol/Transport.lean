import FlashHost.Event

/-!
# Transports

A transport moves bytes to and from one device. It is known by what a write and a
read do to the state of the device, which is opaque to everything above. A device
has only so many packets to give, so that a conversation comes to an end.
-/

set_option autoImplicit false

namespace FlashHost

/-- What one call of a transport amounts to: its result, the transfers below it, and
the state of the device after it. -/
structure Call (σ α : Type) where
  result : Except TransportFault α
  transfers : List Transfer
  device : σ

/-- A byte pipe to a device. A write hands over one complete command or piece of a
payload and says how many bytes were written. A read fills the front of a buffer with
one packet and says how long that is. -/
structure Transport (σ : Type) where
  /-- The count is of bytes of the buffer, which lies in memory. It is far below the greatest
  word, so sums of counts need no bound. -/
  write : ByteArray → σ → Call σ Nat
  read : ByteArray → σ → Call σ (Nat × ByteArray)
  /-- A bound on the packets that can still be read. -/
  pending : σ → Nat
  /-- Every packet that is read uses the bound up. -/
  pending_read : ∀ buffer device, (read buffer device).result.isOk →
    pending (read buffer device).device < pending device

/-- The length of a packet in a buffer, and the buffer with the packet at its front. A
packet that is too long is cut; what stood behind a shorter one stays. -/
def receive (packet buffer : ByteArray) : Nat × ByteArray :=
  let size := min packet.size buffer.size
  (size, packet.extract 0 size ++ buffer.extract size buffer.size)

/-- Consecutive pieces of some bytes from an offset on, each of `size` bytes except the
last, which may be shorter. There is no empty piece. -/
def piecesFrom (size : Nat) (data : ByteArray) (offset : Nat) : List ByteArray :=
  if 0 < size ∧ offset < data.size then
    data.extract offset (offset + size) :: piecesFrom size data (offset + size)
  else []
termination_by data.size - offset

def pieces (size : Nat) (data : ByteArray) : List ByteArray :=
  piecesFrom size data 0

end FlashHost
