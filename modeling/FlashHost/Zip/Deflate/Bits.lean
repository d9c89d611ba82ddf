import FlashHost.Zip.Field

/-!
# Bit streams

Compressed data is a stream of bits, the least significant bit of each byte first.
A position counts bits from the start of the data.

The data comes in chunks and the output goes out in windows. What has been decoded is handed
on where a chunk is used up or a window is full, so that corrupt data takes with it the output
since then.
-/

set_option autoImplicit false

namespace FlashHost.Zip.Deflate

inductive Halt where
  | corrupt
  | incomplete
deriving DecidableEq, Repr

structure State where
  position : Nat
  out : ByteArray
  /-- How many bytes of the output have been handed on. -/
  handedOn : Nat

abbrev Decoder := EStateM Halt State

def corrupt {α : Type} : Decoder α := throw .corrupt

def chunkSize : Nat := 8192

def windowSize : Nat := 32768

def bit (data : ByteArray) : Decoder Nat := fun state =>
  let position := state.position
  if position < 8 * data.size then
    let handedOn := if position % (8 * chunkSize) = 0 then state.out.size else state.handedOn
    .ok (((byteAt data (position / 8)).toNat >>> (position % 8)) % 2)
      { state with position := position + 1, handedOn }
  else .error .incomplete state

/-- The number in the next `width` bits, least significant first. -/
def bits (data : ByteArray) : (width : Nat) → Decoder Nat
  | 0 => return 0
  | width + 1 => do
    let low ← bit data
    let high ← bits data width
    return low + 2 * high

def align : Decoder Unit :=
  modify fun state => { state with position := (state.position + 7) / 8 * 8 }

def push (byte : UInt8) : Decoder Unit :=
  modify fun { position, out, handedOn } =>
    let handedOn := if out.size % windowSize = 0 then out.size else handedOn
    ⟨position, out.push byte, handedOn⟩

end FlashHost.Zip.Deflate
