import FlashHost.Zip.Deflate.Code

/-!
# Inflating

A stream is a sequence of blocks, the last of them marked. A block holds bytes as
they are, or symbols in a fixed pair of codes or in a pair that it defines itself:
literal bytes, and copies of earlier output given by a length and a distance. The output
before the first byte counts as zeros, as far back as a distance can reach.
-/

set_option autoImplicit false

namespace FlashHost.Zip.Deflate

def lengthTable : Array (Nat × Nat) :=
  #[(3, 0), (4, 0), (5, 0), (6, 0), (7, 0), (8, 0), (9, 0), (10, 0), (11, 1), (13, 1), (15, 1),
    (17, 1), (19, 2), (23, 2), (27, 2), (31, 2), (35, 3), (43, 3), (51, 3), (59, 3), (67, 4),
    (83, 4), (99, 4), (115, 4), (131, 5), (163, 5), (195, 5), (227, 5), (258, 0)]

def distanceTable : Array (Nat × Nat) :=
  #[(1, 0), (2, 0), (3, 0), (4, 0), (5, 1), (7, 1), (9, 2), (13, 2), (17, 3), (25, 3), (33, 4),
    (49, 4), (65, 5), (97, 5), (129, 6), (193, 6), (257, 7), (385, 7), (513, 8), (769, 8),
    (1025, 9), (1537, 9), (2049, 10), (3073, 10), (4097, 11), (6145, 11), (8193, 12),
    (12289, 12), (16385, 13), (24577, 13)]

def extended (table : Array (Nat × Nat)) (symbol : Nat) (data : ByteArray) : Decoder Nat :=
  match table[symbol]? with
  | none => corrupt
  | some (least, width) => return least + (← bits data width)

/-- Copy `length` bytes from `distance` back to the end of the output. The copy may run into
the bytes that it adds. -/
def copy (distance : Nat) : (length : Nat) → Decoder Unit
  | 0 => return
  | length + 1 => do
    let out := (← get).out
    push (if distance ≤ out.size then byteAt out (out.size - distance) else 0)
    copy distance length

/-- The symbols of a block up to the one that ends it. Every symbol takes at least one
bit, so the number of bits of the data is fuel enough. -/
def symbols (data : ByteArray) (literals distances : Code) : (fuel : Nat) → Decoder Unit
  | 0 => throw .incomplete
  | fuel + 1 => do
    let symbol ← literals.decode data
    if symbol < 256 then
      push symbol.toUInt8
      symbols data literals distances fuel
    else if symbol = 256 then return
    else
      let length ← extended lengthTable (symbol - 257) data
      let distance ← extended distanceTable (← distances.decode data) data
      copy distance length
      symbols data literals distances fuel

def fixedCodes : Code × Code :=
  let literals := List.replicate 144 8 ++ List.replicate 112 9 ++ List.replicate 24 7 ++
    List.replicate 8 8
  (Code.ofLengths literals.toArray, Code.ofLengths (Array.replicate 32 5))

def lengthOrder : List Nat :=
  [16, 17, 18, 0, 8, 7, 9, 6, 10, 5, 11, 4, 12, 3, 13, 2, 14, 1, 15]

def lengthLengths (data : ByteArray) : List Nat → Array Nat → Decoder (Array Nat)
  | [], lengths => return lengths
  | symbol :: order, lengths => do
    let length ← bits data 3
    lengthLengths data order (lengths.setIfInBounds symbol length)

/-- Code lengths up to a total number of them. A symbol above 15 repeats the length before it,
or zeros. Every symbol adds a length, so the total is fuel enough. -/
def codeLengths (data : ByteArray) (code : Code) (total : Nat) :
    (fuel : Nat) → Array Nat → Decoder (Array Nat)
  | 0, lengths => if lengths.size = total then return lengths else corrupt
  | fuel + 1, lengths => do
    if total ≤ lengths.size then
      if lengths.size = total then return lengths else corrupt
    else
      let symbol ← code.decode data
      if symbol < 16 then codeLengths data code total fuel (lengths.push symbol)
      else
        let (length?, least, width) :=
          if symbol = 16 then (lengths.back?, 3, 2)
          else if symbol = 17 then (some 0, 3, 3)
          else (some 0, 11, 7)
        match length? with
        | none => corrupt
        | some length =>
          let extra ← bits data width
          codeLengths data code total fuel (lengths ++ Array.replicate (least + extra) length)

/-- A code that a block may use: one in which every sequence of bits begins with a
codeword, or one for a single symbol or none. -/
def usable (code : Code) : Decoder Code :=
  if code.isComplete || code.isTrivial then return code else corrupt

def ownCodes (data : ByteArray) : Decoder (Code × Code) := do
  let literalCount := 257 + (← bits data 5)
  let distanceCount := 1 + (← bits data 5)
  let lengthCount := 4 + (← bits data 4)
  if 286 < literalCount ∨ 30 < distanceCount then corrupt
  else
    let order := lengthOrder.take lengthCount
    let lengthCode := Code.ofLengths (← lengthLengths data order (Array.replicate 19 0))
    if !lengthCode.isComplete then corrupt
    else
      let total := literalCount + distanceCount
      let lengths ← codeLengths data lengthCode total total #[]
      let literals ← usable (Code.ofLengths (lengths.extract 0 literalCount))
      let distances ← usable (Code.ofLengths (lengths.extract literalCount total))
      return (literals, distances)

def storedBytes (data : ByteArray) : (size : Nat) → Decoder Unit
  | 0 => return
  | size + 1 => do
    let byte ← bits data 8
    push byte.toUInt8
    storedBytes data size

def storedBlock (data : ByteArray) : Decoder Unit := do
  align
  let size ← bits data 16
  let complement ← bits data 16
  if size + complement ≠ 0xFFFF then corrupt else storedBytes data size

def block (data : ByteArray) (type : Nat) : Decoder Unit := do
  let fuel := 8 * data.size + 1
  match type with
  | 0 => storedBlock data
  | 1 =>
    let (literals, distances) := fixedCodes
    symbols data literals distances fuel
  | 2 =>
    let (literals, distances) ← ownCodes data
    symbols data literals distances fuel
  | _ => corrupt

/-- The blocks up to the marked one. Every block takes at least three bits, so the number of
bits of the data is fuel enough. -/
def blocks (data : ByteArray) : (fuel : Nat) → Decoder Unit
  | 0 => throw .incomplete
  | fuel + 1 => do
    let final ← bits data 1
    let type ← bits data 2
    block data type
    if final = 1 then return else blocks data fuel

/-- The output of a stream that can be handed on, and why it stops before the end of the final
block if it does. -/
def inflate (data : ByteArray) : ByteArray × Option Halt :=
  match blocks data (8 * data.size + 1) ⟨0, .empty, 0⟩ with
  | .ok _ state => (state.out, none)
  | .error .incomplete state => (state.out, some .incomplete)
  | .error .corrupt state => (state.out.extract 0 state.handedOn, some .corrupt)

end FlashHost.Zip.Deflate
