import FlashHost.Zip.Deflate.Bits

/-!
# Canonical codes

A canonical code is given by the length of each symbol's codeword. Shorter
codewords come first, and codewords of one length are consecutive numbers in the
order of their symbols.
-/

set_option autoImplicit false

namespace FlashHost.Zip.Deflate

def maxLength : Nat := 15

/-- How the words of one length are used: how many are codewords, and how many begin
longer ones. -/
structure Level where
  codewords : Nat
  inner : Nat

/-- A canonical code: the use of the words of each length from one on, and the symbols in
the order of their codewords. -/
structure Code where
  levels : List Level
  symbols : Array Nat

namespace Code

def symbolsOf (lengths : Array Nat) (length : Nat) : List Nat :=
  (List.range lengths.size).filter fun symbol => lengths.getD symbol 0 == length

/-- The levels of a code with so many codewords of each length. Two words of a length
begin with one word of the length before. -/
def levelsOf : (counts : List Nat) → List Level
  | [] => []
  | count :: counts =>
    match levelsOf counts with
    | [] => [⟨count, 0⟩]
    | next :: levels => ⟨count, (next.codewords + next.inner + 1) / 2⟩ :: next :: levels

/-- The code with the given lengths; a symbol of length zero has no codeword. -/
def ofLengths (lengths : Array Nat) : Code :=
  let groups := (List.range maxLength).map fun k => symbolsOf lengths (k + 1)
  ⟨levelsOf (groups.map List.length), groups.flatten.toArray⟩

def size (code : Code) : Nat :=
  code.symbols.size

/-- How many of the `2 ^ maxLength` sequences of that many bits begin with a codeword.
A codeword of the first level stands for `2 ^ free` of them. -/
def covered : (free : Nat) → (levels : List Level) → Nat
  | _, [] => 0
  | free, level :: levels => level.codewords <<< free + covered (free - 1) levels

/-- Whether every sequence of bits begins with exactly one codeword. -/
def isComplete (code : Code) : Bool :=
  covered (maxLength - 1) code.levels == 1 <<< maxLength

/-- Whether the code has a codeword of a single bit and no other, or none at all. -/
def isTrivial (code : Code) : Bool :=
  code.size ≤ 1 && code.levels.tail.all (·.codewords == 0)

/-- The symbol whose codeword stands next. Bits that begin no codeword are corrupt. `word` is
the number read so far, `first` the least codeword of the length at hand and `index` its place
among the symbols. -/
def decodeWith (data : ByteArray) (symbols : Array Nat) :
    List Level → (word first index : Nat) → Decoder Nat
  | [], _, _, _ => corrupt
  | level :: levels, word, first, index => do
    let word := 2 * word + (← bit data)
    let next := first + level.codewords
    if word < next then return symbols.getD (index + (word - first)) 0
    else if next + level.inner ≤ word then corrupt
    else decodeWith data symbols levels word (2 * next) (index + level.codewords)

def decode (code : Code) (data : ByteArray) : Decoder Nat :=
  decodeWith data code.symbols code.levels 0 0 0

end Code

end FlashHost.Zip.Deflate
