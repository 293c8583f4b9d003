/-
  SatReplay/Zlib/Huffman.lean
  ===========================
  **Canonical prefix codes.**  A code is given by the length of every symbol's
  code word.  Shorter words come first, and words of one length are numbered in
  the order of their symbols, so the lengths decide the words.
-/
import SatReplay.Zlib.Bits

namespace SatReplay.Zlib

/-- The symbols with words of each length 1, 2, … 15, in order. -/
abbrev Code := List (Array Nat)

namespace Code

def maxLength : Nat := 15

def level (lengths : List Nat) (length : Nat) : Array Nat :=
  (lengths.zipIdx.filterMap fun (l, symbol) => if l = length then some symbol else none).toArray

/-- The share of all words of 15 bits that the code words stand for. -/
def share (lengths : List Nat) : Nat :=
  lengths.foldl (fun total l => if l = 0 then total else total + Nat.pow 2 (maxLength - l)) 0

/-- The code of some lengths, 0 for symbols that are not used.  The words must
    leave nothing out and nothing double; but there may be no word at all, or a
    single word of one bit. -/
def ofLengths? (lengths : List Nat) : Option Code :=
  let isShort := lengths.countP (· ≠ 0) ≤ 1 && lengths.all (· ≤ 1)
  if isShort ∨ share lengths = Nat.pow 2 maxLength then
    some ((List.range maxLength).map fun i => level lengths (i + 1))
  else none

/-- Follows the bits to a symbol; `word` is what was read so far, and `first` the
    first word of that length that is not used by shorter ones. -/
def symbolWithin : Code → Nat → Nat → Bits → Option (Nat × Bits)
  | [], _, _, _ => none
  | symbols :: longer, word, first, bits =>
    match bits.bit? with
    | none => none
    | some (b, bits) =>
      let word := 2 * word + b
      let first := 2 * first
      if word < first + symbols.size then
        match symbols[word - first]? with
        | none => none
        | some symbol => some (symbol, bits)
      else symbolWithin longer word (first + symbols.size) bits

def symbol? (code : Code) (bits : Bits) : Option (Nat × Bits) := symbolWithin code 0 0 bits

end Code

end SatReplay.Zlib
