/-
  SatReplay/Zlib/Inflate.lean
  ===========================
  **The deflate format**: blocks that are stored, or written in a fixed or in a
  described pair of prefix codes.  One code gives bytes, ends of blocks, and
  lengths of repetitions; the other the distances that these go back.
-/
import SatReplay.Zlib.Huffman

namespace SatReplay.Zlib

/-! ### Repetitions -/

/-- Least length and number of extra bits for the length symbols from 257 on. -/
def lengthTable : Array (Nat × Nat) :=
  #[(3, 0), (4, 0), (5, 0), (6, 0), (7, 0), (8, 0), (9, 0), (10, 0), (11, 1), (13, 1), (15, 1),
    (17, 1), (19, 2), (23, 2), (27, 2), (31, 2), (35, 3), (43, 3), (51, 3), (59, 3), (67, 4),
    (83, 4), (99, 4), (115, 4), (131, 5), (163, 5), (195, 5), (227, 5), (258, 0)]

/-- Least distance and number of extra bits for the distance symbols. -/
def distanceTable : Array (Nat × Nat) :=
  #[(1, 0), (2, 0), (3, 0), (4, 0), (5, 1), (7, 1), (9, 2), (13, 2), (17, 3), (25, 3), (33, 4),
    (49, 4), (65, 5), (97, 5), (129, 6), (193, 6), (257, 7), (385, 7), (513, 8), (769, 8),
    (1025, 9), (1537, 9), (2049, 10), (3073, 10), (4097, 11), (6145, 11), (8193, 12),
    (12289, 12), (16385, 13), (24577, 13)]

/-- The value of a symbol of a table: its least value plus the extra bits. -/
def tableValue? (table : Array (Nat × Nat)) (symbol : Nat) (bits : Bits) :
    Option (Nat × Bits) := do
  let (least, extra) ← table[symbol]?
  let (more, bits) ← bits.number? extra
  return (least + more, bits)

/-- The byte so far back; zeros stand before the first one. -/
def byteBack (distance : Nat) (out : Array UInt8) : UInt8 :=
  if distance ≤ out.size then out.getD (out.size - distance) 0 else 0

/-- Repeats so many bytes from a distance back; they may overlap the copy. -/
def repeatBack (distance : Nat) : Nat → Array UInt8 → Array UInt8
  | 0, out => out
  | n + 1, out => repeatBack distance n (out.push (byteBack distance out))

/-! ### Blocks -/

/-- The symbols of a block up to its end.  Each takes at least one bit. -/
def codedWithin (literals distances : Code) :
    Nat → Bits → Array UInt8 → Option (Array UInt8 × Bits)
  | 0, _, _ => none
  | left + 1, bits, out =>
    match literals.symbol? bits with
    | none => none
    | some (symbol, bits) =>
      if symbol < 256 then codedWithin literals distances left bits (out.push symbol.toUInt8)
      else if symbol = 256 then some (out, bits)
      else
        match tableValue? lengthTable (symbol - 257) bits with
        | none => none
        | some (length, bits) =>
          match distances.symbol? bits with
          | none => none
          | some (symbol, bits) =>
            match tableValue? distanceTable symbol bits with
            | none => none
            | some (distance, bits) =>
              codedWithin literals distances left bits (repeatBack distance length out)

def coded (literals distances : Code) (bits : Bits) (out : Array UInt8) :
    Option (Array UInt8 × Bits) :=
  codedWithin literals distances (bits.remaining + 1) bits out

/-- A stored block: its length, the complement of it, and the bytes. -/
def stored (bits : Bits) (out : Array UInt8) : Option (Array UInt8 × Bits) :=
  match bits.wholeBytes with
  | a :: b :: c :: d :: rest =>
    let length := a.toNat + 256 * b.toNat
    if length + (c.toNat + 256 * d.toNat) = 65535 ∧ length ≤ rest.length then
      some (out ++ (rest.take length).toArray, Bits.ofBytes (rest.drop length))
    else none
  | _ => none

/-- The lengths of the fixed code for bytes and lengths. -/
def fixedLiteralLengths : List Nat :=
  List.replicate 144 8 ++ List.replicate 112 9 ++ List.replicate 24 7 ++ List.replicate 8 8

def fixedDistanceLengths : List Nat := List.replicate 32 5

/-- The order in which the lengths of the code for lengths are written. -/
def lengthOrder : List Nat := [16, 17, 18, 0, 8, 7, 9, 6, 10, 5, 11, 4, 12, 3, 13, 2, 14, 1, 15]

def tripleBits : Nat → Bits → Option (List Nat × Bits)
  | 0, bits => some ([], bits)
  | n + 1, bits => do
    let (length, bits) ← bits.number? 3
    let (lengths, bits) ← tripleBits n bits
    return (length :: lengths, bits)

/-- The lengths of a described pair of codes, `wanted` in all: symbols up to 15
    are lengths, 16 repeats the last one, and 17 and 18 stand for zeros. -/
def lengthsWithin (code : Code) (wanted : Nat) :
    Nat → Bits → Array Nat → Option (Array Nat × Bits)
  | 0, _, _ => none
  | left + 1, bits, out =>
    if wanted ≤ out.size then
      if out.size = wanted then some (out, bits) else none
    else
      match code.symbol? bits with
      | none => none
      | some (symbol, bits) =>
        if symbol < 16 then lengthsWithin code wanted left bits (out.push symbol)
        else
          let (base, extra) := if symbol = 16 then (3, 2) else if symbol = 17 then (3, 3) else (11, 7)
          match (if symbol = 16 then out.back? else some 0), bits.number? extra with
          | some length, some (more, bits) =>
            lengthsWithin code wanted left bits (out ++ Array.replicate (base + more) length)
          | _, _ => none

def describedCodes (bits : Bits) : Option (Code × Code × Bits) := do
  let (literals, bits) ← bits.number? 5
  let (distances, bits) ← bits.number? 5
  let (lengths, bits) ← bits.number? 4
  let literals := literals + 257
  let distances := distances + 1
  if 286 < literals ∨ 30 < distances then none
  let (given, bits) ← tripleBits (lengths + 4) bits
  let pairs := lengthOrder.zip given
  let lengthLengths := (List.range 19).map fun symbol => (pairs.lookup symbol).getD 0
  let lengthCode ← Code.ofLengths? lengthLengths
  let wanted := literals + distances
  let (all, bits) ← lengthsWithin lengthCode wanted (wanted + 1) bits #[]
  let literalCode ← Code.ofLengths? (all.toList.take literals)
  let distanceCode ← Code.ofLengths? (all.toList.drop literals)
  return (literalCode, distanceCode, bits)

def block (kind : Nat) (bits : Bits) (out : Array UInt8) : Option (Array UInt8 × Bits) :=
  match kind with
  | 0 => stored bits out
  | 1 => do
    let literals ← Code.ofLengths? fixedLiteralLengths
    let distances ← Code.ofLengths? fixedDistanceLengths
    coded literals distances bits out
  | 2 => do
    let (literals, distances, bits) ← describedCodes bits
    coded literals distances bits out
  | _ => none

/-- Blocks up to the one that is marked as the last.  Each takes at least three
    bits. -/
def blocksWithin : Nat → Bits → Array UInt8 → Option (Array UInt8 × Bits)
  | 0, _, _ => none
  | left + 1, bits, out => do
    let (last, bits) ← bits.number? 1
    let (kind, bits) ← bits.number? 2
    let (out, bits) ← block kind bits out
    if last = 1 then return (out, bits) else blocksWithin left bits out

/-- The bytes of a deflate stream, and the bytes after its last one. -/
def inflate (bytes : Bytes) : Option (Bytes × Bytes) := do
  let bits := Bits.ofBytes bytes
  let (out, bits) ← blocksWithin (bits.remaining + 1) bits #[]
  return (out.toList, bits.wholeBytes)

end SatReplay.Zlib
