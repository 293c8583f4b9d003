/-
  SatReplay/Bytes/Base64.lean
  ===========================
  **Bytes as base64**, in the standard alphabet, three bytes to four symbols,
  the last group filled up with `=`.  Symbols are bytes too, those of their
  characters.  Reading is strict: the padding must be there, the bits that the
  last symbol has to spare must be 0, and nothing else may stand in the row.  So
  every row of symbols that is read is the one that writing produces.
-/
import SatReplay.Bytes.Word

namespace SatReplay.Base64

/-- Why some symbols are read as no bytes; offsets count from 0. -/
inductive Defect where
  | badSymbol (symbol : UInt8) (offset : Nat)
  /-- The last group is a single symbol. -/
  | badLength (count : Nat)
  /-- The last symbol has a bit set that it has to spare. -/
  | spareBits (symbol : UInt8) (offset : Nat)
  | badPadding
deriving DecidableEq, Repr

def Defect.message : Defect → String
  | .badSymbol symbol offset =>
    "Invalid symbol " ++ toString symbol.toNat ++ ", offset " ++ toString offset ++ "."
  | .badLength count => "Invalid input length: " ++ toString count
  | .spareBits symbol offset =>
    "Invalid last symbol " ++ toString symbol.toNat ++ ", offset " ++ toString offset ++ "."
  | .badPadding => "Invalid padding"

/-! ### The alphabet -/

/-- What fills up the last group, the character `=`. -/
def pad : UInt8 := 61

/-- The symbol of a value below 64: `A` to `Z`, `a` to `z`, `0` to `9`, `+`, `/`. -/
def symbol (v : UInt8) : UInt8 :=
  if v < 26 then v + 65
  else if v < 52 then v + 71
  else if v < 62 then v - 4
  else if v = 62 then 43
  else 47

def value? (s : UInt8) : Option UInt8 :=
  if 65 ≤ s ∧ s ≤ 90 then some (s - 65)
  else if 97 ≤ s ∧ s ≤ 122 then some (s - 71)
  else if 48 ≤ s ∧ s ≤ 57 then some (s + 4)
  else if s = 43 then some 62
  else if s = 47 then some 63
  else none

/-! ### Writing -/

def encodeInto (acc : Array UInt8) : Bytes → Array UInt8
  | [] => acc
  | [a] => acc ++ #[symbol (a >>> 2), symbol ((a &&& 3) <<< 4), pad, pad]
  | [a, b] =>
    acc ++ #[symbol (a >>> 2), symbol ((a &&& 3) <<< 4 ||| b >>> 4),
      symbol ((b &&& 15) <<< 2), pad]
  | a :: b :: c :: rest =>
    encodeInto
      (acc ++ #[symbol (a >>> 2), symbol ((a &&& 3) <<< 4 ||| b >>> 4),
        symbol ((b &&& 15) <<< 2 ||| c >>> 6), symbol (c &&& 63)])
      rest

def encode (bytes : Bytes) : Bytes := (encodeInto #[] bytes).toList

/-! ### Reading -/

def values (offset : Nat) : Bytes → Except Defect (List UInt8)
  | [] => .ok []
  | s :: rest =>
    match value? s with
    | none => .error (.badSymbol s offset)
    | some v =>
      match values (offset + 1) rest with
      | .error e => .error e
      | .ok vs => .ok (v :: vs)

/-- The bytes of a group, given the values of its symbols, the last symbol and
    the number of pads after it. -/
def groupBytes (offset : Nat) (last : UInt8) (pads : Nat) : List UInt8 → Except Defect Bytes
  | [a, b, c, d] => .ok [a <<< 2 ||| b >>> 4, b <<< 4 ||| c >>> 2, c <<< 6 ||| d]
  | [a, b, c] =>
    if pads ≠ 1 then .error .badPadding
    else if c &&& 3 ≠ 0 then .error (.spareBits last (offset + 2))
    else .ok [a <<< 2 ||| b >>> 4, b <<< 4 ||| c >>> 2]
  | [a, b] =>
    if pads ≠ 2 then .error .badPadding
    else if b &&& 15 ≠ 0 then .error (.spareBits last (offset + 1))
    else .ok [a <<< 2 ||| b >>> 4]
  | vs => .error (.badLength (offset + vs.length))

/-- The bytes of a group that no other follows.  Pads come last in it, and not
    before the third place. -/
def decodeLast (offset : Nat) (group : Bytes) : Except Defect Bytes :=
  let symbols := group.takeWhile (· ≠ pad)
  let pads := group.dropWhile (· ≠ pad)
  match values offset symbols with
  | .error e => .error e
  | .ok vs =>
    if pads ≠ [] ∧ (symbols.length < 2 ∨ ¬ pads.all (· = pad)) then
      .error (.badSymbol pad (offset + symbols.length))
    else groupBytes offset (symbols.getLast?.getD pad) pads.length vs

/-- The bytes of a group that others follow; it has no pads. -/
def decodeWhole (offset : Nat) (a b c d : UInt8) : Except Defect Bytes :=
  match values offset [a, b, c, d] with
  | .error e => .error e
  | .ok vs => groupBytes offset d 0 vs

def decodeInto (offset : Nat) (acc : Array UInt8) : Bytes → Except Defect (Array UInt8)
  | [] => .ok acc
  | a :: b :: c :: d :: e :: rest =>
    match decodeWhole offset a b c d with
    | .error defect => .error defect
    | .ok bytes => decodeInto (offset + 4) (acc ++ bytes.toArray) (e :: rest)
  | group => (decodeLast offset group).map fun bytes => acc ++ bytes.toArray

/-- The symbol after the last whole group, if it stands there alone and is none;
    it is noticed before everything else. -/
def strayEnd? (symbols : Bytes) : Option UInt8 :=
  if symbols.length % 4 = 1 then
    symbols.getLast?.filter fun s => s ≠ pad ∧ (value? s).isNone
  else none

/-- The bytes of a row of symbols, if it is the encoding of some. -/
def decode (symbols : Bytes) : Except Defect Bytes :=
  match strayEnd? symbols with
  | some s => .error (.badSymbol s (symbols.length - 1))
  | none => (decodeInto 0 #[] symbols).map Array.toList

end SatReplay.Base64
