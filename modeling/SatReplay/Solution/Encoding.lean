/-
  SatReplay/Solution/Encoding.lean
  ================================
  **Solutions as bytes.**  A solution is an input together with the identifiers
  that its solver emitted.  Its bytes are

      length of the input | one byte, 0 or 1, per value |
      length of the trace in bytes | four bytes per identifier

  with both lengths as signed words of four bytes, and all words least
  significant byte first.  Reading takes the parts off the front one after
  another; the first defect found is the one that is named.
-/
import SatReplay.Bytes.Word
import SatReplay.Failure

namespace SatReplay

/-- An input and the identifiers that were emitted on the way to it. -/
structure Solution where
  input : Input
  trace : List Int32
deriving DecidableEq, Repr

namespace Solution

def empty : Solution := ⟨[], []⟩

/-! ### Writing -/

/-- A length as a word; only lengths below `2 ^ 31` are read back. -/
def lengthWord (n : Nat) : Bytes := Bytes.ofWord (UInt32.ofNat n)

def bitByte (value : Bool) : UInt8 := if value then 1 else 0

def encode (s : Solution) : Bytes :=
  lengthWord s.input.length ++ s.input.map bitByte ++
    (lengthWord (s.trace.length * 4) ++ s.trace.flatMap fun i => Bytes.ofWord i.toUInt32)

/-! ### Reading -/

def takeBytes (part : Section) (n : Nat) (bytes : Bytes) : Except ProofDefect (Bytes × Bytes) :=
  if n ≤ bytes.length then .ok (bytes.take n, bytes.drop n)
  else .error (.truncated part n bytes.length)

/-- Takes the length of a part off the front. -/
def takeLength (part : Section) (bytes : Bytes) : Except ProofDefect (Nat × Bytes) :=
  match bytes with
  | a :: b :: c :: d :: rest =>
    let length := (Bytes.toWord a b c d).toInt32
    if length < 0 then .error (.negativeLength part length) else .ok (length.toInt.toNat, rest)
  | _ => .error (.truncated part 4 bytes.length)

def bitsInto (acc : Array Bool) : Bytes → Except ProofDefect (Array Bool)
  | [] => .ok acc
  | byte :: rest =>
    if byte = 0 then bitsInto (acc.push false) rest
    else if byte = 1 then bitsInto (acc.push true) rest
    else .error (.notABit acc.size byte)

def takeInput (bytes : Bytes) : Except ProofDefect (Input × Bytes) := do
  let (length, bytes) ← takeLength .input bytes
  let (values, bytes) ← takeBytes .input length bytes
  let bits ← bitsInto #[] values
  return (bits.toList, bytes)

def takeTrace (bytes : Bytes) : Except ProofDefect (List Int32 × Bytes) := do
  let (length, bytes) ← takeLength .trace bytes
  if length % 4 = 0 then
    let (words, bytes) ← takeBytes .trace length bytes
    return ((Bytes.toWords words).map UInt32.toInt32, bytes)
  else .error (.unevenTrace length)

/-- The solution that the bytes encode; nothing may follow it. -/
def decode (bytes : Bytes) : Except ProofDefect Solution := do
  let (input, bytes) ← takeInput bytes
  let (trace, bytes) ← takeTrace bytes
  if bytes = [] then return ⟨input, trace⟩ else .error (.trailing bytes.length)

end Solution

end SatReplay
