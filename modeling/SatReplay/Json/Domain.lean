/-
  SatReplay/Json/Domain.lean
  ==========================
  **Difficulties, challenges and solutions in documents.**  A difficulty is the
  list of its two numbers, a solution is the base64 text of its bytes, and a
  challenge is a record.
-/
import SatReplay.Bytes.Base64
import SatReplay.Challenge
import SatReplay.Json.Record
import SatReplay.Solution.Encoding

namespace SatReplay

open Json

/-! ### Difficulties -/

namespace Difficulty

def toValue (d : Difficulty) : Value := .array (d.toList.map fun n => Value.ofInt n.toInt)

/-- Reads a difficulty; it is judged after the whole list is read. -/
def reader : Reader Difficulty := fun depth cs =>
  match Reader.list Reader.int32 depth cs with
  | .error stop => .error stop
  | .ok (values, rest) =>
    match ofList? values with
    | .error cause => refuse (.refused (.invalidDifficulty cause)) rest
    | .ok d => .ok (d, rest)

end Difficulty

/-! ### Solutions -/

namespace Solution

def toBase64 (s : Solution) : String :=
  String.ofList ((Base64.encode s.encode).map Char.ofUInt8)

def toValue (s : Solution) : Value := .string s.toBase64

def ofBase64 (text : String) : Except DataError Solution :=
  match Base64.decode (Bytes.ofText text) with
  | .error defect => .error (.notBase64 defect)
  | .ok bytes =>
    match decode bytes with
    | .error defect => .error (.refused (.malformedProof defect))
    | .ok s => .ok s

def reader : Reader Solution := fun _ cs =>
  match Found.read cs with
  | .error stop => .error stop
  | .ok (.string text, rest) =>
    match ofBase64 text with
    | .error cause => refuse cause rest
    | .ok s => .ok (s, rest)
  | .ok (found, rest) => Reader.mistyped .proof found rest

end Solution

/-! ### Challenges -/

namespace Challenge

def toValue (c : Challenge) : Value :=
  .object
    [("seed", .ofInt c.seed.toInt), ("difficulty", c.difficulty.toValue),
      ("clauses", .array (c.clauses.map fun clause =>
        .array (clause.map fun l => Value.ofInt l.toInt)))]

/-- The fields of a challenge that have been read. -/
structure Draft where
  seed : Option Int32
  difficulty : Option Difficulty
  clauses : Option (List Clause)

def Draft.complete (d : Draft) : Except String Challenge := do
  let seed ← required "seed" d.seed
  let difficulty ← required "difficulty" d.difficulty
  let clauses ← required "clauses" d.clauses
  return ⟨seed, difficulty, clauses⟩

def record : Record Draft Challenge where
  name := "Challenge"
  blank := ⟨none, none, none⟩
  complete := Draft.complete
  fields :=
    [.of "seed" Reader.int32 (·.seed) fun a d => { d with seed := some a },
     .of "difficulty" Difficulty.reader (·.difficulty) fun a d => { d with difficulty := some a },
     .of "clauses" (Reader.list (Reader.list Reader.int32)) (·.clauses)
       fun a d => { d with clauses := some a }]

def reader : Reader Challenge := record.reader

end Challenge

end SatReplay
