/-
  SatReplay/Submission.lean
  =========================
  **What is handed in for a nonce**: the seed and the solver it was made with,
  the solution, and for information whether it solves the challenge and how long
  it took.
-/
import SatReplay.Json.Domain

namespace SatReplay

open Json

structure Submission where
  nonce : UInt32
  seed : Int32
  algorithmId : String
  isSolution : Bool
  secondsTaken : Binary64
  solution : Solution
deriving DecidableEq, Repr

namespace Submission

def toValue (s : Submission) : Value :=
  .object
    [("nonce", .ofInt s.nonce.toNat), ("seed", .ofInt s.seed.toInt),
      ("algorithm_id", .string s.algorithmId), ("is_solution", .boolean s.isSolution),
      ("seconds_taken", .ofBinary64 s.secondsTaken), ("solution", s.solution.toValue)]

/-- The fields of a submission that have been read. -/
structure Draft where
  nonce : Option UInt32
  seed : Option Int32
  algorithmId : Option String
  isSolution : Option Bool
  secondsTaken : Option Binary64
  solution : Option Solution

def Draft.complete (d : Draft) : Except String Submission := do
  let nonce ← required "nonce" d.nonce
  let seed ← required "seed" d.seed
  let algorithmId ← required "algorithm_id" d.algorithmId
  let isSolution ← required "is_solution" d.isSolution
  let secondsTaken ← required "seconds_taken" d.secondsTaken
  let solution ← required "solution" d.solution
  return ⟨nonce, seed, algorithmId, isSolution, secondsTaken, solution⟩

def record : Record Draft Submission where
  name := "OutputData"
  blank := ⟨none, none, none, none, none, none⟩
  complete := Draft.complete
  fields :=
    [.of "nonce" Reader.word32 (·.nonce) fun a d => { d with nonce := some a },
     .of "seed" Reader.int32 (·.seed) fun a d => { d with seed := some a },
     .of "algorithm_id" Reader.string (·.algorithmId) fun a d => { d with algorithmId := some a },
     .of "is_solution" Reader.boolean (·.isSolution) fun a d => { d with isSolution := some a },
     .of "seconds_taken" Reader.binary64 (·.secondsTaken)
       fun a d => { d with secondsTaken := some a },
     .of "solution" Solution.reader (·.solution) fun a d => { d with solution := some a }]

def reader : Reader Submission := record.reader

end Submission

end SatReplay
