/-
  SatReplay/Failure.lean
  ======================
  **Every way in which making, solving, encoding or checking a challenge is
  refused**, by cause, and the wording of each cause in one place.

  A `Failure` is an answer: the caller rejects a submission, or tries again with
  a larger budget.  A `Trouble` is a failure or a fault, the latter for a
  formula that asks for a variable which the input does not have.
-/
import SatReplay.Difficulty
import SatReplay.Formula
import SatReplay.Number.Layout

namespace SatReplay

inductive InvalidInput where
  | wrongLength (expected actual : Nat)
  | unsatisfied (clause : Nat)
  /-- A solver gave up, in its own words. -/
  | stated (reason : String)
deriving DecidableEq, Repr

/-- How a replay departed from the recorded identifiers. -/
inductive Mismatch where
  | different (position : Nat) (recorded emitted : Int32)
  | extra (recorded : Nat)
  | unconsumed (emitted recorded : Nat)
  /-- Found by a solver, in its own words. -/
  | stated (reason : String)
deriving DecidableEq, Repr

inductive Section where
  | input
  | trace
deriving DecidableEq, Repr

inductive ProofDefect where
  | truncated (part : Section) (needed remaining : Nat)
  | negativeLength (part : Section) (length : Int32)
  | notABit (index : Nat) (byte : UInt8)
  | unevenTrace (length : Nat)
  | trailing (count : Nat)
  /-- Refused by a receiver, in its own words. -/
  | stated (reason : String)
deriving DecidableEq, Repr

/-- Why an operation is refused. -/
inductive Failure where
  | invalidDifficulty (cause : DifficultyError)
  | invalidSolution (cause : InvalidInput)
  | mismatchedAlgorithm (cause : Mismatch)
  | timeout (budget : Binary64)
  | malformedProof (cause : ProofDefect)
  | unknownAlgorithm (name : String)
deriving DecidableEq, Repr

/-- What can stop an operation. -/
inductive Trouble where
  | failure (cause : Failure)
  | fault (fault : Fault)
deriving DecidableEq, Repr

/-! ### Wording -/

def InvalidInput.message : InvalidInput → String
  | .wrongLength expected actual =>
    "Invalid number of variables. Expected: " ++ toString expected ++ ", Actual: " ++ toString actual
  | .unsatisfied clause => "Clause '" ++ toString clause ++ "' not satisfied"
  | .stated reason => reason

def Mismatch.message : Mismatch → String
  | .different position recorded emitted =>
    "identifier #" ++ toString position ++ " was " ++ toString recorded.toInt ++
      ", replay emitted " ++ toString emitted.toInt
  | .extra recorded =>
    "replay emitted more than the " ++ toString recorded ++ " recorded identifiers"
  | .unconsumed emitted recorded =>
    "replay emitted " ++ toString emitted ++ " identifiers, " ++ toString recorded ++
      " were recorded"
  | .stated reason => reason

def Section.name : Section → String
  | .input => "input"
  | .trace => "trace"

def ProofDefect.message : ProofDefect → String
  | .truncated part needed remaining =>
    "truncated " ++ part.name ++ ": needed " ++ toString needed ++ " bytes, " ++
      toString remaining ++ " remaining"
  | .negativeLength part length =>
    "negative " ++ part.name ++ " length " ++ toString length.toInt
  | .notABit index byte =>
    "input[" ++ toString index ++ "] is " ++ toString byte.toNat ++ ", expected 0 or 1"
  | .unevenTrace length => "trace length " ++ toString length ++ " is not a multiple of 4"
  | .trailing count => toString count ++ " trailing bytes"
  | .stated reason => reason

def Failure.message : Failure → String
  | .invalidDifficulty cause => "Invalid difficulty: " ++ cause.message
  | .invalidSolution cause => "Invalid solution: " ++ cause.message
  | .mismatchedAlgorithm cause => "Mismatched algorithm: " ++ cause.message
  | .timeout budget =>
    "Solving challenge exceeded max_seconds '" ++ Layout.plain.text budget ++ "'"
  | .malformedProof cause => "Malformed proof: " ++ cause.message
  | .unknownAlgorithm name => "Unknown algorithm '" ++ name ++ "'"

def Fault.message (f : Fault) : String := "no value for literal " ++ toString f.literal.toInt

def Trouble.message : Trouble → String
  | .failure cause => cause.message
  | .fault f => f.message

end SatReplay
