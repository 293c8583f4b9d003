/-
  SatReplay/Difficulty.lean
  =========================
  **The size of a challenge**: how many variables, and how many clauses per
  variable in hundredths (353 stands for 3.53).  Only admissible pairs exist as
  a `Difficulty`; `Difficulty.of?` says which pair is refused and why.
-/

namespace SatReplay

/-- Why a pair of numbers is no difficulty. -/
inductive DifficultyError where
  | tooFewVariables (given : Int32)
  | ratioTooSmall (given : Int32)
  | wrongCount (given : Nat)
  /-- Refused by somebody else, in their own words. -/
  | stated (reason : String)
deriving DecidableEq, Repr

namespace DifficultyError

def message : DifficultyError → String
  | .tooFewVariables given => "num_variables must be >= 3, got " ++ toString given.toInt
  | .ratioTooSmall given => "clauses_to_variables_ratio must be >= 1, got " ++ toString given.toInt
  | .wrongCount given =>
    "expected [num_variables, clauses_to_variables_ratio], got " ++ toString given ++ " values"
  | .stated reason => reason

end DifficultyError

/-- At least three variables, so that a clause can have three different ones,
    and a positive ratio. -/
structure Difficulty where
  numVariables : Int32
  /-- Clauses per hundred variables. -/
  ratio : Int32
  three_le_numVariables : 3 ≤ numVariables
  one_le_ratio : 1 ≤ ratio
deriving DecidableEq

namespace Difficulty

/-- The number of literals of every generated clause. -/
def literalsPerClause : Nat := 3

/-- The variables are checked before the ratio. -/
def of? (numVariables ratio : Int32) : Except DifficultyError Difficulty :=
  if hv : 3 ≤ numVariables then
    if hr : 1 ≤ ratio then .ok ⟨numVariables, ratio, hv, hr⟩
    else .error (.ratioTooSmall ratio)
  else .error (.tooFewVariables numVariables)

/-- A difficulty is written as the list of its two numbers. -/
def ofList? : List Int32 → Except DifficultyError Difficulty
  | [numVariables, ratio] => of? numVariables ratio
  | values => .error (.wrongCount values.length)

def toList (d : Difficulty) : List Int32 := [d.numVariables, d.ratio]

def variableCount (d : Difficulty) : Nat := d.numVariables.toInt.toNat

/-- The number of clauses: the product is taken in 64 bits, where it always
    fits, and the hundredths are dropped. -/
def clauseCount (d : Difficulty) : Nat :=
  (d.numVariables.toInt64 * d.ratio.toInt64 / 100).toInt.toNat

theorem three_le_variableCount (d : Difficulty) : 3 ≤ d.variableCount := by
  have h := Int32.le_iff_toInt_le.1 d.three_le_numVariables
  have h3 : (3 : Int32).toInt = 3 := by decide
  rw [h3] at h
  simp only [variableCount]
  omega

theorem ofList?_toList (d : Difficulty) : ofList? d.toList = .ok d := by
  simp [ofList?, toList, of?, d.three_le_numVariables, d.one_le_ratio]

end Difficulty

end SatReplay
