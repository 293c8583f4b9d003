/-
  SatReplay/Challenge.lean
  ========================
  **A challenge**: a formula together with the seed and the difficulty it was
  made from, and the two ways of checking an input against it.

  `Challenge.accepts` gives a verdict, `Challenge.checkInput` says what is wrong.
  A challenge may also have been received, so nothing is assumed about its
  clauses: a literal whose variable the input lacks is a fault of the check.
-/
import SatReplay.Failure

namespace SatReplay

structure Challenge where
  seed : Int32
  difficulty : Difficulty
  clauses : List Clause
deriving DecidableEq

namespace Challenge

def variableCount (c : Challenge) : Nat := c.difficulty.variableCount

/-- Every clause is satisfied; clauses after one that is not are not read. -/
def allSatisfied? : List Clause → Input → Except Fault Bool
  | [], _ => .ok true
  | c :: rest, input =>
    match Clause.satisfied? c input with
    | .error fault => .error fault
    | .ok true => allSatisfied? rest input
    | .ok false => .ok false

/-- Whether an input has a value for every variable and satisfies the formula. -/
def accepts (c : Challenge) (input : Input) : Except Fault Bool :=
  if input.length = c.variableCount then allSatisfied? c.clauses input else .ok false

/-- The position of the first clause that an input does not satisfy. -/
def firstUnsatisfied? (input : Input) : Nat → List Clause → Except Fault (Option Nat)
  | _, [] => .ok none
  | position, c :: rest =>
    match Clause.satisfied? c input with
    | .error fault => .error fault
    | .ok true => firstUnsatisfied? input (position + 1) rest
    | .ok false => .ok (some position)

/-- Refuses an input of the wrong length, or names the first clause that it does
    not satisfy. -/
def checkInput (c : Challenge) (input : Input) : Except Trouble Unit :=
  if input.length = c.variableCount then
    match firstUnsatisfied? input 0 c.clauses with
    | .error fault => .error (.fault fault)
    | .ok none => .ok ()
    | .ok (some position) => .error (.failure (.invalidSolution (.unsatisfied position)))
  else
    .error (.failure (.invalidSolution (.wrongLength c.variableCount input.length)))

end Challenge

end SatReplay
