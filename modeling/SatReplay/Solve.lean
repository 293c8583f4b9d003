/-
  SatReplay/Solve.lean
  ====================
  **Running a solver on a challenge.**  Every identifier it emits is recorded, as
  long as the budget lasts; the input it returns is judged by the challenge.
-/
import SatReplay.Budget
import SatReplay.Challenge
import SatReplay.Interaction
import SatReplay.Solution.Encoding

namespace SatReplay

/-- An answer, and what was reported on the way to it. -/
structure Reported (α : Type) where
  result : Except Trouble α
  events : List Event

structure Solved where
  isSolution : Bool
  solution : Solution
deriving DecidableEq, Repr

namespace Challenge

/-- The problem of a solver on this challenge. -/
def problem (c : Challenge) (debug : Bool) : Problem where
  stream := KeyStream.ofSeed c.seed
  debug := debug
  variableCount := c.variableCount
  clauses := c.clauses

end Challenge

/-- The result that a run of a solver leads to: a fault of the oracle, a failure
    of the solver, or the input it returned. -/
def Run.answer (r : Run (Except Failure Input)) : Except Trouble Input :=
  match r.outcome with
  | .error fault => .error (.fault fault)
  | .ok (.error cause) => .error (.failure cause)
  | .ok (.ok input) => .ok input

def Trouble.ofFailure {α : Type} : Except Failure α → Except Trouble α
  | .error cause => .error (.failure cause)
  | .ok value => .ok value

def Challenge.judge (c : Challenge) (input : Input) : Except Trouble Bool :=
  match c.accepts input with
  | .error fault => .error (.fault fault)
  | .ok verdict => .ok verdict

/-- Accepts identifiers while the budget lasts; the clock is read at each. -/
def recorder (budget : Budget) (clock : Clock) : Emitter := fun emitted _ _ =>
  budget.check (clock emitted)

namespace Challenge

/-- The run of a solver on a challenge with its identifiers recorded. -/
def recording (c : Challenge) (solver : Solver) (budget : Budget) (clock : Clock) (debug : Bool) :
    Run (Except Failure Input) :=
  (solver (c.problem debug)).run (recorder budget clock) c.accepts

/-- Solves a challenge.  A failure of the solver comes first; then the clock is
    read once more, so that an answer after the end of the budget is refused. -/
def solve (c : Challenge) (solver : Solver) (budget : Budget) (clock : Clock) (debug : Bool) :
    Reported Solved :=
  let run := c.recording solver budget clock debug
  let result := do
    let input ← run.answer
    Trouble.ofFailure (budget.check (clock run.emitted.length))
    let isSolution ← c.judge input
    return ⟨isSolution, ⟨input, run.accepted⟩⟩
  ⟨result, run.events⟩

end Challenge

end SatReplay
