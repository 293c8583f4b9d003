/-
  SatReplay/Replay.lean
  =====================
  **Checking that a solution came from a solver.**  The solver is run again on
  the challenge, and what it emits is compared with the recorded trace, one
  identifier after another.  The trace does not steer the solver: it is only
  compared.  Something else, something more, or something left over refuses the
  solution.
-/
import SatReplay.Challenge.Generator
import SatReplay.Solve

namespace SatReplay

/-- Compares the next identifier with the next of a recording. -/
def compareNext (recording : List Int32) (position : Nat) (emitted : Int32) :
    Except Failure Unit :=
  match recording[position]? with
  | some recorded =>
    if recorded = emitted then .ok ()
    else .error (.mismatchedAlgorithm (.different position recorded emitted))
  | none => .error (.mismatchedAlgorithm (.extra recording.length))

/-- Accepts the recording, while the budget lasts.  What was accepted so far says
    where in the recording the replay is; the clock is read once before. -/
def replayer (recording : List Int32) (budget : Budget) (clock : Clock) : Emitter :=
  fun emitted accepted identifier => do
    budget.check (clock (emitted + 1))
    compareNext recording accepted identifier

namespace Solution

def solves (s : Solution) (c : Challenge) : Except Fault Bool := c.accepts s.input

/-- The run of a solver on a challenge against a recorded trace. -/
def replay (s : Solution) (c : Challenge) (solver : Solver) (budget : Budget) (clock : Clock) :
    Run (Except Failure Input) :=
  (solver (c.problem false)).run (replayer s.trace budget clock) c.accepts

/-- What a replay ends with: a failure, or the number of identifiers that were
    left over. -/
def concludeReplay (s : Solution) (c : Challenge) (run : Run (Except Failure Input))
    (spent : Except Failure Unit) : Reported Unit :=
  match run.answer.bind fun _ => Trouble.ofFailure spent with
  | .error (.fault fault) => ⟨.error (.fault fault), run.events⟩
  | .error (.failure cause) =>
    ⟨.error (.failure cause), run.events ++ [.methodFailed c.seed cause]⟩
  | .ok () =>
    let consumed := run.accepted.length
    let recorded := s.trace.length
    if consumed = recorded then ⟨.ok (), run.events ++ [.methodVerified c.seed consumed]⟩
    else
      ⟨.error (.failure (.mismatchedAlgorithm (.unconsumed consumed recorded))),
        run.events ++ [.traceLeftOver c.seed consumed recorded]⟩

/-- Checks that the solver emits exactly the recorded trace.  A budget that is
    spent from the start refuses before the solver is asked anything. -/
def verifyMethod (s : Solution) (c : Challenge) (solver : Solver) (budget : Budget)
    (clock : Clock) : Reported Unit :=
  match budget.check (clock 0) with
  | .error cause => ⟨.error (.failure cause), []⟩
  | .ok () =>
    let run := s.replay c solver budget clock
    s.concludeReplay c run (budget.check (clock (run.emitted.length + 1)))

/-- Checks the input, and then where the solution came from. -/
def verify (s : Solution) (c : Challenge) (solver : Solver) (budget : Budget) (clock : Clock) :
    Reported Unit :=
  match c.checkInput s.input with
  | .error trouble => ⟨.error trouble, []⟩
  | .ok () => s.verifyMethod c solver budget clock

end Solution

/-- Checks an encoded solution from scratch: the challenge is made anew from its
    seed and difficulty. -/
def verifyProof (seed : Int32) (difficulty : Difficulty) (solver : Solver) (proof : Bytes)
    (budget : Budget) (clock : Clock) : Reported Unit :=
  match Solution.decode proof with
  | .error defect => ⟨.error (.failure (.malformedProof defect)), []⟩
  | .ok solution => solution.verify (Challenge.generate seed difficulty) solver budget clock

end SatReplay
