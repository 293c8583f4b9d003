/-
  SatReplay/Registry.lean
  =======================
  **Solvers by name.**  Whoever checks a solution finds the solver that it claims
  in the same registry that it was solved from.  A name that is not registered
  refuses every operation before anything else is looked at.
-/
import SatReplay.Dpll.Search
import SatReplay.Replay
import Std.Data.TreeMap

namespace SatReplay

/-- Solvers under distinct names, in the order of the names. -/
structure Registry where
  solvers : Std.TreeMap String Solver

namespace Registry

def empty : Registry := ⟨∅⟩

/-- Registers a solver, and gives back the one whose name it takes. -/
def register (r : Registry) (name : String) (solver : Solver) : Option Solver × Registry :=
  (r.solvers[name]?, ⟨r.solvers.insert name solver⟩)

def standard : Registry := (empty.register "dpll" Dpll.solver).2

def names (r : Registry) : List String := r.solvers.keys

def has (r : Registry) (name : String) : Bool := r.solvers.contains name

def find (r : Registry) (name : String) : Except Failure Solver :=
  match r.solvers[name]? with
  | some solver => .ok solver
  | none => .error (.unknownAlgorithm name)

/-- Runs an operation with the solver of a name. -/
def withSolver {α : Type} (r : Registry) (name : String) (f : Solver → Reported α) : Reported α :=
  match r.find name with
  | .error cause => ⟨.error (.failure cause), []⟩
  | .ok solver => f solver

def solve (r : Registry) (c : Challenge) (name : String) (budget : Budget) (clock : Clock)
    (debug : Bool) : Reported Solved :=
  r.withSolver name fun solver => c.solve solver budget clock debug

def verifyMethod (r : Registry) (c : Challenge) (name : String) (s : Solution) (budget : Budget)
    (clock : Clock) : Reported Unit :=
  r.withSolver name fun solver => s.verifyMethod c solver budget clock

def verify (r : Registry) (c : Challenge) (name : String) (s : Solution) (budget : Budget)
    (clock : Clock) : Reported Unit :=
  r.withSolver name fun solver => s.verify c solver budget clock

def verifyProof (r : Registry) (seed : Int32) (difficulty : Difficulty) (name : String)
    (proof : Bytes) (budget : Budget) (clock : Clock) : Reported Unit :=
  r.withSolver name fun solver => SatReplay.verifyProof seed difficulty solver proof budget clock

end Registry

end SatReplay
