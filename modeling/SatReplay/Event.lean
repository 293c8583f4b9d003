/-
  SatReplay/Event.lean
  ====================
  **What is logged**: an event has a level, a message and named details.  Events
  only report; no answer depends on them.
-/
import SatReplay.Failure

namespace SatReplay

inductive Level where
  | debug
  | info
  | warn
deriving DecidableEq, Repr

inductive Detail where
  | number (value : Int)
  | word (text : String)
deriving DecidableEq, Repr

inductive Event where
  /-- A search reached a node: its depth, the number of assigned variables, and
      the number of clauses that are left. -/
  | node (depth assigned remaining : Nat)
  /-- A search found that no assignment satisfies the clauses. -/
  | exhausted (variableCount : Nat)
  /-- The oracle refused what a search found. -/
  | notASolution (variableCount : Nat)
  /-- A replay ended with a failure. -/
  | methodFailed (seed : Int32) (cause : Failure)
  /-- A replay ended before the end of the recorded trace. -/
  | traceLeftOver (seed : Int32) (consumed recorded : Nat)
  /-- A replay emitted the recorded trace. -/
  | methodVerified (seed : Int32) (identifiers : Nat)
  /-- A challenge was made. -/
  | challengeGenerated (seed : Int32) (variableCount clauseCount : Nat)
  /-- A solver returned an answer in time. -/
  | solveFinished (algorithm : String) (seed : Int32) (isSolution : Bool) (identifiers : Nat)
      (seconds : Binary64)
deriving DecidableEq, Repr

namespace Event

def level : Event → Level
  | .node .. | .exhausted .. | .methodVerified .. | .challengeGenerated .. => .debug
  | .solveFinished .. => .info
  | .notASolution .. | .methodFailed .. | .traceLeftOver .. => .warn

def message : Event → String
  | .node .. => "dpll node"
  | .exhausted .. => "search exhausted, no satisfying assignment"
  | .notASolution .. => "search returned an assignment that is not a solution"
  | .methodFailed _ cause => "method verification failed: " ++ cause.message
  | .traceLeftOver .. => "replay finished before the recorded trace was exhausted"
  | .methodVerified .. => "method verified"
  | .challengeGenerated .. => "generated challenge"
  | .solveFinished .. => "solve finished"

def details : Event → List (String × Detail)
  | .node depth assigned remaining =>
    [("depth", .number depth), ("assigned", .number assigned), ("remaining", .number remaining)]
  | .exhausted variableCount | .notASolution variableCount =>
    [("num_variables", .number variableCount)]
  | .methodFailed seed _ => [("seed", .number seed.toInt)]
  | .traceLeftOver seed consumed recorded =>
    [("seed", .number seed.toInt), ("consumed", .number consumed), ("recorded", .number recorded)]
  | .methodVerified seed identifiers =>
    [("seed", .number seed.toInt), ("identifiers", .number identifiers)]
  | .challengeGenerated seed variableCount clauseCount =>
    [("seed", .number seed.toInt), ("num_variables", .number variableCount),
      ("num_clauses", .number clauseCount)]
  | .solveFinished algorithm seed isSolution identifiers seconds =>
    [("algorithm", .word algorithm), ("seed", .number seed.toInt),
      ("is_solution", .word (if isSolution then "true" else "false")),
      ("identifiers", .number identifiers),
      ("seconds_taken", .word (Layout.plain.text seconds))]

end Event

end SatReplay
