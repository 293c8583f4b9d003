/-
  SatReplay/Interaction.lean
  ==========================
  **What a solver may do, and what becomes of it.**

  An `Interaction` is a finite procedure that emits identifiers, asks an oracle
  and reports events, and goes on with the replies.  It says nothing about who
  receives the identifiers.  `Interaction.run` sets it against an emitter and an
  oracle and gives the outcome with the complete list of steps; recording,
  replaying and refusing are different emitters for one and the same procedure.

  A procedure goes on as it likes after a refused identifier: propagating the
  refusal is good manners of a solver, not a rule of this file.
-/
import SatReplay.Event
import SatReplay.Random.KeyStream

namespace SatReplay

/-- A procedure with a result of type `α`. -/
inductive Interaction (α : Type) where
  | done (result : α)
  | emit (identifier : Int32) (next : Except Failure Unit → Interaction α)
  | ask (input : Input) (next : Bool → Interaction α)
  | note (event : Event) (next : Interaction α)

/-- Receives an identifier, told how many were emitted and how many of these
    were accepted before it. -/
abbrev Emitter := (emitted accepted : Nat) → Int32 → Except Failure Unit

abbrev Oracle := Input → Except Fault Bool

inductive Step where
  | emitted (identifier : Int32) (reply : Except Failure Unit)
  | asked (input : Input)
  | noted (event : Event)

/-- A run: the result, unless the oracle faulted, and what happened. -/
structure Run (α : Type) where
  outcome : Except Fault α
  steps : List Step

namespace Interaction

variable {α β : Type}

/-- Goes on with the result of a procedure. -/
def bind : Interaction α → (α → Interaction β) → Interaction β
  | .done a, f => f a
  | .emit i next, f => .emit i fun reply => (next reply).bind f
  | .ask input next, f => .ask input fun answer => (next answer).bind f
  | .note event next, f => .note event (next.bind f)

instance : Monad Interaction where
  pure := .done
  bind := bind

/-- Runs a procedure after some steps.  A fault of the oracle ends the run. -/
def runInto (emitter : Emitter) (oracle : Oracle) :
    Interaction α → Nat → Nat → Array Step → Except Fault α × Array Step
  | .done a, _, _, steps => (.ok a, steps)
  | .emit i next, emitted, accepted, steps =>
    match emitter emitted accepted i with
    | .ok () =>
      runInto emitter oracle (next (.ok ())) (emitted + 1) (accepted + 1)
        (steps.push (.emitted i (.ok ())))
    | .error cause =>
      runInto emitter oracle (next (.error cause)) (emitted + 1) accepted
        (steps.push (.emitted i (.error cause)))
  | .ask input next, emitted, accepted, steps =>
    match oracle input with
    | .error fault => (.error fault, steps.push (.asked input))
    | .ok answer => runInto emitter oracle (next answer) emitted accepted (steps.push (.asked input))
  | .note event next, emitted, accepted, steps =>
    runInto emitter oracle next emitted accepted (steps.push (.noted event))

def run (emitter : Emitter) (oracle : Oracle) (p : Interaction α) : Run α :=
  let (outcome, steps) := runInto emitter oracle p 0 0 #[]
  ⟨outcome, steps.toList⟩

end Interaction

/-! ### Views of a run -/

namespace Step

/-- The identifier of an emission, accepted or not. -/
def identifier? : Step → Option Int32
  | .emitted i _ => some i
  | _ => none

def acceptedIdentifier? : Step → Option Int32
  | .emitted i (.ok ()) => some i
  | _ => none

def askedInput? : Step → Option Input
  | .asked input => some input
  | _ => none

def event? : Step → Option Event
  | .noted event => some event
  | _ => none

end Step

namespace Run

variable {α : Type}

/-- All identifiers in order, the refused ones too. -/
def emitted (r : Run α) : List Int32 := r.steps.filterMap Step.identifier?

def accepted (r : Run α) : List Int32 := r.steps.filterMap Step.acceptedIdentifier?

/-- The inputs that the oracle was asked about. -/
def asked (r : Run α) : List Input := r.steps.filterMap Step.askedInput?

def events (r : Run α) : List Event := r.steps.filterMap Step.event?

end Run

/-! ### Solvers -/

structure Problem where
  /-- Randomness that the challenge's seed decides. -/
  stream : KeyStream
  debug : Bool
  variableCount : Nat
  clauses : List Clause

/-- A solver turns a problem into a procedure, which fails or returns an input: one
    value for every variable, or none at all to give up. -/
abbrev Solver := Problem → Interaction (Except Failure Input)

end SatReplay
