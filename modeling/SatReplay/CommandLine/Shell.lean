/-
  SatReplay/CommandLine/Shell.lean
  ================================
  **What a command does to the world around it.**  A `Shell` computation reads
  and writes files, reads its input and the clock, prints, and reports events.
  It says in which order, and what follows from each answer; `Shell.run` carries
  it out on files that are a value, and the program carries it out on real ones.
-/
import SatReplay.Budget
import SatReplay.CommandLine.Files
import SatReplay.Event

namespace SatReplay.CommandLine

/-! ### Computations -/

/-- A computation with a result of type `α`. -/
inductive Shell (α : Type) where
  | done (result : α)
  | readFile (path : String) (next : Except FileError Bytes → Shell α)
  | writeFile (path : String) (content : Bytes) (next : Except FileError Unit → Shell α)
  | readInput (next : Bytes → Shell α)
  | readClock (next : Nat → Shell α)
  /-- Goes on with a clock that starts now, and that is right about this budget. -/
  | watch (budget : Budget) (next : Clock → Shell α)
  | print (line : String) (next : Shell α)
  | complain (line : String) (next : Shell α)
  | report (event : Event) (next : Shell α)

/-- What the clocks of a run say: that of the machine at the direct readings, and the
    one that starts when a budget is watched. -/
structure Clocks where
  direct : Clock
  watched : Clock

namespace Clocks

/-- No time passes. -/
def still : Clocks := ⟨.still, .still⟩

/-- Both clocks may go alike. -/
instance : Coe Clock Clocks := ⟨fun clock => ⟨clock, clock⟩⟩

end Clocks

structure Outcome (α : Type) where
  result : α
  files : FileStore
  printed : List String
  complaints : List String
  events : List Event

namespace Shell

variable {α β : Type}

def bind : Shell α → (α → Shell β) → Shell β
  | .done a, f => f a
  | .readFile path next, f => .readFile path fun r => (next r).bind f
  | .writeFile path content next, f => .writeFile path content fun r => (next r).bind f
  | .readInput next, f => .readInput fun r => (next r).bind f
  | .readClock next, f => .readClock fun r => (next r).bind f
  | .watch budget next, f => .watch budget fun r => (next r).bind f
  | .print line next, f => .print line (next.bind f)
  | .complain line next, f => .complain line (next.bind f)
  | .report event next, f => .report event (next.bind f)

instance : Monad Shell where
  pure := .done
  bind := bind

def reportAll (events : List Event) (next : Shell α) : Shell α :=
  events.foldr Shell.report next

/-- Carries a computation out on files that are a value, with a fixed input and
    clocks.  Direct readings are counted; whoever watches a budget counts the
    readings of its clock. -/
def run (clocks : Clocks) (input : Bytes) : Shell α → Nat → FileStore → Outcome α
  | .done a, _, files => ⟨a, files, [], [], []⟩
  | .readFile path next, readings, files => run clocks input (next (files.read path)) readings files
  | .writeFile path content next, readings, files =>
    match files.write path content with
    | .ok files => run clocks input (next (.ok ())) readings files
    | .error e => run clocks input (next (.error e)) readings files
  | .readInput next, readings, files => run clocks input (next input) readings files
  | .readClock next, readings, files =>
    run clocks input (next (clocks.direct readings)) (readings + 1) files
  | .watch _ next, readings, files => run clocks input (next clocks.watched) readings files
  | .print line next, readings, files =>
    let o := run clocks input next readings files
    { o with printed := line :: o.printed }
  | .complain line next, readings, files =>
    let o := run clocks input next readings files
    { o with complaints := line :: o.complaints }
  | .report event next, readings, files =>
    let o := run clocks input next readings files
    { o with events := event :: o.events }

end Shell

end SatReplay.CommandLine
