/-
  SatReplay/CommandLine/Arguments.lean
  ====================================
  **Commands and how they are written.**

  A command is a word, then its positional arguments, with options anywhere
  between them.  An option starts with two dashes; its value follows an equals
  sign, or is the next argument unless that starts with a dash, or is left out.
  After `--` all arguments are positional.  Nothing may be given twice.
-/
import SatReplay.Budget
import SatReplay.Number.Reading

namespace SatReplay.CommandLine

inductive Command where
  | compute (settings : String) (nonce : UInt32) (budget : Option Budget) (debug : Bool)
      (output : Option String) (compress : Bool)
  | verify (settings : String) (nonce : UInt32) (document : String) (budget : Option Budget)
  | list
deriving DecidableEq, Repr

inductive Usage where
  /-- The usage was asked for. -/
  | asked
  /-- The arguments make no command. -/
  | wrong
deriving DecidableEq, Repr

inductive OptionKind where
  | flag
  | valued
deriving DecidableEq, Repr

abbrev OptionTable := List (String × OptionKind)

/-- Arguments sorted into positional ones and options with their values. -/
structure Sorted where
  positional : List String
  options : List (String × Option String)
deriving DecidableEq, Repr

namespace Sorted

def empty : Sorted := ⟨[], []⟩

def has (s : Sorted) (name : String) : Bool := s.options.any (·.1 = name)

/-- The value of an option, if it is given with one. -/
def value? (s : Sorted) (name : String) : Option String := (s.options.lookup name).join

def addPositional (s : Sorted) (argument : String) : Sorted :=
  { s with positional := s.positional ++ [argument] }

def addOption (s : Sorted) (name : String) (value : Option String) : Sorted :=
  { s with options := s.options ++ [(name, value)] }

def setLast (s : Sorted) (value : String) : Sorted :=
  { s with options := s.options.dropLast ++ s.options.getLast?.toList.map fun o => (o.1, some value) }

end Sorted

inductive Shape where
  | plain
  | separator
  | long (name : String) (value : Option String)
  | short
deriving DecidableEq, Repr

def splitValue (cs : List Char) : String × Option String :=
  match cs.dropWhile (· ≠ '=') with
  | [] => (String.ofList cs, none)
  | _ :: value => (String.ofList (cs.takeWhile (· ≠ '=')), some (String.ofList value))

/-- The shape of an argument.  A single dash is a plain argument. -/
def shape (argument : String) : Shape :=
  match argument.toList with
  | ['-', '-'] => .separator
  | '-' :: '-' :: rest => let (name, value) := splitValue rest; .long name value
  | '-' :: _ :: _ => .short
  | _ => .plain

/-- Sorts arguments; `awaiting` says that the last option may still take a value. -/
def sort (table : OptionTable) : Bool → Sorted → List String → Except Usage Sorted
  | _, s, [] => .ok s
  | awaiting, s, argument :: rest =>
    match shape argument with
    | .separator => .ok { s with positional := s.positional ++ rest }
    | .short => .error (if argument = "-h" then .asked else .wrong)
    | .plain =>
      if awaiting then sort table false (s.setLast argument) rest
      else sort table false (s.addPositional argument) rest
    | .long name value =>
      if name = "help" ∧ value = none then .error .asked
      else if s.has name then .error .wrong
      else
        match table.lookup name, value with
        | none, _ => .error .wrong
        | some .flag, some _ => .error .wrong
        | some .flag, none => sort table false (s.addOption name none) rest
        | some .valued, some v => sort table false (s.addOption name (some v)) rest
        | some .valued, none => sort table true (s.addOption name none) rest

/-! ### Values -/

/-- A nonce is an unsigned word of 32 bits. -/
def nonce? (text : String) : Except Usage UInt32 :=
  match Reading.integer? text.toList with
  | some n => if 0 ≤ n ∧ n < 0x100000000 then .ok (UInt32.ofNat n.toNat) else .error .wrong
  | none => .error .wrong

/-- A budget, if one is given with a value. -/
def budget? (s : Sorted) : Except Usage (Option Budget) :=
  match s.value? "max_seconds" with
  | none => .ok none
  | some text =>
    match Reading.number? text with
    | some x => .ok (some x)
    | none => .error .wrong

/-- A path, if one is given; it may not be empty. -/
def output? (s : Sorted) : Except Usage (Option String) :=
  match s.value? "output" with
  | none => .ok none
  | some path => if path = "" then .error .wrong else .ok (some path)

/-! ### Commands -/

def computeOptions : OptionTable :=
  [("max_seconds", .valued), ("debug", .flag), ("output", .valued), ("compress", .flag)]

def verifyOptions : OptionTable := [("max_seconds", .valued)]

def computeCommand (s : Sorted) : Except Usage Command := do
  match s.positional with
  | [settings, nonce] =>
    let nonce ← nonce? nonce
    let budget ← budget? s
    let output ← output? s
    return .compute settings nonce budget (s.has "debug") output (s.has "compress")
  | _ => .error .wrong

def verifyCommand (s : Sorted) : Except Usage Command := do
  match s.positional with
  | [settings, nonce, document] =>
    let nonce ← nonce? nonce
    let budget ← budget? s
    return .verify settings nonce document budget
  | _ => .error .wrong

def listCommand (s : Sorted) : Except Usage Command :=
  match s.positional with
  | [] => .ok .list
  | _ => .error .wrong

def Command.ofArguments : List String → Except Usage Command
  | [] => .error .wrong
  | word :: rest =>
    if word = "compute_solution" then (sort computeOptions false .empty rest).bind computeCommand
    else if word = "verify_solution" then (sort verifyOptions false .empty rest).bind verifyCommand
    else if word = "list_algorithms" then (sort [] false .empty rest).bind listCommand
    else if word = "help" ∨ word = "--help" ∨ word = "-h" then .error .asked
    else .error .wrong

/-- What is shown when there is no command. -/
def usage : List String :=
  ["Usage: compute_solution [--max_seconds [SECONDS]] [--debug] [--output [FILE]] [--compress] SETTINGS NONCE",
    "       verify_solution [--max_seconds [SECONDS]] SETTINGS NONCE OUTPUT",
    "       list_algorithms"]

end SatReplay.CommandLine
