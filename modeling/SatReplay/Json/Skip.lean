/-
  SatReplay/Json/Skip.lean
  ========================
  **Passing over a value that nobody reads.**  It must be JSON, but what its
  strings and numerals stand for does not matter, and its arrays and objects may
  be of any depth; the ones that are open are a list, the innermost first.
-/
import SatReplay.Json.Numeral

namespace SatReplay.Json

inductive Bracket where
  | array
  | object
deriving DecidableEq, Repr

/-- What comes next in an array or object: its end, or a part of it. -/
inductive Next where
  | ended (rest : List Char)
  | part (rest : List Char)

def takeColon (cs : List Char) : Except Stop (List Char) :=
  match dropBlanks cs with
  | [] => broken .endInObject []
  | ':' :: rest => .ok rest
  | rest => broken .colonExpected rest

def skipName (cs : List Char) : Except Stop (List Char) :=
  match dropBlanks cs with
  | [] => broken .endInObject []
  | '"' :: rest =>
    match skipString rest with
    | .error stop => .error stop
    | .ok rest => takeColon rest
  | rest => broken .nameExpected rest

/-- Goes to the next value in an array or object, or behind its end. -/
def Bracket.next (first : Bool) (cs : List Char) : Bracket → Except Stop Next
  | .array =>
    match dropBlanks cs with
    | [] => broken .endInArray []
    | ']' :: rest => .ok (.ended rest)
    | c :: rest =>
      if first then .ok (.part (c :: rest))
      else if c = ',' then .ok (.part rest)
      else broken .itemEndExpected (c :: rest)
  | .object =>
    match dropBlanks cs with
    | [] => broken .endInObject []
    | '\x7d' :: rest => .ok (.ended rest)
    | c :: rest =>
      if first then (skipName (c :: rest)).map Next.part
      else if c = ',' then (skipName rest).map Next.part
      else broken .memberEndExpected (c :: rest)

/-- Passes over a scalar, or over the bracket that opens an array or object. -/
def skipStart (cs : List Char) : Except Stop (Option Bracket × List Char) :=
  match dropBlanks cs with
  | [] => broken .endInValue []
  | '[' :: rest => .ok (some .array, rest)
  | '\x7b' :: rest => .ok (some .object, rest)
  | 'n' :: rest => (takeWord ['u', 'l', 'l'] rest).map (none, ·)
  | 't' :: rest => (takeWord ['r', 'u', 'e'] rest).map (none, ·)
  | 'f' :: rest => (takeWord ['a', 'l', 's', 'e'] rest).map (none, ·)
  | '"' :: rest => (skipString rest).map (none, ·)
  | c :: rest =>
    if c = '-' ∨ Reading.isDigit c then
      (Numeral.read .badNumeral (c :: rest)).map fun (_, rest) => (none, rest)
    else broken .valueExpected (c :: rest)

/-- Passes over what is left of the open arrays and objects.  Each step takes at
    least one character, so as many steps as there are characters do. -/
def skipOpen : Nat → Bool → List Bracket → List Char → Except Stop (List Char)
  | _, _, [], cs => .ok cs
  | 0, _, _ :: _, _ => broken .endInValue []
  | steps + 1, first, bracket :: outer, cs =>
    match bracket.next first cs with
    | .error stop => .error stop
    | .ok (.ended rest) => skipOpen steps false outer rest
    | .ok (.part rest) =>
      match skipStart rest with
      | .error stop => .error stop
      | .ok (none, rest) => skipOpen steps false (bracket :: outer) rest
      | .ok (some inner, rest) => skipOpen steps true (inner :: bracket :: outer) rest

def skipValue (cs : List Char) : Except Stop (List Char) :=
  match skipStart cs with
  | .error stop => .error stop
  | .ok (none, rest) => .ok rest
  | .ok (some bracket, rest) => skipOpen (rest.length + 1) true [bracket] rest

end SatReplay.Json
