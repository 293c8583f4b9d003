/-
  SatReplay/Json/Reader.lean
  ==========================
  **Reading typed values from a text.**  A reader goes through a text once, from
  the front, and stops at the first mistake: a wrong value is noticed before the
  text stops being JSON later on, and the other way round.  It is told how many
  arrays and objects may still be opened.
-/
import SatReplay.Json.Skip

namespace SatReplay.Json

/-- Reads a value, given how many levels may still be opened. -/
abbrev Reader (α : Type) := Nat → Scan α

/-- The number of levels that may be opened in a text. -/
def maxDepth : Nat := 127

def Reader.readText {α : Type} (reader : Reader α) (text : String) : Except ReadError α :=
  let cs := text.toList
  match reader maxDepth cs with
  | .error stop => .error (stop.inText cs)
  | .ok (a, rest) =>
    match dropBlanks rest with
    | [] => .ok a
    | rest => (broken .trailingText rest).mapError fun stop => stop.inText cs

/-- Reads a scalar, or the bracket that opens an array or object. -/
def Found.read : Scan Found := fun cs =>
  match dropBlanks cs with
  | [] => broken .endInValue []
  | '[' :: rest => .ok (.sequence, rest)
  | '\x7b' :: rest => .ok (.map, rest)
  | 'n' :: rest => (takeWord ['u', 'l', 'l'] rest).map (.null, ·)
  | 't' :: rest => (takeWord ['r', 'u', 'e'] rest).map (.boolean true, ·)
  | 'f' :: rest => (takeWord ['a', 'l', 's', 'e'] rest).map (.boolean false, ·)
  | '"' :: rest => (takeString #[] none rest).map fun (text, rest) => (.string text, rest)
  | c :: rest =>
    if c = '-' ∨ Reading.isDigit c then
      (Numeral.readNumber (c :: rest)).map fun (value, rest) => (.number value, rest)
    else broken .valueExpected (c :: rest)

/-- The bytes of a value that are taken only when the value is read on. -/
def Found.pending : Found → Nat
  | .sequence | .map => 1
  | _ => 0

/-! ### Arrays and objects -/

/-- Goes to the next item of an array, or behind its end. -/
def nextItem (first : Bool) (cs : List Char) : Except Stop Next :=
  match dropBlanks cs with
  | [] => broken .endInArray []
  | ']' :: rest => .ok (.ended rest)
  | c :: rest =>
    if first then .ok (.part (c :: rest))
    else if c = ',' then
      match dropBlanks rest with
      | [] => broken .endInValue []
      | ']' :: rest => broken .trailingComma (']' :: rest)
      | rest => .ok (.part rest)
    else broken .itemEndExpected (c :: rest)

/-- What comes next in an object: its end, or the name of a member. -/
inductive NextMember where
  | ended (rest : List Char)
  | named (name : String) (rest : List Char)

def takeName (cs : List Char) : Except Stop NextMember :=
  match cs with
  | '"' :: rest => (takeString #[] none rest).map fun (name, rest) => .named name rest
  | rest => broken .nameExpected rest

/-- Reads the next name in an object, or goes behind its end. -/
def nextMember (first : Bool) (cs : List Char) : Except Stop NextMember :=
  match dropBlanks cs with
  | [] => broken .endInObject []
  | '\x7d' :: rest => .ok (.ended rest)
  | c :: rest =>
    if first then takeName (c :: rest)
    else if c = ',' then
      match dropBlanks rest with
      | [] => broken .endInValue []
      | '\x7d' :: rest => broken .trailingComma ('\x7d' :: rest)
      | rest => takeName rest
    else broken .memberEndExpected (c :: rest)

/-- Reads items up to the end of the array.  Each takes at least one character,
    so as many steps as there are characters do. -/
def itemsInto {α : Type} (item : Scan α) : Nat → Array α → Scan (List α)
  | 0, _, _ => broken .endInArray []
  | steps + 1, acc, cs =>
    match nextItem acc.isEmpty cs with
    | .error stop => .error stop
    | .ok (.ended rest) => .ok (acc.toList, rest)
    | .ok (.part rest) =>
      match item rest with
      | .error stop => .error stop
      | .ok (a, rest) => itemsInto item steps (acc.push a) rest

/-- The items of an array that has been opened. -/
def items {α : Type} (item : Scan α) : Scan (List α) := fun cs =>
  itemsInto item (cs.length + 1) #[] cs

/-- Goes on behind the bracket that opens an array or object, if one more level
    may be opened. -/
def inside {α : Type} (reader : Reader α) : Reader α
  | 0, rest => brokenBefore .tooDeep rest
  | depth + 1, rest => reader depth rest

/-! ### Readers -/

namespace Reader

/-- Refuses what is not of the expected type. -/
def mistyped {α : Type} (expected : Expected) (found : Found) (rest : List Char) :
    Except Stop α :=
  .error ⟨.data (.wrongType found expected), byteCount rest + found.pending⟩

def integer (expected : Expected) (low high : Int) : Reader Int := fun _ cs =>
  match Found.read cs with
  | .error stop => .error stop
  | .ok (.number (.integer value), rest) =>
    if low ≤ value ∧ value ≤ high then .ok (value, rest)
    else refuse (.outOfRange value expected) rest
  | .ok (found, rest) => mistyped expected found rest

def int32 : Reader Int32 := fun depth cs =>
  (integer .signed32 (-0x80000000) 0x7fffffff depth cs).map fun (value, rest) =>
    (Int32.ofInt value, rest)

def word32 : Reader UInt32 := fun depth cs =>
  (integer .unsigned32 0 0xffffffff depth cs).map fun (value, rest) =>
    (UInt32.ofNat value.toNat, rest)

/-- A number; an integer is rounded. -/
def binary64 : Reader Binary64 := fun _ cs =>
  match Found.read cs with
  | .error stop => .error stop
  | .ok (.number (.integer value), rest) =>
    let x := Binary64.ofNat value.natAbs
    .ok (if value < 0 then x.neg else x, rest)
  | .ok (.number (.float value), rest) => .ok (value, rest)
  | .ok (found, rest) => mistyped .binary64 found rest

def string : Reader String := fun _ cs =>
  match Found.read cs with
  | .error stop => .error stop
  | .ok (.string text, rest) => .ok (text, rest)
  | .ok (found, rest) => mistyped .string found rest

def boolean : Reader Bool := fun _ cs =>
  match Found.read cs with
  | .error stop => .error stop
  | .ok (.boolean value, rest) => .ok (value, rest)
  | .ok (found, rest) => mistyped .boolean found rest

def list {α : Type} (item : Reader α) : Reader (List α) := fun depth cs =>
  match Found.read cs with
  | .error stop => .error stop
  | .ok (.sequence, rest) => inside (fun depth => items (item depth)) depth rest
  | .ok (found, rest) => mistyped .sequence found rest

end Reader

/-! ### Any value -/

/-- Sets a member: a name that is there already keeps its place. -/
def setMember (members : List (String × Value)) (name : String) (v : Value) :
    List (String × Value) :=
  if members.any (·.1 = name) then
    members.map fun m => if m.1 = name then (name, v) else m
  else members ++ [(name, v)]

/-- Reads members up to the end of the object, in as many steps as there are
    characters; of members with one name the last counts. -/
def membersInto (value : Scan Value) : Nat → Bool → List (String × Value) →
    Scan (List (String × Value))
  | 0, _, _, _ => broken .endInObject []
  | steps + 1, first, members, cs =>
    match nextMember first cs with
    | .error stop => .error stop
    | .ok (.ended rest) => .ok (members, rest)
    | .ok (.named name rest) =>
      match takeColon rest with
      | .error stop => .error stop
      | .ok rest =>
        match value rest with
        | .error stop => .error stop
        | .ok (v, rest) => membersInto value steps false (setMember members name v) rest

/-- The members of an object that has been opened. -/
def members (value : Scan Value) : Scan (List (String × Value)) := fun cs =>
  membersInto value (cs.length + 1) true [] cs

/-- Reads any value, given what reads arrays and objects that have been opened. -/
def anyWith (array : Scan (List Value)) (object : Scan (List (String × Value))) :
    Scan Value := fun cs =>
  match Found.read cs with
  | .error stop => .error stop
  | .ok (.null, rest) => .ok (.null, rest)
  | .ok (.boolean value, rest) => .ok (.boolean value, rest)
  | .ok (.number value, rest) => .ok (.number value, rest)
  | .ok (.string text, rest) => .ok (.string text, rest)
  | .ok (.sequence, rest) => (array rest).map fun (items, rest) => (.array items, rest)
  | .ok (.map, rest) => (object rest).map fun (members, rest) => (.object members, rest)

def Reader.value : Reader Value
  | 0 => anyWith (brokenBefore .tooDeep) (brokenBefore .tooDeep)
  | depth + 1 => anyWith (items (Reader.value depth)) (members (Reader.value depth))

end SatReplay.Json
