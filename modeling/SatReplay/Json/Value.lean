/-
  SatReplay/Json/Value.lean
  =========================
  **JSON values and their canonical text.**

  The canonical text has no blanks, and the members of every object stand in the
  order of their names.  Equal values therefore have one text, whatever order
  their members were given in, so that a hash of the text is a hash of the value.
-/
import SatReplay.Number.Layout

namespace SatReplay.Json

/-- A number is an integer or a binary fraction; 1 and 1.0 are different. -/
inductive Number where
  | integer (value : Int)
  | float (value : Binary64)
deriving DecidableEq, Repr

inductive Value where
  | null
  | boolean (value : Bool)
  | number (value : Number)
  | string (text : String)
  | array (items : List Value)
  | object (members : List (String × Value))
deriving Repr

namespace Value

/-- A binary fraction as a value; there is no number for an infinity. -/
def ofBinary64 (x : Binary64) : Value :=
  if x.isFinite then .number (.float x) else .null

def ofInt (n : Int) : Value := .number (.integer n)

/-! ### The order of members -/

/-- Earlier members have the smaller names. -/
def nameLe (a b : String × Value) : Bool := decide (a.1 ≤ b.1)

mutual

/-- The value with the members of all its objects sorted. -/
def sorted : Value → Value
  | .array items => .array (sortedItems items)
  | .object members => .object ((sortedMembers members).mergeSort nameLe)
  | v => v

def sortedItems : List Value → List Value
  | [] => []
  | v :: rest => v.sorted :: sortedItems rest

def sortedMembers : List (String × Value) → List (String × Value)
  | [] => []
  | (name, v) :: rest => (name, v.sorted) :: sortedMembers rest

end

/-! ### Text -/

/-- What stands for a character in a string: quotes, backslashes and controls
    are escaped, and nothing else. -/
def escape (c : Char) : List Char :=
  if c = '"' then ['\\', '"']
  else if c = '\\' then ['\\', '\\']
  else if c = '\x08' then ['\\', 'b']
  else if c = '\x09' then ['\\', 't']
  else if c = '\x0a' then ['\\', 'n']
  else if c = '\x0c' then ['\\', 'f']
  else if c = '\x0d' then ['\\', 'r']
  else if c < ' ' then
    ['\\', 'u', '0', '0', Nat.digitChar (c.toNat / 16), Nat.digitChar (c.toNat % 16)]
  else [c]

def stringChars (text : String) : List Char := '"' :: text.toList.flatMap escape ++ ['"']

def numberChars : Number → List Char
  | .integer value =>
    if value < 0 then '-' :: Nat.toDigits 10 value.natAbs else Nat.toDigits 10 value.natAbs
  | .float value => (Layout.document.text value).toList

mutual

/-- The text of a value, without blanks, members in the order they have. -/
def chars : Value → List Char
  | .null => ['n', 'u', 'l', 'l']
  | .boolean true => ['t', 'r', 'u', 'e']
  | .boolean false => ['f', 'a', 'l', 's', 'e']
  | .number n => numberChars n
  | .string s => stringChars s
  | .array [] => ['[', ']']
  | .array (v :: rest) => '[' :: (v.chars ++ itemsChars rest)
  | .object [] => ['\x7b', '\x7d']
  | .object ((name, v) :: rest) => '\x7b' :: (stringChars name ++ ':' :: (v.chars ++ membersChars rest))

/-- Further items up to the end of the array. -/
def itemsChars : List Value → List Char
  | [] => [']']
  | v :: rest => ',' :: (v.chars ++ itemsChars rest)

/-- Further members up to the end of the object. -/
def membersChars : List (String × Value) → List Char
  | [] => ['\x7d']
  | (name, v) :: rest => ',' :: (stringChars name ++ ':' :: (v.chars ++ membersChars rest))

end

def text (v : Value) : String := String.ofList v.chars

/-- The text that equal values share. -/
def canonical (v : Value) : String := v.sorted.text

end Value

end SatReplay.Json
