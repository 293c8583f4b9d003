/-
  SatReplay/Number/Reading.lean
  =============================
  **Numbers as a person types them**: an optional sign, then digits with an
  optional point and exponent, or a word for infinity or for no number.  The
  result is the number nearest to the decimal.
-/
import SatReplay.Number.Binary64

namespace SatReplay.Reading

def isDigit (c : Char) : Bool := '0' ≤ c && c ≤ '9'

def digitValue (c : Char) : Nat := c.toNat - '0'.toNat

/-- The number that a row of digits stands for. -/
def digitsValue (ds : List Char) : Nat := ds.foldl (fun n c => 10 * n + digitValue c) 0

/-- An optional sign; true for a minus. -/
def sign : List Char → Bool × List Char
  | '-' :: rest => (true, rest)
  | '+' :: rest => (false, rest)
  | rest => (false, rest)

/-- An integer with an optional sign and at least one digit. -/
def integer? (cs : List Char) : Option Int :=
  let (negative, ds) := sign cs
  if ds ≠ [] ∧ ds.all isDigit then
    some (if negative then -(digitsValue ds : Int) else digitsValue ds)
  else none

/-- What may follow the digits: nothing, or an exponent. -/
def exponent? : List Char → Option Int
  | [] => some 0
  | c :: rest => if c = 'e' ∨ c = 'E' then integer? rest else none

/-- Digits, a point and digits, an exponent; at least one digit before the
    exponent.  The digits after the point count as tenths, hundredths, …. -/
def decimal? (negative : Bool) (cs : List Char) : Option Binary64 :=
  let whole := cs.takeWhile isDigit
  let (fraction, rest) :=
    match cs.dropWhile isDigit with
    | '.' :: more => (more.takeWhile isDigit, more.dropWhile isDigit)
    | more => ([], more)
  if whole = [] ∧ fraction = [] then none
  else
    (exponent? rest).map fun e =>
      Binary64.ofDecimal negative (digitsValue (whole ++ fraction)) (e - fraction.length)

/-- A number, in upper or lower case where it is a word. -/
def number? (text : String) : Option Binary64 :=
  let (negative, body) := sign text.toList
  let word := String.ofList (body.map Char.toLower)
  if word = "inf" ∨ word = "infinity" then some (Binary64.infinity negative)
  else if word = "nan" then some (if negative then Binary64.nan.neg else Binary64.nan)
  else decimal? negative body

end SatReplay.Reading
