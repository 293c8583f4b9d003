/-
  SatReplay/Json/Numeral.lean
  ===========================
  **Numerals and the numbers they stand for.**

  A numeral without point and exponent is an integer if 64 bits hold it, with or
  without sign; negative zero and everything else is a binary fraction.  That
  fraction is found in two roundings.  The digits are taken into a significand
  of 64 bits until one no longer fits; then the significand is rounded, and it
  is multiplied or divided once by the rounded power of ten.  So the last place
  of a long numeral can differ from that of the nearest number.
-/
import SatReplay.Json.Scan
import SatReplay.Number.Reading

namespace SatReplay.Json

structure Numeral where
  negative : Bool
  /-- The digits before the point; at least one. -/
  whole : List Char
  /-- The digits after the point; none if there is no point. -/
  fraction : List Char
  /-- The sign of the exponent, true for a minus, and its digits. -/
  exponent : Option (Bool × List Char)
deriving DecidableEq, Repr

namespace Numeral

/-! ### Reading a numeral -/

/-- At least one digit; `atEnd` is said of a text that ends instead. -/
def takeDigits (atEnd : GrammarError) : Scan (List Char) := fun cs =>
  match cs.takeWhile Reading.isDigit with
  | [] => broken (if cs.isEmpty then atEnd else .badNumeral) cs
  | ds => .ok (ds, cs.dropWhile Reading.isDigit)

/-- The digits before the point, without a needless zero in front. -/
def takeWhole (atEnd : GrammarError) : Scan (List Char) := fun cs =>
  match takeDigits atEnd cs with
  | .ok ('0' :: _ :: _, _) => broken .badNumeral cs.tail
  | r => r

/-- The digits after a point, if a point follows. -/
def takeFraction (atEnd : GrammarError) : Scan (List Char)
  | '.' :: rest => takeDigits atEnd rest
  | cs => .ok ([], cs)

/-- The sign and the digits of the exponent, if an `e` follows. -/
def takeExponent (atEnd : GrammarError) : Scan (Option (Bool × List Char))
  | [] => .ok (none, [])
  | c :: rest =>
    if c = 'e' ∨ c = 'E' then
      let (negative, rest) := Reading.sign rest
      (takeDigits atEnd rest).map fun (ds, rest) => (some (negative, ds), rest)
    else .ok (none, c :: rest)

def takeMinus : List Char → Bool × List Char
  | '-' :: rest => (true, rest)
  | cs => (false, cs)

/-- A numeral and what follows it; `atEnd` is said of a text that ends where a
    digit is needed. -/
def read (atEnd : GrammarError) : Scan Numeral := fun cs => do
  let (negative, cs) := takeMinus cs
  let (whole, cs) ← takeWhole atEnd cs
  let (fraction, cs) ← takeFraction atEnd cs
  let (exponent, cs) ← takeExponent atEnd cs
  return (⟨negative, whole, fraction, exponent⟩, cs)

/-! ### The number of a numeral -/

/-- Significands stay below this. -/
def significandBound : Nat := 0x10000000000000000

/-- Takes digits after a number as long as they fit into a significand; gives the
    significand and the digits that are left. -/
def significand (n : Nat) : List Char → Nat × List Char
  | [] => (n, [])
  | d :: rest =>
    let next := n * 10 + Reading.digitValue d
    if next < significandBound then significand next rest else (n, d :: rest)

/-- The exponents that are written out stay below this. -/
def exponentBound : Nat := 0x80000000

/-- A power of ten as a binary fraction. -/
def power (k : Nat) : Binary64 := Binary64.ofDecimal false 1 k

/-- Divides by a power of ten, in steps that a binary fraction can hold. -/
def divideByPower (x : Binary64) (k : Nat) : Binary64 :=
  if k ≤ 308 then x.finiteDiv (power k)
  else if x.isZero then x
  else divideByPower (x.finiteDiv (power 308)) (k - 308)
termination_by k

/-- The fraction `significand * 10 ^ e`; none if it is too large. -/
def scale? (significand : Nat) (e : Int) : Option Binary64 :=
  let x := Binary64.ofNat significand
  if e < 0 then some (divideByPower x (-e).toNat)
  else if e ≤ 308 then
    let y := x.finiteMul (power e.toNat)
    if y.isFinite then some y else none
  else if x.isZero then some x
  else none

/-- The sum of two exponents, kept within 32 bits. -/
def addExponents (e f : Int) : Int := max (-exponentBound) (min (exponentBound - 1) (e + f))

/-- The fraction of a significand, the exponent it has already, and the exponent
    that is written. -/
def magnitude? (significand : Nat) (e : Int) : Option (Bool × List Char) → Option Binary64
  | none => scale? significand e
  | some (negative, ds) =>
    let written := Reading.digitsValue ds
    if exponentBound ≤ written then
      if significand = 0 ∨ negative then some (Binary64.zero false) else none
    else scale? significand (addExponents e (if negative then -written else written))

/-- The number of a numeral; none if no finite number is near. -/
def number? (n : Numeral) : Option Number :=
  let (m, dropped) := significand 0 n.whole
  let isInteger := dropped = [] ∧ n.fraction = [] ∧ n.exponent = none
  if isInteger ∧ ¬ n.negative then some (.integer m)
  else if isInteger ∧ 0 < m ∧ m ≤ 0x8000000000000000 then some (.integer (-m))
  else
    let (m, rest) := significand m n.fraction
    let e : Int := dropped.length - (n.fraction.length - rest.length : Nat)
    (magnitude? m e n.exponent).map fun x => .float (if n.negative then x.neg else x)

/-! ### Numerals that are too large -/

/-- How many digits come after the one with which a number reaches the bound of
    the exponents. -/
def excess (n : Nat) : List Char → Nat
  | [] => 0
  | d :: rest =>
    let next := n * 10 + Reading.digitValue d
    if exponentBound ≤ next then rest.length else excess next rest

/-- The digits of the exponent that are not needed to see that it is too large. -/
def unneeded (n : Numeral) : Nat :=
  match n.exponent with
  | none => 0
  | some (_, ds) => excess 0 ds

/-- The number at the front of a text. -/
def readNumber : Scan Number := fun cs =>
  match read .endInValue cs with
  | .error stop => .error stop
  | .ok (n, rest) =>
    match n.number? with
    | some value => .ok (value, rest)
    | none => .error ⟨.grammar .tooLarge, byteCount rest + n.unneeded⟩

end Numeral

end SatReplay.Json
