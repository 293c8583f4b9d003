/-
  SatReplay/Number/Binary64.lean
  ==============================
  **Binary floating-point numbers of 64 bits**, as words and as exact values.

  A number is kept as its interchange word.  `Binary64.parts` reads the word as
  the exact value `± significand * 2 ^ exponent`; everything else is exact
  arithmetic on natural numbers followed by one rounding to the nearest number,
  a tie going to the even significand (`ofScaledRatio`).
-/

namespace SatReplay

/-- A 64-bit binary floating-point number, as its interchange word. -/
structure Binary64 where
  bits : UInt64
deriving DecidableEq, Repr

namespace Binary64

/-- What a word stands for: `finite negative m q` is `± m * 2 ^ q`. -/
inductive Parts where
  | nan
  | infinite (negative : Bool)
  | finite (negative : Bool) (significand : Nat) (exponent : Int)
deriving DecidableEq, Repr

/-- The exponent of the last place of the least numbers. -/
def leastExponent : Int := -1074

/-- The leading bit of a normal significand, which is not written: `2 ^ 52`. -/
def hidden : Nat := 0x10000000000000

def isNegative (x : Binary64) : Bool := decide (0x8000000000000000 ≤ x.bits.toNat)

/-- Eleven bits of exponent, 52 of fraction; the fraction of a normal number
    has a leading bit that is not written. -/
def parts (x : Binary64) : Parts :=
  let biased : Nat := x.bits.toNat / hidden % 2048
  let fraction : Nat := x.bits.toNat % hidden
  if biased = 2047 then
    if fraction = 0 then .infinite x.isNegative else .nan
  else if biased = 0 then .finite x.isNegative fraction leastExponent
  else .finite x.isNegative (hidden + fraction) (leastExponent + biased - 1)

def nan : Binary64 := ⟨0x7ff8000000000000⟩

def infinity (negative : Bool) : Binary64 :=
  ⟨if negative then 0xfff0000000000000 else 0x7ff0000000000000⟩

def zero (negative : Bool) : Binary64 :=
  ⟨if negative then 0x8000000000000000 else 0⟩

def largest : Binary64 := ⟨0x7fefffffffffffff⟩

def neg (x : Binary64) : Binary64 := ⟨x.bits ^^^ 0x8000000000000000⟩

def isNaN (x : Binary64) : Bool := x.parts == .nan

def isFinite (x : Binary64) : Bool :=
  match x.parts with
  | .finite .. => true
  | _ => false

/-- Both zeros. -/
def isZero (x : Binary64) : Bool :=
  match x.parts with
  | .finite _ 0 _ => true
  | _ => false

/-! ### Rounding -/

/-- The quotient rounded to the nearest integer, a tie to the even one. -/
def roundDiv (num den : Nat) : Nat :=
  let quotient := num / den
  let twice := 2 * (num % den)
  if twice < den then quotient
  else if den < twice then quotient + 1
  else quotient + quotient % 2

/-- Numerator and denominator of `num / den * 2 ^ q`. -/
def scaled (num den : Nat) (q : Int) : Nat × Nat :=
  if 0 ≤ q then (num * Nat.pow 2 q.toNat, den) else (num, den * Nat.pow 2 (-q).toNat)

/-- The exponent of the last place of the numbers about `num / den`: that of a
    significand of 53 bits, or the least one. -/
def placeExponent (num den : Nat) : Int :=
  let guess : Int := (num.log2 : Int) - den.log2 - 53
  let (n, d) := scaled num den (-guess)
  max leastExponent (if n < 2 * hidden * d then guess else guess + 1)

/-- The word of `± m * 2 ^ q` for a last place `q`.  A significand that rounding
    carried to 54 bits moves into the next exponent by itself, and past the
    largest number lies infinity. -/
def pack (negative : Bool) (m : Nat) (q : Int) : Binary64 :=
  let word := (q - leastExponent).toNat * hidden + m
  let word := if 2047 * hidden ≤ word then 2047 * hidden else word
  ⟨UInt64.ofNat ((if negative then 0x8000000000000000 else 0) + word)⟩

/-- The number nearest to `± num / den * 2 ^ q`, where `den` is not 0. -/
def ofScaledRatio (negative : Bool) (num den : Nat) (q : Int) : Binary64 :=
  if num = 0 then zero negative
  else
    let (n, d) := scaled num den q
    let place := placeExponent n d
    let (n, d) := scaled n d (-place)
    pack negative (roundDiv n d) place

def ofNat (n : Nat) : Binary64 := ofScaledRatio false n 1 0

/-- The number nearest to `± d * 10 ^ e`.  Values that are certainly too large
    or too small are settled by counting digits. -/
def ofDecimal (negative : Bool) (d : Nat) (e : Int) : Binary64 :=
  if d = 0 then zero negative
  else
    let magnitude : Int := e + (Nat.toDigits 10 d).length
    if 310 < magnitude then infinity negative
    else if magnitude < -330 then zero negative
    else if 0 ≤ e then ofScaledRatio negative (d * Nat.pow 10 e.toNat) 1 0
    else ofScaledRatio negative d (Nat.pow 10 (-e).toNat) 0

def signed (negative : Bool) (n : Nat) : Int := if negative then -n else n

/-- The rounded sum of two finite numbers; `nan` if one is not finite.  A sum of 0
    is negative only if both numbers are. -/
def finiteAdd (x y : Binary64) : Binary64 :=
  match x.parts, y.parts with
  | .finite s m q, .finite t n r =>
    let place := min q r
    let sum := signed s (m * Nat.pow 2 (q - place).toNat) +
      signed t (n * Nat.pow 2 (r - place).toNat)
    if sum = 0 then zero (s && t) else ofScaledRatio (sum < 0) sum.natAbs 1 place
  | _, _ => nan

/-- The rounded product of two finite numbers; `nan` if one is not finite. -/
def finiteMul (x y : Binary64) : Binary64 :=
  match x.parts, y.parts with
  | .finite s m q, .finite t n r => ofScaledRatio (s != t) (m * n) 1 (q + r)
  | _, _ => nan

/-- The rounded quotient of two finite numbers; `nan` if one is not finite or
    the divisor is zero. -/
def finiteDiv (x y : Binary64) : Binary64 :=
  match x.parts, y.parts with
  | .finite _ _ _, .finite _ 0 _ => nan
  | .finite s m q, .finite t n r => ofScaledRatio (s != t) m n (q - r)
  | _, _ => nan

end Binary64

end SatReplay
