/-
  SatReplay/Number/Layout.lean
  ============================
  **How the shortest decimal of a number is written out.**  A `Layout` holds the
  decisions of a format; `Layout.text` follows them.
-/
import SatReplay.Number.Shortest

namespace SatReplay

structure Layout where
  /-- Whether a number whose leading digit has this exponent is written without
      an exponent. -/
  positional : Int → Bool
  /-- What follows a whole number that is written without an exponent. -/
  wholeEnding : String
  tie : Tie

namespace Layout

/-- Numbers in documents: an exponent below `1e-5` and from `1e+16` on, and a
    whole number keeps a decimal place. -/
def document : Layout where
  positional e := -5 ≤ e && e < 16
  wholeEnding := ".0"
  tie := .even

/-- Numbers in messages: all digits and never an exponent. -/
def plain : Layout where
  positional _ := true
  wholeEnding := ""
  tie := .away

/-- The decimal digits of a count, and how many zeros they end with. -/
def digitsOf (n : Nat) : List Char := Nat.toDigits 10 n

def dropTrailingZeros (ds : List Char) : List Char :=
  (ds.reverse.dropWhile (· == '0')).reverse

def zeros (n : Nat) : List Char := List.replicate n '0'

/-- Digits with the point after the first `whole` of them. -/
def positionalText (ending : String) (ds : List Char) (e : Int) : List Char :=
  if e < 0 then '0' :: '.' :: zeros (-e - 1).toNat ++ ds
  else
    let whole := e.toNat + 1
    if ds.length ≤ whole then ds ++ zeros (whole - ds.length) ++ ending.toList
    else ds.take whole ++ '.' :: ds.drop whole

/-- One digit before the point, and a signed exponent. -/
def exponentText (ds : List Char) (e : Int) : List Char :=
  let mantissa := match ds with
    | [] => ['0']
    | [d] => [d]
    | d :: rest => d :: '.' :: rest
  mantissa ++ 'e' :: (if e < 0 then '-' else '+') :: digitsOf e.natAbs

def decimalText (layout : Layout) (d : Decimal) : List Char :=
  let all := digitsOf d.digits
  let e := d.exponent + (all.length - 1 : Nat)
  let ds := dropTrailingZeros all
  if layout.positional e then positionalText layout.wholeEnding ds e else exponentText ds e

def text (layout : Layout) (x : Binary64) : String :=
  match x.parts with
  | .nan => "NaN"
  | .infinite negative => if negative then "-inf" else "inf"
  | .finite negative m q =>
    let body :=
      if m = 0 then '0' :: layout.wholeEnding.toList
      else layout.decimalText (Decimal.shortest layout.tie m q)
    String.ofList (if negative then '-' :: body else body)

end Layout

end SatReplay
