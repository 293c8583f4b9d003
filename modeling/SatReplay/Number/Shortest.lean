/-
  SatReplay/Number/Shortest.lean
  ==============================
  **The fewest decimal digits that read back as a number.**

  The reals that round to a number form an interval about it, whose ends belong
  to it when the significand is even.  For one digit, two digits, and so on the
  two neighbours of the number on that decimal grid are tried in exact
  arithmetic; the first grid with a neighbour inside the interval wins, and of
  two such neighbours the nearer.  Seventeen digits always suffice.
-/
import SatReplay.Number.Binary64

namespace SatReplay

/-- Where a decimal halfway between two candidates goes. -/
inductive Tie where
  /-- To the candidate whose last digit is even. -/
  | even
  /-- Away from zero. -/
  | away
deriving DecidableEq, Repr

/-- The decimal `digits * 10 ^ exponent`. -/
structure Decimal where
  digits : Nat
  exponent : Int
deriving DecidableEq, Repr

namespace Shortest

/-- The rounding interval of `m * 2 ^ q`, in quarters of the last place.  Below
    a power of two the numbers lie twice as dense. -/
structure Interval where
  low : Nat
  middle : Nat
  high : Nat
  closed : Bool

def interval (m : Nat) (q : Int) : Interval where
  low := if m = Binary64.hidden ∧ Binary64.leastExponent < q then 4 * m - 1 else 4 * m - 2
  middle := 4 * m
  high := 4 * m + 2
  closed := m % 2 = 0

/-- A factor pair `(a, b)` such that a count `c` of units `10 ^ t` compares with
    `x` quarters of `2 ^ q` as `c * b` with `x * a`. -/
def factors (q t : Int) : Nat × Nat :=
  let (a, b) := Binary64.scaled 1 1 (q - 2)
  if 0 ≤ t then (a, b * Nat.pow 10 t.toNat) else (a * Nat.pow 10 (-t).toNat, b)

/-- A count of units lies in the interval. -/
def Interval.contains (i : Interval) (a b count : Nat) : Bool :=
  if i.closed then i.low * a ≤ count * b && count * b ≤ i.high * a
  else i.low * a < count * b && count * b < i.high * a

/-- The neighbour of the number on the grid of units `10 ^ t` that lies in its
    interval, if there is one. -/
def onGrid (tie : Tie) (i : Interval) (q t : Int) : Option Nat :=
  let (a, b) := factors q t
  let below := i.middle * a / b
  let above := below + 1
  if i.contains a b below then
    if i.contains a b above then
      let toBelow := i.middle * a - below * b
      let toAbove := above * b - i.middle * a
      if toBelow < toAbove then some below
      else if toAbove < toBelow then some above
      else match tie with
        | .even => some (if below % 2 = 0 then below else above)
        | .away => some above
    else some below
  else if i.contains a b above then some above
  else none

/-- The exponent of the leading digit of `m * 2 ^ q`: the count of digits of its
    whole part, or of the place where its first digit other than 0 stands. -/
def leadingExponent (m : Nat) (q : Int) : Int :=
  let (n, d) := Binary64.scaled m 1 q
  if d ≤ n then (Nat.toDigits 10 (n / d)).length - 1
  else
    -- `Nat.pow 10 k * n / d` has as many digits as the value has above the place `-k`
    let k := (Nat.toDigits 10 (d / n)).length + 1
    ((Nat.toDigits 10 (Nat.pow 10 k * n / d)).length : Int) - 1 - k

/-- The decimals with ever more digits, up to `left` further ones. -/
def search (tie : Tie) (i : Interval) (q leading : Int) : Nat → Nat → Decimal
  | 0, count => ⟨(onGrid tie i q (leading - count + 1)).getD 0, leading - count + 1⟩
  | left + 1, count =>
    let t := leading - count + 1
    match onGrid tie i q t with
    | some d => ⟨d, t⟩
    | none => search tie i q leading left (count + 1)

end Shortest

/-- The shortest decimal that reads back as `m * 2 ^ q`, for a number that is
    not zero. -/
def Decimal.shortest (tie : Tie) (m : Nat) (q : Int) : Decimal :=
  Shortest.search tie (Shortest.interval m q) q (Shortest.leadingExponent m q) 16 1

end SatReplay
