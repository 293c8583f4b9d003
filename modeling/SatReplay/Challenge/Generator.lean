/-
  SatReplay/Challenge/Generator.lean
  ==================================
  **Random formulas.**  The variables `1 … n` are kept in a row.  A clause takes
  three of them: each pick swaps the picked variable behind the ones that are
  still to be picked from, so the three differ.  The row is not reset between
  clauses; the next clause picks from the row that the last one left.
-/
import SatReplay.Challenge
import SatReplay.Random.KeyStream

namespace SatReplay.Generator

/-- Keeps the generator's stream apart from a solver's stream for one seed. -/
def seedOffset : Int32 := 1337

/-- The choices that make one clause: three places, each in the part of the row
    that is left, and three signs. -/
structure Choices (n : Nat) where
  first : Fin n
  firstNegated : Bool
  second : Fin (n - 1)
  secondNegated : Bool
  third : Fin (n - 2)
  thirdNegated : Bool
deriving DecidableEq

/-- A row of the `n` variables. -/
abbrev Row (n : Nat) := Vector Int32 n

/-- The row `1, 2, …, n`. -/
def Row.initial (n : Nat) : Row n := Vector.ofFn fun i => Int32.ofNat (i + 1)

/-- Takes the variable at a place among the first `n - taken`, and swaps it to
    the last of these places. -/
def Row.take {n : Nat} (row : Row n) (taken : Nat) (place : Fin (n - taken)) (negated : Bool) :
    Literal × Row n :=
  have h : place.val < n := by omega
  have hlast : n - 1 - taken < n := by omega
  let v := row[place.val]
  (if negated then -v else v, row.swap place.val (n - 1 - taken))

/-- The clause of some choices, and the row left behind. -/
def Row.clause {n : Nat} (row : Row n) (c : Choices n) : Clause × Row n :=
  let (l₁, row) := row.take 0 c.first c.firstNegated
  let (l₂, row) := row.take 1 c.second c.secondNegated
  let (l₃, row) := row.take 2 c.third c.thirdNegated
  ([l₁, l₂, l₃], row)

/-- Draws the choices of a clause: each place is followed by its sign. -/
def drawChoices (n : Nat) (h : 3 ≤ n) (s : KeyStream) : Choices n × KeyStream :=
  let (first, s) := s.below n (by omega)
  let (firstNegated, s) := s.coin
  let (second, s) := s.below (n - 1) (by omega)
  let (secondNegated, s) := s.coin
  let (third, s) := s.below (n - 2) (by omega)
  let (thirdNegated, s) := s.coin
  (⟨first, firstNegated, second, secondNegated, third, thirdNegated⟩, s)

def clausesInto {n : Nat} (h : 3 ≤ n) :
    Nat → KeyStream → Row n → Array Clause → Array Clause
  | 0, _, _, acc => acc
  | count + 1, s, row, acc =>
    let (choices, s) := drawChoices n h s
    let (clause, row) := row.clause choices
    clausesInto h count s row (acc.push clause)

end SatReplay.Generator

namespace SatReplay

/-- The challenge of a seed and a difficulty. -/
def Challenge.generate (seed : Int32) (difficulty : Difficulty) : Challenge where
  seed := seed
  difficulty := difficulty
  clauses :=
    (Generator.clausesInto difficulty.three_le_variableCount difficulty.clauseCount
      (KeyStream.ofSeed (seed + Generator.seedOffset))
      (Generator.Row.initial difficulty.variableCount) #[]).toList

end SatReplay
