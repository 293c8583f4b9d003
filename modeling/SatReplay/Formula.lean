/-
  SatReplay/Formula.lean
  ======================
  **Clauses, and the inputs that satisfy them.**

  A literal is a signed 32-bit word: its magnitude is a variable, counted from
  1, and its sign says whether the variable stands plain or negated.  A clause
  is a disjunction of literals, a formula a list of clauses, and an input gives
  the first variables their values in order.

  Two readings of satisfaction stand side by side.

    * `Clause.satisfied?` is what a check runs: it goes through the literals in
      order, stops at the first true one, and faults when it meets a literal
      whose variable the input does not have.
    * `Clause.Holds` and `Satisfies` are the plain logical reading, under a
      valuation of all variables.
-/

namespace SatReplay

/-- A literal is the number of a variable, negative where the variable stands
    negated.  Words that no variable has (0) are literals too: a received
    formula may hold them. -/
abbrev Literal := Int32

/-- A clause is the disjunction of its literals. -/
abbrev Clause := List Literal

/-- An input lists the values of the variables 1, 2, … in order. -/
abbrev Input := List Bool

/-- A check cannot go on: this literal's variable has no value in the input. -/
structure Fault where
  literal : Literal
deriving DecidableEq, Repr

namespace Literal

/-- The variable of a literal; the least word has variable `2 ^ 31`. -/
def var (l : Literal) : Nat := l.toInt.natAbs

/-- The value its variable must have for the literal to be true. -/
def isPositive (l : Literal) : Bool := decide (0 < l)

/-- The truth of a literal under an input. -/
def holds? (l : Literal) (input : Input) : Except Fault Bool :=
  match l.var with
  | 0 => .error ⟨l⟩
  | v + 1 =>
    match input[v]? with
    | none => .error ⟨l⟩
    | some value => .ok (value == l.isPositive)

/-- A valuation makes a literal true.  The literal 0 is never true. -/
def Holds (σ : Nat → Bool) (l : Literal) : Prop :=
  (0 < l ∧ σ l.var = true) ∨ (l < 0 ∧ σ l.var = false)

instance (σ : Nat → Bool) (l : Literal) : Decidable (l.Holds σ) :=
  inferInstanceAs (Decidable (_ ∨ _))

end Literal

namespace Clause

/-- Whether an input makes some literal true.  Literals after the first true
    one are not looked at, so only those before it can fault. -/
def satisfied? : Clause → Input → Except Fault Bool
  | [], _ => .ok false
  | l :: rest, input =>
    match Literal.holds? l input with
    | .error fault => .error fault
    | .ok true => .ok true
    | .ok false => satisfied? rest input

/-- A valuation makes some literal of the clause true. -/
def Holds (σ : Nat → Bool) (c : Clause) : Prop := ∃ l ∈ c, Literal.Holds σ l

end Clause

/-- A valuation satisfies a formula when it makes every clause true. -/
def Satisfies (σ : Nat → Bool) (clauses : List Clause) : Prop :=
  ∀ c ∈ clauses, Clause.Holds σ c

/-- The valuation that an input stands for: variables beyond it are false. -/
def Input.valuation (input : Input) (v : Nat) : Bool :=
  match v with
  | 0 => false
  | v + 1 => input.getD v false

/-- Some input for the variables `1 … n` satisfies the formula. -/
def Satisfiable (n : Nat) (clauses : List Clause) : Prop :=
  ∃ input : Input, input.length = n ∧ Satisfies (Input.valuation input) clauses

end SatReplay
