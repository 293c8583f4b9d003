/-
  SatReplay/Budget.lean
  =====================
  **Time budgets.**  A budget is a number of seconds, and a clock says how much
  time has passed, in nanoseconds, at its first reading, its second, and so on.
  A budget is spent once nothing remains of it.  No number of seconds (`nan`)
  is never spent, since nothing compares with it.
-/
import SatReplay.Failure

namespace SatReplay

/-- The nanoseconds since the start at each reading. -/
abbrev Clock := Nat → Nat

/-- The clock of an operation that takes no time. -/
def Clock.still : Clock := fun _ => 0

/-- Seconds that an operation may take. -/
abbrev Budget := Binary64

namespace Budget

def nanoseconds : Nat := 1000000000

/-- So large that no clock reaches it. -/
def unlimited : Budget := Binary64.largest

/-- So many nanoseconds as a number of seconds: the whole ones and the part of one
    more.  The part is rounded, and so is the sum. -/
def seconds (elapsed : Nat) : Binary64 :=
  (Binary64.ofNat (elapsed / nanoseconds)).finiteAdd
    ((Binary64.ofNat (elapsed % nanoseconds)).finiteDiv (Binary64.ofNat nanoseconds))

/-- Nothing remains of the budget after so many nanoseconds: their seconds are not
    less.  A budget of zero or less is spent from the start.  The difference of two
    numbers is never rounded to 0 unless they are the same, so they are compared as
    they are. -/
def spentAfter (budget : Budget) (elapsed : Nat) : Bool :=
  match budget.parts, (seconds elapsed).parts with
  | .nan, _ => false
  | .infinite negative, _ => negative
  | .finite true _ _, _ => true
  | .finite false m q, .finite _ n r =>
    let (a, b) := Binary64.scaled m 1 q
    let (c, d) := Binary64.scaled n 1 r
    a * d ≤ c * b
  -- so long a time that no number holds it
  | .finite false _ _, _ => true

/-- Refuses to go on when the budget is spent. -/
def check (budget : Budget) (elapsed : Nat) : Except Failure Unit :=
  if budget.spentAfter elapsed then .error (.timeout budget) else .ok ()

/-- Something remains of the budget: also `nan` has nothing left to spend. -/
def remainsAfter (budget : Budget) (elapsed : Nat) : Bool :=
  !budget.isNaN && !budget.spentAfter elapsed

/-- A budget that is never spent, whenever the clock is read. -/
def Lasts (budget : Budget) (clock : Clock) : Prop :=
  ∀ reading, budget.spentAfter (clock reading) = false

end Budget

end SatReplay
