/-
  SatReplay/Dpll/Simplify.lean
  ============================
  **Nodes of the search and their simplification.**

  A node is what is left of a formula under a partial assignment.  Two passes
  simplify it, and are repeated until no clause goes away.

    * Unit propagation: a clause with a single literal forces it.  The last such
      clause goes first.
    * Pure literals: a literal whose negation occurs nowhere may be made true,
      and its clauses go away.

  Both only ever give a value to a variable that has none.
-/
import SatReplay.Formula
import Std.Data.TreeMap
import Std.Data.TreeSet

namespace SatReplay.Dpll

/-- The variables that have a value. -/
abbrev Assignment := Std.TreeMap Nat Bool

/-- Makes a literal true unless its variable has a value already. -/
def Assignment.assume (a : Assignment) (l : Literal) : Assignment :=
  a.insertIfNew l.var l.isPositive

/-- The clauses that are left, and the assignment under which they are. -/
structure Node where
  clauses : List Clause
  assignment : Assignment

/-- The clauses left when a literal is true: those that hold it go away, and the
    others lose its negation.  A clause that has nothing left is a conflict. -/
def reduce (clauses : List Clause) (l : Literal) : List Clause :=
  (clauses.filter fun c => !c.contains l).map fun c => c.filter fun x => x != -l

/-! ### Unit propagation -/

/-- Splits off the last clause that has a single literal. -/
def takeLastUnit? : List Clause → Option (Literal × List Clause)
  | [] => none
  | c :: rest =>
    match takeLastUnit? rest with
    | some (l, others) => some (l, c :: others)
    | none =>
      match c with
      | [l] => some (l, rest)
      | _ => none

theorem length_of_takeLastUnit? {clauses others : List Clause} {l : Literal}
    (h : takeLastUnit? clauses = some (l, others)) : others.length + 1 = clauses.length := by
  induction clauses generalizing others with
  | nil => simp [takeLastUnit?] at h
  | cons c rest ih =>
    simp only [takeLastUnit?] at h
    split at h
    · next l' others' hrest =>
      simp only [Option.some.injEq, Prod.mk.injEq] at h
      obtain ⟨rfl, rfl⟩ := h
      simpa using ih hrest
    · split at h
      · simp only [Option.some.injEq, Prod.mk.injEq] at h
        obtain ⟨-, rfl⟩ := h
        simp
      · simp at h

theorem length_reduce_le (clauses : List Clause) (l : Literal) :
    (reduce clauses l).length ≤ clauses.length := by
  simp only [reduce, List.length_map]
  exact List.length_filter_le ..

/-- Forces the literals of single-literal clauses until there are none. -/
def propagate (node : Node) : Node :=
  match _hunit : takeLastUnit? node.clauses with
  | none => node
  | some (l, others) => propagate ⟨reduce others l, node.assignment.assume l⟩
termination_by node.clauses.length
decreasing_by
  have h₁ := length_of_takeLastUnit? _hunit
  have h₂ := length_reduce_le others l
  show (reduce others l).length < node.clauses.length
  omega

theorem length_propagate_le (node : Node) :
    (propagate node).clauses.length ≤ node.clauses.length := by
  fun_induction propagate node with
  | case1 => exact Nat.le_refl _
  | case2 node l others h ih =>
    have h₁ := length_of_takeLastUnit? h
    have h₂ := length_reduce_le others l
    have h₃ : (propagate ⟨reduce others l, node.assignment.assume l⟩).clauses.length ≤
        (reduce others l).length := ih
    omega

/-! ### Pure literals -/

def occurring (clauses : List Clause) : Std.TreeSet Int32 := Std.TreeSet.ofList clauses.flatten

/-- Makes every pure literal true, in the order in which they stand, and drops
    the clauses that hold one. -/
def eliminate (node : Node) : Node :=
  let present := occurring node.clauses
  let isPure (l : Literal) : Bool := !present.contains (-l)
  { clauses := node.clauses.filter fun c => !c.any isPure
    assignment := (node.clauses.flatten.filter isPure).foldl Assignment.assume node.assignment }

theorem length_eliminate_le (node : Node) :
    (eliminate node).clauses.length ≤ node.clauses.length :=
  List.length_filter_le ..

/-! ### Both until nothing changes -/

/-- Propagation and elimination, again as long as a clause went away. -/
def simplify (node : Node) : Node :=
  let next := eliminate (propagate node)
  if next.clauses.length < node.clauses.length then simplify next else next
termination_by node.clauses.length

theorem simplify_of_shorter {node : Node}
    (h : (eliminate (propagate node)).clauses.length < node.clauses.length) :
    simplify node = simplify (eliminate (propagate node)) := by
  rw [simplify, if_pos h]

theorem simplify_of_not_shorter {node : Node}
    (h : ¬ (eliminate (propagate node)).clauses.length < node.clauses.length) :
    simplify node = eliminate (propagate node) := by
  rw [simplify, if_neg h]

/-! ### Values are only added -/

theorem Assignment.contains_assume {a : Assignment} {v : Nat} (l : Literal)
    (h : a.contains v = true) : (a.assume l).contains v = true := by
  simp [Assignment.assume, Std.TreeMap.contains_insertIfNew, h]

theorem Assignment.contains_foldl_assume {a : Assignment} {v : Nat} (ls : List Literal)
    (h : a.contains v = true) : (ls.foldl Assignment.assume a).contains v = true := by
  induction ls generalizing a with
  | nil => exact h
  | cons l ls ih => exact ih (contains_assume l h)

theorem contains_propagate {node : Node} {v : Nat} (h : node.assignment.contains v = true) :
    (propagate node).assignment.contains v = true := by
  fun_induction propagate node with
  | case1 => exact h
  | case2 node l others _ ih => exact ih (Assignment.contains_assume l h)

theorem contains_eliminate {node : Node} {v : Nat} (h : node.assignment.contains v = true) :
    (eliminate node).assignment.contains v = true :=
  Assignment.contains_foldl_assume _ h

theorem contains_simplify {node : Node} {v : Nat} (h : node.assignment.contains v = true) :
    (simplify node).assignment.contains v = true := by
  fun_induction simplify node with
  | case1 node next _ ih => exact ih (contains_eliminate (contains_propagate h))
  | case2 node next _ => exact contains_eliminate (contains_propagate h)

end SatReplay.Dpll
