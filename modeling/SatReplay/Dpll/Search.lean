/-
  SatReplay/Dpll/Search.lean
  ==========================
  **The complete search.**  A node is simplified and emits one identifier; then
  it is a success without clauses, a conflict with an empty clause, or it
  branches on the lowest variable that has no value, first true, then false.

  The order of branches and the identifiers belong to the contract: a trace is
  accepted only from this very search.  The search ends because every branch
  gives a value to one more of the variables `1 … n`.
-/
import SatReplay.Dpll.Simplify
import SatReplay.Interaction

namespace SatReplay.Dpll

/-! ### The variables without a value -/

/-- The variables `1 … n` that have no value. -/
def Assignment.openCount (a : Assignment) (n : Nat) : Nat :=
  (List.range' 1 n).countP fun v => !a.contains v

/-- The lowest of the variables `1 … n` that has no value. -/
def Assignment.firstOpen? (a : Assignment) (n : Nat) : Option Nat :=
  (List.range' 1 n).find? fun v => !a.contains v

/-- A count falls when members stop to count and one of them did. -/
theorem countP_lt_of_imp {α : Type} {p q : α → Bool} {xs : List α} {x : α}
    (himp : ∀ y, q y = true → p y = true) (hx : x ∈ xs) (hp : p x = true) (hq : q x = false) :
    xs.countP q < xs.countP p := by
  induction xs with
  | nil => simp at hx
  | cons y ys ih =>
    have hle : ys.countP q ≤ ys.countP p := List.countP_mono_left fun z _ => himp z
    rcases List.mem_cons.1 hx with rfl | hmem
    · simp only [List.countP_cons, hp, hq]
      simp
      omega
    · have hlt := ih hmem
      have hy : (if q y = true then 1 else 0) ≤ (if p y = true then 1 else 0) := by
        by_cases hq : q y = true
        · simp [hq, himp y hq]
        · simp [hq]
      simp only [List.countP_cons]
      omega

/-- Giving a value to an open variable leaves fewer open ones. -/
theorem openCount_insert_lt {a b : Assignment} {n v : Nat} {value : Bool}
    (hab : ∀ w, a.contains w = true → b.contains w = true)
    (hv : b.firstOpen? n = some v) :
    Assignment.openCount (b.insert v value) n < a.openCount n := by
  simp only [Assignment.firstOpen?] at hv
  have hmem := List.mem_of_find?_eq_some hv
  have hopen := List.find?_some hv
  simp only [Bool.not_eq_true'] at hopen
  refine countP_lt_of_imp (x := v) ?_ hmem ?_ ?_
  · intro w hw
    simp only [Std.TreeMap.contains_insert, Bool.not_eq_true', Bool.or_eq_false_iff] at hw
    cases ha : a.contains w with
    | false => rfl
    | true => simp [hab w ha] at hw
  · cases ha : a.contains v with
    | false => rfl
    | true => simp [hab v ha] at hopen
  · simp [Std.TreeMap.contains_insert]

/-! ### Identifiers -/

/-- The digit of a variable: 2 for true, 1 for false, 0 for no value. -/
def Assignment.digit (a : Assignment) (v : Nat) : UInt32 :=
  match a[v]? with
  | some true => 2
  | some false => 1
  | none => 0

/-- The number of clauses left, followed by the digits of the variables `1 … n`
    in base 31, modulo `2 ^ 32`. -/
def progressIdentifier (a : Assignment) (n remaining : Nat) : Int32 :=
  ((List.range' 1 n).foldl (fun acc v => acc * 31 + a.digit v) (UInt32.ofNat remaining)).toInt32

/-! ### The search -/

namespace Node

def identifier (node : Node) (n : Nat) : Int32 :=
  progressIdentifier node.assignment n node.clauses.length

/-- The node in which a variable without a value has one. -/
def branch (node : Node) (v : Nat) (value : Bool) : Node where
  clauses := reduce node.clauses (if value then Int32.ofNat v else -Int32.ofNat v)
  assignment := node.assignment.insert v value

/-- What is reported of a node. -/
def event (node : Node) (depth : Nat) : Event :=
  .node depth node.assignment.size node.clauses.length

end Node

/-- Reports an event in debug mode only. -/
def noteIf {α : Type} (debug : Bool) (event : Event) (next : Interaction α) : Interaction α :=
  if debug then .note event next else next

/-- Searches below a node for an assignment under which no clause is left.  A
    refused identifier ends the search with the refusal. -/
def search (n : Nat) (debug : Bool) (start : Node) (depth : Nat) :
    Interaction (Except Failure (Option Assignment)) :=
  let node := simplify start
  .emit (node.identifier n) fun
    | .error cause => .done (.error cause)
    | .ok () =>
      noteIf debug (node.event depth) <|
        if node.clauses.isEmpty then .done (.ok (some node.assignment))
        else if node.clauses.any List.isEmpty then .done (.ok none)
        else
          match _hopen : node.assignment.firstOpen? n with
          | none => .done (.ok none)
          | some v =>
            (search n debug (node.branch v true) (depth + 1)).bind fun
              | .error cause => .done (.error cause)
              | .ok (some found) => .done (.ok (some found))
              | .ok none => search n debug (node.branch v false) (depth + 1)
termination_by start.assignment.openCount n
decreasing_by
  · exact openCount_insert_lt (fun _ => contains_simplify) _hopen
  · exact openCount_insert_lt (fun _ => contains_simplify) _hopen

/-- The input of an assignment: variables without a value are true. -/
def Assignment.toInput (a : Assignment) (n : Nat) : Input :=
  (List.range' 1 n).map fun v => (a[v]?).getD true

/-- The solver: the input of the assignment found, or no value at all when there
    is none.  In debug mode the oracle is asked about what was found. -/
def solver : Solver := fun problem =>
  (search problem.variableCount problem.debug ⟨problem.clauses, ∅⟩ 0).bind fun
    | .error cause => .done (.error cause)
    | .ok none => noteIf problem.debug (.exhausted problem.variableCount) (.done (.ok []))
    | .ok (some found) =>
      let input := found.toInput problem.variableCount
      if problem.debug then
        .ask input fun accepted =>
          noteIf (!accepted) (.notASolution problem.variableCount) (.done (.ok input))
      else .done (.ok input)

end SatReplay.Dpll
