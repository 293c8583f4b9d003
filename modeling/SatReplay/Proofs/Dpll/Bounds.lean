/-
  SatReplay/Proofs/Dpll/Bounds.lean
  =================================
  **Bounds on a search**, for any formula at all.  Two measures are behind them.

    * Each turn of propagation and each turn of simplification takes a clause
      away, so a loop takes at most as many turns as there are clauses.
    * Each branch gives a value to one more of the variables `1 … n`, so calls
      are nested at most `n` deep.  Values of other variables, 0 among them, do
      not count, and a branch need not change the clauses.

  A search is then a binary tree of nodes of that height.
-/
import Mathlib.Data.List.Chain
import SatReplay.Proofs.Dpll.Course
import SatReplay.Proofs.Dpll.Simplification

namespace SatReplay.Dpll

/-! ### Loops -/

/-- A loop takes so many turns from one node to another, where it ends. -/
inductive Turns (turn? : Node → Option Node) : Nat → Node → Node → Prop where
  | ended {node : Node} : turn? node = none → Turns turn? 0 node node
  | turn {count : Nat} {node next last : Node} :
      turn? node = some next → Turns turn? count next last → Turns turn? (count + 1) node last

/-- A loop whose turns take clauses away takes no more turns than there are
    clauses. -/
theorem Turns.count_le {turn? : Node → Option Node}
    (hturn : ∀ node next, turn? node = some next →
      next.clauses.length < node.clauses.length)
    {count : Nat} {node last : Node} (h : Turns turn? count node last) :
    count ≤ node.clauses.length := by
  induction h with
  | ended _ => exact Nat.zero_le _
  | turn hnext _ ih =>
    have hlt := hturn _ _ hnext
    omega

/-- A turn of propagation: the last clause with a single literal forces it. -/
def forceLast? (node : Node) : Option Node :=
  (takeLastUnit? node.clauses).map fun (l, others) =>
    ⟨reduce others l, node.assignment.assume l⟩

theorem length_lt_of_forceLast? (node next : Node) (h : forceLast? node = some next) :
    next.clauses.length < node.clauses.length := by
  obtain ⟨⟨l, others⟩, hunit, rfl⟩ := Option.map_eq_some_iff.1 h
  have hothers := length_of_takeLastUnit? hunit
  have hreduce := length_reduce_le others l
  show (reduce others l).length < node.clauses.length
  omega

theorem exists_turns_propagate (node : Node) :
    ∃ count, Turns forceLast? count node (propagate node) := by
  fun_induction propagate node with
  | case1 node hunit =>
    refine ⟨0, .ended ?_⟩
    rw [forceLast?, hunit, Option.map_none]
  | case2 node l others hunit ih =>
    obtain ⟨count, hturns⟩ := ih
    refine ⟨count + 1, .turn ?_ hturns⟩
    rw [forceLast?, hunit, Option.map_some]

/-- A turn of simplification, unless no clause goes away in it. -/
def simplifyOnce? (node : Node) : Option Node :=
  let next := eliminate (propagate node)
  if next.clauses.length < node.clauses.length then some next else none

theorem length_lt_of_simplifyOnce? (node next : Node) (h : simplifyOnce? node = some next) :
    next.clauses.length < node.clauses.length := by
  simp only [simplifyOnce?] at h
  split at h
  next hlt =>
    obtain rfl := Option.some.inj h
    exact hlt
  next => cases h

theorem length_propagate_lt {node : Node} {l : Literal} {others : List Clause}
    (hunit : takeLastUnit? node.clauses = some (l, others)) :
    (propagate node).clauses.length < node.clauses.length := by
  have hnext := length_lt_of_forceLast? node ⟨reduce others l, node.assignment.assume l⟩
    (by rw [forceLast?, hunit, Option.map_some])
  have hle := length_propagate_le ⟨reduce others l, node.assignment.assume l⟩
  rw [propagate_of_unit hunit]
  omega

theorem pureLiterals_eq_nil {node : Node}
    (h : node.clauses.length ≤ (eliminate node).clauses.length) :
    pureLiterals node.clauses = [] := by
  have hkept : (eliminate node).clauses = node.clauses :=
    List.filter_eq_self.2 (List.length_filter_eq_length_iff.1
      (Nat.le_antisymm (length_eliminate_le node) h))
  rw [List.eq_nil_iff_forall_not_mem]
  intro l hl
  obtain ⟨⟨c, hc, hmem⟩, hpure⟩ := mem_pureLiterals.1 hl
  rw [← hkept] at hc
  have hany := (List.mem_filter.1 hc).2
  rw [Bool.not_eq_true', List.any_eq_false] at hany
  exact hany l hmem (isPure_iff.2 hpure)

/-- Without a pure literal, elimination changes nothing. -/
theorem eliminate_eq_self {node : Node} (h : pureLiterals node.clauses = []) :
    eliminate node = node := by
  have hkept : (node.clauses.filter fun c => !c.any (isPure node.clauses)) = node.clauses := by
    rw [← foldl_reduce_pureLiterals, h, List.foldl_nil]
  rw [eliminate_eq, hkept, h, List.foldl_nil]

theorem takeLastUnit?_eq_none_of_length {node : Node}
    (h : ¬ (eliminate (propagate node)).clauses.length < node.clauses.length) :
    takeLastUnit? node.clauses = none := by
  have hle := length_eliminate_le (propagate node)
  rcases hunit : takeLastUnit? node.clauses with _ | ⟨l, others⟩
  · rfl
  · have hlt := length_propagate_lt hunit
    omega

/-- A turn in which no clause goes away changes nothing. -/
theorem eliminate_propagate_eq_self {node : Node}
    (h : ¬ (eliminate (propagate node)).clauses.length < node.clauses.length) :
    eliminate (propagate node) = node := by
  have hnone := takeLastUnit?_eq_none_of_length h
  rw [propagate_of_closed hnone] at h ⊢
  exact eliminate_eq_self (pureLiterals_eq_nil (Nat.le_of_not_lt h))

theorem exists_turns_simplify (node : Node) :
    ∃ count, Turns simplifyOnce? count node (simplify node) := by
  fun_induction simplify node with
  | case1 node next hlt ih =>
    obtain ⟨count, hturns⟩ := ih
    exact ⟨count + 1, .turn (if_pos hlt) hturns⟩
  | case2 node next hge =>
    refine ⟨0, ?_⟩
    rw [show next = node from eliminate_propagate_eq_self hge]
    exact .ended (if_neg hge)

/-! ### Calls -/

/-- How many of the variables `1 … n` have a value. -/
def Assignment.assignedCount (a : Assignment) (n : Nat) : Nat :=
  (List.range' 1 n).countP a.contains

theorem assignedCount_add_openCount (a : Assignment) (n : Nat) :
    a.assignedCount n + a.openCount n = n := by
  have hsum : (List.range' 1 n).length = a.assignedCount n +
      (List.range' 1 n).countP fun v => decide ¬ a.contains v = true :=
    List.length_eq_countP_add_countP _
  rw [List.length_range'] at hsum
  simp only [Bool.not_eq_true, Bool.decide_eq_false] at hsum
  exact hsum.symm

theorem assignedCount_le (a : Assignment) (n : Nat) : a.assignedCount n ≤ n := by
  have hsum := assignedCount_add_openCount a n
  omega

theorem assignedCount_simplify_le (node : Node) (n : Nat) :
    node.assignment.assignedCount n ≤ (simplify node).assignment.assignedCount n :=
  List.countP_mono_left fun _ _ => contains_simplify

/-- A branch has a value more than the node that the search came to. -/
theorem assignedCount_branch_lt {start : Node} {n v : Nat}
    (hopen : (simplify start).assignment.firstOpen? n = some v) (value : Bool) :
    start.assignment.assignedCount n <
      ((simplify start).branch v value).assignment.assignedCount n := by
  have hlt : ((simplify start).branch v value).assignment.openCount n <
      start.assignment.openCount n :=
    openCount_insert_lt (fun _ => contains_simplify) hopen
  have hstart := assignedCount_add_openCount start.assignment n
  have hbranch := assignedCount_add_openCount ((simplify start).branch v value).assignment n
  omega

/-- A search of the first node goes on with one of the second node. -/
inductive Calls (n : Nat) (start : Node) : Node → Prop where
  | branch {v : Nat} (value : Bool) (hempty : ¬ (simplify start).clauses.isEmpty)
      (hconflict : ¬ (simplify start).clauses.any List.isEmpty)
      (hopen : (simplify start).assignment.firstOpen? n = some v) :
      Calls n start ((simplify start).branch v value)

/-- Each of the nested calls adds a value. -/
theorem length_calls_le {n : Nat} {calls : List Node} : ∀ {start : Node},
    List.IsChain (Calls n) (start :: calls) →
      start.assignment.assignedCount n + calls.length ≤
        (calls.getLastD start).assignment.assignedCount n := by
  induction calls with
  | nil =>
    intro start _
    exact Nat.le_refl _
  | cons next calls ih =>
    intro start hchain
    obtain ⟨hcall, hrest⟩ := List.isChain_cons_cons.1 hchain
    have hle := ih hrest
    rw [List.getLastD_cons, List.length_cons]
    cases hcall with
    | branch value _ _ hopen =>
      have hlt := assignedCount_branch_lt hopen value
      omega

/-! ### Nodes -/

/-- The node of the visit is what the last of some nested calls simplifies, and
    its depth counts them. -/
def Visit.ReachedFrom (n : Nat) (start : Node) (depth : Nat) (visit : Visit) : Prop :=
  ∃ calls, List.IsChain (Calls n) (start :: calls) ∧ depth + calls.length = visit.depth ∧
    simplify (calls.getLastD start) = visit.node

namespace Visit.ReachedFrom

variable {n : Nat} {start next : Node} {depth : Nat} {visit : Visit}

theorem here : ReachedFrom n start depth ⟨depth, simplify start⟩ :=
  ⟨[], List.isChain_singleton _, rfl, rfl⟩

theorem through (hcall : Calls n start next) (h : visit.ReachedFrom n next (depth + 1)) :
    visit.ReachedFrom n start depth := by
  obtain ⟨calls, hchain, hdepth, hlast⟩ := h
  refine ⟨next :: calls, List.isChain_cons_cons.2 ⟨hcall, hchain⟩, ?_, ?_⟩
  · rw [List.length_cons, ← hdepth]
    omega
  · rw [List.getLastD_cons, hlast]

theorem depth_le (h : visit.ReachedFrom n start 0) :
    visit.depth ≤ visit.node.assignment.assignedCount n := by
  obtain ⟨calls, hchain, hdepth, hlast⟩ := h
  have hvalues := length_calls_le hchain
  have hsimplify := assignedCount_simplify_le (calls.getLastD start) n
  rw [hlast] at hsimplify
  omega

end Visit.ReachedFrom

theorem reachedFrom_of_mem_visits {n : Nat} {start : Node} {depth : Nat} :
    ∀ visit ∈ (course n start depth).visits, visit.ReachedFrom n start depth := by
  fun_induction course n start depth with
  | case1 | case2 | case3 =>
    intro visit hvisit
    rw [List.mem_singleton.1 hvisit]
    exact .here
  | case4 start depth node hempty hconflict v hopen left found hleft ih =>
    intro visit hvisit
    rcases List.mem_cons.1 hvisit with rfl | hvisit
    · exact .here
    · exact .through (.branch true hempty hconflict hopen) (ih visit hvisit)
  | case5 start depth node hempty hconflict v hopen left hleft right ihleft ihright =>
    intro visit hvisit
    rcases List.mem_cons.1 hvisit with rfl | hvisit
    · exact .here
    · rcases List.mem_append.1 hvisit with hvisit | hvisit
      · exact .through (.branch true hempty hconflict hopen) (ihleft visit hvisit)
      · exact .through (.branch false hempty hconflict hopen) (ihright visit hvisit)

theorem visits_ne_nil (n : Nat) (start : Node) (depth : Nat) :
    (course n start depth).visits ≠ [] := by
  fun_induction course n start depth <;> simp

/-- **Every search is bounded**, whatever the formula.  The loops of a node end
    after at most as many turns as it has clauses, and calls are nested at most
    `n` deep.  No node is deeper in the search than it has values for variables
    among `1 … n`, and when all identifiers are accepted, there are at least one
    and at most `2 ^ (n + 1) - 1` of them before the solver returns. -/
theorem solver_bounded (problem : Problem) (oracle : Oracle) :
    let n := problem.variableCount
    let visits := (courseOf problem).visits
    let run := (solver problem).run .accepting oracle
    (∀ node : Node,
      (∃ count ≤ node.clauses.length, Turns forceLast? count node (propagate node)) ∧
        ∃ count ≤ node.clauses.length, Turns simplifyOnce? count node (simplify node)) ∧
    (∀ calls, List.IsChain (Calls n) (⟨problem.clauses, ∅⟩ :: calls) → calls.length ≤ n) ∧
    solver problem =
      announce n problem.debug visits (conclude problem (courseOf problem).found) ∧
    (∀ visit ∈ visits,
      visit.ReachedFrom n ⟨problem.clauses, ∅⟩ 0 ∧
        visit.depth ≤ visit.node.assignment.assignedCount n ∧
        visit.node.assignment.assignedCount n ≤ n) ∧
    ((problem.debug = true → oracle.Answers) → ∃ input, run.outcome = .ok (.ok input)) ∧
    1 ≤ run.emitted.length ∧ run.emitted.length ≤ 2 ^ (n + 1) - 1 := by
  intro n visits run
  have hlength : run.emitted.length = visits.length := by
    rw [emitted_run_solver, Course.identifiers, List.length_map]
  have hpos : 0 < visits.length := List.length_pos_iff.2 (visits_ne_nil _ _ _)
  have hlt : visits.length < 2 ^ (n + 1) := length_visits_courseOf_lt problem
  refine ⟨?_, ?_, solver_eq_announce problem, ?_, ?_, by omega, by omega⟩
  · intro node
    obtain ⟨forced, hforced⟩ := exists_turns_propagate node
    obtain ⟨simplified, hsimplified⟩ := exists_turns_simplify node
    exact ⟨⟨forced, hforced.count_le length_lt_of_forceLast?, hforced⟩,
      ⟨simplified, hsimplified.count_le length_lt_of_simplifyOnce?, hsimplified⟩⟩
  · intro calls hchain
    have hvalues := length_calls_le hchain
    have hle := assignedCount_le (calls.getLastD ⟨problem.clauses, ∅⟩).assignment n
    omega
  · intro visit hvisit
    have hreached := reachedFrom_of_mem_visits visit hvisit
    exact ⟨hreached, hreached.depth_le, assignedCount_le _ n⟩
  · intro hanswers
    exact ⟨_, outcome_run_solver hanswers⟩

/-- The bounds are reached, here by a formula with zeros, repeated literals and a
    variable beyond the ones that are branched on. -/
theorem solver_bounded_reached :
    let clauses : List Clause := [[1, 9, 9], [-1, 9, 0], [1, -9], [-1, -9, -9]]
    let problem : Problem := ⟨.ofSeed 7, true, 1, clauses⟩
    let call : Node := (simplify ⟨clauses, ∅⟩).branch 1 true
    List.IsChain (Calls 1) [⟨clauses, ∅⟩, call] ∧ [call].length ≤ 1 ∧
      (courseOf problem).visits.map Visit.depth = [0, 1, 1] ∧
      (∀ visit ∈ (courseOf problem).visits, visit.depth ≤ visit.node.assignment.assignedCount 1) ∧
      (∃ input, ((solver problem).run .accepting fun _ => .ok true).outcome = .ok (.ok input)) ∧
      ((solver problem).run .accepting fun _ => .ok true).emitted.length = 2 ^ (1 + 1) - 1 := by
  intro clauses problem call
  have hcall : Calls 1 ⟨clauses, ∅⟩ call :=
    .branch true (by decide +kernel) (by decide +kernel) (by decide +kernel)
  have hchain : List.IsChain (Calls 1) [⟨clauses, ∅⟩, call] :=
    List.isChain_cons_cons.2 ⟨hcall, List.isChain_singleton _⟩
  obtain ⟨-, hcalls, -, hdepth, houtcome, -, -⟩ := solver_bounded problem fun _ => .ok true
  refine ⟨hchain, hcalls [call] hchain, by decide +kernel, fun visit hvisit => ?_,
    houtcome fun _ _ => ⟨true, rfl⟩, by decide +kernel⟩
  exact (hdepth visit hvisit).2.1

end SatReplay.Dpll
