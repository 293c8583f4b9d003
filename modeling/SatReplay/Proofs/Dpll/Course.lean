/-
  SatReplay/Proofs/Dpll/Course.lean
  =================================
  **The course of a search.**  What a search visits and what it finds depends on
  the node it starts at only: no reply but a refusal changes it.  `course` says
  both, without emitters and oracles, by the recursion of the search.

  `search_eq_announce` gives the search back from its course: it emits the
  identifiers of the visited nodes in order, and ends at the first refusal.  So
  everything about runs of the search is a fact about a list of nodes.
-/
import Mathlib.Algebra.Group.Nat.Defs
import SatReplay.Dpll.Search
import SatReplay.Proofs.Runs

namespace SatReplay.Dpll

/-- A simplified node, and its depth in the search. -/
structure Visit where
  depth : Nat
  node : Node

/-- What a search comes to: the nodes in the order in which it visits them, and
    the assignment it ends with. -/
structure Course where
  visits : List Visit
  found : Option Assignment

def course (n : Nat) (start : Node) (depth : Nat) : Course :=
  let node := simplify start
  if node.clauses.isEmpty then ⟨[⟨depth, node⟩], some node.assignment⟩
  else if node.clauses.any List.isEmpty then ⟨[⟨depth, node⟩], none⟩
  else
    match _hopen : node.assignment.firstOpen? n with
    | none => ⟨[⟨depth, node⟩], none⟩
    | some v =>
      let left := course n (node.branch v true) (depth + 1)
      match left.found with
      | some found => ⟨⟨depth, node⟩ :: left.visits, some found⟩
      | none =>
        let right := course n (node.branch v false) (depth + 1)
        ⟨⟨depth, node⟩ :: (left.visits ++ right.visits), right.found⟩
termination_by start.assignment.openCount n
decreasing_by
  · exact openCount_insert_lt (fun _ => contains_simplify) _hopen
  · exact openCount_insert_lt (fun _ => contains_simplify) _hopen

/-! ### Courses by cases -/

section

variable {n : Nat} {start : Node} {depth : Nat}

theorem course_of_empty (hempty : (simplify start).clauses.isEmpty = true) :
    course n start depth = ⟨[⟨depth, simplify start⟩], some (simplify start).assignment⟩ := by
  rw [course]
  exact if_pos hempty

variable (hempty : ¬ (simplify start).clauses.isEmpty = true)

include hempty

theorem course_of_conflict (hconflict : (simplify start).clauses.any List.isEmpty = true) :
    course n start depth = ⟨[⟨depth, simplify start⟩], none⟩ := by
  rw [course]
  exact (if_neg hempty).trans (if_pos hconflict)

variable (hconflict : ¬ (simplify start).clauses.any List.isEmpty = true)

include hconflict

theorem course_of_closed (hopen : (simplify start).assignment.firstOpen? n = none) :
    course n start depth = ⟨[⟨depth, simplify start⟩], none⟩ := by
  rw [course, if_neg hempty, if_neg hconflict]
  split
  next => rfl
  next v hv => simp [hopen] at hv

variable {v : Nat} (hopen : (simplify start).assignment.firstOpen? n = some v)

include hopen

theorem course_of_found {found : Assignment}
    (hfound : (course n ((simplify start).branch v true) (depth + 1)).found = some found) :
    course n start depth =
      ⟨⟨depth, simplify start⟩ ::
        (course n ((simplify start).branch v true) (depth + 1)).visits, some found⟩ := by
  rw [course, if_neg hempty, if_neg hconflict]
  split
  next hnone => simp [hopen] at hnone
  next w hw =>
    obtain rfl : v = w := Option.some.inj (hopen.symm.trans hw)
    simp only [hfound]

theorem course_of_not_found
    (hfound : (course n ((simplify start).branch v true) (depth + 1)).found = none) :
    course n start depth =
      ⟨⟨depth, simplify start⟩ ::
        ((course n ((simplify start).branch v true) (depth + 1)).visits ++
          (course n ((simplify start).branch v false) (depth + 1)).visits),
        (course n ((simplify start).branch v false) (depth + 1)).found⟩ := by
  rw [course, if_neg hempty, if_neg hconflict]
  split
  next hnone => simp [hopen] at hnone
  next w hw =>
    obtain rfl : v = w := Option.some.inj (hopen.symm.trans hw)
    simp only [hfound]

end

/-! ### The number of visits -/

theorem openCount_le (a : Assignment) (n : Nat) : a.openCount n ≤ n := by
  calc a.openCount n ≤ (List.range' 1 n).length := List.countP_le_length
    _ = n := List.length_range'

/-- A branch of a node halves the number of nodes that there is room for. -/
theorem pow_openCount_branch_le {start : Node} {n v : Nat}
    (hopen : (simplify start).assignment.firstOpen? n = some v) (value : Bool) :
    2 ^ (((simplify start).branch v value).assignment.openCount n + 1) ≤
      2 ^ start.assignment.openCount n :=
  Nat.pow_le_pow_right (by omega) (openCount_insert_lt (fun _ => contains_simplify) hopen)

/-- A search visits fewer nodes than a full tree over the open variables has. -/
theorem length_visits_lt (n : Nat) (start : Node) (depth : Nat) :
    (course n start depth).visits.length < 2 ^ (start.assignment.openCount n + 1) := by
  have hleaf : ∀ k : Nat, 1 < 2 ^ (k + 1) := fun k => Nat.one_lt_two_pow (by omega)
  fun_induction course n start depth with
  | case1 => exact hleaf _
  | case2 => exact hleaf _
  | case3 => exact hleaf _
  | case4 start depth node hempty hconflict v hopen left found hleft ih =>
    have hlt : left.visits.length < 2 ^ start.assignment.openCount n :=
      Nat.lt_of_lt_of_le ih (pow_openCount_branch_le hopen true)
    rw [List.length_cons, Nat.pow_succ]
    omega
  | case5 start depth node hempty hconflict v hopen left hleft right ihleft ihright =>
    have hltLeft : left.visits.length < 2 ^ start.assignment.openCount n :=
      Nat.lt_of_lt_of_le ihleft (pow_openCount_branch_le hopen true)
    have hltRight : right.visits.length < 2 ^ start.assignment.openCount n :=
      Nat.lt_of_lt_of_le ihright (pow_openCount_branch_le hopen false)
    rw [List.length_cons, List.length_append, Nat.pow_succ]
    omega

/-! ### Announcing visits -/

section

variable {α β : Type} (n : Nat) (debug : Bool)

/-- Emits the identifiers of visited nodes and goes on, unless one is refused. -/
def announce (visits : List Visit) (last : Interaction (Except Failure α)) :
    Interaction (Except Failure α) :=
  match visits with
  | [] => last
  | visit :: rest =>
    .emit (visit.node.identifier n) fun
      | .error cause => .done (.error cause)
      | .ok () => noteIf debug (visit.node.event visit.depth) (announce rest last)

theorem emit_eq_announce (visit : Visit) {rest : List Visit}
    {last : Interaction (Except Failure α)}
    {next : Except Failure Unit → Interaction (Except Failure α)}
    (hrefused : ∀ cause, next (.error cause) = .done (.error cause))
    (haccepted : next (.ok ()) =
      noteIf debug (visit.node.event visit.depth) (announce n debug rest last)) :
    .emit (visit.node.identifier n) next = announce n debug (visit :: rest) last := by
  rw [announce]
  congr 1
  funext reply
  rcases reply with cause | _
  · exact hrefused cause
  · exact haccepted

theorem announce_append (visits others : List Visit) (last : Interaction (Except Failure α)) :
    announce n debug (visits ++ others) last =
      announce n debug visits (announce n debug others last) := by
  induction visits with
  | nil => rfl
  | cons visit rest ih =>
    apply Eq.symm
    apply emit_eq_announce
    · intro cause
      rfl
    · simp only [ih, List.append_eq]

theorem bind_noteIf (event : Event) (next : Interaction α) (f : α → Interaction β) :
    (noteIf debug event next).bind f = noteIf debug event (next.bind f) := by
  cases debug <;> rfl

/-- What follows the visits may be put after them, if it passes refusals on. -/
theorem bind_announce (visits : List Visit) (last : Interaction (Except Failure α))
    {f : Except Failure α → Interaction (Except Failure β)}
    (hf : ∀ cause, f (.error cause) = .done (.error cause)) :
    (announce n debug visits last).bind f = announce n debug visits (last.bind f) := by
  induction visits with
  | nil => rfl
  | cons visit rest ih =>
    apply emit_eq_announce
    · exact hf
    · simp only [bind_noteIf, ih]

theorem announce_propagates (visits : List Visit) {last : Interaction (Except Failure α)}
    (h : last.Propagates) : (announce n debug visits last).Propagates := by
  induction visits with
  | nil => exact h
  | cons visit rest ih =>
    refine ⟨?_, fun _ => rfl⟩
    cases debug with
    | false => exact ih
    | true => exact ih

/-- **A search is its course**, announced visit by visit. -/
theorem search_eq_announce (start : Node) (depth : Nat) :
    search n debug start depth =
      announce n debug (course n start depth).visits
        (.done (.ok (course n start depth).found)) := by
  fun_induction course n start depth
  -- every search begins with the identifier of its node
  all_goals
    rw [search]
    apply emit_eq_announce n debug ⟨_, simplify _⟩
    · intro cause
      rfl
    simp only
  case case1 start depth node hempty =>
    rw [if_pos hempty]
    rfl
  case case2 start depth node hempty hconflict =>
    rw [if_neg hempty, if_pos hconflict]
    rfl
  case case3 start depth node hempty hconflict hopen =>
    rw [if_neg hempty, if_neg hconflict]
    split
    next => rfl
    next v hv => simp [node, hv] at hopen
  case case4 start depth node hempty hconflict v hopen left found hfound ih =>
    rw [if_neg hempty, if_neg hconflict]
    split
    next hnone => simp [node, hnone] at hopen
    next w hw =>
      obtain rfl : v = w := Option.some.inj (hopen.symm.trans hw)
      rw [ih, hfound, bind_announce]
      · rfl
      · intro cause
        rfl
  case case5 start depth node hempty hconflict v hopen left hnone right ihleft ihright =>
    rw [if_neg hempty, if_neg hconflict]
    split
    next hnone => simp [node, hnone] at hopen
    next w hw =>
      obtain rfl : v = w := Option.some.inj (hopen.symm.trans hw)
      rw [ihleft, hnone, bind_announce, announce_append, ← ihright]
      · rfl
      · intro cause
        rfl

end

/-! ### The solver -/

def courseOf (problem : Problem) : Course := course problem.variableCount ⟨problem.clauses, ∅⟩ 0

theorem length_visits_courseOf_lt (problem : Problem) :
    (courseOf problem).visits.length < 2 ^ (problem.variableCount + 1) := by
  calc (courseOf problem).visits.length
      < 2 ^ (Assignment.openCount ∅ problem.variableCount + 1) := length_visits_lt _ _ _
    _ ≤ 2 ^ (problem.variableCount + 1) :=
      Nat.pow_le_pow_right (by omega) (Nat.succ_le_succ (openCount_le _ _))

namespace Course

/-- The input that a search comes to, empty when it finds nothing. -/
def input (c : Course) (n : Nat) : Input :=
  match c.found with
  | none => []
  | some found => found.toInput n

def identifiers (c : Course) (n : Nat) : List Int32 := c.visits.map fun v => v.node.identifier n

end Course

/-- What the solver still does after the search. -/
def conclude (problem : Problem) : Option Assignment → Interaction (Except Failure Input)
  | none => noteIf problem.debug (.exhausted problem.variableCount) (.done (.ok []))
  | some found =>
    let input := found.toInput problem.variableCount
    if problem.debug then
      .ask input fun accepted =>
        noteIf (!accepted) (.notASolution problem.variableCount) (.done (.ok input))
    else .done (.ok input)

theorem solver_eq_announce (problem : Problem) :
    solver problem =
      announce problem.variableCount problem.debug (courseOf problem).visits
        (conclude problem (courseOf problem).found) := by
  rw [solver, search_eq_announce, bind_announce]
  · rw [Interaction.bind, courseOf]
    rcases (course problem.variableCount ⟨problem.clauses, ∅⟩ 0).found with _ | found
    · rfl
    · rfl
  · intro cause
    rfl

theorem solver_propagates (problem : Problem) : (solver problem).Propagates := by
  rw [solver_eq_announce]
  apply announce_propagates
  rcases (courseOf problem).found with _ | found
  · cases hdebug : problem.debug <;> simp [conclude, hdebug, noteIf, Interaction.Propagates]
  · cases hdebug : problem.debug with
    | false => simp [conclude, hdebug, Interaction.Propagates]
    | true =>
      simp only [conclude, hdebug, if_true]
      intro verdict
      cases verdict <;> trivial

/-! ### Runs -/

section

variable {α : Type} (n : Nat) (debug : Bool)

/-- What happens at a visit when its identifier is accepted. -/
def Visit.steps (visit : Visit) : List Step :=
  .emitted (visit.node.identifier n) (.ok ()) ::
    if debug then [.noted (visit.node.event visit.depth)] else []

theorem acceptedIdentifiers_flatMap_steps (visits : List Visit) :
    (visits.flatMap (Visit.steps n debug)).filterMap Step.acceptedIdentifier? =
      visits.map fun v => v.node.identifier n := by
  have hvisit : ∀ visit : Visit, (visit.steps n debug).filterMap Step.acceptedIdentifier? =
      [visit.node.identifier n] := by
    intro visit
    cases debug <;> rfl
  simp only [List.filterMap_flatMap, hvisit, List.map_eq_flatMap]

theorem identifiers_flatMap_steps (visits : List Visit) :
    (visits.flatMap (Visit.steps n debug)).filterMap Step.identifier? =
      visits.map fun v => v.node.identifier n := by
  have hvisit : ∀ visit : Visit, (visit.steps n debug).filterMap Step.identifier? =
      [visit.node.identifier n] := by
    intro visit
    cases debug <;> rfl
  simp only [List.filterMap_flatMap, hvisit, List.map_eq_flatMap]

/-- Visits do not ask. -/
theorem askedInputs_flatMap_steps (visits : List Visit) :
    (visits.flatMap (Visit.steps n debug)).filterMap Step.askedInput? = [] := by
  have hvisit : ∀ visit : Visit, (visit.steps n debug).filterMap Step.askedInput? = [] := by
    intro visit
    cases debug <;> rfl
  simp only [List.filterMap_flatMap, hvisit, List.flatMap_eq_nil_iff, implies_true]

theorem runFrom_noteIf {emitter : Emitter} {oracle : Oracle} (event : Event)
    (next : Interaction α) (emitted accepted : Nat) :
    (noteIf debug event next).runFrom emitter oracle emitted accepted =
      (next.runFrom emitter oracle emitted accepted).afterAll
        (if debug then [.noted event] else []) := by
  cases debug <;> rfl

/-- While identifiers are accepted, a run goes through the visits. -/
theorem runFrom_announce {emitter : Emitter} {oracle : Oracle}
    (last : Interaction (Except Failure α)) (visits : List Visit) :
    ∀ emitted accepted : Nat,
      (∀ i < visits.length, ∀ identifier,
        emitter (emitted + i) (accepted + i) identifier = .ok ()) →
      (announce n debug visits last).runFrom emitter oracle emitted accepted =
        (last.runFrom emitter oracle (emitted + visits.length)
          (accepted + visits.length)).afterAll (visits.flatMap (Visit.steps n debug)) := by
  induction visits with
  | nil =>
    intro emitted accepted _
    rfl
  | cons visit rest ih =>
    intro emitted accepted haccepts
    have hfirst : emitter emitted accepted (visit.node.identifier n) = .ok () :=
      haccepts 0 (Nat.succ_pos _) _
    have hrest : ∀ i < rest.length, ∀ identifier,
        emitter (emitted + 1 + i) (accepted + 1 + i) identifier = .ok () := by
      intro i hi identifier
      rw [Nat.add_right_comm emitted, Nat.add_right_comm accepted]
      exact haccepts (i + 1) (Nat.succ_lt_succ hi) identifier
    simp only [announce, Interaction.runFrom, hfirst]
    rw [runFrom_noteIf, ih _ _ hrest, List.flatMap_cons, List.length_cons,
      Nat.add_right_comm emitted, Nat.add_right_comm accepted, ← Run.afterAll_append]
    rfl

end

/-- Nothing is emitted after the search. -/
theorem runFrom_conclude (problem : Problem) (found : Option Assignment) {emitter : Emitter}
    {oracle : Oracle} (emitted accepted : Nat) :
    (conclude problem found).runFrom emitter oracle emitted accepted =
      (conclude problem found).runFrom .accepting oracle 0 0 := by
  rcases found with _ | found
  · cases hdebug : problem.debug <;> simp only [conclude, hdebug] <;> rfl
  · cases hdebug : problem.debug with
    | false =>
      simp only [conclude, hdebug]
      rfl
    | true =>
      simp only [conclude, hdebug, if_true, Interaction.runFrom, runFrom_noteIf]

theorem accepted_conclude (problem : Problem) (found : Option Assignment) (oracle : Oracle) :
    ((conclude problem found).runFrom .accepting oracle 0 0).accepted = [] := by
  rcases found with _ | found
  · cases hdebug : problem.debug <;> simp only [conclude, hdebug] <;> rfl
  · cases hdebug : problem.debug with
    | false =>
      simp only [conclude, hdebug]
      rfl
    | true =>
      simp only [conclude, hdebug, if_true, Interaction.runFrom]
      rcases oracle (found.toInput problem.variableCount) with fault | verdict
      · rfl
      · cases verdict <;> rfl

/-- When every identifier of the search is accepted, the solver goes through all
    visits and concludes. -/
theorem runFrom_solver {problem : Problem} {emitter : Emitter} {oracle : Oracle}
    {emitted accepted : Nat}
    (haccepts : ∀ i < (courseOf problem).visits.length, ∀ identifier,
      emitter (emitted + i) (accepted + i) identifier = .ok ()) :
    (solver problem).runFrom emitter oracle emitted accepted =
      ((conclude problem (courseOf problem).found).runFrom .accepting oracle 0 0).afterAll
        ((courseOf problem).visits.flatMap
          (Visit.steps problem.variableCount problem.debug)) := by
  rw [solver_eq_announce, runFrom_announce _ _ _ _ _ _ haccepts, runFrom_conclude]

/-- When every identifier is accepted, the solver returns the input of the
    course of its search, debug mode or not. -/
theorem outcome_solver {problem : Problem} {oracle : Oracle}
    (hanswers : problem.debug = true → oracle.Answers) (emitted accepted : Nat) :
    ((solver problem).runFrom .accepting oracle emitted accepted).outcome =
      .ok (.ok ((courseOf problem).input problem.variableCount)) := by
  rw [runFrom_solver fun _ _ _ => rfl, Run.outcome_afterAll, Course.input]
  rcases (courseOf problem).found with _ | found
  · cases hdebug : problem.debug <;> simp only [conclude, hdebug] <;> rfl
  · cases hdebug : problem.debug with
    | false =>
      simp only [conclude, hdebug]
      rfl
    | true =>
      obtain ⟨verdict, hverdict⟩ := hanswers hdebug (found.toInput problem.variableCount)
      simp only [conclude, hdebug, if_true, Interaction.runFrom, hverdict, Run.outcome_after,
        runFrom_noteIf, Run.outcome_afterAll]

theorem accepted_solver {problem : Problem} {oracle : Oracle} (emitted accepted : Nat) :
    ((solver problem).runFrom .accepting oracle emitted accepted).accepted =
      (courseOf problem).identifiers problem.variableCount := by
  rw [runFrom_solver fun _ _ _ => rfl, Run.accepted_afterAll, accepted_conclude, List.append_nil,
    acceptedIdentifiers_flatMap_steps, Course.identifiers]

theorem outcome_run_solver {problem : Problem} {oracle : Oracle}
    (hanswers : problem.debug = true → oracle.Answers) :
    ((solver problem).run .accepting oracle).outcome =
      .ok (.ok ((courseOf problem).input problem.variableCount)) := by
  rw [Interaction.run_eq_runFrom, outcome_solver hanswers]

theorem accepted_run_solver (problem : Problem) (oracle : Oracle) :
    ((solver problem).run .accepting oracle).accepted =
      (courseOf problem).identifiers problem.variableCount := by
  rw [Interaction.run_eq_runFrom, accepted_solver]

theorem emitted_run_solver (problem : Problem) (oracle : Oracle) :
    ((solver problem).run .accepting oracle).emitted =
      (courseOf problem).identifiers problem.variableCount := by
  rw [Interaction.run_eq_runFrom, Interaction.emitted_accepting, accepted_solver]

end SatReplay.Dpll
