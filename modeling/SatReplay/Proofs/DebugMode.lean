/-
  SatReplay/Proofs/DebugMode.lean
  ===============================
  **Debug mode only observes.**  The course of a search does not depend on the
  mode, and a run goes through the visits of the course.  Without debug mode
  nothing happens at a visit but that its identifier is emitted; in debug mode
  the node is reported behind each identifier (`steps_genuineRun_debug`).

  After the search debug mode reports that it was exhausted, or asks about the
  input it found.  That input satisfies the formula, since the search is sound
  and a variable that was left open is needed by no clause, so the oracle agrees
  and there is nothing to warn of.
-/
import SatReplay.Proofs.Pipeline

namespace SatReplay

namespace Dpll

variable {n : Nat} {problem : Problem} {oracle : Oracle}

/-! ### What a run shows of its visits -/

/-- The report of the visited node. -/
def Visit.event (visit : Visit) : Event := visit.node.event visit.depth

theorem events_flatMap_steps (debug : Bool) (visits : List Visit) :
    (visits.flatMap (Visit.steps n debug)).filterMap Step.event? =
      if debug then visits.map Visit.event else [] := by
  have hvisit : ∀ visit : Visit, (visit.steps n debug).filterMap Step.event? =
      if debug then [visit.event] else [] := by
    intro visit
    cases debug <;> rfl
  rw [List.filterMap_flatMap, funext hvisit]
  cases debug
  · exact List.flatMap_eq_nil_iff.2 fun _ _ => rfl
  · exact List.map_eq_flatMap.symm

/-! ### What debug mode does after the search -/

/-- The report that the search was exhausted, or the question about its input. -/
def Course.ending (c : Course) (n : Nat) : List Step :=
  match c.found with
  | none => [.noted (.exhausted n)]
  | some found => [.asked (found.toInput n)]

theorem steps_conclude_quiet (h : problem.debug = false) (found : Option Assignment) :
    ((conclude problem found).runFrom .accepting oracle 0 0).steps = [] := by
  rcases found with _ | found <;> simp only [conclude, h] <;> rfl

/-- When the oracle agrees to what was found, debug mode warns of nothing. -/
theorem steps_conclude_debug (h : problem.debug = true) {c : Course}
    (hagrees : ∀ found, c.found = some found →
      oracle (found.toInput problem.variableCount) = .ok true) :
    ((conclude problem c.found).runFrom .accepting oracle 0 0).steps =
      c.ending problem.variableCount := by
  rw [Course.ending]
  rcases hfound : c.found with _ | found
  · simp only [conclude, h]
    rfl
  · simp only [conclude, h, if_true, Interaction.runFrom, hagrees found hfound]
    rfl

end Dpll

/-! ### Challenges -/

section

variable {c : Challenge} (hwithin : LiteralsWithin c.variableCount c.clauses)

/-- The course of the search on a challenge. -/
def Challenge.course (c : Challenge) : Dpll.Course := Dpll.courseOf (c.problem false)

theorem steps_genuineRun_quiet :
    (c.genuineRun Dpll.solver false).steps =
      c.course.visits.flatMap (Dpll.Visit.steps c.variableCount false) := by
  rw [Challenge.genuineRun, Dpll.runFrom_solver fun _ _ _ => rfl, Run.steps_afterAll,
    Dpll.steps_conclude_quiet rfl, List.append_nil]
  rfl

include hwithin

theorem accepts_of_found {found : Dpll.Assignment} (h : c.course.found = some found) :
    c.accepts (found.toInput c.variableCount) = .ok true := by
  have hn : (c.problem false).variableCount < 2 ^ 31 := c.difficulty.variableCount_lt
  have hsat := Dpll.satisfies_of_found hn hwithin h
  rw [Challenge.accepts_eq hwithin, decide_eq_true ⟨Dpll.length_toInput _ _, hsat⟩]

theorem steps_genuineRun_debug :
    (c.genuineRun Dpll.solver true).steps =
      c.course.visits.flatMap (Dpll.Visit.steps c.variableCount true) ++
        c.course.ending c.variableCount := by
  have hagrees : ∀ found, c.course.found = some found →
      c.accepts (found.toInput c.variableCount) = .ok true :=
    fun found => accepts_of_found hwithin
  rw [Challenge.genuineRun, Dpll.runFrom_solver fun _ _ _ => rfl, Run.steps_afterAll]
  exact congrArg _ (Dpll.steps_conclude_debug rfl hagrees)

/-- Both modes solve the challenge alike. -/
theorem solve_dpll_eq_ok_iff {budget : Budget} {clock : Clock} (h : budget.Lasts clock)
    {debug : Bool} {solved : Solved} :
    (c.solve Dpll.solver budget clock debug).result = .ok solved ↔
      c.course.input c.variableCount = solved.solution.input ∧
        c.course.identifiers c.variableCount = solved.solution.trace ∧
        c.accepts solved.solution.input = .ok solved.isSolution := by
  rw [Challenge.solve_eq_ok_iff h, outcome_genuineRun_dpll hwithin, accepted_genuineRun_dpll,
    Except.ok.injEq, Except.ok.injEq]
  rfl

/-- What the ending shows is the verdict. -/
theorem ending_eq {solved : Solved}
    (hinput : c.course.input c.variableCount = solved.solution.input)
    (hsat : solved.isSolution = true ↔ Satisfiable c.variableCount c.clauses) :
    c.course.ending c.variableCount =
      if solved.isSolution then [.asked solved.solution.input]
      else [.noted (.exhausted c.variableCount)] := by
  have hn : (c.problem false).variableCount < 2 ^ 31 := c.difficulty.variableCount_lt
  have hnone : c.course.found = none ↔ ¬ Satisfiable c.variableCount c.clauses :=
    Dpll.found_eq_none_iff hn hwithin
  rw [← hsat] at hnone
  rw [← hinput, Dpll.Course.ending, Dpll.Course.input]
  rcases hfound : c.course.found with _ | found
  · rw [if_neg (hnone.1 hfound)]
  · have htrue : solved.isSolution = true := by
      by_contra hfalse
      rw [hnone.2 hfalse] at hfound
      cases hfound
    rw [if_pos htrue]

end

/-- **Debug mode only observes.**  The same is solved with it and without.  In
    debug mode the node of every recorded identifier is reported behind it, in
    order; then the oracle is asked once about the input that was found, or,
    exactly when the formula has no solution, it is reported that the search was
    exhausted.  It is never reported that what was found is no solution. -/
theorem debug_only_observes {c : Challenge} (hwithin : LiteralsWithin c.variableCount c.clauses)
    {budget quietBudget : Budget} {clock quietClock : Clock} (hlasts : budget.Lasts clock)
    (hquiet : quietBudget.Lasts quietClock) :
    let n := c.variableCount
    let observed := c.solve Dpll.solver budget clock true
    let quiet := c.solve Dpll.solver quietBudget quietClock false
    let run := c.recording Dpll.solver budget clock true
    ∃ (solved : Solved) (visits : List Dpll.Visit),
      (observed.result = .ok solved ∧ quiet.result = .ok solved) ∧
      (solved.isSolution = true ↔ Satisfiable n c.clauses) ∧
      solved.solution.trace = visits.map (fun visit => visit.node.identifier n) ∧
      run.steps =
        (visits.flatMap fun visit =>
          [.emitted (visit.node.identifier n) (.ok ()), .noted visit.event]) ++
        (if solved.isSolution then [.asked solved.solution.input] else [.noted (.exhausted n)]) ∧
      observed.events =
        visits.map Dpll.Visit.event ++ (if solved.isSolution then [] else [.exhausted n]) ∧
      quiet.events = [] ∧
      (.exhausted n ∈ observed.events ↔ ¬ Satisfiable n c.clauses) ∧
      run.asked = (if solved.isSolution then [solved.solution.input] else []) ∧
      (∀ m, .notASolution m ∉ observed.events) := by
  intro n observed quiet run
  have hpos : 0 < c.variableCount := by
    have hthree : 3 ≤ c.variableCount := c.difficulty.three_le_variableCount
    omega
  obtain ⟨solved, hsolve, -, hsat, -⟩ :=
    solve_dpll hwithin c.difficulty.variableCount_lt hpos hlasts true
  obtain ⟨hinput, htrace, hverdict⟩ := (solve_dpll_eq_ok_iff hwithin hlasts).1 hsolve
  have hsteps : run.steps = c.course.visits.flatMap (Dpll.Visit.steps n true) ++
      (if solved.isSolution then [.asked solved.solution.input] else [.noted (.exhausted n)]) := by
    rw [← ending_eq hwithin hinput hsat, ← steps_genuineRun_debug hwithin,
      ← Challenge.recording_eq hlasts]
  have hevents : observed.events =
      c.course.visits.map Dpll.Visit.event ++
        (if solved.isSolution then [] else [.exhausted n]) := by
    show run.events = _
    rw [Run.events, hsteps, List.filterMap_append, Dpll.events_flatMap_steps, if_pos rfl]
    cases solved.isSolution <;> rfl
  have hnode : ∀ event ∈ c.course.visits.map Dpll.Visit.event,
      event ≠ .exhausted n ∧ ∀ m, event ≠ .notASolution m := by
    intro event hevent
    obtain ⟨visit, -, rfl⟩ := List.mem_map.1 hevent
    simp [Dpll.Visit.event, Dpll.Node.event]
  refine ⟨solved, c.course.visits, ⟨hsolve, ?_⟩, hsat, htrace.symm, hsteps, hevents, ?_, ?_, ?_,
    ?_⟩
  · exact (solve_dpll_eq_ok_iff hwithin hquiet).2 ⟨hinput, htrace, hverdict⟩
  · show (c.recording Dpll.solver quietBudget quietClock false).events = []
    rw [Challenge.recording_eq hquiet, Run.events, steps_genuineRun_quiet]
    exact Dpll.events_flatMap_steps false _
  · rw [hevents, ← hsat, List.mem_append]
    have hno : .exhausted n ∉ c.course.visits.map Dpll.Visit.event :=
      fun hmem => (hnode _ hmem).1 rfl
    cases solved.isSolution <;> simp [hno]
  · rw [Run.asked, hsteps, List.filterMap_append, Dpll.askedInputs_flatMap_steps]
    cases solved.isSolution <;> rfl
  · intro m hmem
    rw [hevents, List.mem_append] at hmem
    rcases hmem with hmem | hmem
    · exact (hnode _ hmem).2 m rfl
    · revert hmem
      cases solved.isSolution <;> simp

theorem debug_only_observes_square :
    let c : Challenge :=
      ⟨7, ⟨3, 100, by decide, by decide⟩, [[1, 2], [-1, 2], [1, -2], [-1, -2]]⟩
    let observed := c.solve Dpll.solver .unlimited .still true
    let quiet := c.solve Dpll.solver .unlimited .still false
    (∃ solved, observed.result = .ok solved ∧ quiet.result = .ok solved ∧
        solved.solution.trace.length + 1 = observed.events.length) ∧
      quiet.events = [] ∧ .exhausted 3 ∈ observed.events ∧
      (c.recording Dpll.solver .unlimited .still true).asked = [] := by
  intro c observed quiet
  have hsquare : ¬ Satisfiable 3 c.clauses := by
    rintro ⟨input, hlength, hsat⟩
    match input, hlength, hsat with
    | [x, y, z], _, hsat =>
      revert hsat
      cases x <;> cases y <;> cases z <;> decide
  have hwithin : LiteralsWithin c.variableCount c.clauses := by decide
  obtain ⟨solved, visits, ⟨hobserved, hquiet⟩, hsat, htrace, -, hevents, hsilent, hexhausted,
    hasked, -⟩ := debug_only_observes hwithin Budget.unlimited_lasts Budget.unlimited_lasts
  have hfalse : solved.isSolution = false := by
    rw [← Bool.not_eq_true, hsat]
    exact hsquare
  rw [hfalse] at hevents hasked
  refine ⟨⟨solved, hobserved, hquiet, ?_⟩, hsilent, hexhausted.2 hsquare, hasked⟩
  rw [hevents, htrace, List.length_append, List.length_map, List.length_map]
  rfl

end SatReplay
