/-
  SatReplay/Proofs/Pipeline.lean
  ==============================
  **From a seed to an accepted proof.**  The standard registry solves a generated
  challenge with the complete search and checks encoded solutions of it.

  A proof is accepted exactly when its input satisfies the generated formula and
  its trace is the one that the search emits (`verifyProof_standard_iff`).  What
  the registry solves, it accepts, and what it cannot solve it still replays
  (`solve_standard_verifies`).  Debug mode makes no difference to either: the
  search does not depend on it.
-/
import SatReplay.Registry
import SatReplay.Proofs.Challenge.Generated
import SatReplay.Proofs.Dpll.Decision
import SatReplay.Proofs.Replaying
import SatReplay.Proofs.Solution.RoundTrip

namespace SatReplay

/-- The identifiers that a solver emits on a challenge when all are accepted. -/
def Challenge.traceOf (c : Challenge) (solver : Solver) : List Int32 :=
  ((solver (c.problem false)).run .accepting c.accepts).emitted

theorem Challenge.traceOf_eq (c : Challenge) (solver : Solver) :
    c.traceOf solver = (c.genuineRun solver false).accepted := by
  rw [traceOf, Interaction.run_eq_runFrom, Interaction.emitted_accepting, genuineRun]

/-! ### The complete search on a challenge -/

section

variable {c : Challenge} (hwithin : LiteralsWithin c.variableCount c.clauses)

include hwithin

theorem outcome_genuineRun_dpll (debug : Bool) :
    (c.genuineRun Dpll.solver debug).outcome =
      .ok (.ok ((Dpll.courseOf (c.problem false)).input c.variableCount)) :=
  Dpll.outcome_solver (fun _ => Challenge.accepts_answers hwithin) 0 0

omit hwithin in
theorem accepted_genuineRun_dpll (debug : Bool) :
    (c.genuineRun Dpll.solver debug).accepted =
      (Dpll.courseOf (c.problem false)).identifiers c.variableCount :=
  Dpll.accepted_solver 0 0

omit hwithin in
theorem accepted_genuineRun_dpll_eq_traceOf (debug : Bool) :
    (c.genuineRun Dpll.solver debug).accepted = c.traceOf Dpll.solver := by
  rw [Challenge.traceOf_eq, accepted_genuineRun_dpll, accepted_genuineRun_dpll]

omit hwithin in
theorem length_traceOf_dpll_lt : (c.traceOf Dpll.solver).length < 2 ^ (c.variableCount + 1) := by
  rw [Challenge.traceOf_eq, accepted_genuineRun_dpll, Dpll.Course.identifiers, List.length_map]
  exact Dpll.length_visits_courseOf_lt (c.problem false)

theorem verifyMethod_dpll_eq_ok_iff {budget : Budget} {clock : Clock} (h : budget.Lasts clock)
    (s : Solution) :
    (s.verifyMethod c Dpll.solver budget clock).result = .ok () ↔
      s.trace = c.traceOf Dpll.solver := by
  rw [Challenge.traceOf_eq]
  exact Solution.verifyMethod_eq_ok_iff h (Challenge.accepts_answers hwithin)
    (Dpll.solver_propagates _) (outcome_genuineRun_dpll hwithin false)

theorem verify_dpll_eq_ok_iff {budget : Budget} {clock : Clock} (h : budget.Lasts clock)
    (s : Solution) :
    (s.verify c Dpll.solver budget clock).result = .ok () ↔
      (s.input.length = c.variableCount ∧ Satisfies (Input.valuation s.input) c.clauses) ∧
        s.trace = c.traceOf Dpll.solver := by
  rw [← Challenge.checkInput_eq_ok_iff hwithin, ← verifyMethod_dpll_eq_ok_iff hwithin h]
  rw [Solution.verify]
  rcases c.checkInput s.input with trouble | _
  · simp
  · simp

/-- What the search makes of a challenge: it is solved if it can be, and the
    empty input stands for its having no solution. -/
theorem solve_dpll (hn : c.variableCount < 2 ^ 31) (hpos : 0 < c.variableCount) {budget : Budget}
    {clock : Clock} (h : budget.Lasts clock) (debug : Bool) :
    ∃ solved, (c.solve Dpll.solver budget clock debug).result = .ok solved ∧
      solved.solution.trace = c.traceOf Dpll.solver ∧
      (solved.isSolution = true ↔ Satisfiable c.variableCount c.clauses) ∧
      (solved.isSolution = true →
        solved.solution.input.length = c.variableCount ∧
          Satisfies (Input.valuation solved.solution.input) c.clauses) ∧
      (solved.isSolution = false → solved.solution.input = []) := by
  obtain ⟨input, hinput⟩ :
      ∃ input, (Dpll.courseOf (c.problem false)).input c.variableCount = input := ⟨_, rfl⟩
  have houtcome := outcome_genuineRun_dpll hwithin debug
  have htrace := accepted_genuineRun_dpll_eq_traceOf (c := c) debug
  have haccepts := Challenge.accepts_eq hwithin input
  have hproblem : (c.problem false).variableCount < 2 ^ 31 := hn
  rw [hinput] at houtcome
  by_cases hsat : Satisfiable c.variableCount c.clauses
  · have hsolves : input.length = c.variableCount ∧
        Satisfies (Input.valuation input) c.clauses := by
      rw [← hinput]
      exact Dpll.input_of_satisfiable hproblem hwithin hsat
    rw [decide_eq_true hsolves] at haccepts
    refine ⟨⟨true, ⟨input, c.traceOf Dpll.solver⟩⟩, ?_, rfl, ?_, ?_, ?_⟩
    · exact (Challenge.solve_eq_ok_iff h).2 ⟨houtcome, htrace, haccepts⟩
    · exact iff_of_true rfl hsat
    · intro _
      exact hsolves
    · intro hfalse
      cases hfalse
  · have hempty : input = [] := by
      rw [← hinput]
      exact Dpll.input_of_not_satisfiable hproblem hwithin hsat
    have hrejected : ¬ (input.length = c.variableCount ∧
        Satisfies (Input.valuation input) c.clauses) := by
      rintro ⟨hlength, -⟩
      rw [hempty, List.length_nil] at hlength
      omega
    rw [decide_eq_false hrejected] at haccepts
    refine ⟨⟨false, ⟨input, c.traceOf Dpll.solver⟩⟩, ?_, rfl, ?_, ?_, ?_⟩
    · exact (Challenge.solve_eq_ok_iff h).2 ⟨houtcome, htrace, haccepts⟩
    · exact iff_of_false Bool.false_ne_true hsat
    · intro htrue
      cases htrue
    · intro _
      exact hempty

end

/-! ### The standard registry -/

namespace Registry

theorem withSolver_standard {α : Type} (f : Solver → Reported α) :
    standard.withSolver "dpll" f = f Dpll.solver := by
  simp [withSolver, find, standard, register]

/-- **Exactly the honest proofs are accepted**: those of an input that satisfies
    the formula together with the trace of the search.  So all proofs that are
    accepted for a seed and a difficulty have one trace. -/
theorem verifyProof_standard_iff (seed : Int32) (d : Difficulty) {budget : Budget} {clock : Clock}
    (hlasts : budget.Lasts clock) :
    let c := Challenge.generate seed d
    let Accepted (proof : Bytes) :=
      (standard.verifyProof seed d "dpll" proof budget clock).result = .ok ()
    (∀ proof, Accepted proof ↔
      ∃ s, Solution.decode proof = .ok s ∧ s.input.length = d.variableCount ∧
        Satisfies (Input.valuation s.input) c.clauses ∧ s.trace = c.traceOf Dpll.solver) ∧
    (∀ proof₁ proof₂ s₁ s₂, Accepted proof₁ → Accepted proof₂ →
      Solution.decode proof₁ = .ok s₁ → Solution.decode proof₂ = .ok s₂ → s₁.trace = s₂.trace) := by
  intro c Accepted
  have hiff : ∀ proof, Accepted proof ↔
      ∃ s, Solution.decode proof = .ok s ∧ s.input.length = d.variableCount ∧
        Satisfies (Input.valuation s.input) c.clauses ∧ s.trace = c.traceOf Dpll.solver := by
    intro proof
    show (standard.verifyProof seed d "dpll" proof budget clock).result = .ok () ↔ _
    rw [verifyProof, withSolver_standard, SatReplay.verifyProof]
    rcases hdecode : Solution.decode proof with defect | s
    · simp
    · rw [verify_dpll_eq_ok_iff (Challenge.generate_within seed d) hlasts]
      constructor
      · rintro ⟨⟨hlength, hsat⟩, htrace⟩
        exact ⟨s, rfl, hlength, hsat, htrace⟩
      · rintro ⟨s', hs, hlength, hsat, htrace⟩
        obtain rfl := Except.ok.inj hs
        exact ⟨⟨hlength, hsat⟩, htrace⟩
  refine ⟨hiff, ?_⟩
  intro proof₁ proof₂ s₁ s₂ haccepted₁ haccepted₂ hdecode₁ hdecode₂
  obtain ⟨t₁, ht₁, -, -, htrace₁⟩ := (hiff proof₁).1 haccepted₁
  obtain ⟨t₂, ht₂, -, -, htrace₂⟩ := (hiff proof₂).1 haccepted₂
  obtain rfl := Except.ok.inj (hdecode₁.symm.trans ht₁)
  obtain rfl := Except.ok.inj (hdecode₂.symm.trans ht₂)
  rw [htrace₁, htrace₂]

theorem verifyProof_standard_iff_seven :
    let d : Difficulty := ⟨3, 100, by decide, by decide⟩
    let trace := (Challenge.generate 7 d).traceOf Dpll.solver
    let verdict (s : Solution) :=
      (standard.verifyProof 7 d "dpll" s.encode .unlimited .still).result
    verdict ⟨[true, true, true], trace⟩ = .ok () ∧
      verdict ⟨[false, true, true], trace⟩ ≠ .ok () ∧
      verdict ⟨[true, true, true], 0 :: trace⟩ ≠ .ok () := by
  intro d trace verdict
  obtain ⟨haccepted, -⟩ := verifyProof_standard_iff 7 d Budget.unlimited_lasts
  have hfits : trace.length < 2 ^ 4 := length_traceOf_dpll_lt
  have hclauses : (Challenge.generate 7 d).clauses =
      [[3, -1, -2], [1, -3, -2], [3, 2, 1]] := by decide +kernel
  rw [hclauses] at haccepted
  refine ⟨?_, ?_, ?_⟩
  · exact (haccepted _).2
      ⟨_, Solution.decode_encode (by simp) (by simp; omega), by decide, by decide, rfl⟩
  · intro hok
    obtain ⟨s, hs, -, hsat, -⟩ := (haccepted _).1 hok
    rw [Solution.decode_encode (by simp) (by simp; omega)] at hs
    obtain rfl := Except.ok.inj hs
    revert hsat
    decide
  · intro hok
    obtain ⟨s, hs, -, -, htrace⟩ := (haccepted _).1 hok
    rw [Solution.decode_encode (by simp) (by simp; omega)] at hs
    obtain rfl := Except.ok.inj hs
    exact List.cons_ne_self 0 trace htrace

theorem verifyProof_encode (seed : Int32) (d : Difficulty) (budget : Budget) (clock : Clock)
    {s : Solution} (hinput : s.input.length < 2 ^ 31) (htrace : s.trace.length < 2 ^ 29) :
    standard.verifyProof seed d "dpll" s.encode budget clock =
      s.verify (Challenge.generate seed d) Dpll.solver budget clock := by
  rw [verifyProof, withSolver_standard, SatReplay.verifyProof,
    Solution.decode_encode hinput htrace]

/-- **What is solved is accepted.**  The standard registry always solves a
    generated challenge or finds that it has no solution.  A solution is accepted
    from its bytes; the empty input of a challenge without a solution is refused,
    although its trace replays. -/
theorem solve_standard_verifies (seed : Int32) (d : Difficulty) (debug : Bool)
    {budget checkBudget : Budget} {clock checkClock : Clock} (hlasts : budget.Lasts clock)
    (hcheck : checkBudget.Lasts checkClock) :
    let c := Challenge.generate seed d
    ∃ solved, (standard.solve c "dpll" budget clock debug).result = .ok solved ∧
      (solved.isSolution = true ↔ Satisfiable d.variableCount c.clauses) ∧
      (solved.solution.trace.length < 2 ^ 29 →
        let verdict := (standard.verifyProof seed d "dpll" solved.solution.encode checkBudget
          checkClock).result
        (solved.isSolution = true → verdict = .ok ()) ∧
        (solved.isSolution = false →
          solved.solution.input = [] ∧
          (standard.verifyMethod c "dpll" solved.solution checkBudget checkClock).result =
            .ok () ∧
          verdict = .error (.failure (.invalidSolution (.wrongLength d.variableCount 0))))) := by
  intro c
  have hwithin : LiteralsWithin c.variableCount c.clauses := Challenge.generate_within seed d
  have hn : c.variableCount < 2 ^ 31 := d.variableCount_lt
  have hpos : 0 < c.variableCount := by
    have hthree : 3 ≤ c.variableCount := d.three_le_variableCount
    omega
  obtain ⟨solved, hsolve, htrace, hsat, hsolution, hempty⟩ :=
    solve_dpll hwithin hn hpos hlasts debug
  refine ⟨solved, ?_, hsat, ?_⟩
  · rw [solve, withSolver_standard]
    exact hsolve
  · intro hfits verdict
    refine ⟨?_, ?_⟩
    · intro htrue
      obtain ⟨hlength, hsatisfies⟩ := hsolution htrue
      have hinput : solved.solution.input.length < 2 ^ 31 := by
        rw [hlength]
        exact hn
      show (standard.verifyProof seed d "dpll" solved.solution.encode _ _).result = .ok ()
      rw [verifyProof_encode seed d _ _ hinput hfits]
      exact (verify_dpll_eq_ok_iff hwithin hcheck _).2 ⟨⟨hlength, hsatisfies⟩, htrace⟩
    · intro hfalse
      have hnone := hempty hfalse
      have hinput : solved.solution.input.length < 2 ^ 31 := by
        rw [hnone, List.length_nil]
        omega
      have hlength : solved.solution.input.length ≠ c.variableCount := by
        rw [hnone, List.length_nil]
        omega
      refine ⟨hnone, ?_, ?_⟩
      · rw [verifyMethod, withSolver_standard]
        exact (verifyMethod_dpll_eq_ok_iff hwithin hcheck _).2 htrace
      · show (standard.verifyProof seed d "dpll" solved.solution.encode _ _).result = _
        rw [verifyProof_encode seed d _ _ hinput hfits, Solution.verify,
          Challenge.checkInput_of_length_ne hlength, hnone, List.length_nil]
        rfl

theorem solve_standard_verifies_seven :
    let d : Difficulty := ⟨3, 100, by decide, by decide⟩
    ∃ solved,
      (standard.solve (Challenge.generate 7 d) "dpll" .unlimited .still true).result =
        .ok solved ∧
      solved.isSolution = true ∧
      (standard.verifyProof 7 d "dpll" solved.solution.encode .unlimited .still).result =
        .ok () := by
  intro d
  obtain ⟨solved, hsolve, hsat, hverify⟩ := solve_standard_verifies 7 d true
    Budget.unlimited_lasts Budget.unlimited_lasts
  have hclauses : (Challenge.generate 7 d).clauses =
      [[3, -1, -2], [1, -3, -2], [3, 2, 1]] := by decide +kernel
  have hsolved : solved.isSolution = true := by
    rw [hsat, hclauses]
    exact ⟨[true, true, true], by decide, by decide⟩
  have hfits : solved.solution.trace.length < 2 ^ 4 := by
    have hrun := hsolve
    rw [solve, withSolver_standard, Challenge.solve_eq_ok_iff Budget.unlimited_lasts] at hrun
    rw [← hrun.2.1, accepted_genuineRun_dpll_eq_traceOf]
    exact length_traceOf_dpll_lt
  obtain ⟨hok, -⟩ := hverify (by omega)
  exact ⟨solved, hsolve, hsolved, hok hsolved⟩

end Registry

end SatReplay
