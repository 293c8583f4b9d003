/-
  SatReplay/Proofs/Dpll/Decision.lean
  ===================================
  **The search decides satisfiability.**  A search that finds an assignment has
  no clause left, so every clause of the formula holds a literal that the
  assignment makes true (`makesTrue_of_reduct_eq_nil`).  A search that finds
  nothing has no model: a model of the clauses before a node is one of the
  simplified clauses, and follows one of the two branches (`found_of_satisfies`).

  The input of the assignment found gives every other variable the value true,
  and satisfies the formula because the clauses do not need these variables.
-/
import SatReplay.Proofs.Dpll.Visits

namespace SatReplay.Dpll

/-! ### Soundness -/

theorem makesTrue_of_reduct_eq_nil {a : Assignment} {clauses : List Clause}
    (h : reduct a clauses = []) {c : Clause} (hc : c ∈ clauses) :
    ∃ l ∈ c, a.makesTrue l = true := by
  rw [← List.any_eq_true]
  by_cases hany : c.any a.makesTrue
  · exact hany
  · rw [Bool.not_eq_true] at hany
    have hmem := mem_reduct.2 ⟨c, hc, hany, rfl⟩
    rw [h] at hmem
    cases hmem

theorem length_toInput (a : Assignment) (n : Nat) : (a.toInput n).length = n := by
  rw [Assignment.toInput, List.length_map, List.length_range']

theorem valuation_toInput (a : Assignment) {n v : Nat} (hpos : 0 < v) (hv : v ≤ n) :
    Input.valuation (a.toInput n) v = (a[v]?).getD true := by
  obtain ⟨w, rfl⟩ : ∃ w, v = w + 1 := ⟨v - 1, by omega⟩
  have hlt : w < (List.range' 1 n).length := by
    rw [List.length_range']
    omega
  rw [Input.valuation, Assignment.toInput, List.getD_eq_getElem?_getD, List.getElem?_map,
    List.getElem?_eq_getElem hlt, List.getElem_range', Option.map_some, Option.getD_some,
    Nat.one_mul, Nat.add_comm]

theorem satisfies_toInput {n : Nat} {clauses : List Clause} (hwithin : LiteralsWithin n clauses)
    {a : Assignment} (h : reduct a clauses = []) :
    Satisfies (Input.valuation (a.toInput n)) clauses := by
  intro c hc
  obtain ⟨l, hl, htrue⟩ := makesTrue_of_reduct_eq_nil h hc
  have hlit := hwithin c hc l hl
  refine ⟨l, hl, ?_⟩
  rw [Literal.holds_iff hlit.1, valuation_toInput a hlit.var_pos hlit.2,
    beq_iff_eq.1 htrue, Option.getD_some]

/-! ### Completeness -/

/-- A formula with a model is not given up. -/
theorem found_of_satisfies {n : Nat} (hn : n < 2 ^ 31) {clauses : List Clause}
    (hwithin : LiteralsWithin n clauses) {start : Node} {depth : Nat}
    (h : start.Reduces clauses) {σ : Nat → Bool} (hsat : Satisfies σ start.clauses) :
    (course n start depth).found ≠ none := by
  have hproper := hwithin.proper hn
  fun_induction course n start depth with
  | case1 => simp
  | case2 start depth node hempty hconflict =>
    have hnode : Satisfies σ node.clauses := satisfies_simplify hproper h hsat
    obtain ⟨c, hc, hnil⟩ := List.any_eq_true.1 hconflict
    obtain ⟨l, hl, -⟩ := hnode c hc
    rw [List.isEmpty_iff.1 hnil] at hl
    cases hl
  | case3 start depth node hempty hconflict hopen =>
    -- a clause that is left has a literal, whose variable has no value
    have hnode : Satisfies σ node.clauses := satisfies_simplify hproper h hsat
    have hreduces : node.Reduces clauses := h.simplify hproper
    obtain ⟨c, hc⟩ := List.exists_mem_of_ne_nil node.clauses fun hnil =>
      hempty (List.isEmpty_iff.2 hnil)
    obtain ⟨l, hl, -⟩ := hnode c hc
    have hlit := hreduces.literals hwithin c hc l hl
    exact absurd (hreduces.getElem?_eq_none hc hl)
      (firstOpen?_eq_none hopen hlit.var_pos hlit.2)
  | case4 => simp
  | case5 start depth node hempty hconflict v hopen left hleft right ihleft ihright =>
    have hnode : Satisfies σ node.clauses := satisfies_simplify hproper h hsat
    have hreduces : node.Reduces clauses := h.simplify hproper
    obtain ⟨hpos, hle, hnone⟩ := firstOpen?_eq_some hopen
    have hbranch : Satisfies σ (node.branch v (σ v)).clauses :=
      satisfies_branch hpos (by omega) hnode
    -- the model follows the branch of its own value
    cases hvalue : σ v with
    | true =>
      rw [hvalue] at hbranch
      exact absurd hleft (ihleft (hreduces.branch hproper hpos (by omega) hnone true) hbranch)
    | false =>
      rw [hvalue] at hbranch
      exact ihright (hreduces.branch hproper hpos (by omega) hnone false) hbranch

/-! ### The solver -/

section

variable {problem : Problem} (hn : problem.variableCount < 2 ^ 31)
  (hwithin : LiteralsWithin problem.variableCount problem.clauses)

include hn hwithin

theorem satisfies_of_found {a : Assignment} (h : (courseOf problem).found = some a) :
    Satisfies (Input.valuation (a.toInput problem.variableCount)) problem.clauses :=
  satisfies_toInput hwithin
    (reduct_found (hwithin.proper hn) hn (Node.reduces_start problem.clauses) h)

theorem found_eq_none_iff :
    (courseOf problem).found = none ↔ ¬ Satisfiable problem.variableCount problem.clauses := by
  constructor
  · rintro hnone ⟨model, -, hmodel⟩
    exact found_of_satisfies hn hwithin (Node.reduces_start problem.clauses) hmodel hnone
  · intro hunsat
    rcases hfound : (courseOf problem).found with _ | a
    · rfl
    · exact absurd ⟨_, length_toInput a _, satisfies_of_found hn hwithin hfound⟩ hunsat

theorem input_of_satisfiable (h : Satisfiable problem.variableCount problem.clauses) :
    ((courseOf problem).input problem.variableCount).length = problem.variableCount ∧
      Satisfies (Input.valuation ((courseOf problem).input problem.variableCount))
        problem.clauses := by
  rw [Course.input]
  rcases hfound : (courseOf problem).found with _ | a
  · exact absurd h ((found_eq_none_iff hn hwithin).1 hfound)
  · exact ⟨length_toInput a _, satisfies_of_found hn hwithin hfound⟩

theorem input_of_not_satisfiable (h : ¬ Satisfiable problem.variableCount problem.clauses) :
    (courseOf problem).input problem.variableCount = [] := by
  rw [Course.input, (found_eq_none_iff hn hwithin).2 h]

end

/-- **The solver is sound and complete.**  It returns an input that satisfies the
    formula if there is one, and no value at all if there is none. -/
theorem solver_decides (problem : Problem) (hn : problem.variableCount < 2 ^ 31)
    (hwithin : LiteralsWithin problem.variableCount problem.clauses) (emitter : Emitter)
    (haccepts : ∀ emitted accepted i, emitter emitted accepted i = .ok ()) (oracle : Oracle)
    (hanswers : problem.debug = true → oracle.Answers) :
    ∃ input, ((solver problem).run emitter oracle).outcome = .ok (.ok input) ∧
      (Satisfiable problem.variableCount problem.clauses →
        input.length = problem.variableCount ∧
          Satisfies (Input.valuation input) problem.clauses) ∧
      (¬ Satisfiable problem.variableCount problem.clauses → input = []) := by
  have hemitter : emitter = .accepting := by
    funext emitted accepted i
    exact haccepts emitted accepted i
  refine ⟨(courseOf problem).input problem.variableCount, ?_, ?_, ?_⟩
  · rw [hemitter, Interaction.run_eq_runFrom, outcome_solver hanswers]
  · exact input_of_satisfiable hn hwithin
  · exact input_of_not_satisfiable hn hwithin

theorem solver_decides_square :
    let clauses : List Clause := [[1, 2], [-1, 2], [1, -2], [-1, -2]]
    ((solver ⟨.ofSeed 7, true, 2, clauses⟩).run .accepting fun _ => .ok false).outcome =
      .ok (.ok []) := by
  intro clauses
  have hsquare : ¬ Satisfiable 2 clauses := by
    rintro ⟨input, hlength, hsat⟩
    match input, hlength, hsat with
    | [a, b], _, hsat =>
      revert hsat
      cases a <;> cases b <;> decide
  obtain ⟨input, houtcome, -, hunsat⟩ := solver_decides ⟨.ofSeed 7, true, 2, clauses⟩
    (by decide) (by decide) .accepting (fun _ _ _ => rfl) (fun _ => .ok false)
    (fun _ _ => ⟨false, rfl⟩)
  rw [houtcome, hunsat hsquare]

end SatReplay.Dpll
