/-
  SatReplay/Proofs/Dpll/Visits.lean
  =================================
  **What the search stands at when it emits.**  Every visited node reduces the
  formula: its clauses are the reduct of the formula under its assignment
  (`reduces_of_mem_visits`), because simplification and branching keep this.
  The number of clauses in an identifier is therefore the number of clauses of
  the formula that the assignment does not satisfy.

  An assignment that is found is that of a visited node without clauses, so its
  reduct is empty, and whatever agrees with it satisfies the formula.
-/
import SatReplay.Proofs.Dpll.Course
import SatReplay.Proofs.Dpll.Simplification

namespace SatReplay.Dpll

/-! ### Open variables -/

theorem firstOpen?_eq_some {a : Assignment} {n v : Nat} (h : a.firstOpen? n = some v) :
    0 < v ∧ v ≤ n ∧ a[v]? = none := by
  have hmem := List.mem_of_find?_eq_some h
  have hopen := List.find?_some h
  rw [List.mem_range'_1] at hmem
  rw [Bool.not_eq_true', Std.TreeMap.contains_eq_isSome_getElem?, Option.isSome_eq_false_iff,
    Option.isNone_iff_eq_none] at hopen
  exact ⟨by omega, by omega, hopen⟩

theorem firstOpen?_eq_none {a : Assignment} {n v : Nat} (h : a.firstOpen? n = none)
    (hpos : 0 < v) (hv : v ≤ n) : a[v]? ≠ none := by
  have hclosed := List.find?_eq_none.1 h v (List.mem_range'_1.2 ⟨hpos, by omega⟩)
  intro hopen
  rw [Std.TreeMap.contains_eq_isSome_getElem?, hopen] at hclosed
  exact hclosed rfl

/-! ### The node invariant along a search -/

section

variable {clauses : List Clause} (hproper : ProperLiterals clauses)

include hproper

theorem reduces_of_mem_visits {n : Nat} (hn : n < 2 ^ 31) {start : Node} {depth : Nat}
    (h : start.Reduces clauses) :
    ∀ visit ∈ (course n start depth).visits, visit.node.Reduces clauses := by
  fun_induction course n start depth with
  | case1 | case2 | case3 =>
    intro visit hvisit
    rw [List.mem_singleton.1 hvisit]
    exact h.simplify hproper
  | case4 start depth node hempty hconflict v hopen left found hleft ih =>
    obtain ⟨hpos, hle, hnone⟩ := firstOpen?_eq_some hopen
    have hnode : node.Reduces clauses := h.simplify hproper
    intro visit hvisit
    rcases List.mem_cons.1 hvisit with rfl | hvisit
    · exact hnode
    · exact ih (hnode.branch hproper hpos (by omega) hnone true) visit hvisit
  | case5 start depth node hempty hconflict v hopen left hleft right ihleft ihright =>
    obtain ⟨hpos, hle, hnone⟩ := firstOpen?_eq_some hopen
    have hnode : node.Reduces clauses := h.simplify hproper
    intro visit hvisit
    rcases List.mem_cons.1 hvisit with rfl | hvisit
    · exact hnode
    · -- both branches start from this node, whatever was visited in the first one
      rcases List.mem_append.1 hvisit with hvisit | hvisit
      · exact ihleft (hnode.branch hproper hpos (by omega) hnone true) visit hvisit
      · exact ihright (hnode.branch hproper hpos (by omega) hnone false) visit hvisit

end

/-- What a search finds is the assignment of a visited node without clauses. -/
theorem exists_visit_of_found {n : Nat} {start : Node} {depth : Nat} {a : Assignment}
    (hfound : (course n start depth).found = some a) :
    ∃ visit ∈ (course n start depth).visits,
      visit.node.clauses = [] ∧ visit.node.assignment = a := by
  fun_induction course n start depth with
  | case1 start depth node hempty =>
    exact ⟨⟨depth, node⟩, List.mem_singleton.2 rfl, List.isEmpty_iff.1 hempty,
      Option.some.inj hfound⟩
  | case2 => cases hfound
  | case3 => cases hfound
  | case4 start depth node hempty hconflict v hopen left found hleft ih =>
    obtain ⟨visit, hvisit, hend⟩ := ih (hleft.trans hfound)
    exact ⟨visit, List.mem_cons_of_mem _ hvisit, hend⟩
  | case5 start depth node hempty hconflict v hopen left hleft right ihleft ihright =>
    obtain ⟨visit, hvisit, hend⟩ := ihright hfound
    exact ⟨visit, List.mem_cons_of_mem _ (List.mem_append_right _ hvisit), hend⟩

theorem reduct_found {clauses : List Clause} (hproper : ProperLiterals clauses) {n : Nat}
    (hn : n < 2 ^ 31) {start : Node} {depth : Nat} (h : start.Reduces clauses) {a : Assignment}
    (hfound : (course n start depth).found = some a) : reduct a clauses = [] := by
  obtain ⟨visit, hvisit, hempty, rfl⟩ := exists_visit_of_found hfound
  rw [← reduces_of_mem_visits hproper hn h visit hvisit, hempty]

/-- Whatever agrees with an assignment that leaves nothing of a formula satisfies
    the formula. -/
theorem satisfies_of_reduct_eq_nil {a : Assignment} {clauses : List Clause}
    (hproper : ProperLiterals clauses) (h : reduct a clauses = []) {σ : Nat → Bool}
    (hagrees : a.AgreesWith σ) : Satisfies σ clauses := by
  rw [← satisfies_reduct_iff hproper hagrees, h]
  intro c hc
  cases hc

/-- As many clauses are left as the assignment does not satisfy. -/
theorem length_reduct (a : Assignment) (clauses : List Clause) :
    (reduct a clauses).length = clauses.countP fun c => !c.any a.makesTrue := by
  rw [reduct, List.length_map, List.countP_eq_length_filter]

/-! ### What a run returns -/

/-- Whoever receives the identifiers, a search that returns what it found returns
    what its course finds. -/
theorem eq_of_outcome_announce {α : Type} {emitter : Emitter} {oracle : Oracle} (n : Nat)
    (debug : Bool) {result value : α} (visits : List Visit) : ∀ emitted accepted : Nat,
      ((announce n debug visits (.done (.ok result))).runFrom emitter oracle emitted
        accepted).outcome = .ok (.ok value) → value = result := by
  induction visits with
  | nil =>
    intro emitted accepted houtcome
    exact (Except.ok.inj (Except.ok.inj houtcome)).symm
  | cons visit rest ih =>
    intro emitted accepted houtcome
    simp only [announce, Interaction.runFrom] at houtcome
    rcases hreply : emitter emitted accepted (visit.node.identifier n) with cause | _
    · simp only [hreply] at houtcome
      cases Except.ok.inj houtcome
    · simp only [hreply, Run.outcome_after, runFrom_noteIf, Run.outcome_afterAll] at houtcome
      exact ih _ _ houtcome

/-- **The search always stands at a reduct of the formula.**  It emits the
    identifiers of the visited nodes in turn.  The clauses of such a node are what
    its assignment leaves of the formula: they have no variable with a value, and
    are as many as the clauses that the assignment does not satisfy.  Every
    valuation that agrees with what the search returns satisfies the formula. -/
theorem search_visits_reducts (n : Nat) (hn : n < 2 ^ 31) (debug : Bool) {clauses : List Clause}
    (hproper : ProperLiterals clauses) :
    let visits := (course n ⟨clauses, ∅⟩ 0).visits
    search n debug ⟨clauses, ∅⟩ 0 =
      announce n debug visits (.done (.ok (course n ⟨clauses, ∅⟩ 0).found)) ∧
    (∀ visit ∈ visits,
      let a := visit.node.assignment
      visit.node.clauses = reduct a clauses ∧
      (∀ (v : Nat) (value : Bool), a[v]? = some value →
        ∀ c ∈ visit.node.clauses, ∀ l ∈ c, l.var ≠ v) ∧
      visit.node.identifier n =
        progressIdentifier a n (clauses.countP fun c => !c.any a.makesTrue)) ∧
    (∀ (emitter : Emitter) (oracle : Oracle) (a : Assignment),
      ((search n debug ⟨clauses, ∅⟩ 0).run emitter oracle).outcome = .ok (.ok (some a)) →
        ∀ σ : Nat → Bool, a.AgreesWith σ → Satisfies σ clauses) := by
  intro visits
  have hstart := Node.reduces_start clauses
  have hsearch := search_eq_announce n debug ⟨clauses, ∅⟩ 0
  refine ⟨hsearch, ?_, ?_⟩
  · intro visit hvisit a
    have hnode : visit.node.Reduces clauses := reduces_of_mem_visits hproper hn hstart visit hvisit
    refine ⟨hnode, ?_, ?_⟩
    · rintro v value hvalue c hc l hl rfl
      have hopen : a[l.var]? = none := hnode.getElem?_eq_none hc hl
      rw [hopen] at hvalue
      cases hvalue
    · rw [Node.identifier, hnode, length_reduct]
  · intro emitter oracle a houtcome σ hagrees
    rw [Interaction.run_eq_runFrom, hsearch] at houtcome
    have hfound := eq_of_outcome_announce n debug visits 0 0 houtcome
    exact satisfies_of_reduct_eq_nil hproper (reduct_found hproper hn hstart hfound.symm) hagrees

/-- A formula with a variable beyond the ones that are branched on. -/
theorem search_visits_reducts_beyond :
    let clauses : List Clause := [[1, 2], [-1, 2], [1, -2]]
    let visits := (course 1 ⟨clauses, ∅⟩ 0).visits
    visits.map (fun visit => (visit.node.assignment.toList, visit.node.clauses)) =
      [([], clauses), ([(1, true), (2, true)], [])] ∧
    ∀ visit ∈ visits, visit.node.clauses = reduct visit.node.assignment clauses := by
  intro clauses visits
  have hproper : ProperLiterals clauses := by
    have hwithin : LiteralsWithin 2 clauses := by decide
    exact hwithin.proper (by decide)
  obtain ⟨-, hvisits, -⟩ := search_visits_reducts 1 (by decide) false hproper
  refine ⟨by decide +kernel, ?_⟩
  intro visit hvisit
  exact (hvisits visit hvisit).1

end SatReplay.Dpll
