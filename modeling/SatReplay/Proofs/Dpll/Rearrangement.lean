/-
  SatReplay/Proofs/Dpll/Rearrangement.lean
  ========================================
  **The order of a formula does not matter to the answer.**  Nodes of the
  searches of two arrangements of a formula *mirror* each other when they have
  the same values: each is the reduct of its own formula, so what is left of the
  clauses is again the same up to the order.

  Elimination keeps this, since the pure literals do not depend on the order.
  Propagation keeps it unless both nodes are conflicts, since it is confluent.
  The two searches therefore run in lockstep.  When the clauses stand in the
  same order, propagation takes the same literals in turn, and even conflicts
  mirror each other: then all identifiers agree.
-/
import Mathlib.Data.List.Perm.Basic
import SatReplay.Proofs.Dpll.Confluence
import SatReplay.Proofs.Dpll.Lockstep
import SatReplay.Proofs.Dpll.Visits

namespace SatReplay.Dpll

/-! ### Rearranged formulas -/

/-- The clauses stand in another order, and the literals inside each clause. -/
def Rearranged (clauses others : List Clause) : Prop :=
  ∃ middle, clauses.Perm middle ∧ List.Forall₂ List.Perm middle others

theorem forall₂_prune {clauses others : List Clause} (h : List.Forall₂ List.Perm clauses others)
    (p q : Literal → Bool) :
    List.Forall₂ List.Perm ((clauses.filter fun c => !c.any p).map fun c => c.filter q)
      ((others.filter fun c => !c.any p).map fun c => c.filter q) := by
  have hkept : List.Forall₂ List.Perm (clauses.filter fun c => !c.any p)
      (others.filter fun c => !c.any p) := by
    apply List.rel_filter _ h
    intro c d hperm
    show (!c.any p) = true ↔ (!d.any p) = true
    rw [hperm.any_eq]
  rw [List.forall₂_map_left_iff, List.forall₂_map_right_iff]
  exact hkept.imp fun _ _ hperm => hperm.filter q

namespace Rearranged

theorem of_forall₂ {clauses others : List Clause} (h : List.Forall₂ List.Perm clauses others) :
    Rearranged clauses others :=
  ⟨clauses, .refl _, h⟩

section

variable {clauses others : List Clause} (h : Rearranged clauses others)

include h

theorem symm : Rearranged others clauses := by
  obtain ⟨middle, hperm, hclauses⟩ := h
  obtain ⟨middle', hclauses', hperm'⟩ := List.perm_comp_forall₂ hperm hclauses
  exact ⟨middle', hperm'.symm, .flip (hclauses'.imp fun _ _ hc => hc.symm)⟩

theorem length_eq : clauses.length = others.length := by
  obtain ⟨middle, hperm, hclauses⟩ := h
  rw [hperm.length_eq, hclauses.length_eq]

theorem exists_perm {c : Clause} (hc : c ∈ clauses) : ∃ d ∈ others, c.Perm d := by
  obtain ⟨middle, hperm, hclauses⟩ := h
  obtain ⟨hlength, hget⟩ := List.forall₂_iff_get.1 hclauses
  obtain ⟨i, hi, rfl⟩ := List.getElem_of_mem (hperm.mem_iff.1 hc)
  have hi' : i < others.length := hlength ▸ hi
  exact ⟨others[i], List.getElem_mem hi', hget i hi hi'⟩

theorem proper (hproper : ProperLiterals clauses) : ProperLiterals others := by
  intro d hd l hl
  obtain ⟨c, hc, hperm⟩ := h.symm.exists_perm hd
  exact hproper c hc l (hperm.mem_iff.1 hl)

/-- Dropping clauses and literals that fail a test of literals leaves formulas
    that are rearranged again. -/
theorem prune (p q : Literal → Bool) :
    Rearranged ((clauses.filter fun c => !c.any p).map fun c => c.filter q)
      ((others.filter fun c => !c.any p).map fun c => c.filter q) := by
  obtain ⟨middle, hperm, hclauses⟩ := h
  exact ⟨_, (hperm.filter _).map _, forall₂_prune hclauses p q⟩

theorem reduct (a : Assignment) :
    Rearranged (Dpll.reduct a clauses) (Dpll.reduct a others) :=
  h.prune a.makesTrue fun l => !a.makesFalse l

/-- Rearranging may be undone, so what it preserves it does not create either. -/
theorem iff_of_imp {P : List Clause → Prop}
    (himp : ∀ {clauses others}, Rearranged clauses others → P clauses → P others) :
    P clauses ↔ P others :=
  ⟨himp h, himp h.symm⟩

theorem nil_mem_iff : [] ∈ clauses ↔ [] ∈ others := by
  apply h.iff_of_imp
  intro clauses others h hnil
  obtain ⟨d, hd, hperm⟩ := h.exists_perm hnil
  obtain rfl := List.nil_perm.1 hperm
  exact hd

theorem closes_iff (b : Assignment) : b.Closes clauses ↔ b.Closes others := by
  apply h.iff_of_imp
  intro clauses others h hcloses d hd
  obtain ⟨c, hc, hperm⟩ := (h.reduct b).symm.exists_perm hd
  rw [hperm.length_eq]
  exact hcloses c hc

theorem occurs_iff (l : Literal) : (∃ c ∈ clauses, l ∈ c) ↔ ∃ c ∈ others, l ∈ c := by
  apply h.iff_of_imp (P := fun clauses => ∃ c ∈ clauses, l ∈ c)
  rintro clauses others h ⟨c, hc, hl⟩
  obtain ⟨d, hd, hperm⟩ := h.exists_perm hc
  exact ⟨d, hd, hperm.mem_iff.1 hl⟩

theorem mem_pureLiterals_iff (l : Literal) :
    l ∈ pureLiterals clauses ↔ l ∈ pureLiterals others := by
  have hnegation := not_congr (h.occurs_iff (-l))
  simp only [not_exists, not_and] at hnegation
  rw [mem_pureLiterals, mem_pureLiterals, h.occurs_iff l, hnegation]

end

end Rearranged

/-! ### Mirrored nodes -/

/-- The nodes reduce their formulas to the same values. -/
structure Mirrors (clauses others : List Clause) (a b : Node) : Prop where
  reduces : a.Reduces clauses
  reduces' : b.Reduces others
  values : ∀ v : Nat, a.assignment[v]? = b.assignment[v]?

namespace Mirrors

variable {clauses others : List Clause} {a b : Node}

theorem start (clauses others : List Clause) :
    Mirrors clauses others ⟨clauses, ∅⟩ ⟨others, ∅⟩ where
  reduces := Node.reduces_start clauses
  reduces' := Node.reduces_start others
  values _ := rfl

theorem rearranged (hclauses : Rearranged clauses others) (h : Mirrors clauses others a b) :
    Rearranged a.clauses b.clauses := by
  rw [h.reduces, h.reduces', ← reduct_congr h.values]
  exact hclauses.reduct a.assignment

theorem identifier_eq (hclauses : Rearranged clauses others) (h : Mirrors clauses others a b)
    (n : Nat) : a.identifier n = b.identifier n := by
  simp only [Node.identifier, progressIdentifier, Assignment.digit, h.values,
    (h.rearranged hclauses).length_eq]

section

variable (hproper : ProperLiterals clauses) (hclauses : Rearranged clauses others)
  (h : Mirrors clauses others a b)

include hproper hclauses h

theorem eliminate : Mirrors clauses others (eliminate a) (eliminate b) where
  reduces := h.reduces.eliminate hproper
  reduces' := h.reduces'.eliminate (hclauses.proper hproper)
  values := foldl_assume_congr (h.rearranged hclauses).mem_pureLiterals_iff
    (eq_of_mem_pureLiterals (h.reduces.literals hproper)) h.values

theorem branch {v : Nat} (hpos : 0 < v) (hv : v < 2 ^ 31) (hopen : a.assignment[v]? = none)
    (value : Bool) : Mirrors clauses others (a.branch v value) (b.branch v value) where
  reduces := h.reduces.branch hproper hpos hv hopen value
  reduces' := h.reduces'.branch (hclauses.proper hproper) hpos hv (h.values v ▸ hopen) value
  values w := by
    simp only [Node.branch, Std.TreeMap.getElem?_insert, h.values]

/-- Whatever the order, propagation comes to mirrored nodes or to two conflicts. -/
theorem propagate : Mirrors clauses others (propagate a) (propagate b) ∨
    ([] ∈ (Dpll.propagate a).clauses ∧ [] ∈ (Dpll.propagate b).clauses) := by
  have hproper' := hclauses.proper hproper
  by_cases hno : [] ∈ (Dpll.propagate a).clauses
  · right
    refine ⟨hno, Classical.byContradiction fun hno' => ?_⟩
    -- confluence from the other side: no conflict there, so none here
    exact (propagate_confluent hproper' hproper (fun c => (hclauses.closes_iff c).symm)
      h.reduces' h.reduces (fun v => (h.values v).symm) hno').1 hno
  · left
    have hvalues := (propagate_confluent hproper hproper' hclauses.closes_iff h.reduces
      h.reduces' h.values hno).2
    exact ⟨h.reduces.propagate hproper, h.reduces'.propagate hproper', hvalues⟩

end

end Mirrors

/-! ### Clauses in the same order -/

/-- The clauses that force a literal stand at the same places, and force the same. -/
theorem takeLastUnit?_forall₂ {clauses others : List Clause}
    (h : List.Forall₂ List.Perm clauses others) :
    (takeLastUnit? clauses).map Prod.fst = (takeLastUnit? others).map Prod.fst := by
  induction h with
  | nil => rfl
  | @cons c d clauses others hperm _ ih =>
    simp only [takeLastUnit?]
    rcases hclauses : takeLastUnit? clauses with _ | ⟨l, rest⟩
    · rw [hclauses, Option.map_none, eq_comm, Option.map_eq_none_iff] at ih
      simp only [ih]
      rcases c with _ | ⟨l, _ | ⟨m, c⟩⟩
      · obtain rfl := List.nil_perm.1 hperm
        rfl
      · obtain rfl : [l] = d := List.singleton_perm.1 hperm
        rfl
      · have hlength := hperm.length_eq
        rcases d with _ | ⟨l', _ | ⟨m', d⟩⟩
        · cases hlength
        · cases hlength
        · rfl
    · rw [hclauses, Option.map_some] at ih
      obtain ⟨⟨l', rest'⟩, hothers, hl⟩ := Option.map_eq_some_iff.1 ih.symm
      simp only [hothers]
      exact congrArg some hl.symm

theorem Mirrors.propagate_forall₂ {clauses others : List Clause}
    (hproper : ProperLiterals clauses) (hclauses : List.Forall₂ List.Perm clauses others)
    (a : Node) : ∀ b : Node, Mirrors clauses others a b →
      Mirrors clauses others (Dpll.propagate a) (Dpll.propagate b) := by
  have hunits : ∀ {a b : Node}, Mirrors clauses others a b →
      (takeLastUnit? a.clauses).map Prod.fst = (takeLastUnit? b.clauses).map Prod.fst := by
    intro a b h
    apply takeLastUnit?_forall₂
    rw [h.reduces, h.reduces', ← reduct_congr h.values]
    exact forall₂_prune hclauses a.assignment.makesTrue fun l => !a.assignment.makesFalse l
  fun_induction Dpll.propagate a with
  | case1 a hunit =>
    intro b h
    have hsame := hunits h
    rw [hunit, Option.map_none, eq_comm, Option.map_eq_none_iff] at hsame
    rw [propagate_of_closed hsame]
    exact h
  | case2 a l rest hunit ih =>
    intro b h
    have hsame := hunits h
    rw [hunit, Option.map_some] at hsame
    obtain ⟨⟨l', rest'⟩, hunit', rfl⟩ := Option.map_eq_some_iff.1 hsame.symm
    rw [propagate_of_unit hunit']
    apply ih
    exact {
      reduces := h.reduces.force hproper hunit
      reduces' := h.reduces'.force ((Rearranged.of_forall₂ hclauses).proper hproper) hunit'
      values := fun v => by simp only [Assignment.getElem?_assume, h.values] }

/-! ### Searches -/

theorem any_isEmpty {clauses : List Clause} :
    clauses.any List.isEmpty = true ↔ [] ∈ clauses := by
  simp [List.any_eq_true]

section

variable {clauses others : List Clause} (hproper : ProperLiterals clauses)
  (hclauses : Rearranged clauses others) {n : Nat} (hn : n < 2 ^ 31)

include hproper hclauses hn

/-- Searches of rearranged formulas run in lockstep, if propagation keeps nodes
    mirrored or makes conflicts of both. -/
theorem lockstep_of_propagate (Final : Node → Prop) (hconflict : ∀ a, Final a → [] ∈ a.clauses)
    (hpropagate : ∀ {a b}, Mirrors clauses others a b →
      Mirrors clauses others (propagate a) (propagate b) ∨
        (Final (propagate a) ∧ Final (propagate b)))
    (hfinalPropagate : ∀ {a}, Final a → Final (propagate a))
    (hfinalEliminate : ∀ {a}, Final a → Final (eliminate a)) :
    Lockstep n (Mirrors clauses others)
      (fun a b => Mirrors clauses others a b ∨ (Final a ∧ Final b)) where
  simplify := by
    intro a b h
    refine simplify_related (R := Mirrors clauses others) hpropagate ?_ ?_ hfinalPropagate
      hfinalEliminate a b h
    · exact Mirrors.eliminate hproper hclauses
    · exact fun h => (h.rearranged hclauses).length_eq
  empty := by
    rintro a b (h | ⟨ha, hb⟩)
    · rw [Bool.eq_iff_iff, List.isEmpty_iff_length_eq_zero, List.isEmpty_iff_length_eq_zero,
        (h.rearranged hclauses).length_eq]
    · rw [List.isEmpty_eq_false_iff.2 (List.ne_nil_of_mem (hconflict a ha)),
        List.isEmpty_eq_false_iff.2 (List.ne_nil_of_mem (hconflict b hb))]
  conflict := by
    rintro a b (h | ⟨ha, hb⟩)
    · rw [Bool.eq_iff_iff, any_isEmpty, any_isEmpty]
      exact (h.rearranged hclauses).nil_mem_iff
    · rw [any_isEmpty.2 (hconflict a ha), any_isEmpty.2 (hconflict b hb)]
  -- a search uses the values of a node, and branches, only without a conflict
  values := by
    rintro a b (h | ⟨ha, -⟩) hno
    · exact h.values
    · rw [any_isEmpty.2 (hconflict a ha)] at hno
      cases hno
  branch := by
    rintro a b v (h | ⟨ha, -⟩) hno hopen value
    · obtain ⟨hpos, hle, hnone⟩ := firstOpen?_eq_some hopen
      exact h.branch hproper hclauses hpos (by omega) hnone value
    · rw [any_isEmpty.2 (hconflict a ha)] at hno
      cases hno

theorem lockstep_of_rearranged :
    Lockstep n (Mirrors clauses others)
      (fun a b => Mirrors clauses others a b ∨ ([] ∈ a.clauses ∧ [] ∈ b.clauses)) :=
  lockstep_of_propagate hproper hclauses hn (fun a => [] ∈ a.clauses) (fun _ => id)
    (Mirrors.propagate hproper hclauses) nil_mem_propagate nil_mem_eliminate

end

/-- When only literals change places, the nodes never stop to mirror each other. -/
theorem lockstep_of_forall₂ {clauses others : List Clause} (hproper : ProperLiterals clauses)
    (hclauses : List.Forall₂ List.Perm clauses others) {n : Nat} (hn : n < 2 ^ 31) :
    Lockstep n (Mirrors clauses others) (Mirrors clauses others) := by
  have hnever := lockstep_of_propagate hproper (.of_forall₂ hclauses) hn (fun _ => False)
    (fun _ => False.elim) (fun h => .inl (Mirrors.propagate_forall₂ hproper hclauses _ _ h)) id id
  simpa only [and_self, or_false] using hnever

/-! ### Courses -/

theorem Course.input_eq_getD (c : Course) (n : Nat) :
    c.input n = (c.found.map (·.toInput n)).getD [] := by
  rcases c with ⟨visits, _ | found⟩
  · rfl
  · rfl

theorem course_of_rearranged {clauses others : List Clause} (hproper : ProperLiterals clauses)
    (hclauses : Rearranged clauses others) {n : Nat} (hn : n < 2 ^ 31) (depth : Nat) :
    (course n ⟨others, ∅⟩ depth).input n = (course n ⟨clauses, ∅⟩ depth).input n ∧
      (course n ⟨others, ∅⟩ depth).visits.length = (course n ⟨clauses, ∅⟩ depth).visits.length := by
  obtain ⟨hvisits, hinput⟩ := (lockstep_of_rearranged hproper hclauses hn).course
    ⟨clauses, ∅⟩ depth ⟨others, ∅⟩ (.start clauses others)
  refine ⟨?_, hvisits.length_eq.symm⟩
  rw [Course.input_eq_getD, Course.input_eq_getD, hinput]

theorem identifiers_of_forall₂ {clauses others : List Clause} (hproper : ProperLiterals clauses)
    (hclauses : List.Forall₂ List.Perm clauses others) {n : Nat} (hn : n < 2 ^ 31) (depth : Nat) :
    (course n ⟨others, ∅⟩ depth).identifiers n = (course n ⟨clauses, ∅⟩ depth).identifiers n := by
  obtain ⟨hvisits, -⟩ := (lockstep_of_forall₂ hproper hclauses hn).course
    ⟨clauses, ∅⟩ depth ⟨others, ∅⟩ (.start clauses others)
  have hsame : List.Forall₂ Eq ((course n ⟨clauses, ∅⟩ depth).identifiers n)
      ((course n ⟨others, ∅⟩ depth).identifiers n) := by
    rw [Course.identifiers, Course.identifiers, List.forall₂_map_left_iff,
      List.forall₂_map_right_iff]
    exact hvisits.imp fun v w h => h.identifier_eq (.of_forall₂ hclauses) n
  exact (List.forall₂_eq_eq_eq ▸ hsame : _ = _).symm

/-- **The order of a formula does not matter to the answer.**  However the
    clauses are arranged, and the literals in each of them, the solver returns the
    same input after as many identifiers.  When only literals change places, the
    identifiers are the same too. -/
theorem solver_of_rearranged (p q : Problem) (hn : p.variableCount < 2 ^ 31)
    (hproper : ProperLiterals p.clauses) (hcount : q.variableCount = p.variableCount)
    (hclauses : Rearranged p.clauses q.clauses) (oracle oracle' : Oracle)
    (hanswers : p.debug = true → oracle.Answers) (hanswers' : q.debug = true → oracle'.Answers) :
    let run := (solver p).run .accepting oracle
    let run' := (solver q).run .accepting oracle'
    (∃ input, run.outcome = .ok (.ok input) ∧ run'.outcome = .ok (.ok input)) ∧
      run'.emitted.length = run.emitted.length ∧
      (List.Forall₂ List.Perm p.clauses q.clauses → run'.emitted = run.emitted) := by
  intro run run'
  obtain ⟨hinput, hlength⟩ := course_of_rearranged hproper hclauses hn 0
  refine ⟨⟨(courseOf p).input p.variableCount, outcome_run_solver hanswers, ?_⟩, ?_, ?_⟩
  · rw [outcome_run_solver hanswers', courseOf, courseOf, hcount, hinput]
  · rw [emitted_run_solver, emitted_run_solver, Course.identifiers, Course.identifiers,
      List.length_map, List.length_map, courseOf, courseOf, hcount, hlength]
  · intro hliterals
    rw [emitted_run_solver, emitted_run_solver, courseOf, courseOf, hcount,
      identifiers_of_forall₂ hproper hliterals hn]

/-- The first branch ends in a conflict.  It is met with other values when clauses
    change places (`q`), with the same ones when only literals do (`r`). -/
theorem solver_of_rearranged_conflict :
    let p : Problem := ⟨.ofSeed 7, false, 2, [[-1, 2], [-1, -2], [1, 2]]⟩
    let q : Problem := ⟨.ofSeed 7, true, 2, [[-2, -1], [2, 1], [2, -1]]⟩
    let r : Problem := ⟨.ofSeed 9, true, 2, [[2, -1], [-2, -1], [2, 1]]⟩
    let run := fun problem => (solver problem).run .accepting fun _ => .ok true
    (run p).outcome = .ok (.ok [false, true]) ∧ (run q).outcome = .ok (.ok [false, true]) ∧
      (run q).emitted.length = (run p).emitted.length ∧ (run q).emitted ≠ (run p).emitted ∧
      (run r).emitted = (run p).emitted := by
  intro p q r run
  have hproper : ProperLiterals p.clauses := by
    have hwithin : LiteralsWithin 2 p.clauses := by decide
    exact hwithin.proper (by decide)
  have hq : Rearranged p.clauses q.clauses := by
    refine ⟨[[-1, -2], [1, 2], [-1, 2]], by decide, ?_⟩
    exact .cons (by decide) (.cons (by decide) (.cons (by decide) .nil))
  have hr : List.Forall₂ List.Perm p.clauses r.clauses :=
    .cons (by decide) (.cons (by decide) (.cons (by decide) .nil))
  have horacle : Oracle.Answers fun _ => .ok true := fun _ => ⟨true, rfl⟩
  have hrun : (run p).outcome = .ok (.ok [false, true]) := by decide +kernel
  obtain ⟨⟨input, hinput, hinput'⟩, hlength, -⟩ :=
    solver_of_rearranged p q (by decide) hproper rfl hq _ _ (fun _ => horacle) (fun _ => horacle)
  obtain rfl : input = [false, true] := Except.ok.inj (Except.ok.inj (hinput.symm.trans hrun))
  obtain ⟨-, -, hsame⟩ := solver_of_rearranged p r (by decide) hproper rfl (.of_forall₂ hr) _ _
    (fun _ => horacle) (fun _ => horacle)
  exact ⟨hrun, hinput', hlength, by decide +kernel, hsame hr⟩

end SatReplay.Dpll
