/-
  SatReplay/Proofs/Dpll/Lockstep.lean
  ===================================
  **Two searches side by side.**  Two formulas are searched in lockstep when
  their nodes stay related: simplification keeps the relation, and so does every
  branch.  A conflict ends a node whatever else is left of it, so related nodes
  may also part when both of them are conflicts (`simplify_related`).

  Then the two searches visit as many nodes, in pairs that are related, and come
  to the same input (`Lockstep.course`).
-/
import Mathlib.Data.List.Forall2
import SatReplay.Proofs.Dpll.Course

namespace SatReplay.Dpll

/-- A relation that each pass keeps, unless both nodes become final, is kept by
    simplification, unless both nodes become final. -/
theorem simplify_related {R : Node → Node → Prop} {Final : Node → Prop}
    (hpropagate : ∀ {a b}, R a b →
      R (propagate a) (propagate b) ∨ (Final (propagate a) ∧ Final (propagate b)))
    (heliminate : ∀ {a b}, R a b → R (eliminate a) (eliminate b))
    (hlength : ∀ {a b}, R a b → a.clauses.length = b.clauses.length)
    (hfinalPropagate : ∀ {a}, Final a → Final (propagate a))
    (hfinalEliminate : ∀ {a}, Final a → Final (eliminate a)) (a : Node) :
    ∀ b : Node, R a b →
      R (simplify a) (simplify b) ∨ (Final (simplify a) ∧ Final (simplify b)) := by
  have hfinal : ∀ {a}, Final (propagate a) → Final (simplify a) := by
    intro a
    fun_induction simplify a with
    | case1 a next _ ih => exact fun ha => ih (hfinalPropagate (hfinalEliminate ha))
    | case2 a next _ => exact hfinalEliminate
  fun_induction simplify a with
  | case1 a next hlt ih =>
    intro b hab
    rcases hpropagate hab with hpropagated | ⟨ha, hb⟩
    · have hnext : R next (eliminate (propagate b)) := heliminate hpropagated
      have hltb : (eliminate (propagate b)).clauses.length < b.clauses.length := by
        rw [← hlength hnext, ← hlength hab]
        exact hlt
      rw [simplify_of_shorter hltb]
      exact ih _ hnext
    · exact Or.inr ⟨hfinal (hfinalPropagate (hfinalEliminate ha)), hfinal hb⟩
  | case2 a next hge =>
    intro b hab
    rcases hpropagate hab with hpropagated | ⟨ha, hb⟩
    · have hnext : R next (eliminate (propagate b)) := heliminate hpropagated
      have hgeb : ¬ (eliminate (propagate b)).clauses.length < b.clauses.length := by
        rw [← hlength hnext, ← hlength hab]
        exact hge
      rw [simplify_of_not_shorter hgeb]
      exact Or.inl hnext
    · exact Or.inr ⟨hfinalEliminate ha, hfinal hb⟩

/-! ### Courses in lockstep -/

/-- `R` relates nodes that searches begin at, and `S` what they are simplified to,
    so closely that the searches take the same turns. -/
structure Lockstep (n : Nat) (R S : Node → Node → Prop) : Prop where
  simplify : ∀ {a b : Node}, R a b → S (simplify a) (simplify b)
  empty : ∀ {a b : Node}, S a b → a.clauses.isEmpty = b.clauses.isEmpty
  conflict : ∀ {a b : Node}, S a b →
    a.clauses.any List.isEmpty = b.clauses.any List.isEmpty
  values : ∀ {a b : Node}, S a b → a.clauses.any List.isEmpty = false →
    ∀ v : Nat, a.assignment[v]? = b.assignment[v]?
  branch : ∀ {a b : Node} {v : Nat}, S a b → a.clauses.any List.isEmpty = false →
    a.assignment.firstOpen? n = some v → ∀ value : Bool, R (a.branch v value) (b.branch v value)

theorem firstOpen?_congr {a b : Assignment} (h : ∀ v : Nat, a[v]? = b[v]?) (n : Nat) :
    a.firstOpen? n = b.firstOpen? n := by
  simp only [Assignment.firstOpen?, Std.TreeMap.contains_eq_isSome_getElem?, h]

theorem toInput_congr {a b : Assignment} (h : ∀ v : Nat, a[v]? = b[v]?) (n : Nat) :
    a.toInput n = b.toInput n := by
  simp only [Assignment.toInput, h]

/-- **Searches in lockstep** visit related nodes, one for one, and come to the
    same input. -/
theorem Lockstep.course {n : Nat} {R S : Node → Node → Prop} (h : Lockstep n R S) (a : Node)
    (depth : Nat) : ∀ b : Node, R a b →
      List.Forall₂ (fun v w => S v.node w.node) (course n a depth).visits
          (course n b depth).visits ∧
        (course n a depth).found.map (·.toInput n) =
          (course n b depth).found.map (·.toInput n) := by
  fun_induction Dpll.course n a depth with
  | case1 a depth node hempty =>
    intro b hab
    have hnode : S node (Dpll.simplify b) := h.simplify hab
    have hvalues := h.values hnode (by simp [List.isEmpty_iff.1 hempty])
    rw [course_of_empty (h.empty hnode ▸ hempty)]
    exact ⟨.cons hnode .nil, congrArg some (toInput_congr hvalues n)⟩
  | case2 a depth node hempty hconflict =>
    intro b hab
    have hnode : S node (Dpll.simplify b) := h.simplify hab
    rw [course_of_conflict (h.empty hnode ▸ hempty) (h.conflict hnode ▸ hconflict)]
    exact ⟨.cons hnode .nil, rfl⟩
  | case3 a depth node hempty hconflict hopen =>
    intro b hab
    have hnode : S node (Dpll.simplify b) := h.simplify hab
    have hvalues := h.values hnode (Bool.not_eq_true _ ▸ hconflict)
    rw [course_of_closed (h.empty hnode ▸ hempty) (h.conflict hnode ▸ hconflict)
      (firstOpen?_congr hvalues n ▸ hopen)]
    exact ⟨.cons hnode .nil, rfl⟩
  | case4 a depth node hempty hconflict v hopen left found hleft ih =>
    intro b hab
    have hnode : S node (Dpll.simplify b) := h.simplify hab
    have hno : node.clauses.any List.isEmpty = false := Bool.not_eq_true _ ▸ hconflict
    have hvalues := h.values hnode hno
    obtain ⟨hvisits, hinput⟩ := ih _ (h.branch hnode hno hopen true)
    rw [hleft, Option.map_some] at hinput
    obtain ⟨found', hfound', hsame⟩ := Option.map_eq_some_iff.1 hinput.symm
    rw [course_of_found (h.empty hnode ▸ hempty) (h.conflict hnode ▸ hconflict)
      (firstOpen?_congr hvalues n ▸ hopen) hfound']
    exact ⟨.cons hnode hvisits, congrArg some hsame.symm⟩
  | case5 a depth node hempty hconflict v hopen left hleft right ihleft ihright =>
    intro b hab
    have hnode : S node (Dpll.simplify b) := h.simplify hab
    have hno : node.clauses.any List.isEmpty = false := Bool.not_eq_true _ ▸ hconflict
    have hvalues := h.values hnode hno
    obtain ⟨hvisits, hinput⟩ := ihleft _ (h.branch hnode hno hopen true)
    rw [hleft, Option.map_none] at hinput
    obtain ⟨hvisits', hinput'⟩ := ihright _ (h.branch hnode hno hopen false)
    rw [course_of_not_found (h.empty hnode ▸ hempty) (h.conflict hnode ▸ hconflict)
      (firstOpen?_congr hvalues n ▸ hopen) (Option.map_eq_none_iff.1 hinput.symm)]
    exact ⟨.cons hnode (List.rel_append hvisits hvisits'), hinput'⟩

end SatReplay.Dpll
