/-
  SatReplay/Proofs/Dpll/Simplification.lean
  =========================================
  **What simplification keeps.**  Two facts about a node survive every step of
  unit propagation and of pure literal elimination, and every branch.

    * The node *reduces* the formula: its clauses are what its assignment leaves
      of the formula (`Node.Reduces`).  A forced literal and a pure literal have
      a variable without a value, so each step is one more value.
    * A valuation that satisfies the clauses before a pass satisfies them after
      it.  For a forced literal this is so because the valuation makes it true;
      for pure literals because clauses only go away.

  The first gives soundness of the search, the second its completeness.
-/
import SatReplay.Dpll.Search
import SatReplay.Proofs.Dpll.Reduct

namespace SatReplay.Dpll

/-- The clauses of the node are what its assignment leaves of the formula. -/
def Node.Reduces (node : Node) (clauses : List Clause) : Prop :=
  node.clauses = reduct node.assignment clauses

theorem Node.reduces_start (clauses : List Clause) : Node.Reduces ⟨clauses, ∅⟩ clauses :=
  (reduct_empty clauses).symm

namespace Node.Reduces

variable {node : Node} {clauses : List Clause}

theorem literals {P : Literal → Prop} (h : node.Reduces clauses)
    (hP : ∀ c ∈ clauses, ∀ l ∈ c, P l) : ∀ c ∈ node.clauses, ∀ l ∈ c, P l := by
  rw [h]
  exact literals_of_mem_reduct hP

theorem getElem?_eq_none (h : node.Reduces clauses) {c : Clause} {l : Literal}
    (hc : c ∈ node.clauses) (hl : l ∈ c) : node.assignment[l.var]? = none := by
  rw [h] at hc
  exact getElem?_eq_none_of_mem_reduct hc hl

end Node.Reduces

/-! ### Making a literal true -/

theorem mem_reduce {clauses : List Clause} {l : Literal} {c : Clause} :
    c ∈ reduce clauses l ↔ ∃ c₀ ∈ clauses, l ∉ c₀ ∧ c = c₀.filter fun x => x != -l := by
  simp only [reduce, List.mem_map, List.mem_filter, Bool.not_eq_true', List.contains_eq_mem,
    decide_eq_false_iff_not]
  constructor
  · rintro ⟨c₀, ⟨hmem, hl⟩, rfl⟩
    exact ⟨c₀, hmem, hl, rfl⟩
  · rintro ⟨c₀, hmem, hl, rfl⟩
    exact ⟨c₀, ⟨hmem, hl⟩, rfl⟩

theorem satisfies_reduce {σ : Nat → Bool} {clauses : List Clause} {l : Literal}
    (hl : l.Proper) (htrue : l.Holds σ) (h : Satisfies σ clauses) :
    Satisfies σ (reduce clauses l) := by
  intro c hc
  obtain ⟨c₀, hmem, -, rfl⟩ := mem_reduce.1 hc
  obtain ⟨x, hx, hholds⟩ := h c₀ hmem
  refine ⟨x, List.mem_filter.2 ⟨hx, ?_⟩, hholds⟩
  rw [bne_iff_ne]
  rintro rfl
  exact (Literal.holds_neg_iff hl).1 hholds htrue

/-! ### Unit propagation -/

theorem takeLastUnit?_eq_some {clauses others : List Clause} {l : Literal}
    (h : takeLastUnit? clauses = some (l, others)) :
    ∃ before after, clauses = before ++ [l] :: after ∧ others = before ++ after := by
  induction clauses generalizing others with
  | nil => simp [takeLastUnit?] at h
  | cons c rest ih =>
    simp only [takeLastUnit?] at h
    split at h
    next l' others' hrest =>
      simp only [Option.some.injEq, Prod.mk.injEq] at h
      obtain ⟨rfl, rfl⟩ := h
      obtain ⟨before, after, hsplit, hothers⟩ := ih hrest
      exact ⟨c :: before, after, by rw [hsplit]; rfl, by rw [hothers]; rfl⟩
    next =>
      split at h
      next l' =>
        simp only [Option.some.injEq, Prod.mk.injEq] at h
        obtain ⟨rfl, rfl⟩ := h
        exact ⟨[], rest, rfl, rfl⟩
      next => simp at h

/-- The clause that forces a literal goes away with it. -/
theorem reduce_others {clauses others : List Clause} {l : Literal}
    (h : takeLastUnit? clauses = some (l, others)) : reduce others l = reduce clauses l := by
  obtain ⟨before, after, rfl, rfl⟩ := takeLastUnit?_eq_some h
  simp [reduce, List.filter_append]

theorem mem_of_takeLastUnit? {clauses others : List Clause} {l : Literal}
    (h : takeLastUnit? clauses = some (l, others)) : [l] ∈ clauses := by
  obtain ⟨before, after, rfl, -⟩ := takeLastUnit?_eq_some h
  simp

theorem propagate_of_closed {node : Node} (h : takeLastUnit? node.clauses = none) :
    propagate node = node := by
  rw [propagate]
  split
  next => rfl
  next l others hunit => simp [h] at hunit

theorem propagate_of_unit {node : Node} {l : Literal} {others : List Clause}
    (h : takeLastUnit? node.clauses = some (l, others)) :
    propagate node = propagate ⟨reduce others l, node.assignment.assume l⟩ := by
  rw [propagate]
  split
  next hnone => simp [h] at hnone
  next l' others' hunit =>
    obtain ⟨rfl, rfl⟩ := Prod.mk.inj (Option.some.inj (h.symm.trans hunit))
    rfl

section

variable {clauses : List Clause} (hproper : ProperLiterals clauses)

include hproper

theorem Node.Reduces.force {node : Node} (h : node.Reduces clauses) {l : Literal}
    {others : List Clause} (hunit : takeLastUnit? node.clauses = some (l, others)) :
    Node.Reduces ⟨reduce others l, node.assignment.assume l⟩ clauses := by
  have hmem := mem_of_takeLastUnit? hunit
  have hl : l.Proper := h.literals hproper [l] hmem l (by simp)
  have hopen : node.assignment[l.var]? = none := h.getElem?_eq_none hmem (by simp)
  show reduce others l = reduct (node.assignment.assume l) clauses
  rw [reduct_assume hproper hl (Assignment.makesFalse_eq_false_of_getElem? hopen), ← h,
    reduce_others hunit]

theorem Node.Reduces.propagate {node : Node} (h : node.Reduces clauses) :
    (propagate node).Reduces clauses := by
  fun_induction Dpll.propagate node with
  | case1 => exact h
  | case2 node l others hunit ih => exact ih (h.force hproper hunit)

theorem satisfies_propagate {σ : Nat → Bool} {node : Node} (h : node.Reduces clauses)
    (hsat : Satisfies σ node.clauses) : Satisfies σ (propagate node).clauses := by
  fun_induction propagate node with
  | case1 => exact hsat
  | case2 node l others hunit ih =>
    apply ih (h.force hproper hunit)
    have hmem := mem_of_takeLastUnit? hunit
    have hl : l.Proper := h.literals hproper [l] hmem l (by simp)
    -- the only literal of the clause has to be true
    obtain ⟨x, hx, htrue⟩ := hsat [l] hmem
    rw [List.mem_singleton] at hx
    subst hx
    rw [show (Node.mk (reduce others x) (node.assignment.assume x)).clauses = reduce others x from
      rfl, reduce_others hunit]
    exact satisfies_reduce hl htrue hsat

end

/-! ### Pure literals -/

def isPure (clauses : List Clause) (l : Literal) : Bool := !(occurring clauses).contains (-l)

theorem isPure_iff {clauses : List Clause} {l : Literal} :
    isPure clauses l = true ↔ ∀ c ∈ clauses, -l ∉ c := by
  rw [isPure, occurring, Std.TreeSet.contains_ofList]
  simp [List.mem_flatten]

def pureLiterals (clauses : List Clause) : List Literal := clauses.flatten.filter (isPure clauses)

theorem mem_pureLiterals {clauses : List Clause} {l : Literal} :
    l ∈ pureLiterals clauses ↔ (∃ c ∈ clauses, l ∈ c) ∧ ∀ c ∈ clauses, -l ∉ c := by
  rw [pureLiterals, List.mem_filter, isPure_iff, List.mem_flatten]

theorem eliminate_eq (node : Node) :
    eliminate node =
      ⟨node.clauses.filter fun c => !c.any (isPure node.clauses),
        (pureLiterals node.clauses).foldl Assignment.assume node.assignment⟩ := rfl

/-- Literals whose negations occur nowhere only take their clauses away. -/
theorem foldl_reduce_eq_filter (ls : List Literal) : ∀ clauses : List Clause,
    (∀ l ∈ ls, ∀ c ∈ clauses, -l ∉ c) →
      ls.foldl reduce clauses = clauses.filter fun c => !c.any ls.contains := by
  induction ls with
  | nil =>
    intro clauses _
    have hall : ∀ c ∈ clauses, (!c.any ([] : List Literal).contains) = true := by
      intro c _
      rw [Bool.not_eq_true', List.any_eq_false]
      simp
    exact (List.filter_eq_self.2 hall).symm
  | cons l ls ih =>
    intro clauses h
    have hreduce : reduce clauses l = clauses.filter fun c => !c.contains l := by
      apply (List.map_congr_left _).trans (List.map_id _)
      intro c hc
      rw [id, List.filter_eq_self]
      intro x hx
      rw [bne_iff_ne]
      rintro rfl
      exact h l (by simp) c (List.mem_filter.1 hc).1 hx
    rw [List.foldl_cons, hreduce, ih _ fun m hm c hc =>
      h m (by simp [hm]) c (List.mem_filter.1 hc).1, List.filter_filter]
    apply List.filter_congr
    intro c _
    rw [← Bool.not_or, Bool.or_comm]
    congr 1
    rw [Bool.eq_iff_iff]
    simp only [Bool.or_eq_true, List.any_eq_true, List.contains_iff_mem, List.mem_cons]
    constructor
    · rintro (hl | ⟨x, hx, hmem⟩)
      · exact ⟨l, hl, Or.inl rfl⟩
      · exact ⟨x, hx, Or.inr hmem⟩
    · rintro ⟨x, hx, rfl | hmem⟩
      · exact Or.inl hx
      · exact Or.inr ⟨x, hx, hmem⟩

/-- The clauses without a pure literal are the ones left when all pure literals
    are made true. -/
theorem foldl_reduce_pureLiterals (clauses : List Clause) :
    (pureLiterals clauses).foldl reduce clauses =
      clauses.filter fun c => !c.any (isPure clauses) := by
  rw [foldl_reduce_eq_filter _ _ fun l hl => (mem_pureLiterals.1 hl).2]
  apply List.filter_congr
  intro c hc
  congr 1
  rw [Bool.eq_iff_iff, List.any_eq_true, List.any_eq_true]
  constructor
  · rintro ⟨l, hl, hmem⟩
    rw [List.contains_iff_mem, mem_pureLiterals] at hmem
    exact ⟨l, hl, isPure_iff.2 hmem.2⟩
  · rintro ⟨l, hl, hpure⟩
    refine ⟨l, hl, ?_⟩
    rw [List.contains_iff_mem, mem_pureLiterals]
    exact ⟨⟨c, hc, hl⟩, isPure_iff.1 hpure⟩

theorem Node.Reduces.eliminate {clauses : List Clause} (hproper : ProperLiterals clauses)
    {node : Node} (h : node.Reduces clauses) : (eliminate node).Reduces clauses := by
  rw [eliminate_eq]
  show (node.clauses.filter fun c => !c.any (isPure node.clauses)) =
    reduct ((pureLiterals node.clauses).foldl Assignment.assume node.assignment) clauses
  rw [reduct_foldl_assume hproper, ← h, foldl_reduce_pureLiterals]
  · intro l hl
    obtain ⟨⟨c, hc, hmem⟩, -⟩ := mem_pureLiterals.1 hl
    exact h.literals hproper c hc l hmem
  · intro l hl
    obtain ⟨⟨c, hc, hmem⟩, -⟩ := mem_pureLiterals.1 hl
    exact Assignment.makesFalse_eq_false_of_getElem? (h.getElem?_eq_none hc hmem)
  · rintro l hl m hm rfl
    obtain ⟨⟨c, hc, hmem⟩, -⟩ := mem_pureLiterals.1 hm
    exact (mem_pureLiterals.1 hl).2 c hc hmem

theorem satisfies_eliminate {σ : Nat → Bool} {node : Node} (hsat : Satisfies σ node.clauses) :
    Satisfies σ (eliminate node).clauses :=
  fun c hc => hsat c (List.mem_filter.1 hc).1

/-! ### Simplification and branches -/

section

variable {clauses : List Clause} (hproper : ProperLiterals clauses)

include hproper

theorem Node.Reduces.simplify {node : Node} (h : node.Reduces clauses) :
    (simplify node).Reduces clauses := by
  fun_induction Dpll.simplify node with
  | case1 node next _ ih => exact ih ((h.propagate hproper).eliminate hproper)
  | case2 node next _ => exact (h.propagate hproper).eliminate hproper

theorem satisfies_simplify {σ : Nat → Bool} {node : Node} (h : node.Reduces clauses)
    (hsat : Satisfies σ node.clauses) : Satisfies σ (simplify node).clauses := by
  fun_induction simplify node with
  | case1 node next _ ih =>
    exact ih ((h.propagate hproper).eliminate hproper)
      (satisfies_eliminate (satisfies_propagate hproper h hsat))
  | case2 node next _ => exact satisfies_eliminate (satisfies_propagate hproper h hsat)

theorem Node.Reduces.branch {node : Node} (h : node.Reduces clauses) {v : Nat} (hpos : 0 < v)
    (hv : v < 2 ^ 31) (hopen : node.assignment[v]? = none) (value : Bool) :
    (node.branch v value).Reduces clauses := by
  have hvar := Literal.var_ofVar hv value
  have hfalse : node.assignment.makesFalse (Literal.ofVar v value) = false := by
    apply Assignment.makesFalse_eq_false_of_getElem?
    rw [hvar, hopen]
  have hvalues : ∀ w : Nat, (node.branch v value).assignment[w]? =
      (node.assignment.assume (Literal.ofVar v value))[w]? := by
    intro w
    rw [Assignment.getElem?_assume, hvar, Literal.isPositive_ofVar hpos hv, Node.branch,
      Std.TreeMap.getElem?_insert]
    by_cases hw : v = w
    · subst hw
      simp [hopen]
    · simp [hw]
  rw [Node.Reduces, reduct_congr hvalues,
    reduct_assume hproper (Literal.proper_ofVar hpos hv value) hfalse, ← h]
  rfl

end

theorem satisfies_branch {σ : Nat → Bool} {node : Node} {v : Nat} (hpos : 0 < v)
    (hv : v < 2 ^ 31) (hsat : Satisfies σ node.clauses) :
    Satisfies σ (node.branch v (σ v)).clauses := by
  have hl := Literal.proper_ofVar hpos hv (σ v)
  apply satisfies_reduce hl _ hsat
  rw [Literal.holds_iff hl.1]
  exact (congrArg σ (Literal.var_ofVar hv (σ v))).trans
    (Literal.isPositive_ofVar hpos hv (σ v)).symm

end SatReplay.Dpll
