/-
  SatReplay/Proofs/Dpll/Fixpoint.lean
  ===================================
  **Simplification comes to rest at an equisatisfiable formula**, from any values
  whose variables do not occur in the clauses.

  The loop goes on as long as a pass reports a change: propagation that it forced
  a literal, elimination that clauses went away.  Either way there are fewer
  clauses than before, so the loop is the recursion of `simplify`
  (`simplifiesTo_iff`), and where neither reports a change no clause forces a
  literal and no literal is pure (`irreducible_of_no_change`).

  What is left is the reduct of the clauses, because at first the values leave the
  clauses as they are.  A model of the clauses satisfies the reduct, and a model of
  the reduct satisfies the clauses once it takes over the values that were added
  (`satisfies_overridden`).
-/
import SatReplay.Proofs.Dpll.Bounds
import SatReplay.Proofs.Dpll.Confluence

namespace SatReplay.Dpll

/-! ### What the passes report -/

/-- Propagation forces a literal. -/
def Node.forces (node : Node) : Bool := (takeLastUnit? node.clauses).isSome

/-- Elimination takes clauses away. -/
def Node.sheds (node : Node) : Bool := (eliminate node).clauses.length != node.clauses.length

/-- A pass of a turn reports a change. -/
def Node.changes (node : Node) : Bool := node.forces || (propagate node).sheds

/-- Both passes in turn come from one node to another, where neither reported a
    change in the last turn. -/
inductive SimplifiesTo : Node → Node → Prop where
  | again {node last : Node} : node.changes = true →
      SimplifiesTo (eliminate (propagate node)) last → SimplifiesTo node last
  | rest {node : Node} : node.changes = false → SimplifiesTo node (eliminate (propagate node))

/-- One report is a flag and the other compares lengths; together they say that
    clauses went away. -/
theorem changes_iff {node : Node} :
    node.changes = true ↔ (eliminate (propagate node)).clauses.length < node.clauses.length := by
  have heliminate := length_eliminate_le (propagate node)
  have hpropagate := length_propagate_le node
  rw [Node.changes, Bool.or_eq_true]
  constructor
  · rintro (hforces | hsheds)
    · obtain ⟨⟨l, others⟩, hunit⟩ := Option.isSome_iff_exists.1 hforces
      have hlt := length_propagate_lt hunit
      omega
    · have hne := bne_iff_ne.1 hsheds
      omega
  · intro hlt
    rcases hunit : takeLastUnit? node.clauses with _ | unit
    · right
      rw [propagate_of_closed hunit] at hlt ⊢
      exact bne_iff_ne.2 (Nat.ne_of_lt hlt)
    · left
      rw [Node.forces, hunit, Option.isSome_some]

theorem simplifiesTo_simplify (node : Node) : SimplifiesTo node (simplify node) := by
  fun_induction simplify node with
  | case1 node next hlt ih => exact .again (changes_iff.2 hlt) ih
  | case2 node next hge => exact .rest (Bool.not_eq_true _ ▸ mt changes_iff.1 hge)

/-- The loop ends, and at one node only. -/
theorem simplifiesTo_iff {node last : Node} : SimplifiesTo node last ↔ last = simplify node := by
  constructor
  · intro h
    induction h with
    | again hchanges _ ih =>
      rw [simplify_of_shorter (changes_iff.1 hchanges)]
      exact ih
    | rest hsame =>
      rw [simplify_of_not_shorter]
      rw [← changes_iff, hsame]
      exact Bool.false_ne_true
  · rintro rfl
    exact simplifiesTo_simplify node

/-! ### Where it comes to rest -/

/-- No clause forces a literal, and no literal is pure. -/
structure Irreducible (clauses : List Clause) : Prop where
  length_ne_one : ∀ c ∈ clauses, c.length ≠ 1
  negation_mem : ∀ c ∈ clauses, ∀ l ∈ c, ∃ d ∈ clauses, -l ∈ d

theorem irreducible_of_no_change {node : Node}
    (h : ¬ (eliminate (propagate node)).clauses.length < node.clauses.length) :
    Irreducible node.clauses := by
  have hnone := takeLastUnit?_eq_none_of_length h
  constructor
  · exact takeLastUnit?_eq_none hnone
  · intro c hc l hl
    rw [propagate_of_closed hnone] at h
    have hpure := pureLiterals_eq_nil (Nat.le_of_not_lt h)
    have hnot : l ∉ pureLiterals node.clauses := by
      rw [hpure]
      exact List.not_mem_nil
    rw [mem_pureLiterals, not_and, not_forall] at hnot
    obtain ⟨d, hd⟩ := hnot ⟨c, hc, hl⟩
    rw [not_forall, not_not] at hd
    obtain ⟨hmem, hneg⟩ := hd
    exact ⟨d, hmem, hneg⟩

theorem irreducible_simplify (node : Node) : Irreducible (simplify node).clauses := by
  fun_induction simplify node with
  | case1 node next _ ih => exact ih
  | case2 node next hge =>
    rw [show next = node from eliminate_propagate_eq_self hge]
    exact irreducible_of_no_change hge

theorem simplify_of_irreducible {node : Node} (h : Irreducible node.clauses) :
    simplify node = node := by
  have hunit : takeLastUnit? node.clauses = none := by
    rw [Option.eq_none_iff_forall_ne_some]
    rintro ⟨l, others⟩ hunit
    exact h.length_ne_one [l] (mem_of_takeLastUnit? hunit) rfl
  have hpure : pureLiterals node.clauses = [] := by
    rw [List.eq_nil_iff_forall_not_mem]
    intro l hl
    obtain ⟨⟨c, hc, hmem⟩, hno⟩ := mem_pureLiterals.1 hl
    obtain ⟨d, hd, hneg⟩ := h.negation_mem c hc l hmem
    exact hno d hd hneg
  rw [simplify, propagate_of_closed hunit, eliminate_eq_self hpure, if_neg (Nat.lt_irrefl _)]

/-! ### Values that are only added -/

theorem extendedBy_foldl_assume (ls : List Literal) : ∀ a : Assignment,
    a.ExtendedBy (ls.foldl Assignment.assume a) := by
  induction ls with
  | nil => exact fun _ _ _ => id
  | cons l ls ih => exact fun a => (Assignment.extendedBy_assume a l).trans (ih _)

theorem extendedBy_simplify (node : Node) :
    node.assignment.ExtendedBy (simplify node).assignment := by
  have hturn : ∀ node : Node,
      node.assignment.ExtendedBy (eliminate (propagate node)).assignment := fun node =>
    (extendedBy_propagate node).trans (extendedBy_foldl_assume _ _)
  fun_induction simplify node with
  | case1 node next _ ih => exact (hturn node).trans ih
  | case2 node next _ => exact hturn node

/-- No variable with a value occurs in the clauses. -/
def Assignment.Avoids (a : Assignment) (clauses : List Clause) : Prop :=
  ∀ c ∈ clauses, ∀ l ∈ c, a[Literal.var l]? = none

theorem Node.Reduces.avoids {node : Node} {clauses : List Clause} (h : node.Reduces clauses) :
    node.assignment.Avoids node.clauses :=
  fun _ hc _ hl => h.getElem?_eq_none hc hl

/-- Values of other variables leave clauses as they are. -/
theorem Assignment.Avoids.reduct_eq {a : Assignment} {clauses : List Clause}
    (h : a.Avoids clauses) : reduct a clauses = clauses := by
  have hkept : clauses.filter (fun c => !c.any a.makesTrue) = clauses := by
    rw [List.filter_eq_self]
    intro c hc
    rw [Bool.not_eq_true', List.any_eq_false]
    intro l hl
    simp [makesTrue, h c hc l hl]
  rw [reduct, hkept]
  apply (List.map_congr_left _).trans (List.map_id _)
  intro c hc
  rw [id, List.filter_eq_self]
  intro l hl
  rw [makesFalse_eq_false_of_getElem? (h c hc l hl), Bool.not_false]

/-! ### Models -/

/-- The valuation, except for the values that the second assignment adds to the
    first. -/
def overridden (σ : Nat → Bool) (old new : Assignment) (v : Nat) : Bool :=
  if old.contains v then σ v else (new[v]?).getD (σ v)

theorem overridden_of_open {σ : Nat → Bool} {old new : Assignment} {v : Nat}
    (h : old[v]? = none) : overridden σ old new v = (new[v]?).getD (σ v) := by
  rw [overridden, Std.TreeMap.contains_eq_isSome_getElem?, h]
  rfl

theorem satisfies_overridden {clauses : List Clause} (hproper : ProperLiterals clauses)
    {old new : Assignment} (hold : old.Avoids clauses) {σ : Nat → Bool}
    (h : Satisfies σ (reduct new clauses)) : Satisfies (overridden σ old new) clauses := by
  intro c hc
  by_cases hany : c.any new.makesTrue
  · -- a clause that went away has a literal that is true by a new value
    obtain ⟨l, hl, htrue⟩ := List.any_eq_true.1 hany
    refine ⟨l, hl, ?_⟩
    rw [Literal.holds_iff (hproper c hc l hl).1, overridden_of_open (hold c hc l hl),
      beq_iff_eq.1 htrue, Option.getD_some]
  · -- what is left of the others has no variable with a value
    have hleft := mem_reduct.2 ⟨c, hc, Bool.not_eq_true _ ▸ hany, rfl⟩
    obtain ⟨l, hl, hholds⟩ := h _ hleft
    have hmem : l ∈ c := (List.mem_filter.1 hl).1
    have hzero := (hproper c hc l hmem).1
    refine ⟨l, hmem, ?_⟩
    rw [Literal.holds_iff hzero, overridden_of_open (hold c hc l hmem),
      getElem?_eq_none_of_mem_reduct hleft hl, Option.getD_none, ← Literal.holds_iff hzero]
    exact hholds

/-- **Simplification comes to rest at an equisatisfiable formula.**  The loop ends,
    and where it ends it changes nothing any more: no clause has one literal, and
    each literal stands there negated too.  Values are only added, and no variable
    that has one occurs in what is left.  This has a model just if the clauses have
    one, and any model of it becomes one of the clauses with the added values. -/
theorem simplify_equisatisfiable {clauses : List Clause} (hproper : ProperLiterals clauses)
    {a : Assignment} (havoids : a.Avoids clauses) :
    let last := simplify ⟨clauses, a⟩
    ((∀ node, SimplifiesTo ⟨clauses, a⟩ node ↔ node = last) ∧ simplify last = last) ∧
    a.ExtendedBy last.assignment ∧
    ((∀ c ∈ last.clauses, c.length ≠ 1) ∧
      ∀ c ∈ last.clauses, ∀ l ∈ c, ∃ d ∈ last.clauses, -l ∈ d) ∧
    last.assignment.Avoids last.clauses ∧
    ((∃ σ, Satisfies σ last.clauses) ↔ ∃ σ, Satisfies σ clauses) ∧
    (∀ σ, Satisfies σ last.clauses → Satisfies (overridden σ a last.assignment) clauses) := by
  intro last
  have hstart : Node.Reduces ⟨clauses, a⟩ clauses := havoids.reduct_eq.symm
  have hlast : last.Reduces clauses := hstart.simplify hproper
  have hirreducible : Irreducible last.clauses := irreducible_simplify _
  have hback : ∀ σ, Satisfies σ last.clauses →
      Satisfies (overridden σ a last.assignment) clauses := by
    intro σ hσ
    rw [hlast] at hσ
    exact satisfies_overridden hproper havoids hσ
  refine ⟨⟨fun node => simplifiesTo_iff, simplify_of_irreducible hirreducible⟩,
    extendedBy_simplify ⟨clauses, a⟩, ⟨hirreducible.length_ne_one, hirreducible.negation_mem⟩,
    hlast.avoids, ?_, hback⟩
  constructor
  · rintro ⟨σ, hσ⟩
    exact ⟨_, hback σ hσ⟩
  · rintro ⟨σ, hσ⟩
    exact ⟨σ, satisfies_simplify hproper hstart hσ⟩

/-- A forced literal leaves a pure one, and this another one; a variable that does
    not occur has a value from the start. -/
theorem simplify_equisatisfiable_chain :
    let clauses : List Clause := [[1], [-1, 2, 3], [-2, 5, 6], [5, 6], [-5, -6]]
    let a : Assignment := Std.TreeMap.ofList [(9, false)]
    let last := simplify ⟨clauses, a⟩
    let σ : Nat → Bool := (· == 5)
    (ProperLiterals clauses ∧ a.Avoids clauses) ∧
      last.clauses = [[5, 6], [-5, -6]] ∧
      last.assignment.toList = [(1, true), (2, false), (3, true), (9, false)] ∧
      Satisfies (overridden σ a last.assignment) clauses := by
  intro clauses a last σ
  have hproper : ProperLiterals clauses := by
    have hwithin : LiteralsWithin 6 clauses := by decide
    exact hwithin.proper (by decide)
  have havoids : a.Avoids clauses := by
    have hall : clauses.all (fun c => c.all fun l => (a[Literal.var l]?).isNone) = true := by
      decide +kernel
    intro c hc l hl
    exact Option.isNone_iff_eq_none.1 (List.all_eq_true.1 (List.all_eq_true.1 hall c hc) l hl)
  have hlast : last.clauses = [[5, 6], [-5, -6]] := by decide +kernel
  obtain ⟨-, -, -, -, -, hback⟩ := simplify_equisatisfiable hproper havoids
  refine ⟨⟨hproper, havoids⟩, hlast, by decide +kernel, hback σ ?_⟩
  rw [hlast]
  decide

end SatReplay.Dpll
