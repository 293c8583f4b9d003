/-
  SatReplay/Proofs/Dpll/Confluence.lean
  =====================================
  **Unit propagation comes to the same values in every order**, as long as it
  meets no conflict.  An assignment *closes* a formula when it leaves no clause
  with fewer than two literals, so neither a conflict nor a forced literal.
  Propagation adds nothing that a closing assignment does not have: a clause that
  forces a literal is left with fewer than two literals unless the literal is
  true (`propagate_extendedBy`).  Without a conflict its own result closes the
  formula, and is therefore the least assignment that does.

  So only the assignments that close a formula matter, and these do not depend
  on any order (`propagate_confluent`).  In a conflict two orders may come to
  different values, but a conflict is met in both or in neither.
-/
import SatReplay.Proofs.Dpll.Simplification

namespace SatReplay.Dpll

/-! ### Assignments with more values -/

namespace Assignment

/-- The second assignment has every value of the first one. -/
def ExtendedBy (a b : Assignment) : Prop :=
  ∀ (v : Nat) (value : Bool), a[v]? = some value → b[v]? = some value

namespace ExtendedBy

variable {a b c : Assignment}

theorem of_values (h : ∀ v : Nat, a[v]? = b[v]?) : a.ExtendedBy b := by
  intro v value hvalue
  rw [← h, hvalue]

theorem trans (hab : a.ExtendedBy b) (hbc : b.ExtendedBy c) : a.ExtendedBy c :=
  fun v value hvalue => hbc v value (hab v value hvalue)

theorem antisymm (hab : a.ExtendedBy b) (hba : b.ExtendedBy a) (v : Nat) : a[v]? = b[v]? :=
  Option.ext fun value => ⟨hab v value, hba v value⟩

theorem makesTrue (h : a.ExtendedBy b) {l : Literal} (hl : a.makesTrue l = true) :
    b.makesTrue l = true :=
  beq_iff_eq.2 (h _ _ (beq_iff_eq.1 hl))

theorem makesFalse (h : a.ExtendedBy b) {l : Literal} (hl : a.makesFalse l = true) :
    b.makesFalse l = true :=
  beq_iff_eq.2 (h _ _ (beq_iff_eq.1 hl))

end ExtendedBy

theorem extendedBy_assume (a : Assignment) (l : Literal) : a.ExtendedBy (a.assume l) := by
  intro v value hvalue
  rw [getElem?_assume, hvalue]
  simp

theorem ExtendedBy.assume {a b : Assignment} (h : a.ExtendedBy b) {l : Literal}
    (hl : b.makesTrue l = true) : (a.assume l).ExtendedBy b := by
  intro v value hvalue
  rw [getElem?_assume] at hvalue
  split at hvalue
  next hcond =>
    rw [← hcond.1, ← hvalue]
    exact beq_iff_eq.1 hl
  next => exact h v value hvalue

end Assignment

/-- A literal that is made false is not made true. -/
theorem makesTrue_eq_false_of_makesFalse {a : Assignment} {l : Literal}
    (h : a.makesFalse l = true) : a.makesTrue l = false := by
  rw [Assignment.makesTrue, beq_iff_eq.1 h]
  cases l.isPositive <;> rfl

/-- The values of a larger assignment may be given in two steps. -/
theorem reduct_reduct {a b : Assignment} (h : a.ExtendedBy b) (clauses : List Clause) :
    reduct b (reduct a clauses) = reduct b clauses := by
  have hany : ∀ c : Clause,
      ((c.filter fun l => !a.makesFalse l).any b.makesTrue || c.any a.makesTrue) =
        c.any b.makesTrue := by
    intro c
    rw [Bool.eq_iff_iff]
    simp only [Bool.or_eq_true, List.any_eq_true, List.mem_filter, Bool.not_eq_true']
    constructor
    · rintro (⟨l, ⟨hl, -⟩, htrue⟩ | ⟨l, hl, htrue⟩)
      · exact ⟨l, hl, htrue⟩
      · exact ⟨l, hl, h.makesTrue htrue⟩
    · rintro ⟨l, hl, htrue⟩
      refine Or.inl ⟨l, ⟨hl, ?_⟩, htrue⟩
      rw [← Bool.not_eq_true]
      intro hfalse
      rw [makesTrue_eq_false_of_makesFalse (h.makesFalse hfalse)] at htrue
      cases htrue
  have hliterals : ∀ c : Clause,
      ((c.filter fun l => !a.makesFalse l).filter fun l => !b.makesFalse l) =
        c.filter fun l => !b.makesFalse l := by
    intro c
    rw [List.filter_filter]
    apply List.filter_congr
    intro l _
    cases hfalse : a.makesFalse l with
    | false => simp
    | true => simp [h.makesFalse hfalse]
  simp only [reduct, List.filter_map, List.map_map, List.filter_filter]
  have hclauses : (clauses.filter fun c =>
      ((fun c => !c.any b.makesTrue) ∘ fun c => c.filter fun l => !a.makesFalse l) c &&
        !c.any a.makesTrue) = clauses.filter fun c => !c.any b.makesTrue := by
    apply List.filter_congr
    intro c _
    rw [Function.comp_apply, ← Bool.not_or, hany]
  rw [hclauses]
  exact List.map_congr_left fun c _ => hliterals c

/-! ### Closing assignments -/

/-- The assignment leaves neither a conflict nor a clause that forces a literal. -/
def Assignment.Closes (b : Assignment) (clauses : List Clause) : Prop :=
  ∀ c ∈ reduct b clauses, 2 ≤ c.length

theorem takeLastUnit?_eq_none {clauses : List Clause} (h : takeLastUnit? clauses = none) :
    ∀ c ∈ clauses, c.length ≠ 1 := by
  induction clauses with
  | nil => simp
  | cons c rest ih =>
    simp only [takeLastUnit?] at h
    split at h
    next => cases h
    next hrest =>
      split at h
      next => cases h
      next hunit =>
        intro d hd
        rcases List.mem_cons.1 hd with rfl | hd
        · intro hlength
          obtain ⟨l, rfl⟩ := List.length_eq_one_iff.1 hlength
          exact hunit l rfl
        · exact ih hrest d hd

theorem takeLastUnit?_propagate (node : Node) : takeLastUnit? (propagate node).clauses = none := by
  fun_induction propagate node with
  | case1 node hunit => exact hunit
  | case2 node l others _ ih => exact ih

theorem extendedBy_propagate (node : Node) :
    node.assignment.ExtendedBy (propagate node).assignment := by
  fun_induction propagate node with
  | case1 => exact fun _ _ => id
  | case2 node l others _ ih => exact (Assignment.extendedBy_assume _ l).trans ih

section

variable {clauses : List Clause} (hproper : ProperLiterals clauses) {node : Node}
  (h : node.Reduces clauses)

include hproper h

/-- Every closing assignment that has the values of a node has also the values
    that propagation adds to them. -/
theorem propagate_extendedBy {b : Assignment} (hcloses : b.Closes clauses)
    (hext : node.assignment.ExtendedBy b) : (propagate node).assignment.ExtendedBy b := by
  fun_induction propagate node with
  | case1 => exact hext
  | case2 node l others hunit ih =>
    apply ih (h.force hproper hunit) (hext.assume _)
    have hmem : [l] ∈ reduct node.assignment clauses := h ▸ mem_of_takeLastUnit? hunit
    rw [← Bool.not_eq_false]
    intro htrue
    -- otherwise the clause leaves at most the literal itself
    have hleft : [l].filter (fun x => !b.makesFalse x) ∈ reduct b clauses := by
      rw [← reduct_reduct hext]
      exact mem_reduct.2 ⟨[l], hmem, by simp [htrue], rfl⟩
    have htwo := hcloses _ hleft
    have hone := List.length_filter_le (fun x => !b.makesFalse x) [l]
    rw [List.length_singleton] at hone
    omega

theorem closes_propagate (hno : [] ∉ (propagate node).clauses) :
    (propagate node).assignment.Closes clauses := by
  intro c hc
  rw [← h.propagate hproper] at hc
  have hone := takeLastUnit?_eq_none (takeLastUnit?_propagate node) c hc
  have hzero : c.length ≠ 0 := by
    intro hlength
    rw [List.length_eq_zero_iff.1 hlength] at hc
    exact hno hc
  omega

end

/-- **Propagation is confluent.**  Take two formulas that the same assignments
    close, and what the same values leave of them.  If propagation meets no
    conflict in one, it meets none in the other, and comes to the same values. -/
theorem propagate_confluent {clauses others : List Clause} (hproper : ProperLiterals clauses)
    (hproper' : ProperLiterals others)
    (hcloses : ∀ b : Assignment, b.Closes clauses ↔ b.Closes others) {node node' : Node}
    (h : node.Reduces clauses) (h' : node'.Reduces others)
    (hvalues : ∀ v : Nat, node.assignment[v]? = node'.assignment[v]?)
    (hno : [] ∉ (propagate node).clauses) :
    [] ∉ (propagate node').clauses ∧
      ∀ v : Nat, (propagate node).assignment[v]? = (propagate node').assignment[v]? := by
  have hclosed : (propagate node).assignment.Closes clauses := closes_propagate hproper h hno
  have hbelow : (propagate node').assignment.ExtendedBy (propagate node).assignment := by
    apply propagate_extendedBy hproper' h' ((hcloses _).1 hclosed)
    exact (Assignment.ExtendedBy.of_values fun v => (hvalues v).symm).trans
      (extendedBy_propagate node)
  have hno' : [] ∉ (propagate node').clauses := by
    intro hnil
    rw [h'.propagate hproper'] at hnil
    -- a conflict would be left by the closing assignment too
    have hleft : [] ∈ reduct (propagate node).assignment others := by
      rw [← reduct_reduct hbelow]
      exact mem_reduct.2 ⟨[], hnil, rfl, rfl⟩
    have htwo := (hcloses _).1 hclosed [] hleft
    rw [List.length_nil] at htwo
    omega
  have hclosed' : (propagate node').assignment.Closes others :=
    closes_propagate hproper' h' hno'
  have habove : (propagate node).assignment.ExtendedBy (propagate node').assignment := by
    apply propagate_extendedBy hproper h ((hcloses _).2 hclosed')
    exact (Assignment.ExtendedBy.of_values hvalues).trans (extendedBy_propagate node')
  exact ⟨hno', habove.antisymm hbelow⟩

/-! ### Elimination -/

/-- A value that is there stays, and of the others the first literal decides. -/
theorem getElem?_foldl_assume (ls : List Literal) : ∀ (a : Assignment) (v : Nat),
    (ls.foldl Assignment.assume a)[v]? =
      a[v]?.or ((ls.find? fun l => l.var == v).map Literal.isPositive) := by
  induction ls with
  | nil =>
    intro a v
    simp
  | cons l ls ih =>
    intro a v
    rw [List.foldl_cons, ih, Assignment.getElem?_assume, List.find?_cons]
    by_cases hvar : l.var = v
    · rcases hvalue : a[v]? with _ | value <;> simp [hvar]
    · have hne : (l.var == v) = false := beq_eq_false_iff_ne.2 hvar
      simp [hvar, hne]

/-- What is found first does not depend on the order if only one can be found. -/
theorem find?_congr {ls ms : List Literal} {p : Literal → Bool} (hmem : ∀ l, l ∈ ls ↔ l ∈ ms)
    (hone : ∀ l ∈ ls, ∀ m ∈ ls, p l = true → p m = true → l = m) : ls.find? p = ms.find? p := by
  rcases hl : ls.find? p with _ | l
  · apply Eq.symm
    rw [List.find?_eq_none]
    intro m hm
    exact List.find?_eq_none.1 hl m ((hmem m).2 hm)
  · have hlmem : l ∈ ls := List.mem_of_find?_eq_some hl
    rcases hm : ms.find? p with _ | m
    · exact absurd (List.find?_some hl) (List.find?_eq_none.1 hm l ((hmem l).1 hlmem))
    · have hmmem : m ∈ ls := (hmem m).2 (List.mem_of_find?_eq_some hm)
      exact congrArg some (hone l hlmem m hmmem (List.find?_some hl) (List.find?_some hm))

/-- Literals of different variables may be made true in any order. -/
theorem foldl_assume_congr {ls ms : List Literal} (hmem : ∀ l, l ∈ ls ↔ l ∈ ms)
    (hone : ∀ l ∈ ls, ∀ m ∈ ls, Literal.var l = Literal.var m → l = m) {a b : Assignment}
    (hvalues : ∀ v : Nat, a[v]? = b[v]?) (v : Nat) :
    (ls.foldl Assignment.assume a)[v]? = (ms.foldl Assignment.assume b)[v]? := by
  rw [getElem?_foldl_assume, getElem?_foldl_assume, hvalues, find?_congr hmem]
  intro l hl m hm hlv hmv
  exact hone l hl m hm ((beq_iff_eq.1 hlv).trans (beq_iff_eq.1 hmv).symm)

theorem eq_of_mem_pureLiterals {clauses : List Clause} (hproper : ProperLiterals clauses) :
    ∀ l ∈ pureLiterals clauses, ∀ m ∈ pureLiterals clauses,
      Literal.var l = Literal.var m → l = m := by
  intro l hl m hm hvar
  obtain ⟨⟨c, hc, hlc⟩, -⟩ := mem_pureLiterals.1 hl
  obtain ⟨⟨d, hd, hmd⟩, hpure⟩ := mem_pureLiterals.1 hm
  rcases Literal.eq_or_eq_neg_of_var (hproper d hd m hmd) hvar with heq | heq
  · exact heq
  · exact absurd (heq ▸ hlc) (hpure c hc)

/-! ### Conflicts stay -/

theorem nil_mem_propagate {node : Node} (h : [] ∈ node.clauses) :
    [] ∈ (propagate node).clauses := by
  fun_induction propagate node with
  | case1 => exact h
  | case2 node l others hunit ih =>
    apply ih
    show [] ∈ reduce others l
    rw [reduce_others hunit]
    exact mem_reduce.2 ⟨[], h, List.not_mem_nil, rfl⟩

theorem nil_mem_eliminate {node : Node} (h : [] ∈ node.clauses) : [] ∈ (eliminate node).clauses :=
  List.mem_filter.2 ⟨h, rfl⟩

end SatReplay.Dpll
