/-
  SatReplay/Proofs/Dpll/Reduct.lean
  =================================
  **What an assignment leaves of a formula.**  The *reduct* of a formula under a
  partial assignment drops the clauses that hold a true literal and the false
  literals of the others, in place and with multiplicity.  It says at once what
  the search reaches step by step: `reduct_assume` turns one more value into one
  more `reduce`.

  A valuation that agrees with the assignment satisfies the reduct exactly when
  it satisfies the formula (`satisfies_reduct_iff`).
-/
import SatReplay.Dpll.Simplify
import SatReplay.Proofs.Literals

namespace SatReplay.Dpll

/-! ### Literals under an assignment -/

namespace Assignment

def makesTrue (a : Assignment) (l : Literal) : Bool := a[l.var]? == some l.isPositive

def makesFalse (a : Assignment) (l : Literal) : Bool := a[l.var]? == some (!l.isPositive)

theorem getElem?_assume (a : Assignment) (l : Literal) (v : Nat) :
    (a.assume l)[v]? = if l.var = v ∧ a[v]? = none then some l.isPositive else a[v]? := by
  rw [assume, Std.TreeMap.getElem?_insertIfNew]
  by_cases hv : l.var = v
  · subst hv
    simp
  · simp [hv]

theorem makesFalse_eq_false_of_getElem? {a : Assignment} {l : Literal} (h : a[l.var]? = none) :
    a.makesFalse l = false := by
  simp [makesFalse, h]

/-- A value that does not make the literal false makes it true. -/
theorem eq_isPositive_of_getElem? {a : Assignment} {l : Literal} {value : Bool}
    (hvalue : a[l.var]? = some value) (h : a.makesFalse l = false) : value = l.isPositive := by
  rw [makesFalse, hvalue, beq_eq_false_iff_ne, Ne, Option.some.injEq, Bool.not_eq_not] at h
  exact h

theorem getElem?_assume_self {a : Assignment} {l : Literal} (h : a.makesFalse l = false) :
    (a.assume l)[l.var]? = some l.isPositive := by
  rw [getElem?_assume]
  rcases hvalue : a[l.var]? with _ | value
  · simp
  · simp [eq_isPositive_of_getElem? hvalue h]

theorem getElem?_assume_of_ne {a : Assignment} {l : Literal} {v : Nat} (h : l.var ≠ v) :
    (a.assume l)[v]? = a[v]? := by
  rw [getElem?_assume, if_neg (fun hv => h hv.1)]

theorem makesTrue_assume {a : Assignment} {l : Literal} (h : a.makesFalse l = false)
    (x : Literal) : (a.assume l).makesTrue x = (a.makesTrue x || x == l) := by
  by_cases hvar : l.var = x.var
  · have hself := getElem?_assume_self h
    have hx : (x == l) = (l.isPositive == x.isPositive) := by
      rw [Bool.eq_iff_iff, beq_iff_eq, beq_iff_eq]
      constructor
      · rintro rfl
        rfl
      · intro hsign
        exact Literal.eq_of_var_of_isPositive hvar.symm hsign.symm
    rw [hvar] at hself
    rcases hvalue : a[x.var]? with _ | value
    · simp [makesTrue, hself, hx, hvalue]
    · have heq := eq_isPositive_of_getElem? (hvar ▸ hvalue) h
      simp [makesTrue, hself, hx, hvalue, heq]
  · have hne : (x == l) = false := by
      rw [beq_eq_false_iff_ne]
      rintro rfl
      exact hvar rfl
    simp only [makesTrue, getElem?_assume_of_ne hvar, hne, Bool.or_false]

theorem makesFalse_assume {a : Assignment} {l : Literal} (hl : l.Proper)
    (h : a.makesFalse l = false) (x : Literal) (hx : x.Proper) :
    (a.assume l).makesFalse x = (a.makesFalse x || x == -l) := by
  have htrue := makesTrue_assume h (-x)
  have hneg : (-x == l) = (x == -l) := by
    rw [Bool.eq_iff_iff, beq_iff_eq, beq_iff_eq]
    constructor
    · rintro rfl
      exact Int32.neg_neg.symm
    · rintro rfl
      exact Int32.neg_neg
  simpa only [makesTrue, makesFalse, Literal.var_neg, Literal.isPositive_neg hx, hneg] using htrue

end Assignment

/-! ### Reducts -/

/-- The clauses without a true literal, less their false literals. -/
def reduct (a : Assignment) (clauses : List Clause) : List Clause :=
  (clauses.filter fun c => !c.any a.makesTrue).map fun c => c.filter fun l => !a.makesFalse l

/-- Only the values count. -/
theorem reduct_congr {a b : Assignment} (h : ∀ v : Nat, a[v]? = b[v]?) (clauses : List Clause) :
    reduct a clauses = reduct b clauses := by
  have htrue : a.makesTrue = b.makesTrue := by
    funext l
    simp only [Assignment.makesTrue, h]
  have hfalse : a.makesFalse = b.makesFalse := by
    funext l
    simp only [Assignment.makesFalse, h]
  simp only [reduct, htrue, hfalse]

@[simp] theorem reduct_empty (clauses : List Clause) : reduct ∅ clauses = clauses := by
  have htrue : Assignment.makesTrue ∅ = fun _ => false := by
    funext l
    simp [Assignment.makesTrue]
  have hfalse : Assignment.makesFalse ∅ = fun _ => false := by
    funext l
    simp [Assignment.makesFalse]
  have hkept : clauses.filter (fun c => !c.any (Assignment.makesTrue ∅)) = clauses := by
    rw [List.filter_eq_self]
    intro c _
    rw [htrue, Bool.not_eq_true', List.any_eq_false]
    simp
  have hwhole : (fun c : Clause => c.filter fun l => !Assignment.makesFalse ∅ l) = id := by
    funext c
    rw [hfalse, id, List.filter_eq_self]
    simp
  rw [reduct, hkept, hwhole, List.map_id]

theorem mem_reduct {a : Assignment} {clauses : List Clause} {c : Clause} :
    c ∈ reduct a clauses ↔
      ∃ c₀ ∈ clauses, c₀.any a.makesTrue = false ∧ c = c₀.filter fun l => !a.makesFalse l := by
  simp only [reduct, List.mem_map, List.mem_filter, Bool.not_eq_true']
  constructor
  · rintro ⟨c₀, ⟨hmem, hany⟩, rfl⟩
    exact ⟨c₀, hmem, hany, rfl⟩
  · rintro ⟨c₀, hmem, hany, rfl⟩
    exact ⟨c₀, ⟨hmem, hany⟩, rfl⟩

/-- A literal that is left has a variable without a value. -/
theorem getElem?_eq_none_of_mem_reduct {a : Assignment} {clauses : List Clause} {c : Clause}
    {l : Literal} (hc : c ∈ reduct a clauses) (hl : l ∈ c) : a[l.var]? = none := by
  obtain ⟨c₀, -, hany, rfl⟩ := mem_reduct.1 hc
  simp only [List.mem_filter, Bool.not_eq_true'] at hl
  have htrue := List.any_eq_false.1 hany l hl.1
  rcases hvalue : a[l.var]? with _ | value
  · rfl
  · rw [Assignment.makesTrue, hvalue, Assignment.eq_isPositive_of_getElem? hvalue hl.2] at htrue
    exact absurd BEq.rfl htrue

theorem literals_of_mem_reduct {P : Literal → Prop} {a : Assignment} {clauses : List Clause}
    (h : ∀ c ∈ clauses, ∀ l ∈ c, P l) : ∀ c ∈ reduct a clauses, ∀ l ∈ c, P l := by
  intro c hc l hl
  obtain ⟨c₀, hmem, -, rfl⟩ := mem_reduct.1 hc
  exact h c₀ hmem l (List.mem_filter.1 hl).1

/-! ### One more value -/

/-- A literal made true takes its clauses out of the reduct, and its negation out
    of the clauses that stay. -/
theorem reduct_assume {a : Assignment} {clauses : List Clause} {l : Literal}
    (hproper : ProperLiterals clauses) (hl : l.Proper) (hfalse : a.makesFalse l = false) :
    reduct (a.assume l) clauses = reduce (reduct a clauses) l := by
  have hcontains : ∀ c : Clause,
      (c.filter fun x => !a.makesFalse x).contains l = c.contains l := by
    intro c
    rw [Bool.eq_iff_iff]
    simp [hfalse]
  have hany : ∀ c : Clause,
      c.any (a.assume l).makesTrue = (c.contains l || c.any a.makesTrue) := by
    intro c
    rw [Bool.eq_iff_iff]
    simp only [Assignment.makesTrue_assume hfalse, Bool.or_eq_true, List.any_eq_true,
      beq_iff_eq, List.contains_iff_mem]
    constructor
    · rintro ⟨x, hx, htrue | rfl⟩
      · exact Or.inr ⟨x, hx, htrue⟩
      · exact Or.inl hx
    · rintro (hx | ⟨x, hx, htrue⟩)
      · exact ⟨l, hx, Or.inr rfl⟩
      · exact ⟨x, hx, Or.inl htrue⟩
  simp only [reduct, reduce, List.filter_map, List.map_map, List.filter_filter]
  have hkept : (clauses.filter fun c => !c.any (a.assume l).makesTrue) =
      clauses.filter fun c =>
        ((fun c => !c.contains l) ∘ fun c => c.filter fun l => !a.makesFalse l) c &&
          !c.any a.makesTrue := by
    congr 1
    funext c
    simp only [Function.comp_apply, hcontains, hany, Bool.not_or]
  rw [hkept]
  apply List.map_congr_left
  intro c hc
  have hmem : c ∈ clauses := (List.mem_filter.1 hc).1
  rw [Function.comp_apply, List.filter_filter]
  apply List.filter_congr
  intro x hx
  rw [Assignment.makesFalse_assume hl hfalse x (hproper c hmem x hx), Bool.not_or, Bool.and_comm]
  rfl

/-- Literals of which no two contradict each other may be made true in turn. -/
theorem reduct_foldl_assume {clauses : List Clause} (hproper : ProperLiterals clauses)
    (ls : List Literal) : ∀ a : Assignment, (∀ l ∈ ls, Literal.Proper l) →
      (∀ l ∈ ls, a.makesFalse l = false) → (∀ l ∈ ls, ∀ m ∈ ls, m ≠ -l) →
      reduct (ls.foldl Assignment.assume a) clauses = ls.foldl reduce (reduct a clauses) := by
  induction ls with
  | nil =>
    intro a _ _ _
    rfl
  | cons l ls ih =>
    intro a hls hfalse hconsistent
    have hl : l.Proper := hls l (by simp)
    have hlfalse : a.makesFalse l = false := hfalse l (by simp)
    rw [List.foldl_cons, List.foldl_cons, ← reduct_assume hproper hl hlfalse]
    apply ih
    · intro m hm
      exact hls m (by simp [hm])
    · intro m hm
      have hne : (m == -l) = false :=
        beq_eq_false_iff_ne.2 (hconsistent l (by simp) m (by simp [hm]))
      rw [Assignment.makesFalse_assume hl hlfalse m (hls m (by simp [hm])),
        hfalse m (by simp [hm]), hne]
      rfl
    · intro m hm k hk
      exact hconsistent m (by simp [hm]) k (by simp [hk])

/-! ### Models -/

/-- The valuation has every value of the assignment. -/
def Assignment.AgreesWith (a : Assignment) (σ : Nat → Bool) : Prop :=
  ∀ (v : Nat) (value : Bool), a[v]? = some value → σ v = value

theorem Assignment.AgreesWith.holds {a : Assignment} {σ : Nat → Bool} (h : a.AgreesWith σ)
    {l : Literal} (hl : l ≠ 0) (htrue : a.makesTrue l = true) : l.Holds σ := by
  rw [Literal.holds_iff hl]
  exact h l.var l.isPositive (beq_iff_eq.1 htrue)

theorem Assignment.AgreesWith.not_holds {a : Assignment} {σ : Nat → Bool} (h : a.AgreesWith σ)
    {l : Literal} (hl : l ≠ 0) (hfalse : a.makesFalse l = true) : ¬ l.Holds σ := by
  rw [Literal.holds_iff hl, h l.var (!l.isPositive) (beq_iff_eq.1 hfalse)]
  simp

/-- Under the assignment, the formula and its reduct say the same. -/
theorem satisfies_reduct_iff {a : Assignment} {σ : Nat → Bool} {clauses : List Clause}
    (hproper : ProperLiterals clauses) (h : a.AgreesWith σ) :
    Satisfies σ (reduct a clauses) ↔ Satisfies σ clauses := by
  constructor
  · intro hsat c hc
    by_cases hany : c.any a.makesTrue
    · obtain ⟨l, hl, htrue⟩ := List.any_eq_true.1 hany
      exact ⟨l, hl, h.holds (hproper c hc l hl).1 htrue⟩
    · rw [Bool.not_eq_true] at hany
      obtain ⟨l, hl, hholds⟩ := hsat _ (mem_reduct.2 ⟨c, hc, hany, rfl⟩)
      exact ⟨l, (List.mem_filter.1 hl).1, hholds⟩
  · intro hsat c hc
    obtain ⟨c₀, hmem, -, rfl⟩ := mem_reduct.1 hc
    obtain ⟨l, hl, hholds⟩ := hsat c₀ hmem
    refine ⟨l, List.mem_filter.2 ⟨hl, ?_⟩, hholds⟩
    rw [Bool.not_eq_true', ← Bool.not_eq_true]
    intro hfalse
    exact h.not_holds (hproper c₀ hmem l hl).1 hfalse hholds

end SatReplay.Dpll
