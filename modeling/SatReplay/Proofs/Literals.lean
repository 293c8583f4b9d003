/-
  SatReplay/Proofs/Literals.lean
  ==============================
  **Literals and their negations.**  Negation keeps the variable of a literal
  and turns its sign around, except for two words that are their own negation:
  0 and the least word.  A literal is *proper* when it is neither; a variable
  then has exactly two literals, and a valuation makes exactly one of them true.

  A formula whose literals all have a variable among `1 … n` is the ordinary
  case: its literals are proper as long as `n` is below `2 ^ 31`.
-/
import Mathlib.Algebra.Group.Nat.Defs
import SatReplay.Formula

namespace SatReplay

namespace Literal

/-! ### Proper literals -/

/-- Neither 0 nor the least word, which are their own negation. -/
def Proper (l : Literal) : Prop := l ≠ 0 ∧ l ≠ Int32.minValue

instance (l : Literal) : Decidable l.Proper := inferInstanceAs (Decidable (_ ∧ _))

/-- A literal of one of the variables `1 … n`. -/
def Within (n : Nat) (l : Literal) : Prop := l ≠ 0 ∧ l.var ≤ n

instance (n : Nat) (l : Literal) : Decidable (l.Within n) := inferInstanceAs (Decidable (_ ∧ _))

theorem isPositive_iff {l : Literal} : l.isPositive = true ↔ 0 < l.toInt := by
  have h0 : (0 : Int32).toInt = 0 := by decide
  simp [isPositive, Int32.lt_iff_toInt_lt, h0]

theorem toInt_ne_zero {l : Literal} (h : l ≠ 0) : l.toInt ≠ 0 := by
  intro hl
  exact h (Int32.toInt_inj.1 (by rw [hl]; decide))

theorem toInt_neg {l : Literal} (h : l ≠ Int32.minValue) : (-l).toInt = -l.toInt := by
  have hlow := Int32.le_toInt l
  have hhigh := Int32.toInt_lt l
  have hleast : l.toInt ≠ -2 ^ 31 := by
    intro hl
    exact h (Int32.toInt_inj.1 (by rw [hl]; decide))
  rw [Int32.toInt_neg, Int.bmod_eq_of_le (by omega) (by omega)]

@[simp] theorem var_neg (l : Literal) : Literal.var (-l) = l.var := by
  by_cases h : l = Int32.minValue
  · subst h
    decide
  · simp only [var, toInt_neg h, Int.natAbs_neg]

theorem isPositive_neg {l : Literal} (h : l.Proper) : Literal.isPositive (-l) = !l.isPositive := by
  have hzero := toInt_ne_zero h.1
  rw [Bool.eq_iff_iff, Bool.not_eq_true', ← Bool.not_eq_true, isPositive_iff, isPositive_iff,
    toInt_neg h.2]
  omega

theorem Proper.neg {l : Literal} (h : l.Proper) : Literal.Proper (-l) := by
  constructor
  · exact Int32.neg_ne_zero.2 h.1
  · intro hmin
    have hself : -Int32.minValue = Int32.minValue := by decide
    exact h.2 (Int32.neg_inj.1 (hmin.trans hself.symm))

theorem eq_of_var_of_isPositive {l m : Literal} (hvar : l.var = m.var)
    (hsign : l.isPositive = m.isPositive) : l = m := by
  apply Int32.toInt_inj.1
  have hiff : 0 < l.toInt ↔ 0 < m.toInt := by rw [← isPositive_iff, ← isPositive_iff, hsign]
  simp only [var] at hvar
  omega

theorem Proper.ne_neg {l : Literal} (h : l.Proper) : l ≠ -l := by
  intro hself
  have hsign := congrArg isPositive hself
  rw [isPositive_neg h] at hsign
  exact (Bool.eq_not_self _).1 hsign

/-- A variable has two literals only. -/
theorem eq_or_eq_neg_of_var {l m : Literal} (hm : m.Proper) (hvar : l.var = m.var) :
    l = m ∨ l = -m := by
  by_cases hsign : l.isPositive = m.isPositive
  · exact Or.inl (eq_of_var_of_isPositive hvar hsign)
  · right
    apply eq_of_var_of_isPositive
    · rw [var_neg, hvar]
    · rw [isPositive_neg hm]
      exact Bool.eq_not.2 hsign

/-! ### Truth -/

theorem holds_iff {σ : Nat → Bool} {l : Literal} (h : l ≠ 0) :
    l.Holds σ ↔ σ l.var = l.isPositive := by
  have hzero := toInt_ne_zero h
  have h0 : (0 : Int32).toInt = 0 := by decide
  simp only [Holds, Int32.lt_iff_toInt_lt, h0]
  cases hsign : l.isPositive with
  | true =>
    have hpos := isPositive_iff.1 hsign
    have hneg : ¬ l.toInt < 0 := by omega
    simp [hpos, hneg]
  | false =>
    have hpos : ¬ 0 < l.toInt := by rw [← isPositive_iff, hsign]; simp
    have hneg : l.toInt < 0 := by omega
    simp [hpos, hneg]

theorem holds_neg_iff {σ : Nat → Bool} {l : Literal} (h : l.Proper) :
    Literal.Holds σ (-l) ↔ ¬ l.Holds σ := by
  rw [holds_iff h.neg.1, holds_iff h.1, var_neg, isPositive_neg h]
  cases σ l.var <;> cases l.isPositive <;> simp

/-! ### The literals of one variable -/

/-- The literal of a variable that a value makes true. -/
def ofVar (v : Nat) (value : Bool) : Literal := if value then Int32.ofNat v else -Int32.ofNat v

theorem proper_ofNat {v : Nat} (hpos : 0 < v) (h : v < 2 ^ 31) :
    Literal.Proper (Int32.ofNat v) := by
  have hv := Int32.toInt_ofNat_of_lt h
  constructor
  · intro hzero
    have h0 : (0 : Int32).toInt = 0 := by decide
    rw [hzero] at hv
    omega
  · intro hmin
    rw [hmin, Int32.toInt_minValue] at hv
    omega

theorem proper_ofVar {v : Nat} (hpos : 0 < v) (h : v < 2 ^ 31) (value : Bool) :
    (ofVar v value).Proper := by
  cases value with
  | true => exact proper_ofNat hpos h
  | false => exact (proper_ofNat hpos h).neg

theorem var_ofVar {v : Nat} (h : v < 2 ^ 31) (value : Bool) : (ofVar v value).var = v := by
  have hv : Literal.var (Int32.ofNat v) = v := by
    rw [var, Int32.toInt_ofNat_of_lt h, Int.natAbs_natCast]
  cases value with
  | true => exact hv
  | false => exact (var_neg _).trans hv

theorem isPositive_ofVar {v : Nat} (hpos : 0 < v) (h : v < 2 ^ 31) (value : Bool) :
    (ofVar v value).isPositive = value := by
  have hv : Literal.isPositive (Int32.ofNat v) = true := by
    rw [isPositive_iff, Int32.toInt_ofNat_of_lt h]
    omega
  cases value with
  | true => exact hv
  | false => exact (isPositive_neg (proper_ofNat hpos h)).trans (by rw [hv]; rfl)

/-! ### Literals within a number of variables -/

theorem Within.proper {n : Nat} {l : Literal} (hn : n < 2 ^ 31) (h : l.Within n) : l.Proper := by
  refine ⟨h.1, ?_⟩
  intro hmin
  have hvar := h.2
  rw [hmin, var, Int32.toInt_minValue] at hvar
  omega

theorem Within.neg {n : Nat} {l : Literal} (h : l.Within n) : Literal.Within n (-l) := by
  refine ⟨Int32.neg_ne_zero.2 h.1, ?_⟩
  rw [var_neg]
  exact h.2

theorem Within.var_pos {n : Nat} {l : Literal} (h : l.Within n) : 0 < l.var := by
  have hzero := toInt_ne_zero h.1
  rw [var]
  omega

end Literal

/-! ### The literals of a formula -/

def ProperLiterals (clauses : List Clause) : Prop := ∀ c ∈ clauses, ∀ l ∈ c, Literal.Proper l

/-- All literals of a formula have a variable among `1 … n`. -/
def LiteralsWithin (n : Nat) (clauses : List Clause) : Prop :=
  ∀ c ∈ clauses, ∀ l ∈ c, Literal.Within n l

instance (n : Nat) (clauses : List Clause) : Decidable (LiteralsWithin n clauses) :=
  decidable_of_iff (clauses.all fun c => c.all fun l => decide (l.Within n))
    (by simp [LiteralsWithin])

theorem LiteralsWithin.proper {n : Nat} {clauses : List Clause} (hn : n < 2 ^ 31)
    (h : LiteralsWithin n clauses) : ProperLiterals clauses :=
  fun c hc l hl => (h c hc l hl).proper hn

/-! ### Deciding truth -/

instance (σ : Nat → Bool) (c : Clause) : Decidable (Clause.Holds σ c) :=
  decidable_of_iff (c.any fun l => decide (l.Holds σ)) (by simp [Clause.Holds])

instance (σ : Nat → Bool) (clauses : List Clause) : Decidable (Satisfies σ clauses) :=
  decidable_of_iff (clauses.all fun c => decide (c.Holds σ)) (by simp [Satisfies])

end SatReplay
