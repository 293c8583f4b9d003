/-
  SatReplay/Proofs/Verdicts.lean
  ==============================
  **Two scans, one verdict.**  `Challenge.accepts` and `Challenge.checkInput` go
  through a formula independently, and nothing is assumed here about its
  literals: 0, the least word and variables beyond the input may all occur.

  A scan reads a literal when those before it in its clause are false and every
  clause before has come to a true one (`Challenge.Reads`).  Which literals are
  read is thereby said without either scan, and both fault exactly when a literal
  is read that the input has no variable for.  Otherwise they agree, because the
  one answers whether the other finds nothing (`allSatisfied?_eq_map`).
-/
import Mathlib.Order.Bounds.Basic
import SatReplay.Replay
import SatReplay.Proofs.Checks

namespace SatReplay

variable {input : Input}

/-! ### Literals -/

namespace Literal

/-- The input has a value for the variable, and the value makes the literal true. -/
def TrueIn (input : Input) (l : Literal) : Prop :=
  l.Within input.length ∧ l.Holds input.valuation

/-- The input has a value for the variable, and the value makes the literal false. -/
def FalseIn (input : Input) (l : Literal) : Prop :=
  l.Within input.length ∧ ¬ l.Holds input.valuation

instance (input : Input) (l : Literal) : Decidable (l.FalseIn input) :=
  inferInstanceAs (Decidable (_ ∧ _))

theorem FalseIn.not_trueIn {l : Literal} (h : l.FalseIn input) : ¬ l.TrueIn input :=
  fun htrue => h.2 htrue.2

theorem holds?_of_not_within {l : Literal} (h : ¬ l.Within input.length) :
    l.holds? input = .error ⟨l⟩ := by
  rcases hvar : l.var with _ | v
  · simp only [holds?, hvar]
  · have hne : l ≠ 0 := by
      intro hzero
      have hpos : 0 < l.var := by omega
      rw [hzero] at hpos
      exact absurd hpos (by decide)
    have hbeyond : input.length ≤ v := by
      rcases Nat.lt_or_ge v input.length with hlt | hge
      · exact absurd ⟨hne, by omega⟩ h
      · exact hge
    simp only [holds?, hvar, List.getElem?_eq_none hbeyond]

theorem holds?_of_trueIn {l : Literal} (h : l.TrueIn input) : l.holds? input = .ok true := by
  rw [holds?_eq h.1, decide_eq_true h.2]

theorem holds?_of_falseIn {l : Literal} (h : l.FalseIn input) : l.holds? input = .ok false := by
  rw [holds?_eq h.1, decide_eq_false h.2]

/-- A literal is true, false or without a value. -/
theorem trueIn_or_falseIn_or (input : Input) (l : Literal) :
    l.TrueIn input ∨ l.FalseIn input ∨ ¬ l.Within input.length := by
  by_cases hwithin : l.Within input.length
  · by_cases hholds : l.Holds input.valuation
    · exact .inl ⟨hwithin, hholds⟩
    · exact .inr (.inl ⟨hwithin, hholds⟩)
  · exact .inr (.inr hwithin)

end Literal

/-! ### Clauses -/

namespace Clause

/-- A scan of the clause reads the literal: all literals before it are false. -/
def Reads (input : Input) (c : Clause) (l : Literal) : Prop :=
  ∃ before after, c = before ++ l :: after ∧ ∀ m ∈ before, Literal.FalseIn input m

/-- A scan of the clause ends at a true literal. -/
def Passes (input : Input) (c : Clause) : Prop := ∃ l, c.Reads input l ∧ l.TrueIn input

theorem reads_nil (l : Literal) : ¬ Reads input [] l := by
  rintro ⟨before, after, hsplit, -⟩
  simp at hsplit

theorem reads_cons {l m : Literal} {c : Clause} :
    Reads input (l :: c) m ↔ m = l ∨ (l.FalseIn input ∧ c.Reads input m) := by
  constructor
  · rintro ⟨_ | ⟨first, before⟩, after, hsplit, hfalse⟩
    · exact .inl (List.cons.inj hsplit).1.symm
    · obtain ⟨rfl, rfl⟩ := List.cons.inj hsplit
      exact .inr ⟨hfalse _ (by simp), before, after, rfl, fun d hd => hfalse d (by simp [hd])⟩
  · rintro (rfl | ⟨hl, before, after, rfl, hfalse⟩)
    · exact ⟨[], c, rfl, by simp⟩
    · refine ⟨l :: before, after, rfl, ?_⟩
      simpa using ⟨hl, hfalse⟩

theorem satisfied?_eq_error_iff {c : Clause} {fault : Fault} :
    c.satisfied? input = .error fault ↔
      c.Reads input fault.literal ∧ ¬ fault.literal.Within input.length := by
  induction c with
  | nil => simp [satisfied?, reads_nil]
  | cons l c ih =>
    rw [satisfied?, reads_cons]
    rcases l.trueIn_or_falseIn_or input with htrue | hfalse | hbeyond
    · simp only [Literal.holds?_of_trueIn htrue, reduceCtorEq, false_iff]
      rintro ⟨heq | ⟨hfalse, -⟩, hbeyond⟩
      · exact hbeyond (heq ▸ htrue.1)
      · exact hfalse.not_trueIn htrue
    · simp only [Literal.holds?_of_falseIn hfalse, ih]
      constructor
      · rintro ⟨hreads, hbeyond⟩
        exact ⟨.inr ⟨hfalse, hreads⟩, hbeyond⟩
      · rintro ⟨heq | ⟨-, hreads⟩, hbeyond⟩
        · exact absurd (heq ▸ hfalse.1) hbeyond
        · exact ⟨hreads, hbeyond⟩
    · simp only [Literal.holds?_of_not_within hbeyond, Except.error.injEq]
      constructor
      · rintro rfl
        exact ⟨.inl rfl, hbeyond⟩
      · rintro ⟨heq | ⟨hfalse, -⟩, -⟩
        · rw [← heq]
        · exact absurd hfalse.1 hbeyond

theorem satisfied?_eq_true_iff {c : Clause} :
    c.satisfied? input = .ok true ↔ c.Passes input := by
  induction c with
  | nil => simp [satisfied?, Passes, reads_nil]
  | cons l c ih =>
    simp only [satisfied?, Passes, reads_cons]
    rcases l.trueIn_or_falseIn_or input with htrue | hfalse | hbeyond
    · simp only [Literal.holds?_of_trueIn htrue, true_iff]
      exact ⟨l, .inl rfl, htrue⟩
    · simp only [Literal.holds?_of_falseIn hfalse, ih]
      constructor
      · rintro ⟨m, hreads, htrue⟩
        exact ⟨m, .inr ⟨hfalse, hreads⟩, htrue⟩
      · rintro ⟨m, rfl | ⟨-, hreads⟩, htrue⟩
        · exact absurd htrue hfalse.not_trueIn
        · exact ⟨m, hreads, htrue⟩
    · simp only [Literal.holds?_of_not_within hbeyond, reduceCtorEq, false_iff]
      rintro ⟨m, rfl | ⟨hfalse, -⟩, htrue⟩
      · exact hbeyond htrue.1
      · exact hbeyond hfalse.1

theorem satisfied?_eq_false_iff {c : Clause} :
    c.satisfied? input = .ok false ↔ ∀ l ∈ c, Literal.FalseIn input l := by
  induction c with
  | nil => simp [satisfied?]
  | cons l c ih =>
    rw [satisfied?, List.forall_mem_cons]
    rcases l.trueIn_or_falseIn_or input with htrue | hfalse | hbeyond
    · simp only [Literal.holds?_of_trueIn htrue, Except.ok.injEq, Bool.true_eq_false, false_iff]
      exact fun h => h.1.not_trueIn htrue
    · simp only [Literal.holds?_of_falseIn hfalse, ih, hfalse, true_and]
    · simp only [Literal.holds?_of_not_within hbeyond, reduceCtorEq, false_iff]
      exact fun h => hbeyond h.1.1

theorem Passes.exists_trueIn {c : Clause} (h : c.Passes input) :
    ∃ l ∈ c, Literal.TrueIn input l := by
  obtain ⟨l, ⟨before, after, rfl, -⟩, htrue⟩ := h
  exact ⟨l, by simp, htrue⟩

end Clause

/-! ### Formulas -/

namespace Challenge

/-- A scan of the formula reads the literal: all clauses before its own have
    passed, and the scan of its clause reads it. -/
def Reads (input : Input) (clauses : List Clause) (l : Literal) : Prop :=
  ∃ before c after, clauses = before ++ c :: after ∧ (∀ d ∈ before, Clause.Passes input d) ∧
    c.Reads input l

theorem reads_nil (l : Literal) : ¬ Reads input [] l := by
  rintro ⟨before, c, after, hsplit, -⟩
  simp at hsplit

theorem reads_cons {c : Clause} {clauses : List Clause} {l : Literal} :
    Reads input (c :: clauses) l ↔
      c.Reads input l ∨ (c.Passes input ∧ Reads input clauses l) := by
  constructor
  · rintro ⟨_ | ⟨first, before⟩, d, after, hsplit, hpasses, hreads⟩
    · rw [(List.cons.inj hsplit).1]
      exact .inl hreads
    · obtain ⟨rfl, rfl⟩ := List.cons.inj hsplit
      exact .inr ⟨hpasses _ (by simp), before, d, after, rfl,
        fun e he => hpasses e (by simp [he]), hreads⟩
  · rintro (hreads | ⟨hc, before, d, after, rfl, hpasses, hreads⟩)
    · exact ⟨[], c, clauses, rfl, by simp, hreads⟩
    · refine ⟨c :: before, d, after, rfl, ?_, hreads⟩
      simpa using ⟨hc, hpasses⟩

theorem firstUnsatisfied?_eq_error_iff {clauses : List Clause} {fault : Fault} :
    ∀ position : Nat, firstUnsatisfied? input position clauses = .error fault ↔
      Reads input clauses fault.literal ∧ ¬ fault.literal.Within input.length := by
  induction clauses with
  | nil => simp [firstUnsatisfied?, reads_nil]
  | cons c clauses ih =>
    intro position
    rw [firstUnsatisfied?, reads_cons, or_and_right, ← Clause.satisfied?_eq_error_iff, and_assoc,
      ← Clause.satisfied?_eq_true_iff, ← ih (position + 1)]
    rcases c.satisfied? input with other | _ | _ <;> simp

theorem firstUnsatisfied?_eq_none_iff {clauses : List Clause} :
    ∀ position : Nat, firstUnsatisfied? input position clauses = .ok none ↔
      ∀ c ∈ clauses, Clause.Passes input c := by
  induction clauses with
  | nil => simp [firstUnsatisfied?]
  | cons c clauses ih =>
    intro position
    rw [firstUnsatisfied?, List.forall_mem_cons, ← Clause.satisfied?_eq_true_iff,
      ← ih (position + 1)]
    rcases c.satisfied? input with fault | _ | _ <;> simp

theorem firstUnsatisfied?_eq_some {clauses : List Clause} :
    ∀ {position failed : Nat}, firstUnsatisfied? input position clauses = .ok (some failed) →
      ∃ i, failed = position + i ∧
        (∃ c, clauses[i]? = some c ∧ ∀ l ∈ c, Literal.FalseIn input l) ∧
        ∀ j < i, ∃ c, clauses[j]? = some c ∧ c.Passes input := by
  induction clauses with
  | nil => simp [firstUnsatisfied?]
  | cons c clauses ih =>
    intro position failed h
    rw [firstUnsatisfied?] at h
    rcases hc : c.satisfied? input with fault | _ | _
    · simp [hc] at h
    · simp only [hc, Except.ok.injEq, Option.some.injEq] at h
      refine ⟨0, h.symm, ⟨c, rfl, Clause.satisfied?_eq_false_iff.1 hc⟩, ?_⟩
      intro j hj
      omega
    · simp only [hc] at h
      obtain ⟨i, rfl, hfailed, hbefore⟩ := ih h
      refine ⟨i + 1, by omega, hfailed, ?_⟩
      intro j hj
      cases j with
      | zero => exact ⟨c, rfl, Clause.satisfied?_eq_true_iff.1 hc⟩
      | succ j => exact hbefore j (by omega)

/-! ### Challenges -/

variable {c : Challenge}

/-- A check of an input of the right length reads the literal, and the literal has
    no variable. -/
structure Exposes (c : Challenge) (input : Input) (l : Literal) : Prop where
  length : input.length = c.variableCount
  reads : Reads input c.clauses l
  beyond : ¬ l.Within c.variableCount

theorem accepts_eq_error_iff {fault : Fault} :
    c.accepts input = .error fault ↔ c.Exposes input fault.literal := by
  rw [accepts]
  by_cases hlength : input.length = c.variableCount
  · have hexposes : c.Exposes input fault.literal ↔
        Reads input c.clauses fault.literal ∧ ¬ fault.literal.Within input.length := by
      rw [hlength]
      exact ⟨fun h => ⟨h.reads, h.beyond⟩, fun h => ⟨hlength, h.1, h.2⟩⟩
    rw [if_pos hlength, allSatisfied?_eq_map c.clauses 0, hexposes,
      ← firstUnsatisfied?_eq_error_iff 0]
    rcases firstUnsatisfied? input 0 c.clauses with other | found <;> simp [Except.map]
  · rw [if_neg hlength]
    simp only [reduceCtorEq, false_iff]
    exact fun h => hlength h.length

/-- Only an input is refused. -/
theorem checkInput_failure {cause : Failure} (h : c.checkInput input = .error (.failure cause)) :
    ∃ defect, cause = .invalidSolution defect := by
  rw [checkInput] at h
  split at h
  · rcases hfirst : firstUnsatisfied? input 0 c.clauses with fault | _ | position
    · simp [hfirst] at h
    · simp [hfirst] at h
    · simp only [hfirst, Except.error.injEq, Trouble.failure.injEq] at h
      exact ⟨_, h.symm⟩
  · simp only [Except.error.injEq, Trouble.failure.injEq] at h
    exact ⟨_, h.symm⟩

/-- What does not fault says yes or what is wrong. -/
theorem checkInput_eq_ok_or {verdict : Bool} (h : c.accepts input = .ok verdict) :
    c.checkInput input = .ok () ∨
      ∃ defect, c.checkInput input = .error (.failure (.invalidSolution defect)) := by
  rw [accepts_eq_verdictOf] at h
  rcases hcheck : c.checkInput input with (cause | fault) | _
  · obtain ⟨defect, rfl⟩ := checkInput_failure hcheck
    exact .inr ⟨defect, rfl⟩
  · simp [hcheck, verdictOf] at h
  · exact .inl rfl

/-- The positions of the clauses without a true literal. -/
def Unmet (clauses : List Clause) (input : Input) : Set Nat :=
  {i | ∃ clause, clauses[i]? = some clause ∧ ¬ ∃ l ∈ clause, Literal.TrueIn input l}

theorem isLeast_unmet {clauses : List Clause} {i : Nat}
    (h : firstUnsatisfied? input 0 clauses = .ok (some i)) : IsLeast (Unmet clauses input) i := by
  obtain ⟨i, rfl, ⟨clause, hclause, hfalse⟩, hbefore⟩ := firstUnsatisfied?_eq_some h
  rw [Nat.zero_add]
  constructor
  · refine ⟨clause, hclause, ?_⟩
    rintro ⟨l, hl, htrue⟩
    exact (hfalse l hl).not_trueIn htrue
  · rintro j ⟨other, hother, hunmet⟩
    rcases Nat.lt_or_ge j i with hlt | hge
    · obtain ⟨passed, hpassed, hpasses⟩ := hbefore j hlt
      obtain rfl := Option.some.inj (hpassed.symm.trans hother)
      exact absurd hpasses.exists_trueIn hunmet
    · exact hge

theorem checkInput_of_answers (hlength : input.length = c.variableCount)
    (hanswers : ∀ fault, c.accepts input ≠ .error fault) :
    (c.checkInput input = .ok () ↔ ∀ clause ∈ c.clauses, ∃ l ∈ clause, Literal.TrueIn input l) ∧
    (∀ i, c.checkInput input = .error (.failure (.invalidSolution (.unsatisfied i))) ↔
      IsLeast (Unmet c.clauses input) i) := by
  rw [accepts, if_pos hlength, allSatisfied?_eq_map c.clauses 0] at hanswers
  rw [checkInput, if_pos hlength]
  rcases hfirst : firstUnsatisfied? input 0 c.clauses with fault | _ | position
  · exact absurd (congrArg _ hfirst) (hanswers fault)
  · have hpasses := (firstUnsatisfied?_eq_none_iff 0).1 hfirst
    have hmet : ∀ clause ∈ c.clauses, ∃ l ∈ clause, Literal.TrueIn input l :=
      fun clause hclause => (hpasses clause hclause).exists_trueIn
    refine ⟨iff_of_true rfl hmet, ?_⟩
    intro i
    simp only [reduceCtorEq, false_iff]
    rintro ⟨⟨clause, hclause, hunmet⟩, -⟩
    exact hunmet (hmet clause (List.mem_of_getElem? hclause))
  · have hleast := isLeast_unmet hfirst
    obtain ⟨clause, hclause, hunmet⟩ := hleast.1
    constructor
    · simp only [reduceCtorEq, false_iff]
      exact fun hmet => hunmet (hmet clause (List.mem_of_getElem? hclause))
    · intro i
      simp only [Except.error.injEq, Trouble.failure.injEq, Failure.invalidSolution.injEq,
        InvalidInput.unsatisfied.injEq]
      constructor
      · rintro rfl
        exact hleast
      · exact hleast.unique

theorem eq_of_solve {solver : Solver} {budget : Budget} {clock : Clock} {debug : Bool}
    {solved : Solved} (h : (c.solve solver budget clock debug).result = .ok solved) :
    c.accepts solved.solution.input = .ok solved.isSolution := by
  simp only [solve, bind, Except.bind, pure, Except.pure] at h
  rcases hanswer : (c.recording solver budget clock debug).answer with trouble | returned
  · simp [hanswer] at h
  · simp only [hanswer] at h
    split at h
    · cases h
    · rw [judge] at h
      rcases haccepts : c.accepts returned with fault | verdict
      · simp [haccepts] at h
      · simp only [haccepts, Except.ok.injEq] at h
        rw [← h]
        exact haccepts

end Challenge

/-- **All checks of an input agree**, on any formula whatever.  They say yes, say
    no and fault together, with the same fault.  When the input has the right
    length and no literal without a value is read, yes means that every clause
    has a true literal, and the clause that is named otherwise is the first one
    that has none.  The verdict on a solved challenge is the same once more. -/
theorem checks_agree (c : Challenge) (input : Input) :
    (c.accepts input = .ok true ↔ c.checkInput input = .ok ()) ∧
    (c.accepts input = .ok false ↔
      ∃ defect, c.checkInput input = .error (.failure (.invalidSolution defect))) ∧
    (∀ fault, c.accepts input = .error fault ↔ c.checkInput input = .error (.fault fault)) ∧
    (∀ trace, (⟨input, trace⟩ : Solution).solves c = c.accepts input) ∧
    (input.length = c.variableCount → (∀ fault, c.accepts input ≠ .error fault) →
      (c.checkInput input = .ok () ↔ ∀ clause ∈ c.clauses, ∃ l ∈ clause, Literal.TrueIn input l) ∧
      (∀ i, c.checkInput input = .error (.failure (.invalidSolution (.unsatisfied i))) ↔
        IsLeast (Challenge.Unmet c.clauses input) i)) ∧
    (∀ (solver : Solver) (budget : Budget) (clock : Clock) (debug : Bool) (solved : Solved),
      (c.solve solver budget clock debug).result = .ok solved →
        c.accepts solved.solution.input = .ok solved.isSolution) := by
  refine ⟨Challenge.accepts_eq_true_iff, ?_, fun _ => Challenge.accepts_eq_fault_iff,
    fun _ => rfl, ?_, ?_⟩
  · rw [c.accepts_eq_verdictOf]
    rcases hcheck : c.checkInput input with (cause | fault) | _
    · obtain ⟨defect, rfl⟩ := Challenge.checkInput_failure hcheck
      simp [Challenge.verdictOf]
    · simp [Challenge.verdictOf]
    · simp [Challenge.verdictOf]
  · exact Challenge.checkInput_of_answers
  · exact fun solver budget clock debug solved hsolve => Challenge.eq_of_solve hsolve

/-- Literals that no variable has do no harm behind a true literal; behind a false
    one they are read. -/
theorem checks_agree_malformed :
    let c : Challenge := ⟨7, ⟨3, 100, by decide, by decide⟩, [[1, 9], [-2, 3, 0], [-1]]⟩
    c.checkInput [true, true, true] = .error (.failure (.invalidSolution (.unsatisfied 2))) ∧
      IsLeast (Challenge.Unmet c.clauses [true, true, true]) 2 ∧
      c.checkInput [false, true, false] = .error (.fault ⟨9⟩) := by
  intro c
  have haccepts : c.accepts [true, true, true] = .ok false := by decide
  have hcheck : c.checkInput [true, true, true] =
      .error (.failure (.invalidSolution (.unsatisfied 2))) := by decide
  obtain ⟨-, -, -, -, hanswers, -⟩ := checks_agree c [true, true, true]
  obtain ⟨-, -, hfault, -⟩ := checks_agree c [false, true, false]
  obtain ⟨-, hleast⟩ := hanswers rfl fun fault h => by rw [haccepts] at h; cases h
  exact ⟨hcheck, (hleast 2).1 hcheck, (hfault ⟨9⟩).1 (by decide)⟩

end SatReplay
