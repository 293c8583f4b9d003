/-
  SatReplay/Proofs/Checks.lean
  ============================
  **Checks decide satisfaction.**  When the literals of a formula have variables
  among those of the input, no check faults, and `Challenge.accepts` says what the
  valuation of the input says: whether the input has the right length and satisfies
  the formula.

  `Challenge.checkInput` refuses exactly the other inputs, since on any formula the
  one scan answers whether the other finds nothing (`accepts_eq_verdictOf`).
-/
import SatReplay.Challenge
import SatReplay.Proofs.Literals
import SatReplay.Proofs.Runs

namespace SatReplay

theorem Literal.holds?_eq {l : Literal} {input : Input} (h : l.Within input.length) :
    l.holds? input = .ok (decide (l.Holds input.valuation)) := by
  have hpos := h.var_pos
  obtain ⟨v, hv⟩ : ∃ v, l.var = v + 1 := ⟨l.var - 1, by omega⟩
  have hlt : v < input.length := by
    have hle := h.2
    omega
  have hvalue : Input.valuation input (v + 1) = input[v] := by
    simp [Input.valuation, hlt]
  have hholds : l.Holds input.valuation ↔ input[v] = l.isPositive := by
    rw [Literal.holds_iff h.1, hv, hvalue]
  simp only [holds?, hv, List.getElem?_eq_getElem hlt, Except.ok.injEq]
  rw [Bool.eq_iff_iff, beq_iff_eq, decide_eq_true_iff, hholds]

theorem Clause.satisfied?_eq {c : Clause} {input : Input}
    (h : ∀ l ∈ c, Literal.Within input.length l) :
    c.satisfied? input = .ok (decide (c.Holds input.valuation)) := by
  induction c with
  | nil => simp [satisfied?, Clause.Holds]
  | cons l c ih =>
    have hl := Literal.holds?_eq (h l (by simp))
    have hc := ih fun m hm => h m (by simp [hm])
    have hcons : Clause.Holds input.valuation (l :: c) ↔
        l.Holds input.valuation ∨ Clause.Holds input.valuation c := by
      simp [Clause.Holds]
    simp only [satisfied?, hl, hc]
    by_cases htrue : l.Holds input.valuation
    · simp [htrue, hcons]
    · simp [htrue, hcons]

namespace Challenge

theorem allSatisfied?_eq {clauses : List Clause} {input : Input}
    (h : LiteralsWithin input.length clauses) :
    allSatisfied? clauses input = .ok (decide (Satisfies input.valuation clauses)) := by
  induction clauses with
  | nil => simp [allSatisfied?, Satisfies]
  | cons c clauses ih =>
    have hc := Clause.satisfied?_eq (h c (by simp))
    have hrest := ih fun d hd => h d (by simp [hd])
    have hcons : Satisfies input.valuation (c :: clauses) ↔
        Clause.Holds input.valuation c ∧ Satisfies input.valuation clauses := by
      simp [Satisfies]
    simp only [allSatisfied?, hc, hrest]
    by_cases htrue : Clause.Holds input.valuation c
    · simp [htrue, hcons]
    · simp [htrue, hcons]

theorem accepts_eq {c : Challenge} (h : LiteralsWithin c.variableCount c.clauses)
    (input : Input) :
    c.accepts input =
      .ok (decide (input.length = c.variableCount ∧ Satisfies input.valuation c.clauses)) := by
  rw [accepts]
  by_cases hlength : input.length = c.variableCount
  · rw [← hlength] at h
    rw [if_pos hlength, allSatisfied?_eq h]
    simp [hlength]
  · rw [if_neg hlength]
    simp [hlength]

theorem accepts_answers {c : Challenge} (h : LiteralsWithin c.variableCount c.clauses) :
    Oracle.Answers c.accepts := fun input => ⟨_, accepts_eq h input⟩

/-- The one scan answers whether the other finds no clause. -/
theorem allSatisfied?_eq_map {input : Input} (clauses : List Clause) : ∀ position : Nat,
    allSatisfied? clauses input = (firstUnsatisfied? input position clauses).map Option.isNone := by
  induction clauses with
  | nil => exact fun _ => rfl
  | cons c clauses ih =>
    intro position
    rw [allSatisfied?, firstUnsatisfied?]
    rcases c.satisfied? input with fault | _ | _
    · rfl
    · rfl
    · exact ih (position + 1)

/-- What a check says is wrong, turned into a yes or no. -/
def verdictOf : Except Trouble Unit → Except Fault Bool
  | .ok () => .ok true
  | .error (.failure _) => .ok false
  | .error (.fault fault) => .error fault

theorem accepts_eq_verdictOf (c : Challenge) (input : Input) :
    c.accepts input = verdictOf (c.checkInput input) := by
  rw [accepts, checkInput]
  by_cases hlength : input.length = c.variableCount
  · rw [if_pos hlength, if_pos hlength, allSatisfied?_eq_map c.clauses 0]
    rcases firstUnsatisfied? input 0 c.clauses with fault | _ | position <;> rfl
  · rw [if_neg hlength, if_neg hlength]
    rfl

theorem accepts_eq_true_iff {c : Challenge} {input : Input} :
    c.accepts input = .ok true ↔ c.checkInput input = .ok () := by
  rw [accepts_eq_verdictOf]
  rcases c.checkInput input with (cause | fault) | _ <;> simp [verdictOf]

theorem accepts_eq_fault_iff {c : Challenge} {input : Input} {fault : Fault} :
    c.accepts input = .error fault ↔ c.checkInput input = .error (.fault fault) := by
  rw [accepts_eq_verdictOf]
  rcases c.checkInput input with (cause | other) | _ <;> simp [verdictOf]

theorem checkInput_eq_ok_iff {c : Challenge} (h : LiteralsWithin c.variableCount c.clauses)
    (input : Input) :
    c.checkInput input = .ok () ↔
      input.length = c.variableCount ∧ Satisfies input.valuation c.clauses := by
  rw [← accepts_eq_true_iff, accepts_eq h, Except.ok.injEq, decide_eq_true_iff]

theorem checkInput_of_length_ne {c : Challenge} {input : Input}
    (h : input.length ≠ c.variableCount) :
    c.checkInput input =
      .error (.failure (.invalidSolution (.wrongLength c.variableCount input.length))) := by
  rw [checkInput, if_neg h]

end Challenge

end SatReplay
