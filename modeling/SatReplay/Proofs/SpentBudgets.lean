/-
  SatReplay/Proofs/SpentBudgets.lean
  ==================================
  **Budgets that are spent from the start.**  These are the numbers that are not
  above zero (`Budget.atMostZero_iff`), and they stay spent, whatever the clock
  says (`Budget.spentAfter_of_atMostZero`).  Under such a budget a recording
  accepts nothing, and a solver that does not heed the refusals is caught by the
  last reading of the clock; a replay is refused by the first reading, before
  there is a run.

  `nan` is not above zero either, but it does not compare: it lasts.  What is
  solved and verified depends on a budget that lasts only in that it does, so
  every such budget gives the same reports (`solve_congr`, `verifyMethod_congr`).
-/
import SatReplay.Proofs.Challenge.Generated
import SatReplay.Proofs.Refusals
import SatReplay.Proofs.Verdicts

namespace SatReplay

/-! ### The sign of a budget -/

/-- A zero, a negative number or the negative infinity.  `nan` is not compared
    with anything. -/
def Binary64.AtMostZero (x : Binary64) : Prop :=
  match x.parts with
  | .nan => False
  | .infinite negative => negative = true
  | .finite negative significand _ => negative = true ∨ significand = 0

theorem Binary64.scaled_fst_eq_zero_iff {num den : Nat} {q : Int} :
    (scaled num den q).1 = 0 ↔ num = 0 := by
  have hpow : 2 ^ q.toNat ≠ 0 := Nat.ne_of_gt (Nat.two_pow_pos _)
  rw [scaled]
  split
  · exact Nat.mul_eq_zero.trans (or_iff_left hpow)
  · exact Iff.rfl

namespace Budget

variable {budget : Budget} {clock : Clock}

/-- No time is exactly 0 seconds. -/
theorem parts_seconds_zero : (seconds 0).parts = .finite false 0 Binary64.leastExponent := by
  decide +kernel

/-- What is not above zero is spent, whatever the clock says. -/
theorem spentAfter_of_atMostZero (h : budget.AtMostZero) (elapsed : Nat) :
    budget.spentAfter elapsed = true := by
  rw [Binary64.AtMostZero] at h
  rw [spentAfter]
  rcases hparts : budget.parts with _ | negative | ⟨_ | _, m, q⟩
  · simp [hparts] at h
  · simpa [hparts] using h
  · have hnum : (Binary64.scaled m 1 q).1 = 0 := by
      simpa [hparts, Binary64.scaled_fst_eq_zero_iff] using h
    rcases (seconds elapsed).parts with _ | _ | ⟨_, n, r⟩
    · rfl
    · rfl
    · simp [hnum]
  · rfl

/-- The budgets that are spent before any time has passed. -/
theorem atMostZero_iff : budget.AtMostZero ↔ budget.spentAfter 0 = true := by
  refine ⟨fun h => spentAfter_of_atMostZero h 0, ?_⟩
  rw [Binary64.AtMostZero, spentAfter, parts_seconds_zero]
  rcases budget.parts with _ | negative | ⟨_ | _, m, q⟩
  · simp
  · exact id
  · have hzero : (Binary64.scaled 0 1 Binary64.leastExponent).1 = 0 :=
      Binary64.scaled_fst_eq_zero_iff.2 rfl
    have hden : (Binary64.scaled 0 1 Binary64.leastExponent).2 ≠ 0 := by decide +kernel
    simp only [hzero, Nat.zero_mul, decide_eq_true_eq, Nat.le_zero_eq, Nat.mul_eq_zero, hden,
      or_false, Binary64.scaled_fst_eq_zero_iff]
    exact Or.inr
  · simp

theorem check_of_atMostZero (h : budget.AtMostZero) (elapsed : Nat) :
    budget.check elapsed = .error (.timeout budget) := by
  rw [check, if_pos (spentAfter_of_atMostZero h elapsed)]

theorem lasts_of_isNaN (h : budget.isNaN = true) (clock : Clock) : budget.Lasts clock := by
  intro reading
  rw [spentAfter, beq_iff_eq.1 h]

end Budget

/-! ### Nothing is accepted -/

namespace Interaction

variable {α : Type} {emitter : Emitter} {oracle : Oracle}

theorem accepted_of_refusing
    (h : ∀ emitted accepted i, ∃ cause, emitter emitted accepted i = .error cause)
    (p : Interaction α) : ∀ emitted accepted : Nat,
      (p.runFrom emitter oracle emitted accepted).accepted = [] := by
  induction p with
  | done a =>
    intro emitted accepted
    rfl
  | emit i next ih =>
    intro emitted accepted
    obtain ⟨cause, hcause⟩ := h emitted accepted i
    simp only [runFrom, hcause, Run.accepted_after_refused]
    exact ih _ _ _
  | ask input next ih =>
    intro emitted accepted
    simp only [runFrom]
    rcases oracle input with fault | verdict
    · rfl
    · exact ih _ _ _
  | note event next ih =>
    intro emitted accepted
    exact ih _ _

end Interaction

section

variable {budget : Budget} {c : Challenge} {solver : Solver} {clock : Clock} {debug : Bool}

theorem accepted_recording_of_atMostZero (h : budget.AtMostZero) :
    (c.recording solver budget clock debug).accepted = [] := by
  rw [Challenge.recording, Interaction.run_eq_runFrom]
  exact Interaction.accepted_of_refusing
    (fun emitted _ _ => ⟨_, Budget.check_of_atMostZero h (clock emitted)⟩) _ _ _

/-- Under a spent budget the solver fails for a reason of its own, or it is too late
    whatever it returns. -/
theorem solve_of_atMostZero (h : budget.AtMostZero)
    (hwithin : LiteralsWithin c.variableCount c.clauses) :
    (c.solve solver budget clock debug).result = .error (.failure (.timeout budget)) ∨
      ∃ cause, cause ≠ .timeout budget ∧
        (c.recording solver budget clock debug).outcome = .ok (.error cause) ∧
        (c.solve solver budget clock debug).result = .error (.failure cause) := by
  obtain ⟨reply, hreply⟩ :
      ∃ reply, (c.recording solver budget clock debug).outcome = .ok reply := by
    rw [Challenge.recording, Interaction.run_eq_runFrom]
    exact Interaction.exists_outcome (Challenge.accepts_answers hwithin) _ _ _
  simp only [Challenge.solve, Run.answer, hreply, Budget.check_of_atMostZero h, Trouble.ofFailure]
  rcases reply with cause | input
  · by_cases hcause : cause = .timeout budget
    · subst hcause
      exact .inl rfl
    · exact .inr ⟨cause, hcause, rfl, rfl⟩
  · exact .inl rfl

theorem verifyMethod_of_atMostZero (h : budget.AtMostZero) (s : Solution) :
    s.verifyMethod c solver budget clock = ⟨.error (.failure (.timeout budget)), []⟩ := by
  rw [Solution.verifyMethod, Budget.check_of_atMostZero h]

/-- The input has the right length and satisfies the formula. -/
def Solution.Meets (s : Solution) (c : Challenge) : Prop :=
  s.input.length = c.variableCount ∧ Satisfies (Input.valuation s.input) c.clauses

/-- A bad input is refused for what it is, and a good one because it is too late. -/
theorem verify_of_atMostZero (h : budget.AtMostZero)
    (hwithin : LiteralsWithin c.variableCount c.clauses) (s : Solution) :
    (s.Meets c → (s.verify c solver budget clock).result = .error (.failure (.timeout budget))) ∧
    (¬ s.Meets c → ∃ defect, (s.verify c solver budget clock).result =
      .error (.failure (.invalidSolution defect))) := by
  have hok : c.checkInput s.input = .ok () ↔ s.Meets c := Challenge.checkInput_eq_ok_iff hwithin _
  rw [Solution.verify, verifyMethod_of_atMostZero h]
  constructor
  · intro hmeets
    rw [hok.2 hmeets]
  · intro hmeets
    rcases Challenge.checkInput_eq_ok_or (Challenge.accepts_eq hwithin s.input) with
      hcheck | ⟨defect, hcheck⟩
    · exact absurd (hok.1 hcheck) hmeets
    · exact ⟨defect, by rw [hcheck]⟩

/-! ### Budgets that last are alike -/

variable {other : Budget} {otherClock : Clock}

theorem solve_congr (h : budget.Lasts clock) (hother : other.Lasts otherClock) :
    c.solve solver budget clock debug = c.solve solver other otherClock debug := by
  simp only [Challenge.solve, Challenge.recording_eq h, Challenge.recording_eq hother, h.check,
    hother.check]

theorem verifyMethod_congr (h : budget.Lasts clock) (hother : other.Lasts otherClock)
    (s : Solution) :
    s.verifyMethod c solver budget clock = s.verifyMethod c solver other otherClock := by
  simp only [Solution.verifyMethod, Solution.replay_eq h, Solution.replay_eq hother, h.check,
    hother.check]

theorem verify_congr (h : budget.Lasts clock) (hother : other.Lasts otherClock) (s : Solution) :
    s.verify c solver budget clock = s.verify c solver other otherClock := by
  simp only [Solution.verify, verifyMethod_congr h hother]

theorem verifyProof_congr (h : budget.Lasts clock) (hother : other.Lasts otherClock)
    (seed : Int32) (d : Difficulty) (proof : Bytes) :
    verifyProof seed d solver proof budget clock =
      verifyProof seed d solver proof other otherClock := by
  simp only [verifyProof, verify_congr h hother]

end

/-- **A spent budget is never overlooked, and `nan` is never spent.**  When the
    budget is at most zero, no solver has an identifier accepted or its challenge
    solved: the answer is a timeout unless the solver fails for another reason.
    A replay is a timeout at once, with nothing reported of a run; before it, a
    malformed proof and a bad input are refused for what they are.  Under `nan`
    everything is reported as under any budget that lasts. -/
theorem spent_budget_refuses (solver : Solver) (clock : Clock) :
    (∀ budget : Budget, budget.AtMostZero →
      (∀ (c : Challenge) (debug : Bool), LiteralsWithin c.variableCount c.clauses →
        let run := c.recording solver budget clock debug
        let result := (c.solve solver budget clock debug).result
        run.accepted = [] ∧ (∀ solved, result ≠ .ok solved) ∧
        (result = .error (.failure (.timeout budget)) ∨
          ∃ cause, cause ≠ .timeout budget ∧ run.outcome = .ok (.error cause) ∧
            result = .error (.failure cause))) ∧
      (∀ (c : Challenge) (s : Solution),
        s.verifyMethod c solver budget clock = ⟨.error (.failure (.timeout budget)), []⟩) ∧
      (∀ (c : Challenge) (s : Solution), LiteralsWithin c.variableCount c.clauses →
        let result := (s.verify c solver budget clock).result
        (s.Meets c → result = .error (.failure (.timeout budget))) ∧
        (¬ s.Meets c → ∃ defect, result = .error (.failure (.invalidSolution defect)))) ∧
      (∀ (seed : Int32) (d : Difficulty) (proof : Bytes),
        let result := (verifyProof seed d solver proof budget clock).result
        (∀ defect, Solution.decode proof = .error defect →
          result = .error (.failure (.malformedProof defect))) ∧
        (∀ s, Solution.decode proof = .ok s →
          (s.Meets (.generate seed d) → result = .error (.failure (.timeout budget))) ∧
          (¬ s.Meets (.generate seed d) →
            ∃ defect, result = .error (.failure (.invalidSolution defect)))))) ∧
    (∀ budget : Budget, budget.isNaN = true →
      ∀ (other : Budget) (otherClock : Clock), other.Lasts otherClock →
        (∀ (c : Challenge) (debug : Bool),
          c.solve solver budget clock debug = c.solve solver other otherClock debug) ∧
        (∀ (c : Challenge) (s : Solution),
          s.verifyMethod c solver budget clock = s.verifyMethod c solver other otherClock ∧
            s.verify c solver budget clock = s.verify c solver other otherClock) ∧
        (∀ (seed : Int32) (d : Difficulty) (proof : Bytes),
          verifyProof seed d solver proof budget clock =
            verifyProof seed d solver proof other otherClock)) := by
  constructor
  · intro budget h
    refine ⟨?_, fun c s => verifyMethod_of_atMostZero h s,
      fun c s hwithin => verify_of_atMostZero h hwithin s, ?_⟩
    · intro c debug hwithin run result
      have hresult : result = .error (.failure (.timeout budget)) ∨
          ∃ cause, cause ≠ .timeout budget ∧ run.outcome = .ok (.error cause) ∧
            result = .error (.failure cause) := solve_of_atMostZero h hwithin
      refine ⟨accepted_recording_of_atMostZero h, ?_, hresult⟩
      intro solved hsolved
      rcases hresult with htimeout | ⟨cause, -, -, hcause⟩
      · cases htimeout.symm.trans hsolved
      · cases hcause.symm.trans hsolved
    · intro seed d proof result
      have hwithin : LiteralsWithin (Challenge.generate seed d).variableCount
          (Challenge.generate seed d).clauses := Challenge.generate_within seed d
      constructor
      · intro defect hdecode
        simp only [result, verifyProof, hdecode]
      · intro s hdecode
        simp only [result, verifyProof, hdecode]
        exact verify_of_atMostZero h hwithin s
  · intro budget hnan other otherClock hother
    have hlasts := Budget.lasts_of_isNaN hnan clock
    exact ⟨fun c debug => solve_congr hlasts hother,
      fun c s => ⟨verifyMethod_congr hlasts hother s, verify_congr hlasts hother s⟩,
      verifyProof_congr hlasts hother⟩

/-- A solver that does not heed refusals, under the negative zero, the negative
    infinity and `nan`. -/
theorem spent_budget_refuses_unheeding :
    let c : Challenge := ⟨4, ⟨3, 67, by decide, by decide⟩, [[1, 2, 3], [-1, -2, -3]]⟩
    let s : Solution := ⟨[true, false, false], [5, 7, 9]⟩
    (c.solve .unheeding (.zero true) .still false).result =
        .error (.failure (.timeout (.zero true))) ∧
      (s.verify c .unheeding (.infinity true) .still).result =
        .error (.failure (.timeout (.infinity true))) ∧
      (c.solve .unheeding .nan .still false).result = .ok ⟨true, s⟩ := by
  intro c s
  obtain ⟨hspent, hnan⟩ := spent_budget_refuses .unheeding .still
  have hzero : Binary64.AtMostZero (.zero true) := Or.inl rfl
  have hinfinite : Binary64.AtMostZero (.infinity true) := rfl
  refine ⟨?_, ?_, ?_⟩
  · obtain ⟨-, -, htimeout | ⟨cause, -, houtcome, -⟩⟩ := (hspent _ hzero).1 c false (by decide)
    · exact htimeout
    · cases houtcome
  · obtain ⟨-, -, hverify, -⟩ := hspent _ hinfinite
    exact (hverify c s (by decide)).1 ⟨rfl, by decide⟩
  · rw [(hnan .nan rfl .unlimited .still Budget.unlimited_lasts).1]
    exact (Challenge.solve_eq_ok_iff Budget.unlimited_lasts).2 ⟨rfl, rfl, rfl⟩

end SatReplay
