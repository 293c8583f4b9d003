/-
  SatReplay/Proofs/Dpll/Expiring.lean
  ===================================
  **When a budget runs out during the search.**  The clock is read at each
  identifier that the search emits, and once more when the solver has returned.
  If the budget is spent at one of these readings, the first of them refuses its
  identifier, or comes at the end; either way the challenge is not solved, for no
  other reason than the time.  If it is spent at none, the search does not notice
  that it has one.
-/
import Mathlib.Data.Nat.Find
import SatReplay.Proofs.Dpll.Stopping
import SatReplay.Proofs.Pipeline

namespace SatReplay

/-- The budget is spent at a reading of the clock up to this one. -/
def Budget.ExpiresBy (budget : Budget) (clock : Clock) (last : Nat) : Prop :=
  ∃ reading ≤ last, budget.spentAfter (clock reading) = true

/-- The readings of the clock when a challenge is solved by the complete search:
    one at each identifier, and one at the end. -/
def Challenge.Expires (c : Challenge) (budget : Budget) (clock : Clock) : Prop :=
  budget.ExpiresBy clock (c.traceOf Dpll.solver).length

section

variable {budget : Budget} {clock : Clock}

theorem Budget.check_of_spent {elapsed : Nat} (h : budget.spentAfter elapsed = true) :
    budget.check elapsed = .error (.timeout budget) :=
  if_pos h

theorem Budget.check_of_not_spent {elapsed : Nat} (h : ¬ budget.spentAfter elapsed = true) :
    budget.check elapsed = .ok () :=
  if_neg h

theorem Budget.ExpiresBy.exists_first {last : Nat} (h : budget.ExpiresBy clock last) :
    ∃ first ≤ last, budget.spentAfter (clock first) = true ∧
      (recorder budget clock).RefusesAfter first (.timeout budget) := by
  have hsome : ∃ reading, budget.spentAfter (clock reading) = true := by
    obtain ⟨reading, -, hspent⟩ := h
    exact ⟨reading, hspent⟩
  obtain ⟨reading, hle, hspent⟩ := h
  have hfirst : Nat.find hsome ≤ last := Nat.le_trans (Nat.find_min' hsome hspent) hle
  refine ⟨Nat.find hsome, hfirst, Nat.find_spec hsome, ?_, ?_⟩
  · intro i hi identifier
    exact Budget.check_of_not_spent (Nat.find_min hsome hi)
  · intro identifier
    exact Budget.check_of_spent (Nat.find_spec hsome)

namespace Challenge

variable {c : Challenge} {debug : Bool}

theorem not_expires_of_lasts (c : Challenge) (h : budget.Lasts clock) :
    ¬ c.Expires budget clock := by
  rintro ⟨reading, -, hspent⟩
  rw [h reading] at hspent
  cases hspent

theorem length_visits_courseOf :
    (Dpll.courseOf (c.problem debug)).visits.length = (c.traceOf Dpll.solver).length := by
  rw [← accepted_genuineRun_dpll_eq_traceOf debug, accepted_genuineRun_dpll,
    Dpll.Course.identifiers, List.length_map]
  rfl

theorem emitted_genuineRun_dpll :
    (c.genuineRun Dpll.solver debug).emitted = c.traceOf Dpll.solver := by
  rw [genuineRun, Interaction.emitted_accepting, ← genuineRun,
    accepted_genuineRun_dpll_eq_traceOf]

/-- A budget that is not spent at an identifier makes no difference to the run. -/
theorem recording_dpll_of_not_spent
    (h : ∀ i < (c.traceOf Dpll.solver).length, ¬ budget.spentAfter (clock i) = true) :
    c.recording Dpll.solver budget clock debug = c.genuineRun Dpll.solver debug := by
  have haccepts : ∀ i < (Dpll.courseOf (c.problem debug)).visits.length, ∀ identifier,
      recorder budget clock (0 + i) (0 + i) identifier = .ok () := by
    intro i hi identifier
    rw [Nat.zero_add]
    exact Budget.check_of_not_spent (h i (length_visits_courseOf ▸ hi))
  rw [recording, genuineRun, Interaction.run_eq_runFrom, Dpll.runFrom_solver haccepts,
    Dpll.runFrom_solver fun _ _ _ => rfl]

theorem solve_dpll_of_expires (hwithin : LiteralsWithin c.variableCount c.clauses)
    (h : c.Expires budget clock) :
    (c.solve Dpll.solver budget clock debug).result = .error (.failure (.timeout budget)) := by
  obtain ⟨first, hle, hspent, hrefuses⟩ := h.exists_first
  rcases Nat.lt_or_eq_of_le hle with hlt | hend
  · -- an identifier is refused, and the search passes the refusal on
    have hvisits : first < (Dpll.courseOf (c.problem debug)).visits.length := by
      rwa [length_visits_courseOf]
    have hstops : (Dpll.solver (c.problem debug)).run (recorder budget clock) c.accepts = _ :=
      Dpll.run_solver_refused hrefuses hvisits
    have hanswer : (c.recording Dpll.solver budget clock debug).answer =
        .error (.failure (.timeout budget)) := by
      rw [recording, hstops]
      rfl
    rw [solve, hanswer]
    rfl
  · -- the search goes through, and its answer comes too late
    have hrun : c.recording Dpll.solver budget clock debug = c.genuineRun Dpll.solver debug := by
      apply recording_dpll_of_not_spent
      intro i hi hspent
      have hrefused := hrefuses.accepts i (hend ▸ hi) 0
      rw [recorder, Budget.check_of_spent hspent] at hrefused
      cases hrefused
    have hcheck : budget.check (clock (c.genuineRun Dpll.solver debug).emitted.length) =
        .error (.timeout budget) := by
      rw [emitted_genuineRun_dpll, ← hend]
      exact Budget.check_of_spent hspent
    simp only [solve, hrun, hcheck, Run.answer, outcome_genuineRun_dpll hwithin]
    rfl

theorem solve_dpll_of_not_expires (h : ¬ c.Expires budget clock) :
    c.solve Dpll.solver budget clock debug = c.solve Dpll.solver .unlimited .still debug := by
  have hunspent : ∀ i ≤ (c.traceOf Dpll.solver).length, ¬ budget.spentAfter (clock i) = true :=
    fun i hi hspent => h ⟨i, hi, hspent⟩
  have hrun : c.recording Dpll.solver budget clock debug = c.genuineRun Dpll.solver debug :=
    recording_dpll_of_not_spent fun i hi => hunspent i (Nat.le_of_lt hi)
  have hcheck := Budget.check_of_not_spent (hunspent _ (Nat.le_refl _))
  simp only [solve, hrun, recording_eq Budget.unlimited_lasts, emitted_genuineRun_dpll, hcheck,
    Budget.unlimited_lasts.check]

end Challenge

end

end SatReplay
