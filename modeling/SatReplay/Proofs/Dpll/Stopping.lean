/-
  SatReplay/Proofs/Dpll/Stopping.lean
  ===================================
  **A refused identifier stops the solver at once.**  The visits of a search do
  not depend on the replies, so a run in which an identifier is refused goes
  through the same visits as the whole run until then.  It ends there with the
  cause of the refusal: no node behind it is visited, in whichever branch it
  lies, and the oracle is not asked, since the solver asks after the search only.
-/
import SatReplay.Proofs.Dpll.Course

namespace SatReplay

/-- The emitter accepts the first so many identifiers and refuses the next one.
    What it would reply to later ones is left open. -/
structure Emitter.RefusesAfter (emitter : Emitter) (count : Nat) (cause : Failure) : Prop where
  accepts : ∀ i < count, ∀ identifier, emitter i i identifier = .ok ()
  refuses : ∀ identifier, emitter count count identifier = .error cause

/-- Accepts so many identifiers only. -/
def Emitter.limited (count : Nat) (cause : Failure) : Emitter := fun emitted _ _ =>
  if emitted < count then .ok () else .error cause

theorem Emitter.limited_refusesAfter (count : Nat) (cause : Failure) :
    (limited count cause).RefusesAfter count cause where
  accepts := fun _ hi _ => if_pos hi
  refuses := fun _ => if_neg (Nat.lt_irrefl count)

namespace Dpll

section

variable {emitter : Emitter} {oracle : Oracle} {count : Nat} {cause : Failure}
  (hrefuses : emitter.RefusesAfter count cause)

include hrefuses

theorem runFrom_announce_refused {α : Type} (n : Nat) (debug : Bool)
    {last : Interaction (Except Failure α)} {visits : List Visit} (h : count < visits.length) :
    (announce n debug visits last).runFrom emitter oracle 0 0 =
      Run.afterAll ((visits.take count).flatMap (Visit.steps n debug))
        ⟨.ok (.error cause), [.emitted (visits[count].node.identifier n) (.error cause)]⟩ := by
  have hsplit : announce n debug visits last =
      announce n debug (visits.take count)
        (announce n debug (visits[count] :: visits.drop (count + 1)) last) := by
    rw [← announce_append, ← List.drop_eq_getElem_cons h, List.take_append_drop]
  have hlength : (visits.take count).length = count := by
    rw [List.length_take]
    omega
  have haccepts : ∀ i < (visits.take count).length, ∀ identifier,
      emitter (0 + i) (0 + i) identifier = .ok () := by
    intro i hi identifier
    rw [Nat.zero_add]
    exact hrefuses.accepts i (hlength ▸ hi) identifier
  rw [hsplit, runFrom_announce _ _ _ _ _ _ haccepts, Nat.zero_add, hlength, announce]
  simp only [Interaction.runFrom, hrefuses.refuses]
  rfl

theorem run_solver_refused {problem : Problem} (h : count < (courseOf problem).visits.length) :
    (solver problem).run emitter oracle =
      Run.afterAll
        (((courseOf problem).visits.take count).flatMap
          (Visit.steps problem.variableCount problem.debug))
        ⟨.ok (.error cause),
          [.emitted ((courseOf problem).visits[count].node.identifier problem.variableCount)
            (.error cause)]⟩ := by
  rw [Interaction.run_eq_runFrom, solver_eq_announce]
  exact runFrom_announce_refused hrefuses _ _ h

/-- A refusal that the search does not reach changes nothing. -/
theorem run_solver_unrefused {problem : Problem} (h : (courseOf problem).visits.length ≤ count) :
    (solver problem).run emitter oracle = (solver problem).run .accepting oracle := by
  have haccepts : ∀ i < (courseOf problem).visits.length, ∀ identifier,
      emitter (0 + i) (0 + i) identifier = .ok () := by
    intro i hi identifier
    rw [Nat.zero_add]
    exact hrefuses.accepts i (by omega) identifier
  rw [Interaction.run_eq_runFrom, Interaction.run_eq_runFrom, runFrom_solver haccepts,
    runFrom_solver fun _ _ _ => rfl]

end

/-- **A refused identifier stops the solver at once and changes nothing before
    it.**  Of the trace of the run in which all identifiers are accepted, exactly
    the identifiers before the refusal are accepted.  If the trace is not longer
    than that, the two runs are the same; otherwise the solver returns the cause
    of the refusal, without another identifier or a question to the oracle. -/
theorem solver_stops_at_refusal (problem : Problem) (oracle : Oracle)
    (hanswers : problem.debug = true → oracle.Answers) (emitter : Emitter) (count : Nat)
    (cause : Failure) (hrefuses : emitter.RefusesAfter count cause) :
    let whole := (solver problem).run .accepting oracle
    let stopped := (solver problem).run emitter oracle
    (∃ input, whole.outcome = .ok (.ok input)) ∧
      stopped.accepted = whole.accepted.take (min count whole.accepted.length) ∧
      (whole.accepted.length ≤ count → stopped = whole) ∧
      (count < whole.accepted.length →
        stopped.outcome = .ok (.error cause) ∧
          stopped.emitted = whole.accepted.take (count + 1) ∧
          stopped.asked = [] ∧
          stopped.steps.dropLast <+: whole.steps) := by
  intro whole stopped
  have htrace : whole.accepted =
      (courseOf problem).visits.map fun v => v.node.identifier problem.variableCount :=
    accepted_run_solver problem oracle
  have hlength : whole.accepted.length = (courseOf problem).visits.length := by
    rw [htrace, List.length_map]
  have houtcome : ∃ input, whole.outcome = .ok (.ok input) := ⟨_, outcome_run_solver hanswers⟩
  rw [← List.take_eq_take_min]
  rcases Nat.lt_or_ge count (courseOf problem).visits.length with hlt | hge
  · have hstopped : stopped = _ := run_solver_refused hrefuses hlt
    refine ⟨houtcome, ?_, ?_, ?_⟩
    · rw [hstopped, Run.accepted_afterAll, acceptedIdentifiers_flatMap_steps, htrace,
        List.map_take]
      exact List.append_nil _
    · intro hle
      omega
    · intro _
      refine ⟨by rw [hstopped]; rfl, ?_, ?_, ?_⟩
      · rw [hstopped, Run.emitted_afterAll, identifiers_flatMap_steps, htrace, ← List.map_take,
          List.take_succ_eq_append_getElem hlt, List.map_append]
        rfl
      · rw [hstopped, Run.asked_afterAll, askedInputs_flatMap_steps]
        rfl
      · have hwhole : whole = _ :=
          (Interaction.run_eq_runFrom ..).trans (runFrom_solver fun _ _ _ => rfl)
        rw [hstopped, hwhole, Run.steps_afterAll, Run.steps_afterAll, List.dropLast_concat]
        -- the visits before the refusal are the first ones of the whole run
        apply List.IsPrefix.trans _ (List.prefix_append _ _)
        refine ⟨((courseOf problem).visits.drop count).flatMap
          (Visit.steps problem.variableCount problem.debug), ?_⟩
        rw [← List.flatMap_append, List.take_append_drop]
  · have hstopped : stopped = whole := run_solver_unrefused hrefuses hge
    refine ⟨houtcome, ?_, fun _ => hstopped, ?_⟩
    · rw [hstopped, List.take_of_length_le (by omega)]
    · intro hlt
      omega

/-- A refusal inside the first branch: the second one would have been searched
    next, since the formula has no model. -/
theorem solver_stops_at_refusal_square :
    let problem : Problem := ⟨.ofSeed 7, true, 2, [[1, 2], [-1, 2], [1, -2], [-1, -2]]⟩
    let cause : Failure := .malformedProof (.stated "emit limit")
    let whole := (solver problem).run .accepting fun _ => .ok true
    let stopped := (solver problem).run (.limited 1 cause) fun _ => .ok true
    whole.accepted.length = 3 ∧ stopped.outcome = .ok (.error cause) ∧
      stopped.accepted = whole.accepted.take 1 ∧ stopped.emitted = whole.accepted.take 2 ∧
      stopped.asked = [] := by
  intro problem cause whole stopped
  have hlength : whole.accepted.length = 3 := by decide +kernel
  obtain ⟨-, haccepted, -, hrefused⟩ := solver_stops_at_refusal problem (fun _ => .ok true)
    (fun _ _ => ⟨true, rfl⟩) (.limited 1 cause) 1 cause (Emitter.limited_refusesAfter 1 cause)
  obtain ⟨houtcome, hemitted, hasked, -⟩ := hrefused (by rw [hlength]; decide)
  refine ⟨hlength, houtcome, ?_, hemitted, hasked⟩
  rw [haccepted, hlength]
  rfl

end Dpll

end SatReplay
