/-
  SatReplay/Proofs/Runs.lean
  ==========================
  **Runs of procedures, read off their first step.**  `Interaction.run` collects
  its steps in an array.  `Interaction.runFrom` is the same run written as a
  recursion whose result is the first step in front of the run that follows it
  (`run_eq_runFrom`); what a run emitted, accepted, asked and reported is then
  computed step by step.

  Two kinds of procedures matter for replays.  One that *returns* a result does
  so whatever it is told; one that *propagates* refusals returns the cause of
  the first refusal, whatever else it still does.
-/
import SatReplay.Interaction

namespace SatReplay

variable {α β : Type}

/-! ### Runs by their first step -/

namespace Run

/-- The run with one step before it. -/
def after (step : Step) (r : Run α) : Run α := ⟨r.outcome, step :: r.steps⟩

@[simp] theorem outcome_after (step : Step) (r : Run α) : (r.after step).outcome = r.outcome := rfl

@[simp] theorem steps_after (step : Step) (r : Run α) : (r.after step).steps = step :: r.steps :=
  rfl

@[simp] theorem emitted_after_emitted (i : Int32) (reply : Except Failure Unit) (r : Run α) :
    (r.after (.emitted i reply)).emitted = i :: r.emitted := rfl

@[simp] theorem emitted_after_asked (input : Input) (r : Run α) :
    (r.after (.asked input)).emitted = r.emitted := rfl

@[simp] theorem emitted_after_noted (event : Event) (r : Run α) :
    (r.after (.noted event)).emitted = r.emitted := rfl

@[simp] theorem accepted_after_accepted (i : Int32) (r : Run α) :
    (r.after (.emitted i (.ok ()))).accepted = i :: r.accepted := rfl

@[simp] theorem accepted_after_refused (i : Int32) (cause : Failure) (r : Run α) :
    (r.after (.emitted i (.error cause))).accepted = r.accepted := rfl

@[simp] theorem accepted_after_asked (input : Input) (r : Run α) :
    (r.after (.asked input)).accepted = r.accepted := rfl

@[simp] theorem accepted_after_noted (event : Event) (r : Run α) :
    (r.after (.noted event)).accepted = r.accepted := rfl

/-- The run with some steps before it. -/
def afterAll (steps : List Step) (r : Run α) : Run α := ⟨r.outcome, steps ++ r.steps⟩

@[simp] theorem outcome_afterAll (steps : List Step) (r : Run α) :
    (r.afterAll steps).outcome = r.outcome := rfl

@[simp] theorem steps_afterAll (steps : List Step) (r : Run α) :
    (r.afterAll steps).steps = steps ++ r.steps := rfl

theorem afterAll_append (steps others : List Step) (r : Run α) :
    r.afterAll (steps ++ others) = (r.afterAll others).afterAll steps := by
  simp [afterAll]

theorem emitted_afterAll (steps : List Step) (r : Run α) :
    (r.afterAll steps).emitted = steps.filterMap Step.identifier? ++ r.emitted :=
  List.filterMap_append

theorem accepted_afterAll (steps : List Step) (r : Run α) :
    (r.afterAll steps).accepted = steps.filterMap Step.acceptedIdentifier? ++ r.accepted :=
  List.filterMap_append

theorem asked_afterAll (steps : List Step) (r : Run α) :
    (r.afterAll steps).asked = steps.filterMap Step.askedInput? ++ r.asked :=
  List.filterMap_append

end Run

def Oracle.Answers (oracle : Oracle) : Prop := ∀ input, ∃ verdict, oracle input = .ok verdict

def Emitter.accepting : Emitter := fun _ _ _ => .ok ()

namespace Interaction

/-- The run of a procedure when so many identifiers were emitted and accepted. -/
def runFrom (emitter : Emitter) (oracle : Oracle) : Interaction α → Nat → Nat → Run α
  | .done a, _, _ => ⟨.ok a, []⟩
  | .emit i next, emitted, accepted =>
    match emitter emitted accepted i with
    | .ok () =>
      (runFrom emitter oracle (next (.ok ())) (emitted + 1) (accepted + 1)).after
        (.emitted i (.ok ()))
    | .error cause =>
      (runFrom emitter oracle (next (.error cause)) (emitted + 1) accepted).after
        (.emitted i (.error cause))
  | .ask input next, emitted, accepted =>
    match oracle input with
    | .error fault => ⟨.error fault, [.asked input]⟩
    | .ok answer => (runFrom emitter oracle (next answer) emitted accepted).after (.asked input)
  | .note event next, emitted, accepted =>
    (runFrom emitter oracle next emitted accepted).after (.noted event)

theorem runInto_eq (emitter : Emitter) (oracle : Oracle) (p : Interaction α) :
    ∀ (emitted accepted : Nat) (steps : Array Step),
      runInto emitter oracle p emitted accepted steps =
        ((runFrom emitter oracle p emitted accepted).outcome,
          steps ++ (runFrom emitter oracle p emitted accepted).steps.toArray) := by
  induction p with
  | done a =>
    intro emitted accepted steps
    simp [runInto, runFrom]
  | emit i next ih =>
    intro emitted accepted steps
    simp only [runInto, runFrom]
    cases emitter emitted accepted i with
    | error cause => simp [ih]
    | ok _ => simp [ih]
  | ask input next ih =>
    intro emitted accepted steps
    simp only [runInto, runFrom]
    cases oracle input with
    | error fault => simp
    | ok answer => simp [ih]
  | note event next ih =>
    intro emitted accepted steps
    simp [runInto, runFrom, ih]

theorem run_eq_runFrom (emitter : Emitter) (oracle : Oracle) (p : Interaction α) :
    p.run emitter oracle = p.runFrom emitter oracle 0 0 := by
  simp [run, runInto_eq]

theorem emitted_accepting (oracle : Oracle) (p : Interaction α) : ∀ emitted accepted : Nat,
    (p.runFrom .accepting oracle emitted accepted).emitted =
      (p.runFrom .accepting oracle emitted accepted).accepted := by
  induction p with
  | done a =>
    intro emitted accepted
    rfl
  | emit i next ih =>
    intro emitted accepted
    exact congrArg (i :: ·) (ih _ _ _)
  | ask input next ih =>
    intro emitted accepted
    simp only [runFrom]
    cases oracle input with
    | error fault => rfl
    | ok verdict => exact ih _ _ _
  | note event next ih =>
    intro emitted accepted
    exact ih _ _

/-- A run comes to an end, since procedures are finite. -/
theorem exists_outcome {emitter : Emitter} {oracle : Oracle} (horacle : oracle.Answers)
    (p : Interaction α) : ∀ emitted accepted : Nat,
    ∃ result, (p.runFrom emitter oracle emitted accepted).outcome = .ok result := by
  induction p with
  | done a =>
    intro emitted accepted
    exact ⟨a, rfl⟩
  | emit i next ih =>
    intro emitted accepted
    simp only [runFrom]
    rcases emitter emitted accepted i with cause | _
    · exact ih _ _ _
    · exact ih _ _ _
  | ask input next ih =>
    intro emitted accepted
    obtain ⟨verdict, hverdict⟩ := horacle input
    simp only [runFrom, hverdict]
    exact ih _ _ _
  | note event next ih =>
    intro emitted accepted
    exact ih _ _

/-! ### What a procedure returns -/

/-- The procedure returns the result, whatever it is told. -/
def Returns (result : α) : Interaction α → Prop
  | .done a => a = result
  | .emit _ next => ∀ reply, Returns result (next reply)
  | .ask _ next => ∀ answer, Returns result (next answer)
  | .note _ next => Returns result next

/-- The procedure returns the cause of the first refusal it meets. -/
def Propagates : Interaction (Except Failure β) → Prop
  | .done _ => True
  | .emit _ next =>
    Propagates (next (.ok ())) ∧ ∀ cause, Returns (.error cause) (next (.error cause))
  | .ask _ next => ∀ answer, Propagates (next answer)
  | .note _ next => Propagates next

/-- Nothing but the result is returned, also where the oracle may fault. -/
theorem eq_of_returns {emitter : Emitter} {oracle : Oracle} {result value : α}
    {p : Interaction α} (h : p.Returns result) :
    ∀ {emitted accepted : Nat},
      (p.runFrom emitter oracle emitted accepted).outcome = .ok value → value = result := by
  induction p with
  | done a =>
    intro emitted accepted houtcome
    exact (Except.ok.inj houtcome).symm.trans h
  | emit i next ih =>
    intro emitted accepted houtcome
    simp only [runFrom] at houtcome
    rcases hreply : emitter emitted accepted i with cause | _
    · simp only [hreply] at houtcome
      exact ih _ (h _) houtcome
    · simp only [hreply] at houtcome
      exact ih _ (h _) houtcome
  | ask input next ih =>
    intro emitted accepted houtcome
    simp only [runFrom] at houtcome
    rcases horacle : oracle input with fault | verdict
    · simp only [horacle] at houtcome
      cases houtcome
    · simp only [horacle] at houtcome
      exact ih _ (h _) houtcome
  | note event next ih =>
    intro emitted accepted houtcome
    exact ih h houtcome

theorem outcome_of_returns {emitter : Emitter} {oracle : Oracle} (horacle : oracle.Answers)
    {result : α} {p : Interaction α} (h : p.Returns result) (emitted accepted : Nat) :
    (p.runFrom emitter oracle emitted accepted).outcome = .ok result := by
  obtain ⟨value, hvalue⟩ := exists_outcome horacle p emitted accepted
  rw [hvalue, eq_of_returns h hvalue]

end Interaction

end SatReplay
