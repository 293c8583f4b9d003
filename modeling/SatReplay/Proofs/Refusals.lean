/-
  SatReplay/Proofs/Refusals.lean
  ==============================
  **What becomes of a replay after a refusal.**  A refused identifier leaves the
  comparison at its place in the recording, and a solver may go on as it likes.
  So a replay looks for the recorded identifiers one after another among those
  that are emitted, and passes over all others: it accepts the recording exactly
  when that is a sublist of what the solver emits, and the solver returns an
  input (`verifyMethod_iff_sublist`).

  Nothing is passed over when the solver propagates refusals, since it then
  returns no input after one.  A solver that does not listen can emit other
  identifiers before, between and after the recorded ones, and is accepted
  (`not_emitted_eq_trace`).
-/
import SatReplay.Proofs.Replaying

namespace SatReplay

theorem Run.accepted_sublist_emitted {α : Type} (r : Run α) : r.accepted.Sublist r.emitted := by
  rw [accepted, emitted]
  induction r.steps with
  | nil => exact List.Sublist.refl _
  | cons step steps ih =>
    cases step with
    | emitted i reply =>
      rcases reply with cause | _
      · exact ih.cons i
      · exact ih.cons_cons i
    | asked input => exact ih
    | noted event => exact ih

namespace Interaction

variable {α β : Type} {emitter : Emitter} {oracle : Oracle}

/-! ### What is accepted of a recording -/

section

variable {recording : List Int32}

theorem accepted_comparing_isPrefix {p : Interaction α} : ∀ emitted position : Nat,
    (p.runFrom (.comparing recording) oracle emitted position).accepted <+:
      recording.drop position := by
  induction p with
  | done a =>
    intro emitted position
    exact List.nil_prefix
  | emit i next ih =>
    intro emitted position
    simp only [runFrom, Emitter.comparing]
    rcases hnext : compareNext recording position i with cause | _
    · exact ih _ _ _
    · obtain ⟨hlt, hi⟩ := List.getElem?_eq_some_iff.1 (compareNext_eq_ok_iff.1 hnext)
      rw [List.drop_eq_getElem_cons hlt, hi]
      exact List.cons_prefix_cons.2 ⟨rfl, ih _ _ _⟩
  | ask input next ih =>
    intro emitted position
    simp only [runFrom]
    rcases oracle input with fault | verdict
    · exact List.nil_prefix
    · exact ih _ _ _
  | note event next ih =>
    intro emitted position
    exact ih _ _

/-- A recording that occurs in order among the emitted identifiers is accepted
    as a whole: the comparison waits for each recorded identifier. -/
theorem accepted_comparing_of_sublist {p : Interaction α} : ∀ emitted position : Nat,
    (recording.drop position).Sublist
        (p.runFrom (.comparing recording) oracle emitted position).emitted →
      (p.runFrom (.comparing recording) oracle emitted position).accepted =
        recording.drop position := by
  induction p with
  | done a =>
    intro emitted position h
    exact (List.sublist_nil.1 h).symm
  | emit i next ih =>
    intro emitted position h
    simp only [runFrom, Emitter.comparing] at h ⊢
    rcases hnext : compareNext recording position i with cause | _
    · simp only [hnext, Run.emitted_after_emitted] at h
      apply ih
      rcases hrest : recording.drop position with _ | ⟨recorded, rest⟩
      · exact List.nil_sublist _
      · -- the recorded identifier is another one, so it comes later
        have hne : recorded ≠ i := by
          rintro rfl
          have hget : recording[position]? = some recorded := by
            rw [← List.head?_drop, hrest, List.head?_cons]
          rw [compareNext_of_eq hget] at hnext
          cases hnext
        rw [hrest] at h
        rcases List.sublist_cons_iff.1 h with hlater | ⟨_, heq, _⟩
        · exact hlater
        · exact absurd (List.cons.inj heq).1 hne
    · obtain ⟨hlt, hi⟩ := List.getElem?_eq_some_iff.1 (compareNext_eq_ok_iff.1 hnext)
      simp only [hnext, Run.emitted_after_emitted] at h
      rw [List.drop_eq_getElem_cons hlt, hi] at h ⊢
      exact congrArg (i :: ·) (ih _ _ _ (List.cons_sublist_cons.1 h))
  | ask input next ih =>
    intro emitted position h
    simp only [runFrom] at h ⊢
    rcases horacle : oracle input with fault | verdict
    · simp only [horacle] at h
      exact (List.sublist_nil.1 h).symm
    · simp only [horacle, Run.emitted_after_asked] at h
      exact ih _ _ _ h
  | note event next ih =>
    intro emitted position h
    exact ih _ _ h

theorem accepted_comparing_eq_iff {p : Interaction α} {emitted : Nat} :
    (p.runFrom (.comparing recording) oracle emitted 0).accepted = recording ↔
      recording.Sublist (p.runFrom (.comparing recording) oracle emitted 0).emitted := by
  constructor
  · intro heq
    have hsublist :=
      Run.accepted_sublist_emitted (p.runFrom (.comparing recording) oracle emitted 0)
    rwa [heq] at hsublist
  · exact accepted_comparing_of_sublist emitted 0

end

/-! ### Refusals and results -/

/-- A procedure that propagates refusals and returns a value met none. -/
theorem emitted_eq_accepted_of_propagates {p : Interaction (Except Failure β)} {value : β}
    (h : p.Propagates) : ∀ {emitted accepted : Nat},
      (p.runFrom emitter oracle emitted accepted).outcome = .ok (.ok value) →
        (p.runFrom emitter oracle emitted accepted).emitted =
          (p.runFrom emitter oracle emitted accepted).accepted := by
  induction p with
  | done a =>
    intro emitted accepted _
    rfl
  | emit i next ih =>
    intro emitted accepted houtcome
    simp only [runFrom] at houtcome ⊢
    rcases hreply : emitter emitted accepted i with cause | _
    · -- a refusal is what the procedure then returns, and here it returns a value
      simp only [hreply] at houtcome
      cases eq_of_returns (h.2 cause) houtcome
    · simp only [hreply] at houtcome
      exact congrArg (i :: ·) (ih _ h.1 houtcome)
  | ask input next ih =>
    intro emitted accepted houtcome
    simp only [runFrom] at houtcome ⊢
    rcases horacle : oracle input with fault | verdict
    · rfl
    · simp only [horacle] at houtcome
      exact ih _ (h verdict) houtcome
  | note event next ih =>
    intro emitted accepted houtcome
    exact ih h houtcome

end Interaction

/-! ### The verdict on any solver -/

namespace Solution

variable {s : Solution} {c : Challenge} {solver : Solver} {budget : Budget} {clock : Clock}

/-- A replay succeeds when the solver returns an input and the whole recording
    was accepted. -/
theorem verifyMethod_iff_accepted (h : budget.Lasts clock) :
    (s.verifyMethod c solver budget clock).result = .ok () ↔
      (∃ input, (s.replay c solver budget clock).outcome = .ok (.ok input)) ∧
        (s.replay c solver budget clock).accepted = s.trace := by
  have hprefix : (s.replay c solver budget clock).accepted <+: s.trace := by
    rw [replay_eq h]
    exact Interaction.accepted_comparing_isPrefix 0 0
  simp only [verifyMethod, h.check, concludeReplay, Run.answer]
  rcases (s.replay c solver budget clock).outcome with fault | cause | input
  · simp [Except.bind]
  · simp [Except.bind]
  · simp only [Except.bind, Trouble.ofFailure]
    rw [eq_comm (b := s.trace), ← length_eq_iff_of_isPrefix hprefix]
    split
    next hlength => simp [hlength]
    next hlength => simp [hlength]

end Solution

/-- **A replay looks for the recording among what a solver emits**, in order and
    with anything else between.  Only a solver that propagates refusals is thereby
    known to have emitted the recording and nothing else. -/
theorem verifyMethod_iff_sublist (solver : Solver) (c : Challenge) (s : Solution)
    {budget : Budget} {clock : Clock} (hlasts : budget.Lasts clock) :
    let run := s.replay c solver budget clock
    let verdict := (s.verifyMethod c solver budget clock).result
    (verdict = .ok () ↔
      (∃ input, run.outcome = .ok (.ok input)) ∧ s.trace.Sublist run.emitted) ∧
    ((solver (c.problem false)).Propagates → verdict = .ok () → run.emitted = s.trace) := by
  intro run verdict
  have hrun : run = (solver (c.problem false)).runFrom (.comparing s.trace) c.accepts 0 0 :=
    Solution.replay_eq hlasts
  have hverdict : verdict = .ok () ↔
      (∃ input, run.outcome = .ok (.ok input)) ∧ run.accepted = s.trace :=
    Solution.verifyMethod_iff_accepted hlasts
  constructor
  · rw [hverdict, hrun, Interaction.accepted_comparing_eq_iff]
  · intro hpropagates hok
    obtain ⟨⟨input, houtcome⟩, haccepted⟩ := hverdict.1 hok
    rw [hrun] at houtcome haccepted ⊢
    rw [Interaction.emitted_eq_accepted_of_propagates hpropagates houtcome, haccepted]

theorem verifyMethod_iff_sublist_guess :
    let c : Challenge := ⟨7, ⟨3, 100, by decide, by decide⟩, [[1, -2, 3], [-1, 2, -3]]⟩
    let s : Solution := ⟨[], [1]⟩
    (s.verifyMethod c .guess .unlimited .still).result = .ok () ∧
      (s.replay c .guess .unlimited .still).emitted = [1] := by
  intro c s
  obtain ⟨hiff, hemitted⟩ := verifyMethod_iff_sublist .guess c s Budget.unlimited_lasts
  have hok : (s.verifyMethod c .guess .unlimited .still).result = .ok () := by
    rw [hiff, Solution.replay_eq Budget.unlimited_lasts]
    exact ⟨⟨[true, true, true], rfl⟩, List.Sublist.refl _⟩
  exact ⟨hok, hemitted (Solver.guess_propagates _) hok⟩

/-- A solver that emits three identifiers, whatever it is told. -/
def Solver.unheeding : Solver := fun _ =>
  .emit 5 fun _ => .emit 7 fun _ => .emit 9 fun _ => .done (.ok [true, false, false])

/-- A replay that succeeds need not have emitted the recording: of the three
    identifiers the recording has the second only. -/
theorem not_emitted_eq_trace :
    ¬ ∀ (solver : Solver) (c : Challenge) (s : Solution) (budget : Budget) (clock : Clock),
      budget.Lasts clock → (s.verifyMethod c solver budget clock).result = .ok () →
        (s.replay c solver budget clock).emitted = s.trace := by
  intro h
  let c : Challenge := ⟨4, ⟨3, 67, by decide, by decide⟩, [[1, 2, 3], [-1, -2, -3]]⟩
  let s : Solution := ⟨[true, false, false], [7]⟩
  have hreplay : s.replay c .unheeding .unlimited .still =
      (Solver.unheeding (c.problem false)).runFrom (.comparing s.trace) c.accepts 0 0 :=
    Solution.replay_eq Budget.unlimited_lasts
  have hok : (s.verifyMethod c .unheeding .unlimited .still).result = .ok () := by
    rw [Solution.verifyMethod_iff_accepted Budget.unlimited_lasts, hreplay]
    exact ⟨⟨[true, false, false], rfl⟩, rfl⟩
  have hemitted := h .unheeding c s .unlimited .still Budget.unlimited_lasts hok
  rw [hreplay] at hemitted
  exact absurd hemitted (by decide)

end SatReplay
