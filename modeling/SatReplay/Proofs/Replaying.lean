/-
  SatReplay/Proofs/Replaying.lean
  ===============================
  **Replays and the recordings they check.**  Recording accepts every identifier
  and replaying compares each with the next recorded one, so the two runs of a
  solver are the same run as long as the comparison goes well, and part at the
  first identifier that it refuses (`runFrom_comparing`).

  `compareAll` is that comparison on the whole sequence of identifiers.  It
  succeeds exactly on the prefixes of the recording; otherwise it names the first
  identifier that differs, or says that there is one too many.  What a replay
  says about a solver that propagates refusals is then computed from the
  identifiers of its recording alone (`result_verifyMethod`).
-/
import SatReplay.Replay
import SatReplay.Proofs.Checks

namespace SatReplay

/-! ### Budgets that last -/

theorem Budget.Lasts.check {budget : Budget} {clock : Clock} (h : budget.Lasts clock)
    (reading : Nat) : budget.check (clock reading) = .ok () := by
  rw [Budget.check, h reading]
  rfl

theorem recorder_of_lasts {budget : Budget} {clock : Clock} (h : budget.Lasts clock) :
    recorder budget clock = Emitter.accepting := by
  funext emitted accepted i
  exact h.check emitted

/-- Accepts the identifiers of a recording, one after another. -/
def Emitter.comparing (recording : List Int32) : Emitter :=
  fun _ accepted i => compareNext recording accepted i

theorem replayer_of_lasts {budget : Budget} {clock : Clock} (h : budget.Lasts clock)
    (recording : List Int32) : replayer recording budget clock = Emitter.comparing recording := by
  funext emitted accepted i
  simp only [replayer, h.check]
  rfl

/-! ### Comparing a whole sequence -/

/-- Compares identifiers with a recording from a position on, up to the first
    that is refused. -/
def compareAll (recording : List Int32) : Nat → List Int32 → Except Failure Unit
  | _, [] => .ok ()
  | position, i :: rest =>
    match compareNext recording position i with
    | .error cause => .error cause
    | .ok () => compareAll recording (position + 1) rest

section Comparison

variable {recording : List Int32}

theorem compareNext_of_eq {position : Nat} {i : Int32} (h : recording[position]? = some i) :
    compareNext recording position i = .ok () := by
  simp [compareNext, h]

theorem compareNext_of_ne {position : Nat} {recorded i : Int32}
    (h : recording[position]? = some recorded) (hne : recorded ≠ i) :
    compareNext recording position i =
      .error (.mismatchedAlgorithm (.different position recorded i)) := by
  simp [compareNext, h, hne]

theorem compareNext_of_none {position : Nat} {i : Int32} (h : recording[position]? = none) :
    compareNext recording position i =
      .error (.mismatchedAlgorithm (.extra recording.length)) := by
  simp [compareNext, h]

theorem compareNext_eq_ok_iff {position : Nat} {i : Int32} :
    compareNext recording position i = .ok () ↔ recording[position]? = some i := by
  rcases h : recording[position]? with _ | recorded
  · simp [compareNext_of_none h]
  · by_cases heq : recorded = i
    · subst heq
      simp [compareNext_of_eq h]
    · simp [compareNext_of_ne h heq, heq]

theorem compareNext_error {position : Nat} {i : Int32} {cause : Failure}
    (h : compareNext recording position i = .error cause) :
    ∃ mismatch, cause = .mismatchedAlgorithm mismatch := by
  rcases hget : recording[position]? with _ | recorded
  · rw [compareNext_of_none hget, Except.error.injEq] at h
    exact ⟨_, h.symm⟩
  · by_cases heq : recorded = i
    · subst heq
      rw [compareNext_of_eq hget] at h
      cases h
    · rw [compareNext_of_ne hget heq, Except.error.injEq] at h
      exact ⟨_, h.symm⟩

theorem compareAll_error {ids : List Int32} : ∀ {position : Nat} {cause : Failure},
    compareAll recording position ids = .error cause →
      ∃ mismatch, cause = .mismatchedAlgorithm mismatch := by
  induction ids with
  | nil =>
    intro position cause h
    cases h
  | cons i rest ih =>
    intro position cause h
    rw [compareAll] at h
    split at h
    next cause' hnext =>
      rw [Except.error.injEq] at h
      subst h
      exact compareNext_error hnext
    next => exact ih h

theorem compareAll_eq_ok_iff {ids : List Int32} : ∀ {position : Nat},
    compareAll recording position ids = .ok () ↔ ids <+: recording.drop position := by
  induction ids with
  | nil =>
    intro position
    simp [compareAll]
  | cons i rest ih =>
    intro position
    have hstep : compareAll recording position (i :: rest) = .ok () ↔
        compareNext recording position i = .ok () ∧
          compareAll recording (position + 1) rest = .ok () := by
      rw [compareAll]
      rcases compareNext recording position i with cause | _
      · simp
      · simp
    rw [hstep, compareNext_eq_ok_iff, ih]
    constructor
    · rintro ⟨hget, hrest⟩
      obtain ⟨hlt, heq⟩ := List.getElem?_eq_some_iff.1 hget
      rw [List.drop_eq_getElem_cons hlt, heq]
      exact List.cons_prefix_cons.2 ⟨rfl, hrest⟩
    · intro hpre
      have hlt : position < recording.length := by
        have hle := hpre.length_le
        simp only [List.length_cons, List.length_drop] at hle
        omega
      rw [List.drop_eq_getElem_cons hlt, List.cons_prefix_cons] at hpre
      exact ⟨List.getElem?_eq_some_iff.2 ⟨hlt, hpre.1.symm⟩, hpre.2⟩

theorem compareAll_of_different {ids : List Int32} : ∀ {position p : Nat} {recorded i : Int32},
    (∀ q < p, recording[position + q]? = ids[q]?) →
      recording[position + p]? = some recorded → ids[p]? = some i → recorded ≠ i →
      compareAll recording position ids =
        .error (.mismatchedAlgorithm (.different (position + p) recorded i)) := by
  induction ids with
  | nil =>
    intro position p recorded i _ _ hi _
    simp at hi
  | cons j rest ih =>
    intro position p recorded i hbefore hrecorded hi hne
    rw [compareAll]
    cases p with
    | zero =>
      simp only [List.getElem?_cons_zero, Option.some.injEq] at hi
      subst hi
      rw [Nat.add_zero] at hrecorded
      simp only [compareNext_of_ne hrecorded hne, Nat.add_zero]
    | succ p =>
      have hfirst : recording[position]? = some j := hbefore 0 (by omega)
      rw [compareNext_of_eq hfirst]
      have hplace : position + (p + 1) = position + 1 + p := by omega
      rw [hplace] at hrecorded ⊢
      apply ih _ hrecorded hi hne
      intro q hq
      have hnext := hbefore (q + 1) (by omega)
      rw [show position + (q + 1) = position + 1 + q by omega] at hnext
      exact hnext

theorem compareAll_of_extra {ids : List Int32} : ∀ {position : Nat},
    recording.drop position <+: ids → recording.drop position ≠ ids →
      compareAll recording position ids =
        .error (.mismatchedAlgorithm (.extra recording.length)) := by
  induction ids with
  | nil =>
    intro position hpre hne
    exact absurd (List.prefix_nil.1 hpre) hne
  | cons i rest ih =>
    intro position hpre hne
    rw [compareAll]
    by_cases hlt : position < recording.length
    · rw [List.drop_eq_getElem_cons hlt] at hpre hne
      obtain ⟨hhead, htail⟩ := List.cons_prefix_cons.1 hpre
      rw [compareNext_of_eq (List.getElem?_eq_some_iff.2 ⟨hlt, hhead⟩)]
      apply ih htail
      intro heq
      exact hne (by rw [hhead, heq])
    · rw [compareNext_of_none (List.getElem?_eq_none (by omega))]

end Comparison

/-! ### Two runs in lock step -/

namespace Interaction

variable {α β : Type} {oracle : Oracle} {recording : List Int32}

theorem runFrom_comparing {p : Interaction α} : ∀ {emitted position : Nat},
    compareAll recording position (p.runFrom .accepting oracle emitted position).accepted = .ok () →
      p.runFrom (.comparing recording) oracle emitted position =
        p.runFrom .accepting oracle emitted position := by
  induction p with
  | done a =>
    intro emitted position _
    rfl
  | emit i next ih =>
    intro emitted position h
    simp only [runFrom, Emitter.accepting, Run.accepted_after_accepted, compareAll] at h
    split at h
    next => cases h
    next hnext =>
      have hrest := ih _ h
      simp only [runFrom, Emitter.accepting, Emitter.comparing, hnext]
      exact congrArg (Run.after (.emitted i (.ok ()))) hrest
  | ask input next ih =>
    intro emitted position h
    simp only [runFrom] at h ⊢
    rcases horacle : oracle input with fault | verdict
    · rfl
    · simp only [horacle, Run.accepted_after_asked] at h ⊢
      rw [ih _ h]
  | note event next ih =>
    intro emitted position h
    simp only [runFrom, Run.accepted_after_noted] at h ⊢
    rw [ih h]

theorem outcome_comparing {p : Interaction (Except Failure β)} (horacle : oracle.Answers)
    (hp : p.Propagates) : ∀ {emitted position : Nat} {cause : Failure},
    compareAll recording position (p.runFrom .accepting oracle emitted position).accepted =
        .error cause →
      (p.runFrom (.comparing recording) oracle emitted position).outcome = .ok (.error cause) := by
  induction p with
  | done a =>
    intro emitted position cause h
    cases h
  | emit i next ih =>
    intro emitted position cause h
    simp only [runFrom, Emitter.accepting, Run.accepted_after_accepted, compareAll] at h
    simp only [runFrom, Emitter.comparing]
    rcases hnext : compareNext recording position i with cause' | _
    · simp only [hnext, Except.error.injEq] at h
      subst h
      exact outcome_of_returns horacle (hp.2 cause') _ _
    · simp only [hnext] at h
      exact ih _ hp.1 h
  | ask input next ih =>
    intro emitted position cause h
    obtain ⟨verdict, hverdict⟩ := horacle input
    simp only [runFrom, hverdict, Run.accepted_after_asked] at h ⊢
    exact ih _ (hp verdict) h
  | note event next ih =>
    intro emitted position cause h
    simp only [runFrom, Run.accepted_after_noted] at h ⊢
    exact ih hp h

end Interaction

/-! ### The verdict of a replay -/

/-- What a solver does on a challenge when all its identifiers are accepted. -/
def Challenge.genuineRun (c : Challenge) (solver : Solver) (debug : Bool) :
    Run (Except Failure Input) :=
  (solver (c.problem debug)).runFrom .accepting c.accepts 0 0

theorem Challenge.recording_eq {c : Challenge} {solver : Solver} {budget : Budget} {clock : Clock}
    (h : budget.Lasts clock) (debug : Bool) :
    c.recording solver budget clock debug = c.genuineRun solver debug := by
  rw [recording, Interaction.run_eq_runFrom, recorder_of_lasts h]
  rfl

/-- What is solved within the budget is what the solver returned, with all that
    it emitted. -/
theorem Challenge.solve_eq_ok_iff {c : Challenge} {solver : Solver} {budget : Budget}
    {clock : Clock} {debug : Bool} {solved : Solved} (h : budget.Lasts clock) :
    (c.solve solver budget clock debug).result = .ok solved ↔
      (c.genuineRun solver debug).outcome = .ok (.ok solved.solution.input) ∧
        (c.genuineRun solver debug).accepted = solved.solution.trace ∧
        c.accepts solved.solution.input = .ok solved.isSolution := by
  simp only [solve, recording_eq h, Run.answer, h.check, Trouble.ofFailure, judge, bind,
    Except.bind, pure, Except.pure]
  rcases houtcome : (c.genuineRun solver debug).outcome with fault | cause | input
  · simp
  · simp
  · rcases haccepts : c.accepts input with fault | verdict
    · simp only [haccepts, reduceCtorEq, Except.ok.injEq, false_iff]
      rintro ⟨rfl, -, hverdict⟩
      rw [haccepts] at hverdict
      cases hverdict
    · simp only [haccepts, Except.ok.injEq]
      constructor
      · rintro rfl
        exact ⟨rfl, rfl, haccepts⟩
      · rintro ⟨rfl, htrace, hverdict⟩
        rw [haccepts, Except.ok.injEq] at hverdict
        rw [htrace, hverdict]

theorem Solution.replay_eq {s : Solution} {c : Challenge} {solver : Solver} {budget : Budget}
    {clock : Clock} (h : budget.Lasts clock) :
    s.replay c solver budget clock =
      (solver (c.problem false)).runFrom (.comparing s.trace) c.accepts 0 0 := by
  rw [replay, Interaction.run_eq_runFrom, replayer_of_lasts h]

/-- **The verdict of a replay**, from the identifiers that the solver emits when
    none is refused. -/
theorem Solution.result_verifyMethod {s : Solution} {c : Challenge} {solver : Solver}
    {budget : Budget} {clock : Clock} {input : Input} (h : budget.Lasts clock)
    (horacle : Oracle.Answers c.accepts) (hpropagates : (solver (c.problem false)).Propagates)
    (houtcome : (c.genuineRun solver false).outcome = .ok (.ok input)) :
    (s.verifyMethod c solver budget clock).result =
      match compareAll s.trace 0 (c.genuineRun solver false).accepted with
      | .error cause => .error (.failure cause)
      | .ok () =>
        if (c.genuineRun solver false).accepted.length = s.trace.length then .ok ()
        else .error (.failure (.mismatchedAlgorithm
          (.unconsumed (c.genuineRun solver false).accepted.length s.trace.length))) := by
  simp only [verifyMethod, h.check, concludeReplay, replay_eq h]
  rcases hcompare : compareAll s.trace 0 (c.genuineRun solver false).accepted with cause | _
  · have hrefused := Interaction.outcome_comparing horacle hpropagates hcompare
    simp [Run.answer, hrefused, Except.bind]
  · have hsame : (solver (c.problem false)).runFrom (.comparing s.trace) c.accepts 0 0 =
        c.genuineRun solver false := Interaction.runFrom_comparing hcompare
    have hanswer : (c.genuineRun solver false).answer = .ok input := by
      rw [Run.answer, houtcome]
    simp only [hsame, hanswer, Except.bind, Trouble.ofFailure]
    split
    next => rfl
    next => rfl

theorem compareAll_zero_eq_ok_iff {recording ids : List Int32} :
    compareAll recording 0 ids = .ok () ↔ ids <+: recording := compareAll_eq_ok_iff

theorem length_eq_iff_of_isPrefix {ids recording : List Int32} (h : ids <+: recording) :
    ids.length = recording.length ↔ recording = ids := by
  constructor
  · intro hlength
    exact (h.eq_of_length hlength).symm
  · intro heq
    rw [heq]

theorem Solution.verifyMethod_eq_ok_iff {s : Solution} {c : Challenge} {solver : Solver}
    {budget : Budget} {clock : Clock} {input : Input} (h : budget.Lasts clock)
    (horacle : Oracle.Answers c.accepts) (hpropagates : (solver (c.problem false)).Propagates)
    (houtcome : (c.genuineRun solver false).outcome = .ok (.ok input)) :
    (s.verifyMethod c solver budget clock).result = .ok () ↔
      s.trace = (c.genuineRun solver false).accepted := by
  rw [result_verifyMethod h horacle hpropagates houtcome]
  rcases hcompare : compareAll s.trace 0 (c.genuineRun solver false).accepted with cause | _
  · constructor
    · intro herror
      cases herror
    · intro heq
      rw [compareAll_zero_eq_ok_iff.2 (heq ▸ List.prefix_rfl)] at hcompare
      cases hcompare
  · rw [← length_eq_iff_of_isPrefix (compareAll_zero_eq_ok_iff.1 hcompare)]
    simp

/-! ### Replays against a recording -/

def Solver.Propagates (solver : Solver) : Prop := ∀ problem, (solver problem).Propagates

/-- **A replay accepts the recording and nothing else.**  Let a solver that
    propagates refusals be recorded on a challenge.  Its replay against a
    solution succeeds exactly when the solution has the recorded trace; otherwise
    the mismatch names the first place where the two differ, or says which of
    them goes on after the end of the other. -/
theorem verifyMethod_of_recorded {solver : Solver} (hpropagates : solver.Propagates)
    {c : Challenge} (hwithin : LiteralsWithin c.variableCount c.clauses)
    {budget replayBudget : Budget} {clock replayClock : Clock} (hlasts : budget.Lasts clock)
    (hreplay : replayBudget.Lasts replayClock) {solved : Solved}
    (hsolve : (c.solve solver budget clock false).result = .ok solved) (s : Solution) :
    let genuine := solved.solution.trace
    let verdict := (s.verifyMethod c solver replayBudget replayClock).result
    (verdict = .ok () ↔ s.trace = genuine) ∧
    (s.trace ≠ genuine →
      ∃ mismatch, verdict = .error (.failure (.mismatchedAlgorithm mismatch))) ∧
    (∀ (p : Nat) (recorded emitted : Int32), (∀ q < p, s.trace[q]? = genuine[q]?) →
      s.trace[p]? = some recorded → genuine[p]? = some emitted → recorded ≠ emitted →
      verdict = .error (.failure (.mismatchedAlgorithm (.different p recorded emitted)))) ∧
    (s.trace <+: genuine → s.trace ≠ genuine →
      verdict = .error (.failure (.mismatchedAlgorithm (.extra s.trace.length)))) ∧
    (genuine <+: s.trace → s.trace ≠ genuine →
      verdict = .error (.failure (.mismatchedAlgorithm
        (.unconsumed genuine.length s.trace.length)))) := by
  intro genuine verdict
  obtain ⟨houtcome, haccepted, -⟩ := (Challenge.solve_eq_ok_iff hlasts).1 hsolve
  have hgenuine : genuine = (c.genuineRun solver false).accepted := haccepted.symm
  have hverdict : verdict = match compareAll s.trace 0 genuine with
      | .error cause => .error (.failure cause)
      | .ok () =>
        if genuine.length = s.trace.length then .ok ()
        else .error (.failure (.mismatchedAlgorithm
          (.unconsumed genuine.length s.trace.length))) := by
    rw [hgenuine]
    exact Solution.result_verifyMethod hreplay (Challenge.accepts_answers hwithin)
      (hpropagates _) houtcome
  refine ⟨?_, ?_, ?_, ?_, ?_⟩
  · rw [hgenuine]
    exact Solution.verifyMethod_eq_ok_iff hreplay (Challenge.accepts_answers hwithin)
      (hpropagates _) houtcome
  · intro hne
    rw [hverdict]
    rcases hcompare : compareAll s.trace 0 genuine with cause | _
    · obtain ⟨mismatch, rfl⟩ := compareAll_error hcompare
      exact ⟨mismatch, rfl⟩
    · have hlength : ¬ genuine.length = s.trace.length := fun h =>
        hne ((length_eq_iff_of_isPrefix (compareAll_zero_eq_ok_iff.1 hcompare)).1 h)
      exact ⟨_, if_neg hlength⟩
  · intro p recorded emitted hbefore hrecorded hemitted hne
    have hcompare : compareAll s.trace 0 genuine =
        .error (.mismatchedAlgorithm (.different (0 + p) recorded emitted)) :=
      compareAll_of_different (by simpa using hbefore) (by simpa using hrecorded) hemitted hne
    rw [hverdict, hcompare, Nat.zero_add]
  · intro hshort hne
    have hcompare : compareAll s.trace 0 genuine =
        .error (.mismatchedAlgorithm (.extra s.trace.length)) := compareAll_of_extra hshort hne
    rw [hverdict, hcompare]
  · intro hlong hne
    have hlength : ¬ genuine.length = s.trace.length :=
      fun h => hne ((length_eq_iff_of_isPrefix hlong).1 h)
    rw [hverdict, compareAll_zero_eq_ok_iff.2 hlong]
    exact if_neg hlength

/-- A solver that asks about the input of true values, and emits the answer. -/
def Solver.guess : Solver := fun problem =>
  let input := List.replicate problem.variableCount true
  .ask input fun verdict =>
    .emit (if verdict then 1 else 0) fun
      | .error cause => .done (.error cause)
      | .ok () => .done (.ok input)

theorem Solver.guess_propagates : Solver.guess.Propagates :=
  fun _ _ => ⟨trivial, fun _ => rfl⟩

theorem Budget.unlimited_lasts : Budget.unlimited.Lasts Clock.still := by
  have hstart : Budget.unlimited.spentAfter 0 = false := by decide +kernel
  exact fun _ => hstart

theorem verifyMethod_of_recorded_guess :
    let c : Challenge := ⟨7, ⟨3, 100, by decide, by decide⟩, [[1, -2, 3], [-1, 2, -3]]⟩
    (c.solve .guess .unlimited .still false).result = .ok ⟨true, ⟨[true, true, true], [1]⟩⟩ ∧
      ((⟨[], [1, 5]⟩ : Solution).verifyMethod c .guess .unlimited .still).result =
        .error (.failure (.mismatchedAlgorithm (.unconsumed 1 2))) := by
  intro c
  have hsolve : (c.solve .guess .unlimited .still false).result =
      .ok ⟨true, ⟨[true, true, true], [1]⟩⟩ :=
    (Challenge.solve_eq_ok_iff Budget.unlimited_lasts).2 ⟨rfl, rfl, rfl⟩
  refine ⟨hsolve, ?_⟩
  obtain ⟨-, -, -, -, hlong⟩ := verifyMethod_of_recorded Solver.guess_propagates (by decide)
    Budget.unlimited_lasts Budget.unlimited_lasts hsolve ⟨[], [1, 5]⟩
  exact hlong (by decide) (by decide)

end SatReplay
