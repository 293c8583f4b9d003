/-
  SatReplay/Proofs/CommandLine/AllOrNothing.lean
  ==============================================
  **Computing is all or nothing.**  Whatever can go wrong goes wrong before the
  one delivery: the task is not loaded, its solver is unknown, the time is up
  (`Hinders`), or the output cannot be written.  Then the command says what is
  wrong, prints nothing and leaves the files alone.  Otherwise one submission is
  handed over, and its flag, the exit code and the check of its input agree.

  There is no third way, because the complete search fails for lack of time only
  (`Challenge.solve_dpll_of_not_expires`).
-/
import SatReplay.Proofs.CommandLine.Computing
import SatReplay.Proofs.SpentBudgets
import SatReplay.Proofs.Verdicts

namespace SatReplay.CommandLine

open Json

/-! ### Hindrances -/

/-- Nothing is computed for this reason: the settings are not read, their difficulty
    is invalid, their solver is unknown, or the time is up before it answers. -/
inductive Hinders (files : FileStore) (settings : String) (nonce : UInt32) (budget : Budget)
    (clock : Clock) : CommandError → Prop
  | unread {e : CommandError} (h : settingsText files settings = .error e) :
      Hinders files settings nonce budget clock e
  | unparsed {text : String} {cause : ReadError} (htext : settingsText files settings = .ok text)
      (h : Settings.reader.readText text = .error cause) :
      Hinders files settings nonce budget clock (.badSettings cause)
  | difficulty {s : Settings} {cause : DifficultyError}
      (hsettings : loadedSettings files settings = .ok s)
      (h : Difficulty.ofList? s.difficulty = .error cause) :
      Hinders files settings nonce budget clock (.trouble (.failure (.invalidDifficulty cause)))
  | algorithm {s : Settings} {d : Difficulty} (htask : loadedTask files settings = .ok (s, d))
      (h : s.algorithmId ≠ "dpll") :
      Hinders files settings nonce budget clock
        (.trouble (.failure (.unknownAlgorithm s.algorithmId)))
  | time {s : Settings} {d : Difficulty} (htask : loadedTask files settings = .ok (s, d))
      (hdpll : s.algorithmId = "dpll")
      (h : (Challenge.generate (s.seed nonce) d).Expires budget clock) :
      Hinders files settings nonce budget clock (.trouble (.failure (.timeout budget)))

section

variable {files : FileStore} {settings : String} {nonce : UInt32} {budget : Budget} {clock : Clock}

/-- A task that is not loaded hinders. -/
theorem hinders_of_loadedTask {e : CommandError} (h : loadedTask files settings = .error e) :
    Hinders files settings nonce budget clock e := by
  rcases loadedTask_eq_error_iff.1 h with
    htext | ⟨text, cause, htext, hread, rfl⟩ | ⟨s, cause, hsettings, hdifficulty, rfl⟩
  · exact .unread htext
  · exact .unparsed htext hread
  · exact .difficulty hsettings hdifficulty

/-- Either something hinders, or the task is loaded and its search ends in time. -/
theorem hinders_or_lasts :
    (∃ e, Hinders files settings nonce budget clock e) ∨
      ∃ s d, loadedTask files settings = .ok (s, d) ∧ s.algorithmId = "dpll" ∧
        ¬ (Challenge.generate (s.seed nonce) d).Expires budget clock := by
  rcases htask : loadedTask files settings with e | ⟨s, d⟩
  · exact .inl ⟨e, hinders_of_loadedTask htask⟩
  · by_cases hdpll : s.algorithmId = "dpll"
    · by_cases hexpires : (Challenge.generate (s.seed nonce) d).Expires budget clock
      · exact .inl ⟨_, .time htask hdpll hexpires⟩
      · exact .inr ⟨s, d, rfl, hdpll, hexpires⟩
    · exact .inl ⟨_, .algorithm htask hdpll⟩

end

/-! ### Outcomes -/

/-- The run says what is wrong and nothing else, and leaves all files as they were. -/
structure Outcome.Refuses (o : Outcome Nat) (files : FileStore) (e : CommandError) : Prop where
  result_eq : o.result = 1
  printed_eq : o.printed = []
  complaints_eq : o.complaints = [e.message]
  files_eq : o.files = files

/-- The run hands one submission over: as the only line that it prints, or in the
    output file, the only one that it changes, as its text or in a container. -/
structure Outcome.Delivers (o : Outcome Nat) (files : FileStore) (output : Option String)
    (compress : Bool) (m : Submission) : Prop where
  printed : output = none → o.printed = [m.toValue.canonical] ∧ o.files = files
  written : ∀ path ∈ output,
    o.printed = ["output_data written to: " ++ Quoted.quote path] ∧
      ∃ content, Holds content m.toValue.canonical compress ∧ files.Puts path content o.files

section

variable {arguments : List String} {settings : String} {nonce : UInt32} {budget : Option Budget}
  {debug : Bool} {output : Option String} {compress : Bool}
  (hcommand : Command.ofArguments arguments =
    .ok (.compute settings nonce budget debug output compress))
  {clocks : Clocks} {input : Bytes} {files : FileStore}

include hcommand

theorem refuses_of_performs {e : CommandError} {readings : Nat} {events : List Event}
    (h : (CommandLine.compute Registry.standard settings nonce budget debug output
      compress).Performs clocks input ⟨0, files⟩ (.error e) ⟨readings, files⟩ ⟨[], [], events⟩) :
    ((program arguments).run clocks input 0 files).Refuses files e := by
  have hrun : (program arguments).run clocks input 0 files =
      Outcome.ofResult (.error e) ⟨readings, files⟩ ⟨[], [], events⟩ := by
    rw [program, hcommand]
    exact run_exitCode h
  rw [hrun]
  exact ⟨rfl, rfl, rfl, rfl⟩

theorem refuses_of_loadedTask {e : CommandError} (h : loadedTask files settings = .error e) :
    ((program arguments).run clocks input 0 files).Refuses files e := by
  have hload := loadTask_performs clocks input ⟨0, files⟩ settings
  rw [h] at hload
  exact refuses_of_performs hcommand (Action.performs_bind_error hload)

theorem refuses_of_solve {s : Settings} {d : Difficulty}
    (htask : loadedTask files settings = .ok (s, d)) {trouble : Trouble}
    (hsolve : (Registry.standard.solve (Challenge.generate (s.seed nonce) d) s.algorithmId
      (budget.getD .unlimited) clocks.watched debug).result = .error trouble) :
    ((program arguments).run clocks input 0 files).Refuses files (.trouble trouble) := by
  have hconclude : (conclude s nonce (clocks.direct 0) output compress
      (.error trouble)).Performs clocks input ⟨1, files⟩ (.error (.trouble trouble)) ⟨1, files⟩
        .nothing :=
    Action.performs_bind_error (Action.performs_ofExcept _ _)
  obtain ⟨events, hperforms⟩ :=
    compute_performs_of_task (w := ⟨0, files⟩) htask hsolve ⟨[], hconclude⟩
  exact refuses_of_performs hcommand hperforms

/-- Whatever hinders is said, and nothing is done. -/
theorem Hinders.refuses {e : CommandError}
    (h : Hinders files settings nonce (budget.getD .unlimited) clocks.watched e) :
    ((program arguments).run clocks input 0 files).Refuses files e := by
  cases h with
  | unread h => exact refuses_of_loadedTask hcommand (loadedTask_eq_error_iff.2 (.inl h))
  | unparsed htext h =>
    apply refuses_of_loadedTask hcommand
    exact loadedTask_eq_error_iff.2 (.inr (.inl ⟨_, _, htext, h, rfl⟩))
  | difficulty hsettings h =>
    apply refuses_of_loadedTask hcommand
    exact loadedTask_eq_error_iff.2 (.inr (.inr ⟨_, _, hsettings, h, rfl⟩))
  | algorithm htask h =>
    apply refuses_of_solve hcommand htask
    rw [Registry.solve, Registry.withSolver_standard_of_ne h]
  | time htask hdpll h =>
    apply refuses_of_solve hcommand htask
    rw [hdpll, Registry.solve, Registry.withSolver_standard]
    exact Challenge.solve_dpll_of_expires (Challenge.generate_within _ _) h

/-- What the solver has found is handed over, unless the output cannot be written. -/
theorem delivers_or_refuses (input : Bytes) {s : Settings} {d : Difficulty}
    (htask : loadedTask files settings = .ok (s, d)) {solved : Solved}
    (hsolve : (Registry.standard.solve (Challenge.generate (s.seed nonce) d) s.algorithmId
      (budget.getD .unlimited) clocks.watched debug).result = .ok solved) :
    let outcome := (program arguments).run clocks input 0 files
    let m := submitted s nonce solved (secondsBetween (clocks.direct 0) (clocks.direct 1))
    (outcome.result = (if m.isSolution then 0 else noSolutionCode) ∧
        outcome.Delivers files output compress m) ∨
      ∃ path ∈ output, ∃ content cause, files.write path content = .error cause ∧
        outcome.Refuses files (.notWritten cause) := by
  intro outcome m
  -- a delivery that succeeds is what the run comes to
  have hdelivered : ∀ {after : FileStore} {printed : List String},
      (deliver m output compress).Performs clocks input ⟨2, files⟩ (.ok ()) ⟨2, after⟩
        ⟨printed, [], []⟩ →
      outcome.result = (if m.isSolution then 0 else noSolutionCode) ∧
        outcome.printed = printed ∧ outcome.files = after := by
    intro after printed hdeliver
    obtain ⟨events, hperforms⟩ := compute_performs (w := ⟨0, files⟩) htask hsolve hdeliver
    have hrun : outcome = _ := run_compute hcommand hperforms
    rw [hrun]
    exact ⟨rfl, rfl, rfl⟩
  cases output with
  | none =>
    obtain ⟨hresult, hprinted, hfiles⟩ := hdelivered (Action.performs_print m.toValue.canonical)
    exact .inl ⟨hresult, fun _ => ⟨hprinted, hfiles⟩, by simp⟩
  | some path =>
    rcases hwrite : files.write path (fileContent m compress) with cause | after
    · refine .inr ⟨path, rfl, _, cause, hwrite, ?_⟩
      obtain ⟨events, hperforms⟩ := compute_performs_of_task (w := ⟨0, files⟩) htask hsolve
        (conclude_performs_error (deliver_performs_write_error hwrite))
      exact refuses_of_performs hcommand hperforms
    · obtain ⟨hresult, hprinted, hfiles⟩ := hdelivered (deliver_performs_write hwrite)
      refine .inl ⟨hresult, by simp, ?_⟩
      intro other hother
      obtain rfl := Option.some.inj hother
      exact ⟨hprinted, _, holds_fileContent m compress, hfiles ▸ FileStore.puts_of_write hwrite⟩

/-- **Computing is all or nothing.**  If the settings are not read, their difficulty
    is invalid, their solver is unknown or the time is up, the command exits with 1
    and says so; nothing is printed and no file changes.  If it exits with 0 or 85,
    it has delivered exactly one submission, with the nonce, the seed and the solver
    of the settings and with what the solver has found; its flag, the exit code and
    the check of its input say the same.  There is no other exit but for an output
    that cannot be written. -/
theorem compute_all_or_nothing (clocks : Clocks) (input : Bytes) (files : FileStore) :
    let outcome := (program arguments).run clocks input 0 files
    let limit := budget.getD .unlimited
    (∀ e, Hinders files settings nonce limit clocks.watched e → outcome.Refuses files e) ∧
    (outcome.result = 0 ∨ outcome.result = 85 → ∃ s d, ∃ m : Submission,
      loadedTask files settings = .ok (s, d) ∧ IsComputed s d nonce m ∧
      (Registry.standard.solve (Challenge.generate m.seed d) m.algorithmId limit clocks.watched
        debug).result = .ok ⟨m.isSolution, m.solution⟩ ∧
      (m.isSolution = true ↔ outcome.result = 0) ∧
      (m.isSolution = true ↔
        (Challenge.generate m.seed d).checkInput m.solution.input = .ok ()) ∧
      outcome.Delivers files output compress m) ∧
    (outcome.result ≠ 0 → outcome.result ≠ 85 → ∃ e, outcome.Refuses files e ∧
      (Hinders files settings nonce limit clocks.watched e ∨
        ∃ path ∈ output, ∃ content cause, files.write path content = .error cause ∧
          e = .notWritten cause)) := by
  intro outcome limit
  refine ⟨fun e h => h.refuses hcommand, ?_⟩
  rcases hinders_or_lasts with ⟨e, hhinders⟩ | ⟨s, d, htask, hdpll, hlasts⟩
  · have hrefuses : outcome.Refuses files e := hhinders.refuses hcommand
    refine ⟨?_, fun _ _ => ⟨e, hrefuses, .inl hhinders⟩⟩
    rw [hrefuses.result_eq]
    simp
  · obtain ⟨solved, hsolve, hm⟩ := isComputed_of_lasts hdpll hlasts debug
      (secondsBetween (clocks.direct 0) (clocks.direct 1))
    rcases delivers_or_refuses hcommand input htask hsolve with
      ⟨hresult, hdelivers⟩ | ⟨path, hpath, content, cause, hwrite, hrefuses⟩
    · have hresult : outcome.result = if solved.isSolution then 0 else noSolutionCode := hresult
      have haccepts : (Challenge.generate (s.seed nonce) d).accepts solved.solution.input =
          .ok solved.isSolution := by
        rw [hdpll, Registry.solve, Registry.withSolver_standard] at hsolve
        exact Challenge.eq_of_solve hsolve
      have hcheck : solved.isSolution = true ↔
          (Challenge.generate (s.seed nonce) d).checkInput solved.solution.input = .ok () := by
        rw [← Challenge.accepts_eq_true_iff, haccepts, Except.ok.injEq]
      refine ⟨fun _ => ⟨s, d, _, htask, hm, hsolve, ?_, hcheck, hdelivers⟩, ?_⟩
      · rw [hresult]
        cases hflag : solved.isSolution <;> simp [submitted, hflag, noSolutionCode]
      · intro hzero hother
        rw [hresult] at hzero hother
        cases hflag : solved.isSolution <;> simp [hflag, noSolutionCode] at hzero hother
    · have hrefuses : outcome.Refuses files (.notWritten cause) := hrefuses
      refine ⟨?_, fun _ _ => ⟨_, hrefuses, .inr ⟨path, hpath, content, cause, hwrite, rfl⟩⟩⟩
      rw [hrefuses.result_eq]
      simp

end

/-- On a challenge that has no solution: the submission that is printed, and nothing
    but a timeout when no time is given, although an output file is. -/
theorem compute_all_or_nothing_crowded :
    let computed := (program ["compute_solution", crowdedText, "7"]).run .still [] 0 .empty
    let late := (program ["compute_solution", "--max_seconds=0", "--output=a.json", crowdedText,
      "7"]).run .still [] 0 .empty
    (computed.result = 85 ∧ computed.files = .empty ∧ ∃ m : Submission, m.nonce = 7 ∧
      m.isSolution = false ∧ computed.printed = [m.toValue.canonical]) ∧
    late.Refuses .empty (.trouble (.failure (.timeout (.zero false)))) := by
  intro computed late
  have htask : loadedTask .empty crowdedText = .ok (crowdedSettings, crowded) :=
    loadedTask_eq_ok_iff.2
      ⟨⟨crowdedText, settingsText_crowdedText _, readText_crowdedText⟩, rfl⟩
  have hcommand : Command.ofArguments ["compute_solution", crowdedText, "7"] =
      .ok (.compute crowdedText 7 none false none false) := by decide +kernel
  have hlate : Command.ofArguments ["compute_solution", "--max_seconds=0", "--output=a.json",
      crowdedText, "7"] =
      .ok (.compute crowdedText 7 (some (.zero false)) false (some "a.json") false) := by
    decide +kernel
  have hdifficulty : crowdedSettings.parsedDifficulty = .ok crowded := rfl
  constructor
  · obtain ⟨m, hm, -, -, hresult⟩ :=
      (crowdedComputing 7 _ none false hcommand (by simp)).exists_computed hdifficulty rfl
    have hunsolved : m.isSolution = false := by
      rw [Bool.eq_false_iff, Ne, hm.isSolution_iff, hm.seed_eq]
      exact not_satisfiable_crowded
    rw [outcome_crowdedComputing, hunsolved] at hresult
    have hcode : computed.result = 85 := hresult
    obtain ⟨-, hdelivers, -⟩ := compute_all_or_nothing hcommand .still [] .empty
    obtain ⟨s, d, m, -, hm, -, hflag, -, hdelivered⟩ := hdelivers (.inr hcode)
    obtain ⟨hprinted, hfiles⟩ := hdelivered.printed rfl
    have hflagged : m.isSolution = false := by
      rw [Bool.eq_false_iff, Ne, hflag, hcode]
      decide
    exact ⟨hcode, hfiles, m, hm.nonce_eq, hflagged, hprinted⟩
  · refine (compute_all_or_nothing hlate .still [] .empty).1 _ (.time htask rfl ?_)
    have hzero : Binary64.AtMostZero (.zero false) := Or.inr (by decide)
    exact ⟨0, Nat.zero_le _, Budget.atMostZero_iff.1 hzero⟩

end SatReplay.CommandLine
