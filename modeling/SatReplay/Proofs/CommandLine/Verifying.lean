/-
  SatReplay/Proofs/CommandLine/Verifying.lean
  ===========================================
  **Which submissions the command line accepts.**  `judge` is the check of a
  submission that has been read: it looks at the nonce, the seed, the name of the
  solver and the solution, and at nothing else.  The verify command performs the
  reading of its arguments and this check (`verify_performs`), so its exit code
  and its words follow from them.
-/
import SatReplay.Proofs.CommandLine.Loading
import SatReplay.Proofs.Pipeline
import SatReplay.Proofs.Settings
import SatReplay.Proofs.Submission

namespace SatReplay

open Json

theorem Registry.withSolver_standard_of_ne {α : Type} {name : String} (h : name ≠ "dpll")
    (f : Solver → Reported α) :
    standard.withSolver name f = ⟨.error (.failure (.unknownAlgorithm name)), []⟩ := by
  simp [withSolver, find, standard, register, empty, h.symm]

theorem Registry.verify_standard_iff {c : Challenge} (name : String)
    (hwithin : LiteralsWithin c.variableCount c.clauses) {budget : Budget} {clock : Clock}
    (hlasts : budget.Lasts clock) (solution : Solution) :
    (standard.verify c name solution budget clock).result = .ok () ↔
      name = "dpll" ∧ (solution.input.length = c.variableCount ∧
        Satisfies (Input.valuation solution.input) c.clauses) ∧
        solution.trace = c.traceOf Dpll.solver := by
  rw [verify]
  by_cases hname : name = "dpll"
  · rw [hname, withSolver_standard, verify_dpll_eq_ok_iff hwithin hlasts]
    simp
  · rw [withSolver_standard_of_ne hname]
    simp [hname]

namespace CommandLine

/-- What a check ends with, and what it reports on the way. -/
structure Verdict where
  result : Except CommandError Unit
  events : List Event

namespace Verdict

def refused (e : CommandError) : Verdict := ⟨.error e, []⟩

def code (v : Verdict) : Except CommandError Nat := v.result.map fun _ => 0

def written (v : Verdict) : Written where
  printed := match v.result with
    | .ok _ => ["Solution is valid"]
    | .error _ => []
  complaints := []
  events := v.events

end Verdict

/-- The check of a submission that has been read. -/
def judge (s : Settings) (d : Difficulty) (nonce : UInt32) (m : Submission) (budget : Budget)
    (clock : Clock) : Verdict :=
  let seed := s.seed nonce
  if m.nonce ≠ nonce ∨ m.seed ≠ seed then
    .refused (.otherChallenge m.nonce m.seed nonce seed)
  else if m.algorithmId ≠ s.algorithmId then
    .refused (.otherAlgorithm m.algorithmId s.algorithmId)
  else
    let reported := Registry.standard.verify (Challenge.generate seed d) s.algorithmId m.solution
      budget clock
    ⟨reported.result.mapError .rejected, reported.events⟩

/-- The check of what the arguments stand for. -/
def verdict (files : FileStore) (input : Bytes) (settings : String) (nonce : UInt32)
    (document : String) (budget : Budget) (clock : Clock) : Verdict :=
  match loadedTask files settings, loadedSubmission files input document with
  | .error e, _ => .refused e
  | .ok _, .error e => .refused e
  | .ok (s, d), .ok m => judge s d nonce m budget clock

theorem verify_performs (settings : String) (nonce : UInt32) (document : String)
    (budget : Option Budget) (clocks : Clocks) (input : Bytes) (w : World) :
    let v := verdict w.files input settings nonce document (budget.getD .unlimited) clocks.watched
    (CommandLine.verify Registry.standard settings nonce document budget).Performs clocks input w
      v.code w v.written := by
  have htask := loadTask_performs clocks input w settings
  have hsubmission := loadSubmission_performs clocks input w document
  intro v
  simp only [v, CommandLine.verify, verdict]
  rcases hloaded : loadedTask w.files settings with e | ⟨s, d⟩
  · rw [hloaded] at htask
    exact Action.performs_bind_error htask
  · rw [hloaded] at htask
    refine Action.performs_step htask ?_
    rcases hread : loadedSubmission w.files input document with e | m
    · rw [hread] at hsubmission
      exact Action.performs_bind_error hsubmission
    · rw [hread] at hsubmission
      refine Action.performs_step hsubmission ?_
      simp only [judge]
      split
      · exact Action.performs_fail _
      · split
        · exact Action.performs_fail _
        · refine Action.performs_step (Action.performs_watch _) ?_
          rcases hresult : (Registry.standard.verify (Challenge.generate (s.seed nonce) d)
            s.algorithmId m.solution (budget.getD .unlimited) clocks.watched).result with cause | _
          · refine Action.performs_bind (Action.performs_report _) ?_ (Written.append_nothing _)
            exact Action.performs_bind_error (Action.performs_ofExcept _ _)
          · refine Action.performs_bind (Action.performs_report _) ?_ (Written.events_append _ _ _)
            refine Action.performs_step (Action.performs_ofExcept _ _) ?_
            exact Action.performs_bind (Action.performs_print _) (Action.performs_pure 0) rfl

/-! ### The verdict -/

/-- The submission is one for these settings and this nonce, made by the complete
    search on the challenge of its seed, and solves that challenge. -/
structure IsHonest (s : Settings) (d : Difficulty) (nonce : UInt32) (m : Submission) : Prop where
  nonce_eq : m.nonce = nonce
  seed_eq : m.seed = s.seed nonce
  named : m.algorithmId = s.algorithmId
  dpll : s.algorithmId = "dpll"
  length_input : m.solution.input.length = d.variableCount
  satisfies : Satisfies (Input.valuation m.solution.input) (Challenge.generate m.seed d).clauses
  trace_eq : m.solution.trace = (Challenge.generate m.seed d).traceOf Dpll.solver

/-- A submission for these settings and this nonce is judged by its solution. -/
theorem judge_of_eq {s : Settings} {nonce : UInt32} {m : Submission} (hnonce : m.nonce = nonce)
    (hseed : m.seed = s.seed nonce) (hnamed : m.algorithmId = s.algorithmId) (d : Difficulty)
    (budget : Budget) (clock : Clock) :
    (judge s d nonce m budget clock).result = (Registry.standard.verify
      (Challenge.generate (s.seed nonce) d) s.algorithmId m.solution budget
        clock).result.mapError .rejected := by
  have hsame : ¬ (m.nonce ≠ nonce ∨ m.seed ≠ s.seed nonce) := by simp [hnonce, hseed]
  rw [judge, if_neg hsame, if_neg (not_not.2 hnamed)]

theorem judge_eq_ok_iff {s : Settings} {d : Difficulty} {nonce : UInt32} {m : Submission}
    {budget : Budget} {clock : Clock} (hlasts : budget.Lasts clock) :
    (judge s d nonce m budget clock).result = .ok () ↔ IsHonest s d nonce m := by
  have hverify := Registry.verify_standard_iff s.algorithmId
    (Challenge.generate_within (s.seed nonce) d) hlasts m.solution
  constructor
  · intro hok
    simp only [judge] at hok
    split at hok
    next => cases hok
    next hsame =>
      split at hok
      next => cases hok
      next hnamed =>
        obtain ⟨hnonce, hseed⟩ : m.nonce = nonce ∧ m.seed = s.seed nonce := by simpa using hsame
        obtain ⟨hdpll, ⟨hlength, hsatisfies⟩, htrace⟩ := hverify.1 (mapError_eq_ok_iff.1 hok)
        rw [← hseed] at hsatisfies htrace
        exact ⟨hnonce, hseed, not_not.1 hnamed, hdpll, hlength, hsatisfies, htrace⟩
  · intro h
    have hsatisfies := h.satisfies
    have htrace := h.trace_eq
    rw [h.seed_eq] at hsatisfies htrace
    rw [judge_of_eq h.nonce_eq h.seed_eq h.named, mapError_eq_ok_iff]
    exact hverify.2 ⟨h.dpll, ⟨h.length_input, hsatisfies⟩, htrace⟩

section

variable {files : FileStore} {input : Bytes} {settings : String} {nonce : UInt32}
  {document : String} {budget : Budget} {clock : Clock}

theorem verdict_eq_ok_iff_judge :
    (verdict files input settings nonce document budget clock).result = .ok () ↔
      ∃ s d m, loadedTask files settings = .ok (s, d) ∧
        loadedSubmission files input document = .ok m ∧
        (judge s d nonce m budget clock).result = .ok () := by
  rw [verdict]
  rcases hloaded : loadedTask files settings with e | ⟨s, d⟩
  · simp [Verdict.refused]
  · rcases hread : loadedSubmission files input document with e | m
    · simp [Verdict.refused]
    · simp

theorem verdict_eq_ok_iff (hlasts : budget.Lasts clock) :
    (verdict files input settings nonce document budget clock).result = .ok () ↔
      ∃ text s d content m,
        settingsText files settings = .ok text ∧ Settings.reader.readText text = .ok s ∧
        s.parsedDifficulty = .ok d ∧
        documentText files input document = .ok content ∧
        Submission.reader.readText content = .ok m ∧ IsHonest s d nonce m := by
  rw [verdict_eq_ok_iff_judge]
  constructor
  · rintro ⟨s, d, m, htask, hsubmission, hjudge⟩
    obtain ⟨⟨text, htext, hsettings⟩, hdifficulty⟩ := loadedTask_eq_ok_iff.1 htask
    obtain ⟨content, hcontent, hread⟩ := loadedSubmission_eq_ok_iff.1 hsubmission
    exact ⟨text, s, d, content, m, htext, hsettings, hdifficulty, hcontent, hread,
      (judge_eq_ok_iff hlasts).1 hjudge⟩
  · rintro ⟨text, s, d, content, m, htext, hsettings, hdifficulty, hcontent, hread, hhonest⟩
    exact ⟨s, d, m, loadedTask_eq_ok_iff.2 ⟨⟨text, htext, hsettings⟩, hdifficulty⟩,
      loadedSubmission_eq_ok_iff.2 ⟨content, hcontent, hread⟩,
      (judge_eq_ok_iff hlasts).2 hhonest⟩

/-- No check looks at what a submission says of itself. -/
theorem verdict_congr {otherInput : Bytes} {other : String} {m : Submission} {isSolution : Bool}
    {seconds : Binary64} (hm : loadedSubmission files input document = .ok m)
    (hother : loadedSubmission files otherInput other =
      .ok { m with isSolution := isSolution, secondsTaken := seconds }) :
    verdict files otherInput settings nonce other budget clock =
      verdict files input settings nonce document budget clock := by
  rw [verdict, verdict, hm, hother]
  rcases loadedTask files settings with e | ⟨s, d⟩
  · rfl
  · rfl

end

theorem Verdict.outcome_ok {v : Verdict} (h : v.result = .ok ()) (w : World) :
    Outcome.ofResult v.code w v.written = ⟨0, w.files, ["Solution is valid"], [], v.events⟩ := by
  simp only [code, written, h]
  rfl

theorem Verdict.outcome_error {v : Verdict} {e : CommandError} (h : v.result = .error e)
    (w : World) :
    Outcome.ofResult v.code w v.written = ⟨1, w.files, [], [e.message], v.events⟩ := by
  simp only [code, written, h]
  rfl

theorem Verdict.outcome_iff (v : Verdict) (w : World) :
    let outcome := Outcome.ofResult v.code w v.written
    (outcome.result = 0 ↔ v.result = .ok ()) ∧
      (outcome.result ≠ 0 → outcome.result = 1 ∧ outcome.printed = []) := by
  intro outcome
  rcases hresult : v.result with e | _
  · have herror := outcome_error hresult w
    simp only [outcome, herror]
    simp
  · have hok := outcome_ok hresult w
    simp only [outcome, hok]
    simp

/-! ### Two challenges of one difficulty -/

/-- The difficulty of challenges with 30 clauses over three variables. -/
def crowded : Difficulty := ⟨3, 1000, by decide, by decide⟩

/-- For the nonce 2 these ask for a challenge with one solution, and for the nonce 7
    for a challenge without any. -/
def crowdedSettings : Settings := ⟨"p", "dpll", [3, 1000]⟩

def crowdedText : String :=
  "\x7b\"player_id\":\"p\",\"algorithm_id\":\"dpll\",\"difficulty\":[3,1000]\x7d"

theorem settingsText_crowdedText (files : FileStore) :
    settingsText files crowdedText = .ok crowdedText :=
  if_neg (by decide +kernel)

theorem readText_crowdedText : Settings.reader.readText crowdedText = .ok crowdedSettings := by
  decide +kernel

theorem seed_crowdedSettings (nonce : UInt32) :
    crowdedSettings.seed nonce = (1479178103 ^^^ nonce).toInt32 := by
  have hword : Blake3.textWord crowdedSettings.toValue.canonical = 1479178103 := by
    rw [Blake3.textWord_of_length_le (Settings.ofText_canonical _) (by decide +kernel)]
    decide +kernel
  rw [Settings.seed, hword]

theorem length_traceOf_crowded (seed : Int32) :
    ((Challenge.generate seed crowded).traceOf Dpll.solver).length < 2 ^ 29 := by
  have hlength : ((Challenge.generate seed crowded).traceOf Dpll.solver).length < 2 ^ 4 :=
    length_traceOf_dpll_lt
  omega

theorem satisfies_crowded_iff (a b c : Bool) :
    Satisfies (Input.valuation [a, b, c])
        (Challenge.generate (crowdedSettings.seed 2) crowded).clauses ↔
      [a, b, c] = [false, false, true] := by
  rw [seed_crowdedSettings]
  revert a b c
  decide +kernel

theorem satisfiable_crowded :
    Satisfiable 3 (Challenge.generate (crowdedSettings.seed 2) crowded).clauses :=
  ⟨[false, false, true], rfl, (satisfies_crowded_iff _ _ _).2 rfl⟩

theorem not_satisfiable_crowded :
    ¬ Satisfiable 3 (Challenge.generate (crowdedSettings.seed 7) crowded).clauses := by
  have hnone : ∀ a b c : Bool, ¬ Satisfies (Input.valuation [a, b, c])
      (Challenge.generate (crowdedSettings.seed 7) crowded).clauses := by
    rw [seed_crowdedSettings]
    decide +kernel
  rintro ⟨input, hlength, hsatisfies⟩
  obtain ⟨a, b, c, rfl⟩ := List.length_eq_three.1 hlength
  exact hnone a b c hsatisfies

/-- What is handed in for the nonce 2 with this input, and with the trace of the
    complete search. -/
def crowdedSubmission (input : Input) (isSolution : Bool) (seconds : Binary64) : Submission :=
  ⟨2, crowdedSettings.seed 2, "dpll", isSolution, seconds,
    ⟨input, (Challenge.generate (crowdedSettings.seed 2) crowded).traceOf Dpll.solver⟩⟩

theorem readText_crowdedSubmission (a b c isSolution : Bool) {seconds : Binary64}
    (hseconds : seconds ∈ [Binary64.zero false, Binary64.largest]) :
    Submission.reader.readText (crowdedSubmission [a, b, c] isSolution seconds).toValue.canonical =
      .ok (crowdedSubmission [a, b, c] isSolution seconds) := by
  have hnumeral : ∀ seconds ∈ [Binary64.zero false, Binary64.largest], seconds.isFinite = true ∧
      Reader.binary64.readText (Layout.document.text seconds) = .ok seconds := by decide +kernel
  have hfits : (crowdedSubmission [a, b, c] isSolution seconds).solution.Fits :=
    ⟨show 3 < 2 ^ 31 by decide, length_traceOf_crowded _⟩
  obtain ⟨hfinite, hread⟩ := hnumeral seconds hseconds
  exact Reader.readText_eq (Submission.canonical_reads ⟨hfits, hfinite, hread⟩) blanks_nil
    blanks_nil (List.append_nil _).symm

theorem isHonest_crowdedSubmission_iff (a b c isSolution : Bool) (seconds : Binary64) :
    IsHonest crowdedSettings crowded 2 (crowdedSubmission [a, b, c] isSolution seconds) ↔
      [a, b, c] = [false, false, true] := by
  rw [← satisfies_crowded_iff]
  constructor
  · intro h
    exact h.satisfies
  · intro h
    exact ⟨rfl, rfl, rfl, rfl, rfl, h, rfl⟩

/-! ### The verify command -/

theorem run_verify {arguments : List String} {settings : String} {nonce : UInt32}
    {document : String} {budget : Option Budget}
    (hcommand : Command.ofArguments arguments = .ok (.verify settings nonce document budget))
    {clocks : Clocks} {input : Bytes} {files : FileStore} {v : Verdict}
    (hv : verdict files input settings nonce document (budget.getD .unlimited) clocks.watched = v) :
    (program arguments).run clocks input 0 files = .ofResult v.code ⟨0, files⟩ v.written := by
  subst hv
  rw [program, hcommand]
  exact run_exitCode (verify_performs settings nonce document budget clocks input ⟨0, files⟩)

/-- **The verifier accepts exactly the honest submissions.**  It exits with 0 if
    the settings are read and hold a valid difficulty, the document is read as a
    submission, and this is honest; else it exits with 1 and prints nothing.  Two
    documents that differ in `isSolution` and `secondsTaken` only get the same
    answer. -/
theorem verify_exit_iff {arguments : List String} {settings : String} {nonce : UInt32}
    {document : String} {budget : Option Budget}
    (hcommand : Command.ofArguments arguments = .ok (.verify settings nonce document budget))
    {clocks : Clocks} (hlasts : (budget.getD .unlimited).Lasts clocks.watched) (input : Bytes)
    (files : FileStore) :
    let outcome := (program arguments).run clocks input 0 files
    (outcome.result = 0 ↔
      ∃ text s d content m,
        settingsText files settings = .ok text ∧ Settings.reader.readText text = .ok s ∧
        s.parsedDifficulty = .ok d ∧
        documentText files input document = .ok content ∧
        Submission.reader.readText content = .ok m ∧ IsHonest s d nonce m) ∧
    (outcome.result ≠ 0 → outcome.result = 1 ∧ outcome.printed = []) ∧
    (∀ (others : List String) (other : String) (otherInput : Bytes) (text otherText : String)
        (m : Submission) (isSolution : Bool) (seconds : Binary64),
      Command.ofArguments others = .ok (.verify settings nonce other budget) →
      documentText files input document = .ok text → Submission.reader.readText text = .ok m →
      documentText files otherInput other = .ok otherText →
      Submission.reader.readText otherText =
        .ok { m with isSolution := isSolution, secondsTaken := seconds } →
      (program others).run clocks otherInput 0 files = outcome) := by
  intro outcome
  obtain ⟨v, hv⟩ : ∃ v, verdict files input settings nonce document (budget.getD .unlimited)
    clocks.watched = v := ⟨_, rfl⟩
  have hrun : outcome = _ := run_verify hcommand hv
  obtain ⟨haccepts, hrefuses⟩ := v.outcome_iff ⟨0, files⟩
  rw [← hrun] at haccepts hrefuses
  refine ⟨?_, hrefuses, ?_⟩
  · rw [haccepts, ← hv]
    exact verdict_eq_ok_iff hlasts
  · intro others other otherInput text otherText m isSolution seconds hothers htext hread
      hotherText hotherRead
    have hm := loadedSubmission_eq_ok_iff.2 ⟨text, htext, hread⟩
    have hother := loadedSubmission_eq_ok_iff.2 ⟨otherText, hotherText, hotherRead⟩
    exact (run_verify hothers ((verdict_congr hm hother).trans hv)).trans hrun.symm

/-- On a challenge with 30 clauses: a document that is accepted, also when it denies
    being a solution, one with an input that is no solution, and one that is not a
    submission. -/
theorem verify_exit_iff_crowded :
    let outcome (document : String) :=
      (program ["verify_solution", crowdedText, "2", "-"]).run .still (Bytes.ofText document) 0
        .empty
    let written (input : Input) (isSolution : Bool) (seconds : Binary64) :=
      (crowdedSubmission input isSolution seconds).toValue.canonical
    (Challenge.generate (crowdedSettings.seed 2) crowded).clauses.length = 30 ∧
    (outcome (written [false, false, true] true (.zero false))).result = 0 ∧
    (outcome (written [false, false, true] false .largest)).result = 0 ∧
    (outcome (written [true, false, true] true (.zero false))).result = 1 ∧
    (outcome "\x7b\x7d").result = 1 ∧ (outcome "\x7b\x7d").printed = [] := by
  have hcommand : Command.ofArguments ["verify_solution", crowdedText, "2", "-"] =
      .ok (.verify crowdedText 2 "-" none) := by decide +kernel
  have hempty : ∀ m, Submission.reader.readText "\x7b\x7d" ≠ .ok m := by
    intro m hread
    have herror : (Submission.reader.readText "\x7b\x7d").toOption = none := by decide +kernel
    rw [hread] at herror
    cases herror
  have hlasts : (Option.getD none Budget.unlimited).Lasts Clocks.still.watched :=
    Budget.unlimited_lasts
  have hverify := fun document =>
    verify_exit_iff hcommand hlasts (Bytes.ofText document) .empty
  have hread := fun a b c isSolution =>
    readText_crowdedSubmission a b c isSolution (show Binary64.zero false ∈ _ by simp)
  intro outcome written
  have haccepted : (outcome (written [false, false, true] true (.zero false))).result = 0 :=
    (hverify _).1.2 ⟨crowdedText, crowdedSettings, crowded, _, _, settingsText_crowdedText _,
      readText_crowdedText, rfl, documentText_input _ _, hread _ _ _ _,
      (isHonest_crowdedSubmission_iff _ _ _ _ _).2 rfl⟩
  refine ⟨?_, haccepted, ?_, ?_, ?_⟩
  · rw [seed_crowdedSettings]
    decide +kernel
  · have hsame := (hverify _).2.2 _ "-" _ _ _ _ false .largest hcommand (documentText_input _ _)
      (hread false false true true) (documentText_input _ _)
      (readText_crowdedSubmission false false true false (by simp))
    rw [← haccepted]
    exact congrArg Outcome.result hsame
  · refine ((hverify _).2.1 fun hzero => ?_).1
    obtain ⟨text, s, d, content, m, htext, hsettings, hdifficulty, hcontent, hcontentRead, hm⟩ :=
      (hverify _).1.1 hzero
    obtain rfl := Except.ok.inj ((settingsText_crowdedText _).symm.trans htext)
    obtain rfl := Except.ok.inj (readText_crowdedText.symm.trans hsettings)
    obtain rfl : crowded = d := Except.ok.inj hdifficulty
    obtain rfl := Except.ok.inj ((documentText_input _ _).symm.trans hcontent)
    obtain rfl := Except.ok.inj ((hread true false true true).symm.trans hcontentRead)
    exact absurd ((isHonest_crowdedSubmission_iff _ _ _ _ _).1 hm) (by decide)
  · refine (hverify "\x7b\x7d").2.1 fun hzero => ?_
    obtain ⟨-, -, -, content, m, -, -, -, hcontent, hcontentRead, -⟩ := (hverify _).1.1 hzero
    obtain rfl := Except.ok.inj ((documentText_input _ _).symm.trans hcontent)
    exact hempty m hcontentRead

end CommandLine

end SatReplay
