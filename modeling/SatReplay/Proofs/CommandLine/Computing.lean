/-
  SatReplay/Proofs/CommandLine/Computing.lean
  ===========================================
  **What is computed is judged correctly, however it is handed over.**  Computing
  delivers one submission, made by the search on the challenge of the settings
  and the nonce (`compute_performs`).  A document `Carries` its text as an
  argument, as the input, as a file or in a container; all four stand for that
  text, which is read back as the submission.  The two halves meet there: what
  the verify command judges is what has been computed.

  Of the bytes of a container nothing matters but what they open to (`Holds`).
-/
import SatReplay.Proofs.CommandLine.Verifying
import SatReplay.Proofs.Dpll.Expiring
import SatReplay.Proofs.Zlib

namespace SatReplay.CommandLine

open Json

/-! ### Computing -/

/-- The content of an output file is the document, or a container that opens to it. -/
def Holds (content : Bytes) (document : String) (compress : Bool) : Prop :=
  if compress then Zlib.decompress? content = some (Bytes.ofText document)
  else content = Bytes.ofText document

theorem holds_fileContent (m : Submission) (compress : Bool) :
    Holds (fileContent m compress) m.toValue.canonical compress := by
  cases compress with
  | false => rfl
  | true => exact Zlib.decompress?_compress _

section

variable {clocks : Clocks} {input : Bytes} {w : World} {m : Submission} {path : String}
  {compress : Bool}

theorem deliver_performs_write {files : FileStore}
    (h : w.files.write path (fileContent m compress) = .ok files) :
    (deliver m (some path) compress).Performs clocks input w (.ok ()) { w with files := files }
      ⟨["output_data written to: " ++ Quoted.quote path], [], []⟩ := by
  refine Action.performs_step (Action.performs_writeFile h) ?_
  exact Action.performs_step (Action.performs_ofExcept _ _) (Action.performs_print _)

theorem deliver_performs_write_error {cause : FileError}
    (h : w.files.write path (fileContent m compress) = .error cause) :
    (deliver m (some path) compress).Performs clocks input w (.error (.notWritten cause)) w
      .nothing := by
  refine Action.performs_step (Action.performs_writeFile_error h) ?_
  exact Action.performs_bind_error (Action.performs_ofExcept _ _)

end

theorem deliver_performs (clocks : Clocks) (input : Bytes) {w : World} (m : Submission)
    {output : Option String} (compress : Bool)
    (hwritable : ∀ path ∈ output, ∀ content, ∃ after, w.files.write path content = .ok after) :
    ∃ files printed,
      (deliver m output compress).Performs clocks input w (.ok ()) { w with files := files }
        ⟨printed, [], []⟩ ∧
      (output = none → printed = [m.toValue.canonical]) ∧
      (∀ path ∈ output, ∃ content, files.read path = .ok content ∧
        Holds content m.toValue.canonical compress) := by
  cases output with
  | none => exact ⟨w.files, _, Action.performs_print _, fun _ => rfl, by simp⟩
  | some path =>
    obtain ⟨files, hwrite⟩ := hwritable path rfl (fileContent m compress)
    refine ⟨files, _, deliver_performs_write hwrite, by simp, ?_⟩
    intro other hother
    obtain rfl := Option.some.inj hother
    exact ⟨_, FileStore.read_of_write hwrite, holds_fileContent m compress⟩

section

variable {clocks : Clocks} {input : Bytes} {w : World} {settings : String} {nonce : UInt32}
  {output : Option String} {compress : Bool}

theorem conclude_performs {s : Settings} {start : Nat} {solved : Solved} {files : FileStore}
    {printed : List String}
    (hdeliver : (deliver (submitted s nonce solved
        (secondsBetween start (clocks.direct w.readings))) output compress).Performs clocks input
      ⟨w.readings + 1, w.files⟩ (.ok ()) ⟨w.readings + 1, files⟩ ⟨printed, [], []⟩) :
    ∃ events, (conclude s nonce start output compress (.ok solved)).Performs clocks input w
      (.ok (if solved.isSolution then 0 else noSolutionCode)) ⟨w.readings + 1, files⟩
      ⟨printed, if solved.isSolution then [] else ["No solution found"], events⟩ := by
  have hend : (if solved.isSolution = true then pure 0 else do
      Action.complain "No solution found"
      return noSolutionCode : Action Nat).Performs clocks input ⟨w.readings + 1, files⟩
        (.ok (if solved.isSolution then 0 else noSolutionCode)) ⟨w.readings + 1, files⟩
        ⟨[], if solved.isSolution then [] else ["No solution found"], []⟩ := by
    cases solved.isSolution with
    | true => exact Action.performs_pure 0
    | false => exact Action.performs_bind (Action.performs_complain _) (Action.performs_pure _) rfl
  apply Exists.intro
  refine Action.performs_step (Action.performs_ofExcept_ok rfl) ?_
  refine Action.performs_step Action.performs_readClock ?_
  refine Action.performs_bind (Action.performs_report _) ?_ (Written.events_append _ _ _)
  exact Action.performs_bind hdeliver hend (Written.printed_append _ _)

theorem conclude_performs_error {s : Settings} {start : Nat} {solved : Solved} {e : CommandError}
    (hdeliver : (deliver (submitted s nonce solved
        (secondsBetween start (clocks.direct w.readings))) output compress).Performs clocks input
      ⟨w.readings + 1, w.files⟩ (.error e) ⟨w.readings + 1, w.files⟩ .nothing) :
    ∃ events, (conclude s nonce start output compress (.ok solved)).Performs clocks input w
      (.error e) ⟨w.readings + 1, w.files⟩ ⟨[], [], events⟩ := by
  apply Exists.intro
  refine Action.performs_step (Action.performs_ofExcept_ok rfl) ?_
  refine Action.performs_step Action.performs_readClock ?_
  refine Action.performs_bind (Action.performs_report _) ?_ (Written.events_append _ _ _)
  exact Action.performs_bind_error hdeliver

variable {registry : Registry} {budget : Option Budget} {debug : Bool} {s : Settings}
  {d : Difficulty}

/-- The compute command runs the solver on the challenge of its task, and concludes. -/
theorem compute_performs_of_task (htask : loadedTask w.files settings = .ok (s, d))
    {result : Except Trouble Solved}
    (hsolve : (registry.solve (Challenge.generate (s.seed nonce) d) s.algorithmId
      (budget.getD .unlimited) clocks.watched debug).result = result)
    {r : Except CommandError Nat} {after : World} {printed complaints : List String}
    (hconclude : ∃ events,
      (conclude s nonce (clocks.direct w.readings) output compress result).Performs clocks input
        ⟨w.readings + 1, w.files⟩ r after ⟨printed, complaints, events⟩) :
    ∃ events,
      (CommandLine.compute registry settings nonce budget debug output compress).Performs clocks
        input w r after ⟨printed, complaints, events⟩ := by
  have hload := loadTask_performs clocks input w settings
  rw [htask] at hload
  obtain ⟨events, hconclude⟩ := hconclude
  obtain ⟨reported, hreported⟩ : ∃ reported, registry.solve (Challenge.generate (s.seed nonce) d)
      s.algorithmId (budget.getD .unlimited) clocks.watched debug = reported := ⟨_, rfl⟩
  rw [hreported] at hsolve
  refine ⟨.challengeGenerated (s.seed nonce) d.variableCount
    (Challenge.generate (s.seed nonce) d).clauses.length :: (reported.events ++ events), ?_⟩
  -- in the order of the command: what a step writes stands before what the rest writes
  simp only [CommandLine.compute]
  refine Action.performs_step hload ?_
  refine Action.performs_step Action.performs_readClock ?_
  refine Action.performs_bind (Action.performs_report _) ?_ (Written.reported_append _ _ _ _)
  refine Action.performs_step (Action.performs_watch _) ?_
  rw [hreported]
  refine Action.performs_bind (Action.performs_report _) ?_ (Written.reported_append _ _ _ _)
  rw [hsolve]
  exact hconclude

theorem compute_performs (htask : loadedTask w.files settings = .ok (s, d)) {solved : Solved}
    (hsolve : (registry.solve (Challenge.generate (s.seed nonce) d) s.algorithmId
      (budget.getD .unlimited) clocks.watched debug).result = .ok solved)
    {files : FileStore} {printed : List String}
    (hdeliver : (deliver (submitted s nonce solved (secondsBetween (clocks.direct w.readings)
        (clocks.direct (w.readings + 1)))) output compress).Performs clocks input
      ⟨w.readings + 2, w.files⟩ (.ok ()) ⟨w.readings + 2, files⟩ ⟨printed, [], []⟩) :
    ∃ events,
      (CommandLine.compute registry settings nonce budget debug output compress).Performs clocks
        input w (.ok (if solved.isSolution then 0 else noSolutionCode)) ⟨w.readings + 2, files⟩
        ⟨printed, if solved.isSolution then [] else ["No solution found"], events⟩ :=
  compute_performs_of_task htask hsolve (conclude_performs hdeliver)

end

theorem run_compute {arguments : List String} {settings : String} {nonce : UInt32}
    {budget : Option Budget} {debug : Bool} {output : Option String} {compress : Bool}
    (hcommand : Command.ofArguments arguments =
      .ok (.compute settings nonce budget debug output compress))
    {clocks : Clocks} {input : Bytes} {files after : FileStore} {code readings : Nat}
    {out : Written}
    (hperforms : (CommandLine.compute Registry.standard settings nonce budget debug output
      compress).Performs clocks input ⟨0, files⟩ (.ok code) ⟨readings, after⟩ out) :
    (program arguments).run clocks input 0 files =
      ⟨code, after, out.printed, out.complaints, out.events⟩ := by
  rw [program, hcommand]
  exact run_exitCode hperforms

/-! ### Handing over -/

theorem getLast?_of_hasEnding {text ending : String} (h : hasEnding text ending = true)
    (hending : ending.toList ≠ []) : text.toList.getLast? = ending.toList.getLast? := by
  obtain ⟨front, hfront⟩ := List.isSuffixOf_iff_suffix.1 h
  rw [← hfront, List.getLast?_append_of_ne_nil _ hending]

theorem hasEnding_eq_false {text ending : String}
    (hlast : text.toList.getLast? ≠ ending.toList.getLast?) (hending : ending.toList ≠ []) :
    hasEnding text ending = false :=
  Bool.eq_false_iff.2 fun h => hlast (getLast?_of_hasEnding h hending)

/-- The argument hands the text over: as it is, as the input, as a file or in a
    container. -/
inductive Carries (files : FileStore) (input : Bytes) (text : String) : String → Prop
  | inline : Carries files input text text
  | input (h : input = Bytes.ofText text) : Carries files input text "-"
  | file {path : String} (hname : hasEnding path ".json" = true)
      (hread : files.read path = .ok (Bytes.ofText text)) : Carries files input text path
  | container {path : String} {bytes : Bytes} (hname : hasEnding path ".zlib" = true)
      (hread : files.read path = .ok bytes)
      (hcontent : Zlib.decompress? bytes = some (Bytes.ofText text)) : Carries files input text path

/-- An output file with the ending of its kind hands its document over. -/
theorem Carries.of_holds {files : FileStore} {path document : String} {content : Bytes}
    {compress : Bool} (hread : files.read path = .ok content)
    (hholds : Holds content document compress)
    (hname : hasEnding path (if compress then ".zlib" else ".json") = true) (input : Bytes) :
    Carries files input document path := by
  cases compress with
  | false =>
    obtain rfl : content = Bytes.ofText document := hholds
    exact .file hname hread
  | true => exact .container hname hread hholds

/-- A text that ends like an object is never taken for the name of a file. -/
theorem Carries.documentText_eq {files : FileStore} {input : Bytes} {text argument : String}
    (h : Carries files input text argument) {c : Char} (hlast : text.toList.getLast? = some c)
    (hobject : c = '\x7d' ∨ isBlank c = true) :
    documentText files input argument = .ok text := by
  cases h with
  | inline =>
    -- the last characters of the two endings and of the dash
    have hother : c ≠ 'b' ∧ c ≠ 'n' ∧ c ≠ '-' := by
      refine ⟨?_, ?_, ?_⟩
      all_goals
        rintro rfl
        exact absurd hobject (by decide)
    have hzlib : hasEnding text ".zlib" = false :=
      hasEnding_eq_false (by rw [hlast]; simpa using hother.1) (by decide)
    have hjson : hasEnding text ".json" = false :=
      hasEnding_eq_false (by rw [hlast]; simpa using hother.2.1) (by decide)
    have hdash : text ≠ "-" := by
      rintro rfl
      exact hother.2.2 (Option.some.inj hlast).symm
    simp [documentText, hzlib, hjson, hdash]
  | input hinput => exact hinput ▸ documentText_input files text
  | file hjson hread =>
    have hlast : argument.toList.getLast? = some 'n' := getLast?_of_hasEnding hjson (by decide)
    have hzlib : hasEnding argument ".zlib" = false :=
      hasEnding_eq_false (by rw [hlast]; decide) (by decide)
    have hdash : argument ≠ "-" := by
      rintro rfl
      exact absurd hjson (by decide)
    simp [documentText, hzlib, hjson, hdash, fileText, hread, decodeText, Bytes.toText?_ofText,
      mapError_ok]
  | container hzlib hread hcontent =>
    simp [documentText, hzlib, hread, containerText, hcontent, Bytes.toText?_ofText,
      mapError_ok]

/-! ### What has been computed -/

/-- What the search makes of the challenge of the settings and the nonce: it is
    solved if it can be, and else the input is empty. -/
structure IsComputed (s : Settings) (d : Difficulty) (nonce : UInt32) (m : Submission) : Prop where
  nonce_eq : m.nonce = nonce
  seed_eq : m.seed = s.seed nonce
  named : m.algorithmId = s.algorithmId
  trace_eq : m.solution.trace = (Challenge.generate m.seed d).traceOf Dpll.solver
  isSolution_iff : m.isSolution = true ↔
    Satisfiable d.variableCount (Challenge.generate m.seed d).clauses
  satisfies : m.isSolution = true → m.solution.input.length = d.variableCount ∧
    Satisfies (Input.valuation m.solution.input) (Challenge.generate m.seed d).clauses
  input_eq_nil : m.isSolution = false → m.solution.input = []

namespace IsComputed

variable {s : Settings} {d : Difficulty} {nonce : UInt32} {m : Submission}

theorem fits (h : IsComputed s d nonce m)
    (htrace : ((Challenge.generate (s.seed nonce) d).traceOf Dpll.solver).length < 2 ^ 29) :
    m.solution.Fits := by
  constructor
  · rcases hsolved : m.isSolution with _ | _
    · rw [h.input_eq_nil hsolved]
      decide
    · rw [(h.satisfies hsolved).1]
      exact d.variableCount_lt
  · rwa [h.trace_eq, h.seed_eq]

theorem judge_ok (h : IsComputed s d nonce m) (hdpll : s.algorithmId = "dpll") {budget : Budget}
    {clock : Clock} (hlasts : budget.Lasts clock) (hsolved : m.isSolution = true) :
    (judge s d nonce m budget clock).result = .ok () :=
  (judge_eq_ok_iff hlasts).2 ⟨h.nonce_eq, h.seed_eq, h.named, hdpll, (h.satisfies hsolved).1,
    (h.satisfies hsolved).2, h.trace_eq⟩

theorem judge_error (h : IsComputed s d nonce m) (hdpll : s.algorithmId = "dpll") (budget : Budget)
    (clock : Clock) (hsolved : m.isSolution = false) :
    (judge s d nonce m budget clock).result =
      .error (.rejected (.failure (.invalidSolution (.wrongLength d.variableCount 0)))) := by
  have hthree : 3 ≤ (Challenge.generate (s.seed nonce) d).variableCount := d.three_le_variableCount
  have hlength : m.solution.input.length ≠ (Challenge.generate (s.seed nonce) d).variableCount := by
    rw [h.input_eq_nil hsolved, List.length_nil]
    omega
  rw [judge_of_eq h.nonce_eq h.seed_eq h.named, hdpll, Registry.verify,
    Registry.withSolver_standard, Solution.verify, Challenge.checkInput_of_length_ne hlength,
    h.input_eq_nil hsolved]
  rfl

end IsComputed

theorem isComputed_of_lasts {s : Settings} {d : Difficulty} {nonce : UInt32} {budget : Budget}
    {clock : Clock} (hdpll : s.algorithmId = "dpll")
    (hlasts : ¬ (Challenge.generate (s.seed nonce) d).Expires budget clock) (debug : Bool)
    (seconds : Binary64) :
    ∃ solved, (Registry.standard.solve (Challenge.generate (s.seed nonce) d) s.algorithmId budget
        clock debug).result = .ok solved ∧
      IsComputed s d nonce (submitted s nonce solved seconds) := by
  have hn : (Challenge.generate (s.seed nonce) d).variableCount < 2 ^ 31 := d.variableCount_lt
  have hthree : 3 ≤ (Challenge.generate (s.seed nonce) d).variableCount := d.three_le_variableCount
  obtain ⟨solved, hsolved, htrace, hsat, hsolution, hempty⟩ :=
    solve_dpll (Challenge.generate_within (s.seed nonce) d) hn (by omega) Budget.unlimited_lasts
      debug
  refine ⟨solved, ?_, rfl, rfl, rfl, htrace, hsat, hsolution, hempty⟩
  rw [hdpll, Registry.solve, Registry.withSolver_standard,
    Challenge.solve_dpll_of_not_expires hlasts]
  exact hsolved

/-! ### Runs -/

/-- A run of the compute command on these settings, with time enough and with an
    output that can be written. -/
structure ComputeRun (s : Settings) (nonce : UInt32) where
  arguments : List String
  settings : String
  budget : Option Budget
  debug : Bool
  output : Option String
  compress : Bool
  clocks : Clocks
  input : Bytes
  files : FileStore
  command : Command.ofArguments arguments =
    .ok (.compute settings nonce budget debug output compress)
  lasts : (budget.getD .unlimited).Lasts clocks.watched
  reads : ∃ text, settingsText files settings = .ok text ∧ Settings.reader.readText text = .ok s
  writable : ∀ path ∈ output, ∀ content, ∃ after, files.write path content = .ok after

/-- A run of the verify command on these settings, with time enough and with a
    document that is handed over, perhaps with blanks behind it. -/
structure VerifyRun (s : Settings) (nonce : UInt32) (document : String) where
  arguments : List String
  settings : String
  argument : String
  content : String
  blanks : List Char
  budget : Option Budget
  clocks : Clocks
  input : Bytes
  files : FileStore
  command : Command.ofArguments arguments = .ok (.verify settings nonce argument budget)
  lasts : (budget.getD .unlimited).Lasts clocks.watched
  reads : ∃ text, settingsText files settings = .ok text ∧ Settings.reader.readText text = .ok s
  content_eq : content.toList = document.toList ++ blanks
  isBlank_blanks : Blanks blanks
  carries : Carries files input content argument

namespace ComputeRun

variable {s : Settings} {nonce : UInt32}

def outcome (run : ComputeRun s nonce) : Outcome Nat :=
  (program run.arguments).run run.clocks run.input 0 run.files

def seconds (run : ComputeRun s nonce) : Binary64 :=
  secondsBetween (run.clocks.direct 0) (run.clocks.direct 1)

/-- What the output of the run holds. -/
structure Delivers (run : ComputeRun s nonce) (document : String) : Prop where
  printed : run.output = none → run.outcome.printed = [document]
  written : ∀ path ∈ run.output, ∃ content, run.outcome.files.read path = .ok content ∧
    Holds content document run.compress

theorem exists_computed (run : ComputeRun s nonce) {d : Difficulty}
    (hdifficulty : s.parsedDifficulty = .ok d) (hdpll : s.algorithmId = "dpll") :
    ∃ m : Submission, IsComputed s d nonce m ∧ m.secondsTaken = run.seconds ∧
      run.Delivers m.toValue.canonical ∧
      run.outcome.result = if m.isSolution then 0 else noSolutionCode := by
  have hlasts := (Challenge.generate (s.seed nonce) d).not_expires_of_lasts run.lasts
  obtain ⟨solved, hsolve, hm⟩ := isComputed_of_lasts hdpll hlasts run.debug run.seconds
  obtain ⟨files, printed, hdeliver, hprinted, hwritten⟩ :=
    deliver_performs run.clocks run.input (w := ⟨2, run.files⟩)
      (submitted s nonce solved run.seconds) run.compress run.writable
  obtain ⟨events, hperforms⟩ := compute_performs (w := ⟨0, run.files⟩)
    (loadedTask_eq_ok_iff.2 ⟨run.reads, hdifficulty⟩) hsolve hdeliver
  have houtcome := run_compute run.command hperforms
  refine ⟨submitted s nonce solved run.seconds, hm, rfl, ?_, ?_⟩
  · constructor
    · intro hnone
      rw [outcome, houtcome]
      exact hprinted hnone
    · intro path hpath
      rw [outcome, houtcome]
      exact hwritten path hpath
  · rw [outcome, houtcome]
    rfl

end ComputeRun

namespace VerifyRun

variable {s : Settings} {nonce : UInt32}

def outcome {document : String} (run : VerifyRun s nonce document) : Outcome Nat :=
  (program run.arguments).run run.clocks run.input 0 run.files

/-- A text that is handed over ends like an object, or with a blank. -/
theorem getLast?_content {document : String} (run : VerifyRun s nonce document)
    (hdocument : document.toList.getLast? = some '\x7d') :
    ∃ c, run.content.toList.getLast? = some c ∧ (c = '\x7d' ∨ isBlank c = true) := by
  rw [run.content_eq]
  rcases List.eq_nil_or_concat run.blanks with hnone | ⟨front, c, hblanks⟩
  · rw [hnone, List.append_nil]
    exact ⟨'\x7d', hdocument, Or.inl rfl⟩
  · have hblank : isBlank c = true := run.isBlank_blanks c (by simp [hblanks])
    refine ⟨c, ?_, Or.inr hblank⟩
    rw [hblanks, List.concat_eq_append, ← List.append_assoc, List.getLast?_concat]

theorem verdict_eq {m : Submission} (hm : m.IsPortable)
    (run : VerifyRun s nonce m.toValue.canonical) {d : Difficulty}
    (hdifficulty : s.parsedDifficulty = .ok d) :
    verdict run.files run.input run.settings nonce run.argument (run.budget.getD .unlimited)
      run.clocks.watched =
        judge s d nonce m (run.budget.getD .unlimited) run.clocks.watched := by
  have htask := loadedTask_eq_ok_iff.2 ⟨run.reads, hdifficulty⟩
  have hread : Submission.reader.readText run.content = .ok m :=
    Reader.readText_eq (Submission.canonical_reads hm) blanks_nil run.isBlank_blanks run.content_eq
  obtain ⟨c, hlast, hobject⟩ := run.getLast?_content (Value.getLast?_canonical_object _)
  have htext : documentText run.files run.input run.argument = .ok run.content :=
    run.carries.documentText_eq hlast hobject
  have hsubmission := loadedSubmission_eq_ok_iff.2 ⟨run.content, htext, hread⟩
  rw [verdict, htask, hsubmission]

end VerifyRun

/-! ### Runs on the two challenges -/

theorem FileStore.exists_write_container (content : Bytes) :
    ∃ after, FileStore.empty.write "a.zlib" content = .ok after := by
  have hsplit : "a.zlib".splitOn "/" = ["a.zlib"] := by
    rw [String.splitOn, if_neg (by decide)]
    iterate 6 rw [String.splitOnAux, if_neg (by decide), if_neg (by decide)]
    rw [String.splitOnAux, if_pos (by decide)]
    decide
  have hpath : FileStore.path "a.zlib" = .ok ⟨⟨.working 0, []⟩, ["a.zlib"], false⟩ := by
    rw [FileStore.path, if_neg (by decide), if_neg (by decide), Path.ofText, hsplit]
    rfl
  refine ⟨⟨[(⟨.working 0, ["a.zlib"]⟩, content)], []⟩, ?_⟩
  rw [FileStore.write, hpath]
  rfl

section

variable (nonce : UInt32) (arguments : List String)

/-- Computing where there are no files yet. -/
def crowdedComputing (output : Option String) (compress : Bool)
    (command : Command.ofArguments arguments =
      .ok (.compute crowdedText nonce none false output compress))
    (writable : ∀ path ∈ output, ∀ content, ∃ after,
      FileStore.empty.write path content = .ok after) : ComputeRun crowdedSettings nonce where
  arguments := arguments
  settings := crowdedText
  budget := none
  debug := false
  output := output
  compress := compress
  clocks := .still
  input := []
  files := .empty
  command := command
  lasts := Budget.unlimited_lasts
  reads := ⟨crowdedText, settingsText_crowdedText _, readText_crowdedText⟩
  writable := writable

/-- Verifying what a file holds. -/
def crowdedVerifying {document path : String} {files : FileStore}
    (command : Command.ofArguments arguments = .ok (.verify crowdedText nonce path none))
    (carries : Carries files [] document path) : VerifyRun crowdedSettings nonce document where
  arguments := arguments
  settings := crowdedText
  argument := path
  content := document
  blanks := []
  budget := none
  clocks := .still
  input := []
  files := files
  command := command
  lasts := Budget.unlimited_lasts
  reads := ⟨crowdedText, settingsText_crowdedText _, readText_crowdedText⟩
  content_eq := (List.append_nil _).symm
  isBlank_blanks := blanks_nil
  carries := carries

theorem outcome_crowdedComputing (output : Option String) (compress : Bool) {command} {writable} :
    (crowdedComputing nonce arguments output compress command writable).outcome =
      (program arguments).run .still [] 0 .empty :=
  rfl

theorem outcome_crowdedVerifying {document path : String} {files : FileStore} {command}
    {carries : Carries files [] document path} :
    (crowdedVerifying nonce arguments command carries).outcome =
      (program arguments).run .still [] 0 files :=
  rfl

end

/-- **What the compute command delivers, the verify command judges correctly.**
    Computing tells whether the challenge has a solution, and delivers a document.
    In every run on the same settings and nonce that the document is handed over
    to, verifying accepts it in the first case, and in the other refuses it for
    its input.  The document must be writable without loss: its trace may not be
    too long, and its seconds must be read back from their numeral. -/
theorem compute_then_verify {s : Settings} {d : Difficulty} {nonce : UInt32}
    (hdifficulty : s.parsedDifficulty = .ok d) (hdpll : s.algorithmId = "dpll")
    (computing : ComputeRun s nonce) :
    let c := Challenge.generate (s.seed nonce) d
    let Solvable := Satisfiable d.variableCount c.clauses
    (Solvable → computing.outcome.result = 0) ∧ (¬ Solvable → computing.outcome.result = 85) ∧
    ∃ document, computing.Delivers document ∧
      (∀ path ∈ computing.output,
        hasEnding path (if computing.compress then ".zlib" else ".json") = true →
        ∀ input, Carries computing.outcome.files input document path) ∧
      (computing.seconds.isFinite = true →
        Reader.binary64.readText (Layout.document.text computing.seconds) =
          .ok computing.seconds →
        (c.traceOf Dpll.solver).length < 2 ^ 29 →
        ∀ verifying : VerifyRun s nonce document,
          (Solvable → verifying.outcome.result = 0 ∧
            verifying.outcome.printed = ["Solution is valid"]) ∧
          (¬ Solvable → verifying.outcome.result = 1 ∧ verifying.outcome.printed = [] ∧
            verifying.outcome.complaints = [(CommandError.rejected (.failure (.invalidSolution
              (.wrongLength d.variableCount 0)))).message])) := by
  intro c Solvable
  -- the submission is the same on both sides, since its text is read back as it was
  obtain ⟨m, hm, hseconds, hdelivers, hresult⟩ := computing.exists_computed hdifficulty hdpll
  have hsolvable : m.isSolution = true ↔ Solvable := by
    rw [hm.isSolution_iff, hm.seed_eq]
  refine ⟨?_, ?_, m.toValue.canonical, hdelivers, ?_, ?_⟩
  · intro hsat
    rw [hresult, if_pos (hsolvable.2 hsat)]
  · intro hunsat
    rw [hresult, if_neg (mt hsolvable.1 hunsat)]
    rfl
  · intro path hpath hname input
    obtain ⟨content, hread, hholds⟩ := hdelivers.written path hpath
    exact .of_holds hread hholds hname input
  · intro hfinite hread htrace verifying
    rw [← hseconds] at hfinite hread
    have hverdict := verifying.verdict_eq ⟨hm.fits htrace, hfinite, hread⟩ hdifficulty
    have hrun := run_verify verifying.command hverdict
    constructor
    · intro hsat
      have hok := hm.judge_ok hdpll verifying.lasts (hsolvable.2 hsat)
      rw [Verdict.outcome_ok hok] at hrun
      exact ⟨congrArg Outcome.result hrun, congrArg Outcome.printed hrun⟩
    · intro hunsat
      have hfalse := Bool.eq_false_iff.2 (mt hsolvable.1 hunsat)
      have herror := hm.judge_error hdpll (verifying.budget.getD .unlimited)
        verifying.clocks.watched hfalse
      rw [Verdict.outcome_error herror] at hrun
      exact ⟨congrArg Outcome.result hrun, congrArg Outcome.printed hrun,
        congrArg Outcome.complaints hrun⟩

/-- Two documents that are computed into a container and verified from there, for a
    challenge with a solution and for one without. -/
theorem compute_then_verify_container :
    let computed (nonce : String) := (program ["compute_solution", "--output=a.zlib", "--compress",
      crowdedText, nonce]).run .still [] 0 .empty
    let verified (nonce : String) := (program ["verify_solution", crowdedText, nonce,
      "a.zlib"]).run .still [] 0 (computed nonce).files
    ((computed "2").result = 0 ∧ (verified "2").result = 0 ∧
      (verified "2").printed = ["Solution is valid"]) ∧
    (computed "7").result = 85 ∧ (verified "7").result = 1 ∧ (verified "7").printed = [] := by
  have hfinite : (secondsBetween 0 0).isFinite = true := by decide +kernel
  have hzero : Reader.binary64.readText (Layout.document.text (secondsBetween 0 0)) =
      .ok (secondsBetween 0 0) := by decide +kernel
  have hname : hasEnding "a.zlib" ".zlib" = true := by decide
  have hdifficulty : crowdedSettings.parsedDifficulty = .ok crowded := rfl
  have hwritable : ∀ path ∈ some "a.zlib", ∀ content, ∃ after,
      FileStore.empty.write path content = .ok after :=
    fun _ hpath => Option.some.inj hpath ▸ FileStore.exists_write_container
  intro computed verified
  have hruns : ∀ (nonce : UInt32) (numeral : String),
      Command.ofArguments ["compute_solution", "--output=a.zlib", "--compress", crowdedText,
        numeral] = .ok (.compute crowdedText nonce none false (some "a.zlib") true) →
      Command.ofArguments ["verify_solution", crowdedText, numeral, "a.zlib"] =
        .ok (.verify crowdedText nonce "a.zlib" none) →
      let Solvable := Satisfiable 3
        (Challenge.generate (crowdedSettings.seed nonce) crowded).clauses
      (Solvable → (computed numeral).result = 0 ∧ (verified numeral).result = 0 ∧
        (verified numeral).printed = ["Solution is valid"]) ∧
      (¬ Solvable → (computed numeral).result = 85 ∧ (verified numeral).result = 1 ∧
        (verified numeral).printed = []) := by
    intro nonce numeral hcompute hverify Solvable
    obtain ⟨hsolved, hunsolved, document, -, hcarries, hjudged⟩ := compute_then_verify
      hdifficulty rfl (crowdedComputing nonce _ _ _ hcompute hwritable)
    obtain ⟨haccepts, hrefuses⟩ := hjudged hfinite hzero (length_traceOf_crowded _)
      (crowdedVerifying nonce _ hverify (hcarries "a.zlib" rfl hname []))
    rw [outcome_crowdedVerifying, outcome_crowdedComputing] at haccepts hrefuses
    rw [outcome_crowdedComputing] at hsolved hunsolved
    refine ⟨fun hsat => ⟨hsolved hsat, haccepts hsat⟩, fun hunsat => ?_⟩
    obtain ⟨hresult, hprinted, -⟩ := hrefuses hunsat
    exact ⟨hunsolved hunsat, hresult, hprinted⟩
  exact ⟨(hruns 2 "2" (by decide +kernel) (by decide +kernel)).1 satisfiable_crowded,
    (hruns 7 "7" (by decide +kernel) (by decide +kernel)).2 not_satisfiable_crowded⟩

end SatReplay.CommandLine
