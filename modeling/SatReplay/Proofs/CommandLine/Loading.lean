/-
  SatReplay/Proofs/CommandLine/Loading.lean
  =========================================
  **What the arguments of a command stand for.**  Settings and documents come as
  texts, in files, as the input, or in containers.  `settingsText` and
  `documentText` say which text an argument stands for, and the loading commands
  perform the reading of these texts and nothing else.
-/
import SatReplay.Proofs.Bytes.Text
import SatReplay.Proofs.CommandLine.Files
import SatReplay.Proofs.CommandLine.Performing

namespace SatReplay.CommandLine

open Json

/-! ### Texts -/

def fileText (files : FileStore) (path : String) : Except TextError String :=
  match files.read path with
  | .ok bytes => decodeText bytes
  | .error cause => .error (.file cause)

/-- The settings as a text: the argument itself, or what is in the file that it
    names. -/
def settingsText (files : FileStore) (argument : String) : Except CommandError String :=
  if hasEnding argument ".json" then
    (fileText files argument).mapError (.settingsFile argument)
  else .ok argument

def containerText (bytes : Bytes) : Except UnpackError String :=
  match Zlib.decompress? bytes with
  | none => .error .notZlib
  | some content =>
    match Bytes.toText? content with
    | none => .error .notText
    | some text => .ok text

/-- A document as a text: the argument itself, the input, or what is in the file
    that the argument names. -/
def documentText (files : FileStore) (input : Bytes) (argument : String) :
    Except CommandError String :=
  if hasEnding argument ".zlib" then
    match files.read argument with
    | .ok bytes => (containerText bytes).mapError .badContainer
    | .error cause => .error (.documentFile argument (.file cause))
  else if argument = "-" then (decodeText input).mapError .input
  else if hasEnding argument ".json" then
    (fileText files argument).mapError (.documentFile argument)
  else .ok argument

theorem documentText_input (files : FileStore) (document : String) :
    documentText files (Bytes.ofText document) "-" = .ok document := by
  have hzlib : hasEnding "-" ".zlib" = false := by decide
  simp [documentText, hzlib, decodeText, Bytes.toText?_ofText, mapError_ok]

/-! ### Tasks and submissions -/

def loadedSettings (files : FileStore) (argument : String) : Except CommandError Settings :=
  (settingsText files argument).bind fun text =>
    (Settings.reader.readText text).mapError .badSettings

def loadedTask (files : FileStore) (argument : String) :
    Except CommandError (Settings × Difficulty) :=
  (loadedSettings files argument).bind fun s =>
    (s.parsedDifficulty.mapError fun cause => .trouble (.failure cause)).map fun d => (s, d)

/-- What is said when a document is not read as a submission. -/
def badSubmission (argument : String) (cause : ReadError) : CommandError :=
  if hasEnding argument ".zlib" then .badContainer (.unreadable cause) else .badDocument cause

def loadedSubmission (files : FileStore) (input : Bytes) (argument : String) :
    Except CommandError Submission :=
  (documentText files input argument).bind fun text =>
    (Submission.reader.readText text).mapError (badSubmission argument)

theorem loadedTask_eq_ok_iff {files : FileStore} {argument : String} {s : Settings}
    {d : Difficulty} :
    loadedTask files argument = .ok (s, d) ↔
      (∃ text, settingsText files argument = .ok text ∧ Settings.reader.readText text = .ok s) ∧
        s.parsedDifficulty = .ok d := by
  simp only [loadedTask, loadedSettings, bind_eq_ok_iff, mapError_eq_ok_iff]
  constructor
  · rintro ⟨t, hload, hmap⟩
    rcases hparsed : t.parsedDifficulty with cause | e
    · rw [hparsed] at hmap
      cases hmap
    · rw [hparsed] at hmap
      obtain ⟨rfl, rfl⟩ := Prod.mk.inj (Except.ok.inj hmap)
      exact ⟨hload, hparsed⟩
  · rintro ⟨hload, hparsed⟩
    exact ⟨s, hload, by rw [hparsed]; rfl⟩

/-- A task is not loaded because there is no text, the text is not read, or the
    difficulty is invalid. -/
theorem loadedTask_eq_error_iff {files : FileStore} {argument : String} {e : CommandError} :
    loadedTask files argument = .error e ↔
      settingsText files argument = .error e ∨
      (∃ text cause, settingsText files argument = .ok text ∧
        Settings.reader.readText text = .error cause ∧ e = .badSettings cause) ∨
      ∃ s cause, loadedSettings files argument = .ok s ∧
        Difficulty.ofList? s.difficulty = .error cause ∧
        e = .trouble (.failure (.invalidDifficulty cause)) := by
  have hdifficulty : ∀ s : Settings,
      ((s.parsedDifficulty.mapError fun cause => CommandError.trouble (.failure cause)).map
        fun d => (s, d)) = .error e ↔
      ∃ cause, Difficulty.ofList? s.difficulty = .error cause ∧
        e = .trouble (.failure (.invalidDifficulty cause)) := by
    intro s
    rw [Settings.parsedDifficulty]
    rcases Difficulty.ofList? s.difficulty with cause | d
    · simp [mapError_error, Except.map, eq_comm]
    · simp [mapError_ok, Except.map]
  rw [loadedTask, bind_eq_error_iff]
  simp only [hdifficulty]
  rw [loadedSettings, bind_eq_error_iff]
  simp only [mapError_eq_error_iff, or_assoc, exists_and_left]

theorem loadedSubmission_eq_ok_iff {files : FileStore} {input : Bytes} {argument : String}
    {m : Submission} :
    loadedSubmission files input argument = .ok m ↔
      ∃ text, documentText files input argument = .ok text ∧
        Submission.reader.readText text = .ok m := by
  simp only [loadedSubmission, bind_eq_ok_iff, mapError_eq_ok_iff]

/-! ### Loading -/

namespace Action

variable {clocks : Clocks} {input : Bytes} {w : World}

/-- Steps that change and write nothing go together as their results do. -/
theorem performs_then {α β : Type} {p : Action α} {f : α → Action β} {g : α → Except CommandError β}
    {r : Except CommandError α} (hp : p.Performs clocks input w r w .nothing)
    (hf : ∀ a, r = .ok a → (f a).Performs clocks input w (g a) w .nothing) :
    (p >>= f).Performs clocks input w (r.bind g) w .nothing := by
  cases r with
  | error e => exact performs_bind_error hp
  | ok a => exact performs_step hp (hf a rfl)

end Action

section

variable {clocks : Clocks} {input : Bytes} {w : World}

theorem readText_performs (path : String) :
    (readText path).Performs clocks input w (.ok (fileText w.files path)) w .nothing := by
  refine Action.performs_step (Action.performs_readFile path) ?_
  rw [fileText]
  cases w.files.read path with
  | error cause => exact Action.performs_pure _
  | ok bytes => exact Action.performs_pure _

theorem loadSettings_performs (argument : String) :
    (loadSettings argument).Performs clocks input w (loadedSettings w.files argument) w
      .nothing := by
  simp only [loadSettings, loadedSettings, settingsText]
  split
  · refine Action.performs_step (readText_performs argument) ?_
    exact Action.performs_then (Action.performs_ofExcept _ _)
      fun text _ => Action.performs_ofExcept _ _
  · exact Action.performs_step (Action.performs_pure argument) (Action.performs_ofExcept _ _)

theorem loadTask_performs (clocks : Clocks) (input : Bytes) (w : World) (argument : String) :
    (loadTask argument).Performs clocks input w (loadedTask w.files argument) w .nothing := by
  refine Action.performs_then (loadSettings_performs argument) fun s _ => ?_
  cases s.parsedDifficulty with
  | error cause => exact Action.performs_bind_error (Action.performs_ofExcept _ _)
  | ok d => exact Action.performs_step (Action.performs_ofExcept _ _) (Action.performs_pure _)

theorem unpack_eq (bytes : Bytes) :
    (Submission.reader.unpack bytes).mapError CommandError.badContainer =
      ((containerText bytes).mapError CommandError.badContainer).bind fun text =>
        (Submission.reader.readText text).mapError fun cause =>
          .badContainer (.unreadable cause) := by
  rw [Reader.unpack, containerText]
  rcases hcontent : Zlib.decompress? bytes with _ | content
  · rfl
  · rcases htext : Bytes.toText? content with _ | text
    · simp only [htext]
      rfl
    · simp only [htext, mapError_ok, Except.bind]
      cases Submission.reader.readText text with
      | error cause => rfl
      | ok m => rfl

theorem loadSubmission_performs (clocks : Clocks) (input : Bytes) (w : World) (argument : String) :
    (loadSubmission argument).Performs clocks input w (loadedSubmission w.files input argument) w
      .nothing := by
  simp only [loadSubmission, loadedSubmission, documentText]
  split
  next hzlib =>
    have hbad : badSubmission argument = fun cause => .badContainer (.unreadable cause) :=
      funext fun cause => if_pos hzlib
    refine Action.performs_step (Action.performs_readFile argument) ?_
    cases w.files.read argument with
    | error cause => exact Action.performs_bind_error (Action.performs_ofExcept _ _)
    | ok bytes =>
      refine Action.performs_step (Action.performs_ofExcept _ _) ?_
      rw [hbad, ← unpack_eq]
      exact Action.performs_ofExcept _ _
  next hzlib =>
    have hbad : badSubmission argument = CommandError.badDocument :=
      funext fun cause => if_neg hzlib
    rw [hbad]
    split
    · refine Action.performs_step Action.performs_readInput ?_
      exact Action.performs_then (Action.performs_ofExcept _ _)
        fun text _ => Action.performs_ofExcept _ _
    · split
      · refine Action.performs_step (readText_performs argument) ?_
        exact Action.performs_then (Action.performs_ofExcept _ _)
          fun text _ => Action.performs_ofExcept _ _
      · exact Action.performs_step (Action.performs_pure argument) (Action.performs_ofExcept _ _)

end

end SatReplay.CommandLine
