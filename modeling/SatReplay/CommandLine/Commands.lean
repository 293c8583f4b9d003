/-
  SatReplay/CommandLine/Commands.lean
  ===================================
  **Carrying out commands.**  Computing writes one submission, or nothing when
  something is wrong before; verifying prints its verdict and writes nothing.  A
  command ends with an exit code: 0 when all went well, 85 when the challenge
  has no solution, 1 when something is wrong, 2 when there is no command.
-/
import SatReplay.CommandLine.Arguments
import SatReplay.CommandLine.Shell
import SatReplay.Json.Packed
import SatReplay.Registry
import SatReplay.Settings
import SatReplay.Submission

namespace SatReplay.CommandLine

open Json

/-- Why no text comes from a file or from the input. -/
inductive TextError where
  | file (cause : FileError)
  | notText
deriving DecidableEq, Repr

def TextError.message : TextError → String
  | .file cause => cause.message
  | .notText => "stream did not contain valid UTF-8"

inductive CommandError where
  | settingsFile (path : String) (cause : TextError)
  | badSettings (cause : ReadError)
  | documentFile (path : String) (cause : TextError)
  | input (cause : TextError)
  | badDocument (cause : ReadError)
  | badContainer (cause : UnpackError)
  | otherChallenge (foundNonce : UInt32) (foundSeed : Int32) (nonce : UInt32) (seed : Int32)
  | otherAlgorithm (found named : String)
  | notWritten (cause : FileError)
  | trouble (cause : Trouble)
  | rejected (cause : Trouble)
deriving DecidableEq, Repr

def CommandError.message : CommandError → String
  | .settingsFile path cause =>
    "Error: Failed to read settings file '" ++ path ++ "': " ++ cause.message
  | .badSettings cause => "Error: Failed to parse settings: " ++ cause.message
  | .documentFile path cause =>
    "Error: Failed to read output file '" ++ path ++ "': " ++ cause.message
  | .input cause => "Error: Failed to read output data from stdin: " ++ cause.message
  | .badDocument cause => "Error: Failed to parse output data: " ++ cause.message
  | .badContainer cause => "Error: " ++ cause.message
  | .otherChallenge foundNonce foundSeed nonce seed =>
    "Error: Output data is for nonce " ++ toString foundNonce.toNat ++ " (seed " ++
      toString foundSeed.toInt ++ "), expected nonce " ++ toString nonce.toNat ++ " (seed " ++
      toString seed.toInt ++ ")"
  | .otherAlgorithm found named =>
    "Error: Output data was produced by '" ++ found ++ "', settings name '" ++ named ++ "'"
  | .notWritten cause => "Error: " ++ cause.message
  | .trouble cause => "Error: " ++ cause.message
  | .rejected cause => "Verification error: " ++ cause.message

abbrev Action (α : Type) := ExceptT CommandError Shell α

namespace Action

def fail {α : Type} (e : CommandError) : Action α := ExceptT.mk (.done (.error e))

def ofExcept {α ε : Type} (f : ε → CommandError) : Except ε α → Action α
  | .ok a => ExceptT.mk (.done (.ok a))
  | .error e => fail (f e)

def readFile (path : String) : Action (Except FileError Bytes) :=
  ExceptT.mk (.readFile path fun r => .done (.ok r))

def writeFile (path : String) (content : Bytes) : Action (Except FileError Unit) :=
  ExceptT.mk (.writeFile path content fun r => .done (.ok r))

def readInput : Action Bytes := ExceptT.mk (.readInput fun r => .done (.ok r))

def readClock : Action Nat := ExceptT.mk (.readClock fun r => .done (.ok r))

def watch (budget : Budget) : Action Clock :=
  ExceptT.mk (.watch budget fun r => .done (.ok r))

def print (line : String) : Action Unit := ExceptT.mk (.print line (.done (.ok ())))

def complain (line : String) : Action Unit := ExceptT.mk (.complain line (.done (.ok ())))

def report (events : List Event) : Action Unit :=
  ExceptT.mk (Shell.reportAll events (.done (.ok ())))

end Action

def decodeText (bytes : Bytes) : Except TextError String :=
  match Bytes.toText? bytes with
  | some text => .ok text
  | none => .error .notText

def readText (path : String) : Action (Except TextError String) := do
  match ← Action.readFile path with
  | .ok bytes => return decodeText bytes
  | .error cause => return .error (.file cause)

def hasEnding (text ending : String) : Bool := ending.toList.isSuffixOf text.toList

/-- Settings are given as a text, or as the name of a file that ends in
    `.json`. -/
def loadSettings (settings : String) : Action Settings := do
  let text ←
    if hasEnding settings ".json" then
      Action.ofExcept (CommandError.settingsFile settings) (← readText settings)
    else pure settings
  Action.ofExcept CommandError.badSettings (Settings.reader.readText text)

/-- A submission is given as a text, as a dash for the input, or as the name of a
    file that ends in `.json`, or in `.zlib` for a container. -/
def loadSubmission (document : String) : Action Submission := do
  if hasEnding document ".zlib" then
    let bytes ← Action.ofExcept (fun cause => CommandError.documentFile document (.file cause))
      (← Action.readFile document)
    Action.ofExcept CommandError.badContainer (Submission.reader.unpack bytes)
  else
    let text ←
      if document = "-" then
        Action.ofExcept CommandError.input (decodeText (← Action.readInput))
      else if hasEnding document ".json" then
        Action.ofExcept (CommandError.documentFile document) (← readText document)
      else pure document
    Action.ofExcept CommandError.badDocument (Submission.reader.readText text)

/-- The settings and the difficulty that they give. -/
def loadTask (settings : String) : Action (Settings × Difficulty) := do
  let settings ← loadSettings settings
  let difficulty ←
    Action.ofExcept (fun cause => .trouble (.failure cause)) settings.parsedDifficulty
  return (settings, difficulty)

/-- What an output file gets. -/
def fileContent (submission : Submission) (compress : Bool) : Bytes :=
  if compress then submission.toValue.pack else Bytes.ofText submission.toValue.canonical

/-- Delivers a submission: to the file, if one is given, and else as a line. -/
def deliver (submission : Submission) (output : Option String) (compress : Bool) :
    Action Unit := do
  match output with
  | none => Action.print submission.toValue.canonical
  | some path =>
    let content := fileContent submission compress
    Action.ofExcept CommandError.notWritten (← Action.writeFile path content)
    Action.print ("output_data written to: " ++ Quoted.quote path)

/-- The exit code for a challenge without a solution. -/
def noSolutionCode : Nat := 85

/-- The seconds between two readings of the clock. -/
def secondsBetween (start stop : Nat) : Binary64 := Budget.seconds (stop - start)

/-- What is handed in when the solver has found this. -/
def submitted (settings : Settings) (nonce : UInt32) (solved : Solved) (seconds : Binary64) :
    Submission :=
  ⟨nonce, settings.seed nonce, settings.algorithmId, solved.isSolution, seconds, solved.solution⟩

/-- What computing still does when the solver has come to a result. -/
def conclude (settings : Settings) (nonce : UInt32) (start : Nat) (output : Option String)
    (compress : Bool) (result : Except Trouble Solved) : Action Nat := do
  let solved ← Action.ofExcept CommandError.trouble result
  let stop ← Action.readClock
  let seconds := secondsBetween start stop
  Action.report
    [.solveFinished settings.algorithmId (settings.seed nonce) solved.isSolution
      solved.solution.trace.length seconds]
  deliver (submitted settings nonce solved seconds) output compress
  if solved.isSolution then return 0
  else
    Action.complain "No solution found"
    return noSolutionCode

def compute (registry : Registry) (settings : String) (nonce : UInt32)
    (budget : Option Budget) (debug : Bool) (output : Option String) (compress : Bool) :
    Action Nat := do
  let (settings, difficulty) ← loadTask settings
  let seed := settings.seed nonce
  let start ← Action.readClock
  let challenge := Challenge.generate seed difficulty
  Action.report [.challengeGenerated seed difficulty.variableCount challenge.clauses.length]
  let budget := budget.getD Budget.unlimited
  let clock ← Action.watch budget
  let reported := registry.solve challenge settings.algorithmId budget clock debug
  Action.report reported.events
  conclude settings nonce start output compress reported.result

/-- Checks a submission against the settings and the nonce. -/
def verify (registry : Registry) (settings : String) (nonce : UInt32)
    (document : String) (budget : Option Budget) : Action Nat := do
  let (settings, difficulty) ← loadTask settings
  let submission ← loadSubmission document
  let seed := settings.seed nonce
  if submission.nonce ≠ nonce ∨ submission.seed ≠ seed then
    Action.fail (.otherChallenge submission.nonce submission.seed nonce seed)
  else if submission.algorithmId ≠ settings.algorithmId then
    Action.fail (.otherAlgorithm submission.algorithmId settings.algorithmId)
  else
    let challenge := Challenge.generate seed difficulty
    let budget := budget.getD Budget.unlimited
    let clock ← Action.watch budget
    let reported :=
      registry.verify challenge settings.algorithmId submission.solution budget clock
    Action.report reported.events
    Action.ofExcept CommandError.rejected reported.result
    Action.print "Solution is valid"
    return 0

def listNames (registry : Registry) : Action Nat := do
  registry.names.forM Action.print
  return 0

/-- Carries out a command with the solvers of a registry. -/
def Command.action (registry : Registry) : Command → Action Nat
  | .compute settings nonce budget debug output compress =>
    CommandLine.compute registry settings nonce budget debug output compress
  | .verify settings nonce document budget =>
    CommandLine.verify registry settings nonce document budget
  | .list => listNames registry

/-- The exit code of a command; a failure is said. -/
def exitCode (action : Action Nat) : Shell Nat :=
  (ExceptT.run action).bind fun
    | .ok code => .done code
    | .error e => .complain e.message (.done 1)

/-- The whole program: its arguments, and what it does. -/
def program (arguments : List String) : Shell Nat :=
  match Command.ofArguments arguments with
  | .ok command => exitCode (command.action Registry.standard)
  | .error .asked => usage.foldr Shell.print (.done 0)
  | .error .wrong => usage.foldr Shell.complain (.done 2)

/-- Whether events of a level are shown: debug events only in debug mode. -/
def shows (arguments : List String) (level : Level) : Bool :=
  match level with
  | .debug =>
    match Command.ofArguments arguments with
    | .ok (.compute _ _ _ debug _ _) => debug
    | _ => false
  | _ => true

end SatReplay.CommandLine
