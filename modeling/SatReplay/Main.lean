/-
  SatReplay/Main.lean
  ===================
  **The program on a real machine**: what a command does is carried out on the
  files, the clock and the streams of the system.  Nothing is decided here.
-/
import SatReplay.CommandLine.Commands

namespace SatReplay.CommandLine

/-- The cause that a number of the system stands for; it may come negated. -/
def FileError.ofCode (code : UInt32) (details : String) : FileError :=
  let code := if code < 0x80000000 then code else 0 - code
  if code = 2 then .notFound
  else if code = 13 then .denied
  else if code = 20 then .notDirectory
  else if code = 21 then .isDirectory
  else if code = 36 then .nameTooLong
  else .other (details ++ " (os error " ++ toString code.toNat ++ ")")

/-- The cause of an error of the system. -/
def FileError.ofSystemError : IO.Error → FileError
  | .noFileOrDirectory _ code details | .interrupted _ code details
  | .alreadyExists _ code details | .invalidArgument _ code details
  | .permissionDenied _ code details | .resourceExhausted _ code details
  | .inappropriateType _ code details | .noSuchThing _ code details
  | .otherError code details | .resourceBusy code details | .resourceVanished code details
  | .unsupportedOperation code details | .hardwareFault code details
  | .unsatisfiedConstraints code details | .illegalOperation code details
  | .protocolError code details | .timeExpired code details => .ofCode code details
  | e => .other (toString e)

/-- Does something to a file, and says what went wrong. -/
def attempt {α : Type} (action : IO α) : IO (Except FileError α) := do
  match ← action.toBaseIO with
  | .ok a => return .ok a
  | .error e => return .error (.ofSystemError e)

def Level.label : Level → String
  | .debug => "DEBUG"
  | .info => "INFO"
  | .warn => "WARN"

def Detail.text : Detail → String
  | .number value => toString value
  | .word text => text

/-- The line that is logged for an event. -/
def logLine (event : Event) : String :=
  event.details.foldl (fun line (name, detail) => line ++ " " ++ name ++ "=" ++ Detail.text detail)
    (Level.label event.level ++ " " ++ event.message)

/-- Waits for a task while the budget lasts; says how much time had passed if it
    ended before the task did. -/
partial def awaitWithin {α : Type} (budget : Budget) (start : Nat) (task : Task α) :
    IO (Option Nat) := do
  let finished ← IO.hasFinished task
  let elapsed := (← IO.monoNanosNow) - start
  if budget.spentAfter elapsed then return some elapsed
  else if finished then return none
  else
    IO.sleep 1
    awaitWithin budget start task

/-- Carries a computation out.  While a budget is watched, the computation goes on
    as if no time passed; when the budget ends first, it is given up, and goes
    on from there with a clock that is beyond the end after its first reading. -/
partial def Shell.perform {α : Type} (shown : Level → Bool) : Shell α → IO α
  | .done a => return a
  | .readFile path next => do
    let content ← attempt (IO.FS.readBinFile path)
    perform shown (next (content.map fun bytes => bytes.toList))
  | .writeFile path content next => do
    let written ← attempt (IO.FS.writeBinFile path ⟨content.toArray⟩)
    perform shown (next written)
  | .readInput next => do
    let content ← (← IO.getStdin).readBinToEnd
    perform shown (next content.toList)
  | .readClock next => do
    let reading ← IO.monoNanosNow
    perform shown (next reading)
  | .watch budget next => do
    let start ← IO.monoNanosNow
    let task := Task.spawn fun _ => next Clock.still
    match ← awaitWithin budget start task with
    | none => perform shown task.get
    | some elapsed => perform shown (next fun reading => if reading = 0 then 0 else elapsed)
  | .print line next => do
    IO.println line
    perform shown next
  | .complain line next => do
    IO.eprintln line
    perform shown next
  | .report event next => do
    if shown event.level then IO.eprintln (logLine event)
    perform shown next

end SatReplay.CommandLine

def main (arguments : List String) : IO UInt32 := do
  let code ← (SatReplay.CommandLine.program arguments).perform
    (SatReplay.CommandLine.shows arguments)
  return UInt32.ofNat code
