/-
  SatReplay/Proofs/CommandLine/Performing.lean
  ============================================
  **Commands carried out part by part.**  `Shell.run` carries a whole computation
  out.  A part of one `Performs` a result if, whatever goes on from it, the run
  is what the rest does from there, behind what the part has written.  Parts are
  put together like the commands themselves, so the run of a command follows
  from one lemma about each of its steps.
-/
import SatReplay.CommandLine.Commands

namespace SatReplay.CommandLine

/-! ### Computations -/

/-- What a computation finds: how often the clock has been read directly, and the files. -/
structure World where
  readings : Nat
  files : FileStore

/-- What a computation writes to its streams. -/
structure Written where
  printed : List String
  complaints : List String
  events : List Event

namespace Written

def nothing : Written := ⟨[], [], []⟩

def append (v w : Written) : Written :=
  ⟨v.printed ++ w.printed, v.complaints ++ w.complaints, v.events ++ w.events⟩

instance : Append Written := ⟨append⟩

@[simp] theorem nothing_append (w : Written) : nothing ++ w = w := rfl

@[simp] theorem append_nothing (w : Written) : w ++ nothing = w := by
  show append w nothing = w
  simp [append, nothing]

/-- What is reported stands before what is reported later. -/
theorem reported_append (printed complaints : List String) (events more : List Event) :
    (⟨[], [], events⟩ : Written) ++ ⟨printed, complaints, more⟩ =
      ⟨printed, complaints, events ++ more⟩ :=
  rfl

theorem events_append (printed complaints : List String) (events : List Event) :
    (⟨[], [], events⟩ : Written) ++ ⟨printed, complaints, []⟩ = ⟨printed, complaints, events⟩ :=
  congrArg (mk printed complaints) (List.append_nil events)

theorem printed_append (printed complaints : List String) :
    (⟨printed, [], []⟩ : Written) ++ ⟨[], complaints, []⟩ = ⟨printed, complaints, []⟩ :=
  congrArg (mk · complaints []) (List.append_nil printed)

end Written

/-- The outcome when something had been written before. -/
def Outcome.behind {α : Type} (o : Outcome α) (w : Written) : Outcome α :=
  { o with
    printed := w.printed ++ o.printed
    complaints := w.complaints ++ o.complaints
    events := w.events ++ o.events }

theorem Outcome.behind_behind {α : Type} (o : Outcome α) (v w : Written) :
    (o.behind w).behind v = o.behind (v ++ w) := by
  simp only [behind, ← List.append_assoc]
  rfl

namespace Shell

variable {α β γ : Type}

theorem bind_assoc (p : Shell α) (f : α → Shell β) (g : β → Shell γ) :
    (p.bind f).bind g = p.bind fun a => (f a).bind g := by
  induction p with
  | done a => rfl
  | readFile path next ih => exact congrArg (Shell.readFile path) (funext ih)
  | writeFile path content next ih => exact congrArg (Shell.writeFile path content) (funext ih)
  | readInput next ih => exact congrArg Shell.readInput (funext ih)
  | readClock next ih => exact congrArg Shell.readClock (funext ih)
  | watch budget next ih => exact congrArg (Shell.watch budget) (funext ih)
  | print line next ih => exact congrArg (Shell.print line) ih
  | complain line next ih => exact congrArg (Shell.complain line) ih
  | report event next ih => exact congrArg (Shell.report event) ih

/-- The computation comes to a result in a world, having written something. -/
def Performs (clocks : Clocks) (input : Bytes) (p : Shell α) (w : World) (a : α) (after : World)
    (out : Written) : Prop :=
  ∀ (β : Type) (next : α → Shell β),
    (p.bind next).run clocks input w.readings w.files =
      ((next a).run clocks input after.readings after.files).behind out

end Shell

/-! ### Actions -/

/-- The action comes to a result or a failure. -/
abbrev Action.Performs {α : Type} (clocks : Clocks) (input : Bytes) (p : Action α) (w : World)
    (r : Except CommandError α) (after : World) (out : Written) : Prop :=
  Shell.Performs clocks input (ExceptT.run p) w r after out

namespace Action

variable {α β : Type} {clocks : Clocks} {input : Bytes} {w after last : World}
  {out more total : Written}

theorem performs_pure (a : α) : (pure a : Action α).Performs clocks input w (.ok a) w .nothing :=
  fun _ _ => rfl

theorem performs_fail (e : CommandError) :
    (fail e : Action α).Performs clocks input w (.error e) w .nothing :=
  fun _ _ => rfl

theorem performs_ofExcept {ε : Type} (f : ε → CommandError) (r : Except ε α) :
    (ofExcept f r).Performs clocks input w (r.mapError f) w .nothing := by
  cases r with
  | error e => exact fun _ _ => rfl
  | ok a => exact fun _ _ => rfl

theorem performs_ofExcept_ok {ε : Type} {f : ε → CommandError} {r : Except ε α} {a : α}
    (h : r = .ok a) : (ofExcept f r).Performs clocks input w (.ok a) w .nothing := by
  subst h
  exact performs_ofExcept f (.ok a)

theorem performs_readFile (path : String) :
    (readFile path).Performs clocks input w (.ok (w.files.read path)) w .nothing :=
  fun _ _ => rfl

theorem performs_readInput : readInput.Performs clocks input w (.ok input) w .nothing :=
  fun _ _ => rfl

theorem performs_readClock :
    readClock.Performs clocks input w (.ok (clocks.direct w.readings))
      { w with readings := w.readings + 1 } .nothing :=
  fun _ _ => rfl

theorem performs_watch (budget : Budget) :
    (watch budget).Performs clocks input w (.ok clocks.watched) w .nothing :=
  fun _ _ => rfl

theorem performs_writeFile {path : String} {content : Bytes} {files : FileStore}
    (h : w.files.write path content = .ok files) :
    (writeFile path content).Performs clocks input w (.ok (.ok ())) { w with files := files }
      .nothing := by
  intro β next
  show Shell.run clocks input (.writeFile path content _) w.readings w.files = _
  simp only [Shell.run, h]
  rfl

theorem performs_writeFile_error {path : String} {content : Bytes} {cause : FileError}
    (h : w.files.write path content = .error cause) :
    (writeFile path content).Performs clocks input w (.ok (.error cause)) w .nothing := by
  intro β next
  show Shell.run clocks input (.writeFile path content _) w.readings w.files = _
  simp only [Shell.run, h]
  rfl

theorem performs_print (line : String) :
    (print line).Performs clocks input w (.ok ()) w ⟨[line], [], []⟩ :=
  fun _ _ => rfl

theorem performs_complain (line : String) :
    (complain line).Performs clocks input w (.ok ()) w ⟨[], [line], []⟩ :=
  fun _ _ => rfl

theorem performs_report (events : List Event) :
    (report events).Performs clocks input w (.ok ()) w ⟨[], [], events⟩ := by
  induction events with
  | nil => exact fun _ _ => rfl
  | cons event events ih =>
    intro β next
    show Shell.run clocks input (.report event _) w.readings w.files = _
    rw [Shell.run]
    exact congrArg (fun o : Outcome β => { o with events := event :: o.events }) (ih β next)

theorem run_bind (p : Action α) (f : α → Action β) :
    ExceptT.run (p >>= f) = (ExceptT.run p).bind fun
      | .ok a => ExceptT.run (f a)
      | .error e => .done (.error e) := by
  show Shell.bind _ _ = Shell.bind _ _
  congr 1
  funext r
  cases r with
  | error e => rfl
  | ok a => rfl

theorem performs_bind {p : Action α} {f : α → Action β} {a : α} {r : Except CommandError β}
    (hp : p.Performs clocks input w (.ok a) after out)
    (hf : (f a).Performs clocks input after r last more) (htotal : out ++ more = total) :
    (p >>= f).Performs clocks input w r last total := by
  intro γ next
  rw [run_bind, Shell.bind_assoc, hp, hf, Outcome.behind_behind, htotal]

/-- A step that writes nothing. -/
theorem performs_step {p : Action α} {f : α → Action β} {a : α} {r : Except CommandError β}
    (hp : p.Performs clocks input w (.ok a) after .nothing)
    (hf : (f a).Performs clocks input after r last out) :
    (p >>= f).Performs clocks input w r last out :=
  performs_bind hp hf (Written.nothing_append out)

theorem performs_bind_error {p : Action α} {f : α → Action β} {e : CommandError}
    (hp : p.Performs clocks input w (.error e) after out) :
    (p >>= f).Performs clocks input w (.error e) after out := by
  intro γ next
  rw [run_bind, Shell.bind_assoc, hp]
  rfl

end Action

/-! ### Exit codes -/

/-- What is seen of a command that comes to an exit code or a failure. -/
def Outcome.ofResult (r : Except CommandError Nat) (after : World) (out : Written) : Outcome Nat :=
  match r with
  | .ok code => ⟨code, after.files, out.printed, out.complaints, out.events⟩
  | .error e => ⟨1, after.files, out.printed, out.complaints ++ [e.message], out.events⟩

theorem run_exitCode {action : Action Nat} {clocks : Clocks} {input : Bytes} {w after : World}
    {r : Except CommandError Nat} {out : Written}
    (h : action.Performs clocks input w r after out) :
    (exitCode action).run clocks input w.readings w.files = Outcome.ofResult r after out := by
  rw [exitCode, h]
  cases r with
  | ok code => simp [Shell.run, Outcome.behind, Outcome.ofResult]
  | error e => simp [Shell.run, Outcome.behind, Outcome.ofResult]

end SatReplay.CommandLine
