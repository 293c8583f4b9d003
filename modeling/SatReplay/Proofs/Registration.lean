/-
  SatReplay/Proofs/Registration.lean
  ==================================
  **A registry remembers the last registration of each name.**  Registering a
  solver changes what is found under its name and nothing else, so by induction
  over the registrations a registry holds exactly the last one of every name
  (`Reached.getElem?_solvers`).  Its names are listed in the order of their bytes,
  since that is the order of the texts.

  The operations of a registry look for the solver before anything else.  The
  check of a proof then goes on in three steps, the decoder, the check of the
  input and the replay, and what one of them refuses the next one does not see:
  only the last step runs the solver and looks at the budget.
-/
import SatReplay.Registry
import SatReplay.Proofs.Bytes.Text
import SatReplay.Proofs.Solution.RoundTrip
import SatReplay.Proofs.SpentBudgets

namespace SatReplay

namespace Registry

/-! ### Registrations -/

/-- The registry comes from the empty one by these registrations, in order; the
    standard registry comes from it by one (`reached_standard`). -/
inductive Reached : Registry → List (String × Solver) → Prop
  | empty : Reached empty []
  | register {r : Registry} {history : List (String × Solver)} (h : Reached r history)
      (name : String) (solver : Solver) :
      Reached (r.register name solver).2 (history ++ [(name, solver)])

theorem reached_standard : Reached standard [("dpll", Dpll.solver)] :=
  .register .empty "dpll" Dpll.solver

/-- The solver of the last registration of a name. -/
def latest? (history : List (String × Solver)) (name : String) : Option Solver :=
  history.reverse.lookup name

theorem latest?_append (history : List (String × Solver)) (registered name : String)
    (solver : Solver) :
    latest? (history ++ [(registered, solver)]) name =
      if registered = name then some solver else latest? history name := by
  rw [latest?, List.reverse_append, List.reverse_singleton, List.singleton_append,
    List.lookup_cons]
  by_cases hname : registered = name
  · subst hname
    simp
  · have hother : (name == registered) = false := by simpa using Ne.symm hname
    rw [hother, if_neg hname]
    rfl

theorem getElem?_register (r : Registry) (registered name : String) (solver : Solver) :
    (r.register registered solver).2.solvers[name]? =
      if registered = name then some solver else r.solvers[name]? := by
  simp [register, Std.TreeMap.getElem?_insert]

/-- **Each name has its last registration**, whatever was registered before. -/
theorem Reached.getElem?_solvers {r : Registry} {history : List (String × Solver)}
    (h : Reached r history) (name : String) : r.solvers[name]? = latest? history name := by
  induction h with
  | empty => simp [Registry.empty, latest?]
  | register h registered solver ih => rw [getElem?_register, latest?_append, ih]

theorem latest?_isSome_iff (history : List (String × Solver)) (name : String) :
    (latest? history name).isSome = true ↔ ∃ solver, (name, solver) ∈ history := by
  simp [latest?]

theorem pairwise_names (r : Registry) :
    r.names.Pairwise fun name other => Bytes.ofText name < Bytes.ofText other := by
  have hkeys : r.names.Pairwise fun name other => compare name other = .lt :=
    Std.TreeMap.ordered_keys
  exact hkeys.imp fun hlt => Bytes.ofText_lt_of_lt (compareOfLessAndEq_eq_lt.1 hlt)

theorem mem_names_iff (r : Registry) (name : String) :
    name ∈ r.names ↔ r.solvers[name]?.isSome = true :=
  Std.TreeMap.mem_keys.trans Std.TreeMap.mem_iff_isSome_getElem?

theorem has_iff (r : Registry) (name : String) : r.has name = true ↔ name ∈ r.names :=
  Std.TreeMap.mem_iff_contains.symm.trans Std.TreeMap.mem_keys.symm

section

variable {r : Registry} {history : List (String × Solver)} (h : Reached r history) {name : String}

include h

theorem Reached.find_of_latest {solver : Solver} (hlatest : latest? history name = some solver) :
    r.find name = .ok solver := by
  rw [find, h.getElem?_solvers, hlatest]

theorem Reached.find_of_none (hnone : latest? history name = none) :
    r.find name = .error (.unknownAlgorithm name) := by
  rw [find, h.getElem?_solvers, hnone]

end

/-- What a registry shows of the registrations that have been made. -/
structure Remembers (r : Registry) (history : List (String × Solver)) : Prop where
  /-- Each name is listed once, in the order of the bytes. -/
  ascending : r.names.Pairwise fun name other => Bytes.ofText name < Bytes.ofText other
  mem_names : ∀ name, name ∈ r.names ↔ ∃ solver, (name, solver) ∈ history
  has_iff : ∀ name, r.has name = true ↔ name ∈ r.names
  find_of_mem : ∀ name ∈ r.names, ∃ solver,
    latest? history name = some solver ∧ r.find name = .ok solver
  find_of_not_mem : ∀ name ∉ r.names, r.find name = .error (.unknownAlgorithm name)
  /-- A registration gives back the solver whose name it takes. -/
  replaced : ∀ name solver, (r.register name solver).1 = latest? history name

theorem Reached.remembers {r : Registry} {history : List (String × Solver)}
    (h : Reached r history) : r.Remembers history := by
  have hmem : ∀ name, name ∈ r.names ↔ (latest? history name).isSome = true := by
    intro name
    rw [mem_names_iff, h.getElem?_solvers]
  refine ⟨r.pairwise_names, ?_, r.has_iff, ?_, ?_, fun name _ => h.getElem?_solvers name⟩
  · intro name
    rw [hmem, latest?_isSome_iff]
  · intro name hname
    obtain ⟨solver, hsolver⟩ := Option.isSome_iff_exists.1 ((hmem name).1 hname)
    exact ⟨solver, hsolver, h.find_of_latest hsolver⟩
  · intro name hname
    rw [hmem, Option.not_isSome_iff_eq_none] at hname
    exact h.find_of_none hname

/-! ### Operations by name -/

/-- Every operation refuses the name, whatever else it is given. -/
structure RefusesName (r : Registry) (name : String) : Prop where
  solve : ∀ c budget clock debug,
    r.solve c name budget clock debug = ⟨.error (.failure (.unknownAlgorithm name)), []⟩
  verifyMethod : ∀ c s budget clock,
    r.verifyMethod c name s budget clock = ⟨.error (.failure (.unknownAlgorithm name)), []⟩
  verify : ∀ c s budget clock,
    r.verify c name s budget clock = ⟨.error (.failure (.unknownAlgorithm name)), []⟩
  verifyProof : ∀ seed d proof budget clock,
    r.verifyProof seed d name proof budget clock =
      ⟨.error (.failure (.unknownAlgorithm name)), []⟩

/-- Every operation on the name is the operation with the solver. -/
structure Delegates (r : Registry) (name : String) (solver : Solver) : Prop where
  solve : ∀ c budget clock debug,
    r.solve c name budget clock debug = c.solve solver budget clock debug
  verifyMethod : ∀ c s budget clock,
    r.verifyMethod c name s budget clock = s.verifyMethod c solver budget clock
  verify : ∀ c s budget clock, r.verify c name s budget clock = s.verify c solver budget clock
  verifyProof : ∀ seed d proof budget clock,
    r.verifyProof seed d name proof budget clock =
      SatReplay.verifyProof seed d solver proof budget clock

theorem withSolver_of_find_error {α : Type} {r : Registry} {name : String} {cause : Failure}
    (h : r.find name = .error cause) (f : Solver → Reported α) :
    r.withSolver name f = ⟨.error (.failure cause), []⟩ := by
  rw [withSolver, h]

theorem withSolver_of_find_ok {α : Type} {r : Registry} {name : String} {solver : Solver}
    (h : r.find name = .ok solver) (f : Solver → Reported α) : r.withSolver name f = f solver := by
  rw [withSolver, h]

theorem refusesName_of_find_error {r : Registry} {name : String}
    (h : r.find name = .error (.unknownAlgorithm name)) : r.RefusesName name where
  solve _ _ _ _ := withSolver_of_find_error h _
  verifyMethod _ _ _ _ := withSolver_of_find_error h _
  verify _ _ _ _ := withSolver_of_find_error h _
  verifyProof _ _ _ _ _ := withSolver_of_find_error h _

theorem delegates_of_find_ok {r : Registry} {name : String} {solver : Solver}
    (h : r.find name = .ok solver) : r.Delegates name solver where
  solve _ _ _ _ := withSolver_of_find_ok h _
  verifyMethod _ _ _ _ := withSolver_of_find_ok h _
  verify _ _ _ _ := withSolver_of_find_ok h _
  verifyProof _ _ _ _ _ := withSolver_of_find_ok h _

end Registry

/-! ### The order of the checks -/

/-- What the check of a proof reports: what is wrong with the bytes, else what is
    wrong with the input, and only then what the replay says. -/
structure ChecksInOrder (c : Challenge) (solver : Solver) (proof : Bytes) (budget : Budget)
    (clock : Clock) (result : Except Trouble Unit) : Prop where
  malformed : ∀ defect, Solution.decode proof = .error defect →
    result = .error (.failure (.malformedProof defect))
  wrongLength : ∀ s, Solution.decode proof = .ok s → s.input.length ≠ c.variableCount →
    result = .error (.failure (.invalidSolution (.wrongLength c.variableCount s.input.length)))
  unsatisfied : ∀ s, Solution.decode proof = .ok s → s.input.length = c.variableCount →
    ¬ Satisfies (Input.valuation s.input) c.clauses →
      ∃ clause, IsLeast (Challenge.Unmet c.clauses s.input) clause ∧
        result = .error (.failure (.invalidSolution (.unsatisfied clause)))
  replayed : ∀ s, Solution.decode proof = .ok s → s.Meets c →
    result = (s.verifyMethod c solver budget clock).result

theorem Challenge.checkInput_of_not_satisfies {c : Challenge}
    (hwithin : LiteralsWithin c.variableCount c.clauses) {input : Input}
    (hlength : input.length = c.variableCount)
    (hunsat : ¬ Satisfies (Input.valuation input) c.clauses) :
    ∃ clause, IsLeast (Unmet c.clauses input) clause ∧
      c.checkInput input = .error (.failure (.invalidSolution (.unsatisfied clause))) := by
  have hrefused : c.checkInput input ≠ .ok () := by
    rw [Ne, checkInput_eq_ok_iff hwithin]
    exact fun h => hunsat h.2
  have hanswers : ∀ fault, c.checkInput input ≠ .error (.fault fault) := by
    intro fault
    rw [Ne, ← accepts_eq_fault_iff, accepts_eq hwithin]
    exact nofun
  rw [checkInput, if_pos hlength] at hrefused hanswers ⊢
  rcases hfirst : firstUnsatisfied? input 0 c.clauses with fault | _ | clause
  · exact absurd (by rw [hfirst]) (hanswers fault)
  · exact absurd (by rw [hfirst]) hrefused
  · exact ⟨clause, isLeast_unmet hfirst, rfl⟩

theorem verifyProof_checksInOrder (seed : Int32) (d : Difficulty) (solver : Solver)
    (proof : Bytes) (budget : Budget) (clock : Clock) :
    ChecksInOrder (Challenge.generate seed d) solver proof budget clock
      (verifyProof seed d solver proof budget clock).result := by
  have hwithin : LiteralsWithin (Challenge.generate seed d).variableCount
      (Challenge.generate seed d).clauses := Challenge.generate_within seed d
  constructor
  · intro defect hdecode
    rw [verifyProof, hdecode]
  · intro s hdecode hlength
    rw [verifyProof, hdecode]
    simp only [Solution.verify, Challenge.checkInput_of_length_ne hlength]
  · intro s hdecode hlength hunsat
    obtain ⟨clause, hleast, hcheck⟩ :=
      Challenge.checkInput_of_not_satisfies hwithin hlength hunsat
    refine ⟨clause, hleast, ?_⟩
    rw [verifyProof, hdecode]
    simp only [Solution.verify, hcheck]
  · intro s hdecode hmeets
    have hcheck := (Challenge.checkInput_eq_ok_iff hwithin s.input).2 hmeets
    rw [verifyProof, hdecode]
    simp only [Solution.verify, hcheck]

namespace Registry

/-- **Looking a name up comes first, and it finds the last registration.**  After
    any registrations the names are listed once each, in the order of their bytes,
    and a name gives the solver that was registered last under it.  A name that
    was not registered is refused by every operation; on any other name each
    operation is that of its solver.  A proof is then refused as malformed, else
    for its input, and else for what the replay says. -/
theorem lookup_precedes {r : Registry} {history : List (String × Solver)}
    (h : Reached r history) :
    r.Remembers history ∧ (∀ name ∉ r.names, r.RefusesName name) ∧
    ∀ name solver, latest? history name = some solver →
      r.Delegates name solver ∧
      ∀ seed d proof budget clock,
        ChecksInOrder (Challenge.generate seed d) solver proof budget clock
          (r.verifyProof seed d name proof budget clock).result := by
  have hremembers := h.remembers
  refine ⟨hremembers, ?_, ?_⟩
  · intro name hname
    exact refusesName_of_find_error (hremembers.find_of_not_mem name hname)
  · intro name solver hlatest
    have hdelegates := delegates_of_find_ok (h.find_of_latest hlatest)
    refine ⟨hdelegates, ?_⟩
    intro seed d proof budget clock
    rw [hdelegates.verifyProof]
    exact verifyProof_checksInOrder seed d solver proof budget clock

/-- A name that is taken twice, and all that is wrong at once: a spent budget, a
    trace of another solver, and bytes that are cut. -/
theorem lookup_precedes_retaken :
    let r := ((standard.register "dpll" .guess).2.register "é" .unheeding).2
    let d : Difficulty := ⟨3, 100, by decide, by decide⟩
    let verdict (name : String) (proof : Bytes) :=
      (r.verifyProof 7 d name proof (.zero true) .still).result
    (r.find "dpll" = .ok .guess ∧ (r.register "é" Dpll.solver).1 = some .unheeding) ∧
      verdict "DPLL" [1] = .error (.failure (.unknownAlgorithm "DPLL")) ∧
      verdict "dpll" [1] = .error (.failure (.malformedProof (.truncated .input 4 1))) ∧
      verdict "dpll" (Solution.encode ⟨[true], [5]⟩) =
        .error (.failure (.invalidSolution (.wrongLength 3 1))) ∧
      verdict "dpll" (Solution.encode ⟨[true, true, true], [5]⟩) =
        .error (.failure (.timeout (.zero true))) := by
  intro r d verdict
  have hreached : Reached r [("dpll", Dpll.solver), ("dpll", .guess), ("é", .unheeding)] :=
    (reached_standard.register "dpll" .guess).register "é" .unheeding
  obtain ⟨hremembers, hunknown, hknown⟩ := lookup_precedes hreached
  have hlatest : latest? [("dpll", Dpll.solver), ("dpll", .guess), ("é", .unheeding)] "dpll" =
      some .guess := rfl
  obtain ⟨-, hchecks⟩ := hknown "dpll" .guess hlatest
  have hfind : r.find "dpll" = .ok .guess := by
    obtain ⟨solver, hsolver, hfind⟩ :=
      hremembers.find_of_mem "dpll" ((hremembers.mem_names "dpll").2 ⟨.guess, by simp⟩)
    obtain rfl := Option.some.inj (hlatest.symm.trans hsolver)
    exact hfind
  have hother : "DPLL" ∉ r.names := by
    rw [hremembers.mem_names]
    rintro ⟨solver, hmem⟩
    simp at hmem
  have hclauses : (Challenge.generate 7 d).clauses =
      [[3, -1, -2], [1, -3, -2], [3, 2, 1]] := by decide +kernel
  have hdecode : ∀ input : Input, input.length < 2 ^ 31 →
      Solution.decode (Solution.encode ⟨input, [5]⟩) = .ok ⟨input, [5]⟩ :=
    fun input hinput => Solution.decode_encode hinput (show 1 < 2 ^ 29 by decide)
  have hmeets : Solution.Meets ⟨[true, true, true], [5]⟩ (Challenge.generate 7 d) := by
    rw [Solution.Meets, hclauses]
    exact ⟨rfl, by decide⟩
  refine ⟨⟨hfind, hremembers.replaced "é" Dpll.solver⟩, ?_, ?_, ?_, ?_⟩
  · exact congrArg Reported.result ((hunknown "DPLL" hother).verifyProof 7 d [1] _ _)
  · exact (hchecks 7 d [1] _ _).malformed _ rfl
  · exact (hchecks 7 d _ _ _).wrongLength _ (hdecode [true] (by decide)) (by decide)
  · have hreplayed := (hchecks 7 d _ (.zero true) .still).replayed _
      (hdecode [true, true, true] (by decide)) hmeets
    have hzero : Binary64.AtMostZero (.zero true) := Or.inl rfl
    rwa [verifyMethod_of_atMostZero hzero] at hreplayed

end Registry

end SatReplay
