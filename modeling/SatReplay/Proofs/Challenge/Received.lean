/-
  SatReplay/Proofs/Challenge/Received.lean
  ========================================
  **What is known of a challenge that was read from a document.**  Reading judges
  the difficulty and takes the clauses as they stand, so every challenge is read
  from some text: from its canonical one (`Challenge.readText_canonical`).  A
  formula that was received may therefore hold literals that no variable has.

  Such a literal does no harm unless a check reads it, and which literals are
  read depends on the input (`Challenge.Reads`).  So a received challenge gives
  every solution of the wrong length a verdict, and one of the right length
  exactly when all literals read have a variable (`received_checkable_iff`); a
  literal without one ends all checks with a fault (`not_all_received_checkable`).
-/
import SatReplay.Json.Domain
import SatReplay.Proofs.Json.Canonical
import SatReplay.Proofs.Verdicts

namespace SatReplay

open Json

/-! ### Reading challenges -/

/-- A list of words as a value. -/
def Json.Value.ofInt32s (values : List Int32) : Value :=
  .array (values.map fun n => .ofInt n.toInt)

theorem Json.Value.isList_ofInt32s (values : List Int32) :
    IsList (fun n : Int32 => integerText n.toInt) values (ofInt32s values).chars :=
  isList_chars (fun n : Int32 => ofInt n.toInt) values

theorem Json.Value.isValue_ofInt32s (values : List Int32) : IsValue (ofInt32s values).chars :=
  isValue_array fun n _ => .numeral (isNumeral_integerText n.toInt)

theorem Json.Value.sorted_ofInt32s (values : List Int32) :
    (ofInt32s values).sorted = ofInt32s values := by
  rw [ofInt32s, sorted, sortedItems_map fun _ => rfl]

theorem Difficulty.reader_reads {d : Difficulty} {cs : List Char}
    (h : IsList (fun n : Int32 => integerText n.toInt) d.toList cs) (depth : Nat) :
    reader.Reads (depth + 1) cs d := by
  intro before rest hbefore hrest
  have hvalues := Reader.int32s_reads h depth before rest hbefore hrest
  simp only [reader, hvalues, ofList?_toList]

namespace Challenge

/-- The texts of the values of the fields. -/
def FieldText (c : Challenge) (name : String) (cs : List Char) : Prop :=
  match name with
  | "seed" => cs = integerText c.seed.toInt
  | "difficulty" => IsList (fun n : Int32 => integerText n.toInt) c.difficulty.toList cs
  | "clauses" => IsList (fun clause => (Value.ofInt32s clause).chars) c.clauses cs
  | _ => False

/-- What has been read of a challenge when fields of these names have been. -/
def stage (c : Challenge) (seen : List String) : Draft where
  seed := if "seed" ∈ seen then some c.seed else none
  difficulty := if "difficulty" ∈ seen then some c.difficulty else none
  clauses := if "clauses" ∈ seen then some c.clauses else none

theorem clauses_reads {clauses : List Clause} {cs : List Char}
    (h : IsList (fun clause => (Value.ofInt32s clause).chars) clauses cs) (depth : Nat) :
    (Reader.list (Reader.list Reader.int32)).Reads (depth + 2) cs clauses :=
  Reader.list_reads (fun clause _ => Value.isValue_ofInt32s clause)
    (fun clause _ => Reader.int32s_reads (Value.isList_ofInt32s clause) depth) h

theorem stages (c : Challenge) (depth : Nat) :
    record.Stages (depth + 2) c.FieldText c.stage c := by
  constructor
  · rfl
  · intro name seen hother
    simp only [record, Field.of, List.forall_mem_cons] at hother
    obtain ⟨hseed, hdifficulty, hclauses, -⟩ := hother
    simp only [stage, List.mem_cons, hseed, hdifficulty, hclauses, false_or]
  · simp only [record, List.forall_mem_cons]
    refine ⟨.of c.seed (fun seen hnew => if_neg hnew) ?_ ?_,
      .of c.difficulty (fun seen hnew => if_neg hnew) ?_ ?_,
      .of c.clauses (fun seen hnew => if_neg hnew) ?_ ?_, by simp⟩
    · intro seen
      simp [stage]
    · rintro cs rfl
      exact Reader.int32_reads c.seed _
    · intro seen
      simp [stage]
    · exact fun cs htext => Difficulty.reader_reads htext _
    · intro seen
      simp [stage]
    · exact fun cs htext => clauses_reads htext depth
  · intro seen hall
    simp only [record, Field.of, List.forall_mem_cons] at hall
    obtain ⟨hseed, hdifficulty, hclauses, -⟩ := hall
    simp only [record, stage, if_pos hseed, if_pos hdifficulty, if_pos hclauses]
    rfl

theorem canonical_reads (c : Challenge) :
    reader.Reads maxDepth c.toValue.canonical.toList c := by
  apply Record.canonical_reads (c.stages 124)
  · have hdifficulty : c.difficulty.toValue.sorted = c.difficulty.toValue :=
      Value.sorted_ofInt32s c.difficulty.toList
    have hclauses : Value.sortedItems (c.clauses.map fun clause =>
          .array (clause.map fun l => Value.ofInt l.toInt)) =
        c.clauses.map fun clause => .array (clause.map fun l => Value.ofInt l.toInt) :=
      Value.sortedItems_map Value.sorted_ofInt32s c.clauses
    simp only [Value.sortedMembers, hdifficulty, Value.sorted, hclauses]
    rfl
  · simp [record, Field.of]
  · simp only [List.forall_mem_cons]
    exact ⟨rfl, Value.isList_ofInt32s c.difficulty.toList,
      Value.isList_chars Value.ofInt32s c.clauses, by simp⟩
  · simp only [record, Field.of, List.forall_mem_cons, List.map_cons, List.map_nil]
    refine ⟨by decide, by decide, by decide, by simp⟩

/-- Reading restricts nothing but the difficulty, which a `Difficulty` carries. -/
theorem readText_canonical (c : Challenge) : reader.readText c.toValue.canonical = .ok c :=
  Reader.readText_eq c.canonical_reads blanks_nil blanks_nil
    (by rw [List.nil_append, List.append_nil])

/-! ### Checking what was read -/

/-- Every way of checking the input of the solution gives a verdict. -/
structure Checkable (c : Challenge) (s : Solution) : Prop where
  accepts : ∃ verdict, c.accepts s.input = .ok verdict
  solves : ∃ verdict, s.solves c = .ok verdict
  checkInput : c.checkInput s.input = .ok () ∨
    ∃ defect, c.checkInput s.input = .error (.failure (.invalidSolution defect))

variable {c : Challenge} {s : Solution}

theorem checkInput_of_exposes {l : Literal} (h : c.Exposes s.input l) :
    c.checkInput s.input = .error (.fault ⟨l⟩) :=
  accepts_eq_fault_iff.1 (accepts_eq_error_iff.2 h)

theorem checkable_of_not_exposes (h : ∀ l, ¬ c.Exposes s.input l) : c.Checkable s := by
  have hanswers : ∃ verdict, c.accepts s.input = .ok verdict := by
    rcases hverdict : c.accepts s.input with fault | verdict
    · exact absurd (accepts_eq_error_iff.1 hverdict) (h fault.literal)
    · exact ⟨verdict, rfl⟩
  obtain ⟨verdict, hverdict⟩ := hanswers
  exact ⟨⟨verdict, hverdict⟩, ⟨verdict, hverdict⟩, checkInput_eq_ok_or hverdict⟩

theorem checkable_iff : c.Checkable s ↔ ∀ l, ¬ c.Exposes s.input l := by
  constructor
  · intro h l hexposes
    obtain ⟨verdict, hverdict⟩ := h.accepts
    have hfault : c.accepts s.input = .error ⟨l⟩ := accepts_eq_error_iff.2 hexposes
    rw [hverdict] at hfault
    cases hfault
  · exact checkable_of_not_exposes

theorem not_exposes_of_within (h : LiteralsWithin c.variableCount c.clauses) {input : Input}
    (l : Literal) : ¬ c.Exposes input l := by
  intro hexposes
  obtain ⟨before, clause, after, hclauses, -, first, rest, hclause, -⟩ := hexposes.reads
  have hmem : clause ∈ c.clauses := by simp [hclauses]
  exact hexposes.beyond (h clause hmem l (by simp [hclause]))

/-- A challenge may have as few as three variables. -/
theorem three_le_three : (3 : Int32) ≤ 3 := Int32.le_refl 3

/-- Three variables, and a clause with a literal of a fourth one. -/
def stray : Challenge := ⟨0, ⟨3, 34, three_le_three, by decide⟩, [[-1, 4, 1]]⟩

def strayText : String :=
  "\x7b\"clauses\":[[-1,4,1]],\"difficulty\":[3,34],\"seed\":0\x7d"

theorem readText_strayText : reader.readText strayText = .ok stray := by
  decide +kernel

theorem exposes_stray : stray.Exposes [true, true, true] 4 := by
  have hfalse : Literal.FalseIn [true, true, true] (-1) := by decide
  have hreads : Clause.Reads [true, true, true] [-1, 4, 1] 4 :=
    ⟨[-1], [1], rfl, by simpa using hfalse⟩
  exact ⟨rfl, ⟨[], [-1, 4, 1], [], rfl, by simp, hreads⟩, by decide⟩

end Challenge

/-- **A received challenge can be checked where no literal without a variable is
    read.**  Every challenge is read from some text, so nothing is known of its
    literals.  A solution has its verdicts exactly when no check of it reads a
    literal without a variable, as always when the formula has none; otherwise all
    checks fault with the literal that they read. -/
theorem received_checkable_iff (c : Challenge) (s : Solution) :
    (∃ text, Challenge.reader.readText text = .ok c) ∧
    (c.Checkable s ↔ ∀ l, ¬ c.Exposes s.input l) ∧
    (LiteralsWithin c.variableCount c.clauses → c.Checkable s) ∧
    (∀ l, c.Exposes s.input l →
      c.accepts s.input = .error ⟨l⟩ ∧ s.solves c = .error ⟨l⟩ ∧
        c.checkInput s.input = .error (.fault ⟨l⟩)) := by
  refine ⟨⟨_, c.readText_canonical⟩, Challenge.checkable_iff, ?_, ?_⟩
  · exact fun hwithin => Challenge.checkable_iff.2 (Challenge.not_exposes_of_within hwithin)
  · intro l hexposes
    have hfault : c.accepts s.input = .error ⟨l⟩ := Challenge.accepts_eq_error_iff.2 hexposes
    exact ⟨hfault, hfault, Challenge.checkInput_of_exposes hexposes⟩

/-- The literal before the stray one decides whether it is read. -/
theorem received_checkable_iff_stray :
    Challenge.reader.readText Challenge.strayText = .ok Challenge.stray ∧
      Challenge.stray.Checkable ⟨[false, true, true], []⟩ ∧
      Challenge.stray.checkInput [true, true, true] = .error (.fault ⟨4⟩) := by
  obtain ⟨-, hiff, -⟩ := received_checkable_iff .stray ⟨[false, true, true], []⟩
  obtain ⟨-, -, -, hfault⟩ := received_checkable_iff .stray ⟨[true, true, true], []⟩
  refine ⟨Challenge.readText_strayText, hiff.2 ?_, (hfault 4 Challenge.exposes_stray).2.2⟩
  intro l hexposes
  have hverdict : Challenge.stray.accepts [false, true, true] = .error ⟨l⟩ :=
    Challenge.accepts_eq_error_iff.2 hexposes
  have haccepts : Challenge.stray.accepts [false, true, true] = .ok true := by decide
  rw [haccepts] at hverdict
  cases hverdict

/-- A challenge that was read need not give a solution a verdict, not even one
    whose input makes a literal of every clause true. -/
theorem not_all_received_checkable :
    ¬ ∀ (text : String) (c : Challenge), Challenge.reader.readText text = .ok c →
      ∀ s : Solution, c.Checkable s := by
  intro h
  have hcheckable := h _ _ Challenge.readText_strayText ⟨[true, true, true], []⟩
  exact Challenge.checkable_iff.1 hcheckable 4 Challenge.exposes_stray

end SatReplay
