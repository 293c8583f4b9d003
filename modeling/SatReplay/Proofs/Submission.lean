/-
  SatReplay/Proofs/Submission.lean
  ================================
  **Submissions are read back.**  Every field of a submission is written in a way
  that its reader reads: the solution as the base64 text of its bytes, if they
  can be decoded, and the seconds as a numeral, if it reads back as them.  So the
  canonical text of a submission is read as that submission.
-/
import SatReplay.Proofs.Json.Numbers
import SatReplay.Proofs.Solution.TextForm
import SatReplay.Submission

namespace SatReplay

open Json

namespace Submission

/-- What can be written without loss: a solution whose lengths fit into their words,
    and a finite number of seconds whose numeral is read as that number. -/
structure IsPortable (m : Submission) : Prop where
  fits : m.solution.Fits
  finite : m.secondsTaken.isFinite = true
  seconds : Reader.binary64.readText (Layout.document.text m.secondsTaken) = .ok m.secondsTaken

/-- The texts of the values of the fields. -/
def FieldText (m : Submission) (name : String) (cs : List Char) : Prop :=
  match name with
  | "nonce" => cs = integerText m.nonce.toNat
  | "seed" => cs = integerText m.seed.toInt
  | "algorithm_id" => IsText m.algorithmId cs
  | "is_solution" => cs = (Value.boolean m.isSolution).chars
  | "seconds_taken" => cs = (Layout.document.text m.secondsTaken).toList
  | "solution" => IsText m.solution.toBase64 cs
  | _ => False

/-- What has been read of a submission when fields of these names have been. -/
def stage (m : Submission) (seen : List String) : Draft where
  nonce := if "nonce" ∈ seen then some m.nonce else none
  seed := if "seed" ∈ seen then some m.seed else none
  algorithmId := if "algorithm_id" ∈ seen then some m.algorithmId else none
  isSolution := if "is_solution" ∈ seen then some m.isSolution else none
  secondsTaken := if "seconds_taken" ∈ seen then some m.secondsTaken else none
  solution := if "solution" ∈ seen then some m.solution else none

theorem stages {m : Submission} (h : m.IsPortable) (depth : Nat) :
    record.Stages depth m.FieldText m.stage m := by
  constructor
  · rfl
  · intro name seen hother
    simp only [record, Field.of, List.forall_mem_cons] at hother
    obtain ⟨hnonce, hseed, halgorithm, hverdict, hseconds, hsolution, -⟩ := hother
    simp only [stage, List.mem_cons, hnonce, hseed, halgorithm, hverdict, hseconds, hsolution,
      false_or]
  · simp only [record, List.forall_mem_cons]
    refine ⟨.of m.nonce (fun seen hnew => if_neg hnew) ?_ ?_,
      .of m.seed (fun seen hnew => if_neg hnew) ?_ ?_,
      .of m.algorithmId (fun seen hnew => if_neg hnew) ?_ ?_,
      .of m.isSolution (fun seen hnew => if_neg hnew) ?_ ?_,
      .of m.secondsTaken (fun seen hnew => if_neg hnew) ?_ ?_,
      .of m.solution (fun seen hnew => if_neg hnew) ?_ ?_, by simp⟩
    · intro seen
      simp [stage]
    · rintro cs rfl
      exact Reader.word32_reads m.nonce depth
    · intro seen
      simp [stage]
    · rintro cs rfl
      exact Reader.int32_reads m.seed depth
    · intro seen
      simp [stage]
    · exact fun cs htext => Reader.string_reads htext depth
    · intro seen
      simp [stage]
    · rintro cs rfl
      exact Reader.boolean_reads m.isSolution depth
    · intro seen
      simp [stage]
    · rintro cs rfl
      exact Reader.binary64_reads h.seconds (isNumeralChar_document h.finite) depth
    · intro seen
      simp [stage]
    · exact fun cs htext => Solution.reader_reads h.fits htext depth
  · intro seen hall
    simp only [record, Field.of, List.forall_mem_cons] at hall
    obtain ⟨hnonce, hseed, halgorithm, hverdict, hseconds, hsolution, -⟩ := hall
    simp only [record, stage, if_pos hnonce, if_pos hseed, if_pos halgorithm, if_pos hverdict,
      if_pos hseconds, if_pos hsolution]
    rfl

theorem canonical_reads {m : Submission} (h : m.IsPortable) :
    reader.Reads maxDepth m.toValue.canonical.toList m := by
  have hseconds : Value.ofBinary64 m.secondsTaken = .number (.float m.secondsTaken) :=
    if_pos h.finite
  rw [toValue, hseconds]
  apply Record.canonical_reads (stages h 126)
  · rfl
  · simp [record, Field.of]
  · simp only [List.forall_mem_cons]
    exact ⟨rfl, rfl, isText_stringChars m.algorithmId, rfl, rfl,
      isText_stringChars m.solution.toBase64, by simp⟩
  · simp only [record, Field.of, List.forall_mem_cons, List.map_cons, List.map_nil]
    refine ⟨by decide, by decide, by decide, by decide, by decide, by decide, by simp⟩

end Submission

end SatReplay
