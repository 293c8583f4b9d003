/-
  SatReplay/Proofs/Transports.lean
  ================================
  **Submissions as documents and in containers.**  Both ways carry the same text,
  so whatever becomes of it becomes of it on both.

  In the canonical text the seconds stand behind the solver, the verdict and the
  nonce, and before the rest.  An infinity is written as `null`, which is not the
  numeral of any number.  So the text is still JSON, but reading it as a
  submission ends there, whatever the solution is.
-/
import SatReplay.Json.Packed
import SatReplay.Proofs.Json.AnyValue
import SatReplay.Proofs.Submission
import SatReplay.Proofs.Zlib

namespace SatReplay

open Json

/-! ### Containers -/

/-- What is read from a container is what is read from the text in it. -/
theorem Json.Reader.unpack_eq_readText {α : Type} (reader : Reader α) {packed : Bytes}
    {text : String} (h : Zlib.decompress? packed = some (Bytes.ofText text)) :
    reader.unpack packed = (reader.readText text).mapError .unreadable := by
  simp only [unpack, h, Bytes.toText?_ofText]

theorem Json.Value.decompress?_pack (v : Value) :
    Zlib.decompress? v.pack = some (Bytes.ofText v.canonical) := Zlib.decompress?_compress _

namespace Submission

variable (m : Submission)

/-! ### The canonical text -/

/-- The fields in the order of their names. -/
def sortedFields : List (String × Value) :=
  [("algorithm_id", .string m.algorithmId), ("is_solution", .boolean m.isSolution),
    ("nonce", .ofInt m.nonce.toNat), ("seconds_taken", .ofBinary64 m.secondsTaken),
    ("seed", .ofInt m.seed.toInt), ("solution", m.solution.toValue)]

theorem sorted_toValue : m.toValue.sorted = .object m.sortedFields := by
  have hseconds : (Value.ofBinary64 m.secondsTaken).sorted = .ofBinary64 m.secondsTaken := by
    rw [Value.ofBinary64]
    split
    next => rfl
    next => rfl
  apply Value.sorted_object_eq
  · simp only [List.forall_mem_cons]
    exact ⟨rfl, rfl, rfl, rfl, hseconds, rfl, by simp⟩
  · simp only [List.map_cons, List.map_nil]
    decide
  · -- the solver comes to the front, then the verdict, and the seconds before the seed
    have hsolver := @List.perm_middle _ ("algorithm_id", Value.string m.algorithmId)
      [("nonce", .ofInt m.nonce.toNat), ("seed", .ofInt m.seed.toInt)]
    have hverdict := @List.perm_middle _ ("is_solution", Value.boolean m.isSolution)
      [("nonce", .ofInt m.nonce.toNat), ("seed", .ofInt m.seed.toInt)]
    exact hsolver.trans (.cons _ (hverdict.trans (.cons _ (.cons _ (.swap _ _ _)))))
  · simp [sortedFields, Value.nameLe]

theorem canonical_eq : m.toValue.canonical.toList = membersText (m.sortedFields.map .written) := by
  rw [Value.canonical, sorted_toValue, Value.text, String.toList_ofList, Value.chars_object]

/-! ### Seconds that are not a number -/

/-- The same submission with nothing in it that could be lost. -/
def portable : Submission := { m with secondsTaken := .zero false, solution := .empty }

theorem isPortable_portable : m.portable.IsPortable where
  fits := ⟨show 0 < 2 ^ 31 by decide, show 0 < 2 ^ 29 by decide⟩
  finite := show (Binary64.zero false).isFinite = true by decide +kernel
  seconds :=
    show Reader.binary64.readText (Layout.document.text (.zero false)) = .ok (.zero false) by
      decide +kernel

theorem ofBinary64_secondsTaken {m : Submission} (h : m.secondsTaken.isFinite = false) :
    Value.ofBinary64 m.secondsTaken = .null := by
  rw [Value.ofBinary64, h]
  rfl

theorem binary64_refuses_null (depth : Nat) :
    Reader.binary64.Refuses depth Value.null.chars (.data (.wrongType .null .binary64)) := by
  intro before rest hbefore _
  have hfound : Found.read (Value.null.chars ++ rest) = .ok (.null, rest) := rfl
  refine ⟨⟨.data (.wrongType .null .binary64), byteCount rest⟩, rfl, ?_⟩
  simp only [Reader.binary64, foundRead_blanks hbefore, hfound]
  rfl

theorem seconds_find? : record.fields.find? (·.name = "seconds_taken") =
    some (.of "seconds_taken" Reader.binary64 (·.secondsTaken)
      fun a d => { d with secondsTaken := some a }) := rfl

theorem canonical_refused (h : m.secondsTaken.isFinite = false) :
    reader.Refuses maxDepth m.toValue.canonical.toList (.data (.wrongType .null .binary64)) := by
  -- the fields before the seconds are those of a portable submission
  have hfront : ∀ n ∈ (m.sortedFields.take 3).map Member.written,
      record.Suits m.portable.FieldText n := by
    simp only [sortedFields, List.take_succ_cons, List.take_zero, List.map_cons, List.map_nil,
      List.forall_mem_cons]
    refine ⟨.of_field (Member.isNamed_written _) ⟨_, .tail _ (.tail _ (.head _)), rfl⟩ ?_,
      .of_field (Member.isNamed_written _) ⟨_, .tail _ (.tail _ (.tail _ (.head _))), rfl⟩ ?_,
      .of_field (Member.isNamed_written _) ⟨_, .head _, rfl⟩ ?_, by simp⟩
    · exact isText_stringChars m.algorithmId
    · exact rfl
    · exact rfl
  have hnames : ((m.sortedFields.take 3).map Member.written).map Member.name =
      ["algorithm_id", "is_solution", "nonce"] := rfl
  have hcount : ∀ field ∈ record.fields,
      (((m.sortedFields.take 3).map Member.written).map Member.name).count field.name ≤ 1 := by
    simp only [hnames, record, Field.of, List.forall_mem_cons]
    exact ⟨by decide, by decide, by decide, by decide, by decide, by decide, by simp⟩
  have hnew : "seconds_taken" ∉ ((m.sortedFields.take 3).map Member.written).map Member.name := by
    rw [hnames]
    decide
  rw [canonical_eq, sortedFields, ofBinary64_secondsTaken h]
  exact Record.reader_refuses (stages m.isPortable_portable 126) hfront hcount
    (Member.isNamed_written ("seconds_taken", .null)) hnew seconds_find?
    (.of (binary64_refuses_null 126)) ((m.sortedFields.drop 4).map .written)

/-- The text is JSON all the same. -/
theorem value_readText_canonical (h : m.secondsTaken.isFinite = false) :
    Reader.value.readText m.toValue.canonical = .ok m.toValue.sorted := by
  have hnonce := m.nonce.toNat_lt
  have hseedLow := Int32.le_toInt m.seed
  have hseedHigh := Int32.toInt_lt m.seed
  have hplain : m.toValue.Plain := by
    rw [toValue, ofBinary64_secondsTaken h, Value.plain_object]
    simp only [List.map_cons, List.map_nil, List.forall_mem_cons]
    refine ⟨by decide, Value.plain_scalar rfl ⟨?_, ?_⟩, Value.plain_scalar rfl ⟨?_, ?_⟩,
      Value.plain_scalar rfl trivial, Value.plain_scalar rfl trivial,
      Value.plain_scalar rfl trivial, Value.plain_scalar rfl trivial, by simp⟩
    all_goals omega
  apply Value.canonical_reads hplain
  rw [toValue, ofBinary64_secondsTaken h]
  exact Nat.le_of_ble_eq_true rfl

/-! ### Both ways -/

/-- **A submission survives both ways, and they agree.**  What can be written without
    loss is read back from its text and from its container; a container of the text,
    however it was compressed, gives what the text gives.  With seconds that are not
    finite the text is JSON, but it is read as a submission in neither way. -/
theorem transports_agree :
    (∀ m : Submission, m.IsPortable →
      reader.readText m.toValue.canonical = .ok m ∧ reader.unpack m.toValue.pack = .ok m) ∧
    (∀ (m : Submission) (packed : Bytes),
      Zlib.decompress? packed = some (Bytes.ofText m.toValue.canonical) →
      reader.unpack packed = (reader.readText m.toValue.canonical).mapError .unreadable) ∧
    (∀ m : Submission, m.secondsTaken.isFinite = false →
      Reader.value.readText m.toValue.canonical = .ok m.toValue.sorted ∧
      ∃ e : ReadError, e.mistake = .data (.wrongType .null .binary64) ∧
        reader.readText m.toValue.canonical = .error e ∧
        reader.unpack m.toValue.pack = .error (.unreadable e)) := by
  have hpack := fun m : Submission =>
    reader.unpack_eq_readText (Value.decompress?_pack m.toValue)
  refine ⟨?_, ?_, ?_⟩
  · intro m hm
    have hread : reader.readText m.toValue.canonical = .ok m :=
      Reader.readText_eq (canonical_reads hm) blanks_nil blanks_nil (List.append_nil _).symm
    refine ⟨hread, ?_⟩
    rw [hpack, hread]
    rfl
  · exact fun m packed h => reader.unpack_eq_readText h
  · intro m hm
    obtain ⟨e, hmistake, hread⟩ := Reader.readText_eq_error (m.canonical_refused hm) blanks_nil
      blanks_nil (List.append_nil _).symm
    refine ⟨m.value_readText_canonical hm, e, hmistake, hread, ?_⟩
    rw [hpack, hread]
    rfl

/-- A submission with a negative seed, a quote in the name of its solver and half a
    second, and the same one after an infinity of seconds. -/
theorem transports_agree_half :
    let m : Submission := ⟨4294967295, -3, "dp\"ll\n", true, ⟨0x3fe0000000000000⟩, ⟨[true], [7]⟩⟩
    let lost : Submission := { m with secondsTaken := ⟨0x7ff0000000000000⟩ }
    reader.readText m.toValue.canonical = .ok m ∧ reader.unpack m.toValue.pack = .ok m ∧
      reader.unpack m.toValue.pack = (reader.readText m.toValue.canonical).mapError .unreadable ∧
      ∃ e : ReadError, reader.readText lost.toValue.canonical = .error e ∧
        reader.unpack lost.toValue.pack = .error (.unreadable e) := by
  intro m lost
  have hseconds : Reader.binary64.readText (Layout.document.text m.secondsTaken) =
      .ok m.secondsTaken := by decide +kernel
  have hportable : m.IsPortable :=
    ⟨⟨show 1 < 2 ^ 31 by decide, show 1 < 2 ^ 29 by decide⟩, by decide +kernel, hseconds⟩
  have hlost : lost.secondsTaken.isFinite = false := by decide +kernel
  obtain ⟨hread, hunpack⟩ := transports_agree.1 m hportable
  obtain ⟨-, e, -, herror, hcontainer⟩ := transports_agree.2.2 lost hlost
  exact ⟨hread, hunpack, transports_agree.2.1 m _ (Value.decompress?_pack m.toValue),
    e, herror, hcontainer⟩

end Submission

end SatReplay
