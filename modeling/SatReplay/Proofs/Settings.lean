/-
  SatReplay/Proofs/Settings.lean
  ==============================
  **What a seed is bound to.**  Settings are read from every object that lists
  their three fields, in any order and among members of other names
  (`Settings.reads`).  The canonical text is such an object, so it can be read
  back, and different settings have different texts to be hashed.

  The seed is the first word of that hash, with the nonce worked into it.  So two
  settings have a seed in common exactly when the hashes of their texts begin with
  the same word, and then they have all seeds in common (`Settings.seed_eq_iff`).
-/
import SatReplay.Proofs.Bytes.Words
import SatReplay.Proofs.Json.Canonical
import SatReplay.Settings

namespace SatReplay

/-- Up to 1024 bytes are one chunk, and this is the root: the word of a short text is
    the first one of its compression. -/
theorem Blake3.textWord_of_length_le {text : String} {bytes : Bytes}
    (htext : Bytes.ofText text = bytes) (h : bytes.length ≤ 1024) :
    textWord text =
      (Pending.compress { chunk 0 bytes with flags := (chunk 0 bytes).flags ||| rootFlag })[0] := by
  have hfirst : ∀ chain : Chain, chain.toList = chain[0] :: chain.toList.tail := by
    rintro ⟨⟨words⟩, hsize⟩
    cases words with
    | nil => cases hsize
    | cons word words => rfl
  have htree : tree 0 bytes = chunk 0 bytes := by
    rw [tree, dif_pos h]
    rfl
  simp only [textWord, htext, hash, htree]
  rw [hfirst, List.flatMap_cons, Bytes.ofWord]
  exact Bytes.toWord_ofWord _

namespace Settings

open Json

/-! ### Reading -/

/-- The texts of the values of the fields. -/
def FieldText (s : Settings) (name : String) (cs : List Char) : Prop :=
  match name with
  | "player_id" => IsText s.playerId cs
  | "algorithm_id" => IsText s.algorithmId cs
  | "difficulty" => IsList (fun n => integerText n.toInt) s.difficulty cs
  | _ => False

/-- What has been read of the settings when fields of these names have been. -/
def stage (s : Settings) (seen : List String) : Draft where
  playerId := if "player_id" ∈ seen then some s.playerId else none
  algorithmId := if "algorithm_id" ∈ seen then some s.algorithmId else none
  difficulty := if "difficulty" ∈ seen then some s.difficulty else none

theorem stages (s : Settings) (depth : Nat) :
    record.Stages (depth + 1) s.FieldText s.stage s := by
  constructor
  · rfl
  · intro name seen hother
    simp only [record, Field.of, List.forall_mem_cons] at hother
    obtain ⟨hplayer, halgorithm, hdifficulty, -⟩ := hother
    simp only [stage, List.mem_cons, hplayer, halgorithm, hdifficulty, false_or]
  · simp only [record, List.forall_mem_cons]
    refine ⟨.of s.playerId (fun seen hnew => if_neg hnew) ?_ ?_,
      .of s.algorithmId (fun seen hnew => if_neg hnew) ?_ ?_,
      .of s.difficulty (fun seen hnew => if_neg hnew) ?_ ?_, by simp⟩
    · intro seen
      simp [stage]
    · exact fun cs htext => Reader.string_reads htext _
    · intro seen
      simp [stage]
    · exact fun cs htext => Reader.string_reads htext _
    · intro seen
      simp [stage]
    · exact fun cs htext => Reader.int32s_reads htext depth
  · intro seen hall
    simp only [record, Field.of, List.forall_mem_cons] at hall
    obtain ⟨hplayer, halgorithm, hdifficulty, -⟩ := hall
    simp only [record, stage, if_pos hplayer, if_pos halgorithm, if_pos hdifficulty]
    rfl

/-- **Settings are read from any object that lists their fields**, in any order and
    with other members among them. -/
theorem reads {s : Settings} {members : List Member} (h : record.Lists s.FieldText members) :
    reader.Reads maxDepth (membersText members) s :=
  Record.reader_reads (s.stages 125) h

theorem canonical_reads (s : Settings) :
    reader.Reads maxDepth s.toValue.canonical.toList s := by
  have hsorted : ∀ n : Int32, (Value.ofInt n.toInt).sorted = Value.ofInt n.toInt := fun _ => rfl
  apply Record.canonical_reads (s.stages 125)
  · simp only [Value.sortedMembers, Value.sorted, Value.sortedItems_map hsorted]
  · simp [record, Field.of]
  · simp only [List.forall_mem_cons]
    exact ⟨isText_stringChars s.playerId, isText_stringChars s.algorithmId,
      Value.isList_chars (fun n : Int32 => Value.ofInt n.toInt) s.difficulty, by simp⟩
  · simp only [record, Field.of, List.forall_mem_cons, List.map_cons, List.map_nil]
    refine ⟨by decide, by decide, by decide, by simp⟩

theorem canonical_inj {s t : Settings} (h : s.toValue.canonical = t.toValue.canonical) : s = t := by
  have hread : ∀ u : Settings, reader.readText u.toValue.canonical = .ok u := fun u =>
    Reader.readText_eq u.canonical_reads blanks_nil blanks_nil
      (by rw [List.nil_append, List.append_nil])
  exact Except.ok.inj ((hread s).symm.trans (h ▸ hread t))

/-! ### The text that is hashed -/

/-- The fields in the order of their names. -/
def row (s : Settings) : List (String × Value) :=
  [("algorithm_id", .string s.algorithmId),
    ("difficulty", .array (s.difficulty.map fun n => Value.ofInt n.toInt)),
    ("player_id", .string s.playerId)]

theorem canonical_eq (s : Settings) : s.toValue.canonical = (Value.object s.row).text := by
  have hint : ∀ n : Int32, (Value.ofInt n.toInt).sorted = Value.ofInt n.toInt := fun _ => rfl
  have hnames : "algorithm_id" ≤ "difficulty" ∧ "algorithm_id" ≤ "player_id" ∧
      "difficulty" ≤ "player_id" := by decide
  have hsorted : s.toValue.sorted = .object s.row := by
    apply Value.sorted_object_eq
    · simp [Value.sorted, Value.sortedItems_map hint]
    · simp
    · exact .trans (.swap _ _ _) (.cons _ (.swap _ _ _))
    · simp [row, Value.nameLe, hnames]
  rw [Value.canonical, hsorted]

theorem ofText_canonical (s : Settings) :
    Bytes.ofText s.toValue.canonical =
      (Value.object s.row).chars.flatMap String.utf8EncodeChar := by
  rw [canonical_eq, Bytes.ofText_eq_flatMap, Value.text, String.toList_ofList]

/-! ### Seeds -/

theorem seed_inj {s : Settings} {nonce other : UInt32} (h : s.seed nonce = s.seed other) :
    nonce = other := by
  have hword := congrArg Int32.toUInt32 h
  exact (UInt32.xor_right_inj _).1 hword

/-- A seed in common is a collision of the first words, whatever the nonce. -/
theorem seed_eq_iff {s t : Settings} {nonce : UInt32} :
    s.seed nonce = t.seed nonce ↔
      Blake3.textWord s.toValue.canonical = Blake3.textWord t.toValue.canonical := by
  constructor
  · intro h
    have hword := congrArg Int32.toUInt32 h
    exact (UInt32.xor_left_inj _).1 hword
  · intro h
    rw [seed, seed, h]

/-- **A seed binds exactly the settings and the nonce.**  It is the first word of
    the hash of the canonical text, with the nonce worked into it.  Every object
    that lists the fields is read as the same settings, so the seeds are the same
    for every nonce; different settings have different texts to be hashed, and a
    seed in common only if the words are the same; and for one settings different
    nonces give different seeds. -/
theorem seed_binds :
    (∀ (s : Settings) (nonce : UInt32),
      s.seed nonce = (Blake3.textWord s.toValue.canonical ^^^ nonce).toInt32) ∧
    (∀ (s : Settings) (members : List Member) (before after : List Char) (text : String),
      record.Lists s.FieldText members → Blanks before → Blanks after →
      text.toList = before ++ (membersText members ++ after) →
      reader.readText text = .ok s ∧
        ∀ nonce, (reader.readText text).map (·.seed nonce) = .ok (s.seed nonce)) ∧
    (∀ s t : Settings, s ≠ t → s.toValue.canonical ≠ t.toValue.canonical) ∧
    (∀ (s t : Settings) (nonce : UInt32), s.seed nonce = t.seed nonce ↔
      Blake3.textWord s.toValue.canonical = Blake3.textWord t.toValue.canonical) ∧
    (∀ (s : Settings) (nonce other : UInt32), nonce ≠ other → s.seed nonce ≠ s.seed other) := by
  refine ⟨fun _ _ => rfl, ?_, ?_, fun _ _ _ => seed_eq_iff, ?_⟩
  · intro s members before after text hlists hbefore hafter htext
    have hread := Reader.readText_eq (reads hlists) hbefore hafter htext
    refine ⟨hread, ?_⟩
    intro nonce
    rw [hread, Except.map]
  · exact fun s t hne heq => hne (canonical_inj heq)
  · exact fun s nonce other hne heq => hne (seed_inj heq)

/-- A text in another order than that of the canonical one, with escapes and with a
    further member; and the seeds of settings that differ in one character. -/
theorem seed_binds_reordered :
    let s : Settings := ⟨"a\"b", "dpll", [50, 300]⟩
    let t : Settings := ⟨"ab", "dpll", [50, 300]⟩
    reader.readText ("\x7b\"max_seconds\": [null,\x7b\x7d], \"difficulty\":[50, 300]," ++
        "\"player\\u005fid\" :\"a\\u0022b\",\"algorithm_id\":\"dpll\"\x7d\n") = .ok s ∧
      s.toValue.canonical ≠ t.toValue.canonical ∧ s.seed 0 ≠ s.seed 1 ∧
      s.seed 0 = -1852735647 ∧ t.seed 0 = -2125888635 ∧ s.seed 1 ≠ t.seed 1 := by
  intro s t
  obtain ⟨hseed, hreads, hcanonical, hcollide, hnonce⟩ := seed_binds
  have hs : s.seed 0 = -1852735647 := by
    rw [hseed, Blake3.textWord_of_length_le s.ofText_canonical (by decide +kernel)]
    decide +kernel
  have ht : t.seed 0 = -2125888635 := by
    rw [hseed, Blake3.textWord_of_length_le t.ofText_canonical (by decide +kernel)]
    decide +kernel
  have hdiffer : s.seed 0 ≠ t.seed 0 := by
    rw [hs, ht]
    decide
  refine ⟨?_, hcanonical s t (by decide), hnonce s 0 1 (by decide), hs, ht,
    fun h => hdiffer ((hcollide s t 0).2 ((hcollide s t 1).1 h))⟩
  let seconds : List Padded := [.plain Value.null.chars, .plain (objectText [])]
  let difficulty : List Padded := [.plain (integerText 50), ⟨[' '], integerText 300, []⟩]
  let members : List Member :=
    [⟨"max_seconds", .plain (Value.stringChars "max_seconds"), ⟨[' '], arrayText seconds, []⟩⟩,
      ⟨"difficulty", ⟨[' '], Value.stringChars "difficulty", []⟩, .plain (arrayText difficulty)⟩,
      ⟨"player_id", ⟨[], quoted "player\\u005fid".toList, [' ']⟩,
        .plain (quoted "a\\u0022b".toList)⟩,
      .written ("algorithm_id", .string "dpll")]
  have hplain : ∀ {c : Char} {body text : List Char}, (¬ c < ' ' ∧ c ≠ '"' ∧ c ≠ '\\') →
      Spells body text → Spells (c :: body) (c :: text) := fun hc hrest =>
    .plain hc.1 hc.2.1 hc.2.2 hrest
  have hname : IsText "player_id" (quoted "player\\u005fid".toList) := by
    refine ⟨_, ?_, rfl⟩
    iterate 6 refine hplain (by decide) ?_
    refine .unit (by decide) ?_
    iterate 2 refine hplain (by decide) ?_
    exact .nil
  have hplayer : IsText "a\"b" (quoted "a\\u0022b".toList) := by
    refine ⟨_, ?_, rfl⟩
    refine hplain (by decide) ?_
    refine .unit (by decide) ?_
    refine hplain (by decide) ?_
    exact .nil
  refine (hreads s members [] ['\n'] _ ⟨?_, by decide⟩ blanks_nil (by decide) (by decide)).1
  simp only [members, List.forall_mem_cons]
  refine ⟨.of_other ⟨by decide, isText_stringChars _⟩ (by decide) ?_,
    .of_field ⟨by decide, isText_stringChars _⟩ (by decide)
      (Or.inr ⟨difficulty, by decide, rfl, rfl⟩),
    .of_field ⟨by decide, hname⟩ (by decide) hplayer,
    .of_field (Member.isNamed_written _) (by decide) (isText_stringChars "dpll"), by simp⟩
  have hvalues : ∀ p ∈ seconds, IsValue p.text := by
    simp only [seconds, List.forall_mem_cons]
    exact ⟨.null, .blankObject blanks_nil, by simp⟩
  exact .array (by decide) hvalues

end Settings

end SatReplay
