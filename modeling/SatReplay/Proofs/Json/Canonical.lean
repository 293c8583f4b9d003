/-
  SatReplay/Proofs/Json/Canonical.lean
  ====================================
  **Canonical texts are JSON texts.**  Escaped characters spell what was escaped,
  so a written string is one of the texts of that string.  A written array or
  object is bracketed as the grammar says, with no blanks.

  Sorting permutes the members of an object, and a record does not depend on the
  order of its members.  So for reading a canonical text back it does not matter
  in which order the names come to stand (`Record.lists_written`).
-/
import Mathlib.Tactic.SplitIfs
import SatReplay.Proofs.Json.MemberOrder
import SatReplay.Proofs.Json.Records

namespace SatReplay.Json

/-! ### Strings -/

theorem unit?_control : ∀ n < 32,
    unit? '0' '0' (Nat.digitChar (n / 16)) (Nat.digitChar (n % 16)) = some n := by decide

theorem lt_space_iff (c : Char) : c < ' ' ↔ c.toNat < 32 := Iff.rfl

theorem spells_escape (c : Char) {body text : List Char} (h : Spells body text) :
    Spells (Value.escape c ++ body) (c :: text) := by
  rw [Value.escape]
  split_ifs with hquote hslash hback htab hline hform hreturn hcontrol
  · subst hquote; exact .short rfl h
  · subst hslash; exact .short rfl h
  · subst hback; exact .short rfl h
  · subst htab; exact .short rfl h
  · subst hline; exact .short rfl h
  · subst hform; exact .short rfl h
  · subst hreturn; exact .short rfl h
  · exact .unit (unit?_control c.toNat ((lt_space_iff c).1 hcontrol)) h
  · exact .plain hcontrol hquote hslash h

theorem spells_flatMap_escape (text : List Char) : Spells (text.flatMap Value.escape) text := by
  induction text with
  | nil => exact .nil
  | cons c text ih => exact spells_escape c ih

/-- What stands for something is a body. -/
theorem isBody_of_spells {body text : List Char} (h : Spells body text) : IsBody body := by
  induction h with
  | nil => exact .nil
  | plain hcontrol hquote hslash _ ih => exact .plain hcontrol hquote hslash ih
  | short hshort _ ih => exact .short (hshort ▸ rfl) ih
  | unit hunit _ ih => exact .unit (hunit ▸ rfl) ih
  | pair hfirst _ hsecond _ _ ih => exact .unit (hfirst ▸ rfl) (.unit (hsecond ▸ rfl) ih)

theorem isText_stringChars (s : String) : IsText s (Value.stringChars s) :=
  ⟨s.toList.flatMap Value.escape, spells_flatMap_escape s.toList, rfl⟩

/-! ### Arrays and objects -/

/-- A text with nothing around it. -/
def Padded.plain (cs : List Char) : Padded := ⟨[], cs, []⟩

theorem Padded.chars_plain (cs : List Char) : (plain cs).chars = cs := by
  rw [chars, plain, List.nil_append, List.append_nil]

theorem Padded.inBlanks_plain (cs : List Char) : (plain cs).InBlanks := ⟨blanks_nil, blanks_nil⟩

theorem Value.itemsChars_eq (items : List Value) :
    itemsChars items = further ']' (items.map chars) := by
  induction items with
  | nil => rfl
  | cons v items ih => rw [itemsChars, ih, List.map_cons, further]

theorem Value.chars_array (items : List Value) :
    (array items).chars = arrayText ((items.map chars).map .plain) := by
  have hplain : ((items.map chars).map Padded.plain).map Padded.chars = items.map chars := by
    rw [List.map_map]
    exact (List.map_congr_left fun cs _ => Padded.chars_plain cs).trans (List.map_id _)
  rw [arrayText, hplain]
  cases items with
  | nil => rfl
  | cons v items => rw [chars, itemsChars_eq, List.map_cons, bracketed]

/-- A member as it is written, with no blanks. -/
def Member.written (m : String × Value) : Member where
  name := m.1
  texts := ⟨.plain (Value.stringChars m.1), .plain m.2.chars⟩

theorem Member.isNamed_written (m : String × Value) : (written m).IsNamed :=
  ⟨⟨Padded.inBlanks_plain _, Padded.inBlanks_plain _⟩, isText_stringChars m.1⟩

theorem Member.chars_written (m : String × Value) :
    (written m).texts.chars = Value.stringChars m.1 ++ ':' :: m.2.chars := by
  rw [written, MemberText.chars, Padded.chars_plain, Padded.chars_plain]

theorem Value.membersChars_eq (members : List (String × Value)) :
    membersChars members = furtherText (members.map .written) := by
  induction members with
  | nil => rfl
  | cons m members ih =>
    have hfurther := furtherText_cons (.written m) (members.map .written) []
    rw [List.append_nil, List.append_nil, Member.chars_written, List.append_assoc,
      List.cons_append] at hfurther
    rw [membersChars, ih, List.map_cons, hfurther]

theorem Value.chars_object (members : List (String × Value)) :
    (object members).chars = membersText (members.map .written) := by
  cases members with
  | nil => rfl
  | cons m members =>
    rw [chars, membersChars_eq, List.map_cons, membersText_cons, Member.chars_written,
      List.append_assoc, List.cons_append]

theorem getLast?_further (close : Char) (parts : List (List Char)) :
    (further close parts).getLast? = some close := by
  induction parts with
  | nil => rfl
  | cons part parts ih =>
    rw [further, ← List.cons_append, List.getLast?_append, ih, Option.some_or]

theorem getLast?_bracketed (opening close : Char) (parts : List (List Char)) :
    (bracketed opening close parts).getLast? = some close := by
  cases parts with
  | nil => rfl
  | cons part parts =>
    rw [bracketed, ← List.cons_append, List.getLast?_append, getLast?_further, Option.some_or]

theorem Value.getLast?_canonical_object (members : List (String × Value)) :
    (object members).canonical.toList.getLast? = some '\x7d' := by
  rw [canonical, sorted, text, String.toList_ofList, chars_object]
  exact getLast?_bracketed _ _ _

/-! ### Records -/

theorem Value.isList_chars {α : Type} (item : α → Value) (values : List α) :
    IsList (fun a => (item a).chars) values (array (values.map item)).chars := by
  refine Or.inr ⟨_, ?_, ?_, Value.chars_array _⟩
  · intro p hp
    obtain ⟨cs, -, rfl⟩ := List.mem_map.1 hp
    exact Padded.inBlanks_plain cs
  · simp only [List.map_map]
    rfl

theorem Value.isValue_array {α : Type} {item : α → Value} {values : List α}
    (h : ∀ a ∈ values, IsValue (item a).chars) : IsValue (array (values.map item)).chars := by
  rw [chars_array]
  apply IsValue.array
  · intro p hp
    obtain ⟨cs, -, rfl⟩ := List.mem_map.1 hp
    exact Padded.inBlanks_plain cs
  · intro p hp
    obtain ⟨cs, hcs, rfl⟩ := List.mem_map.1 hp
    obtain ⟨v, hv, rfl⟩ := List.mem_map.1 hcs
    obtain ⟨a, ha, rfl⟩ := List.mem_map.1 hv
    exact h a ha

/-- Written in any order, the fields of a record are listed. -/
theorem Record.lists_written {σ α : Type} {r : Record σ α} {text : String → List Char → Prop}
    {members written : List (String × Value)} (hperm : written.Perm members)
    (hnames : ∀ m ∈ members, ∃ field ∈ r.fields, field.name = m.1)
    (hfields : ∀ m ∈ members, text m.1 m.2.chars)
    (honce : ∀ field ∈ r.fields, (members.map Prod.fst).count field.name = 1) :
    r.Lists text (written.map .written) := by
  constructor
  · intro m hm
    obtain ⟨m, hwritten, rfl⟩ := List.mem_map.1 hm
    have hmem : m ∈ members := hperm.mem_iff.1 hwritten
    exact Suits.of_field (Member.isNamed_written m) (hnames m hmem) (hfields m hmem)
  · intro field hfield
    have hnamesOf : (written.map .written).map Member.name = written.map Prod.fst := by
      rw [List.map_map]
      rfl
    rw [hnamesOf, (hperm.map Prod.fst).count_eq]
    exact honce field hfield

theorem Value.sortedItems_map {α : Type} {item : α → Value} (h : ∀ a, (item a).sorted = item a)
    (values : List α) : sortedItems (values.map item) = values.map item := by
  rw [sortedItems_eq_map, List.map_map]
  exact List.map_congr_left fun a _ => h a

/-- The canonical text of its fields is read as the record, whatever their order. -/
theorem Record.canonical_reads {σ α : Type} {r : Record σ α} {depth : Nat}
    {text : String → List Char → Prop} {stage : List String → σ} {a : α}
    (hr : r.Stages depth text stage a) {members : List (String × Value)}
    (hsorted : Value.sortedMembers members = members)
    (hnames : ∀ m ∈ members, ∃ field ∈ r.fields, field.name = m.1)
    (hfields : ∀ m ∈ members, text m.1 m.2.chars)
    (honce : ∀ field ∈ r.fields, (members.map Prod.fst).count field.name = 1) :
    r.reader.Reads (depth + 1) (Value.object members).canonical.toList a := by
  have hchars : (Value.object members).canonical.toList =
      membersText ((members.mergeSort Value.nameLe).map .written) := by
    rw [Value.canonical, Value.sorted, hsorted, Value.text, String.toList_ofList,
      Value.chars_object]
  rw [hchars]
  exact reader_reads hr
    (Record.lists_written (List.mergeSort_perm members Value.nameLe) hnames hfields honce)

end SatReplay.Json
