/-
  SatReplay/Proofs/Json/AnyValue.lean
  ===================================
  **Values of any shape are read back from their texts.**  A value is plain if no
  object has two members of one name and all its numbers are integers that 64
  bits hold.  The text of a plain value is read as that value, with the members
  in the order they have, as long as no more levels are opened than a text may
  open (`Value.text_reads`).  The order stays because every name is new when it
  is read, so that its member goes behind the others.

  The canonical text is the text of the sorted value.  Whoever reads it therefore
  gets the value back up to the order of members, and no two values that differ
  in more than that order have the same canonical text.
-/
import SatReplay.Proofs.Json.Canonical

namespace SatReplay.Json

namespace Value

/-! ### Plain values -/

/-- A number is an integer that 64 bits hold, with or without sign. -/
def HoldsInteger : Value → Prop
  | .number (.integer n) => -0x8000000000000000 ≤ n ∧ n < 0x10000000000000000
  | .number (.float _) => False
  | _ => True

structure Plain (v : Value) : Prop where
  distinct : v.DistinctNames
  integers : v.Every HoldsInteger

mutual

/-- How many arrays and objects stand inside each other. -/
def depth : Value → Nat
  | .array items => depthItems items + 1
  | .object members => depthMembers members + 1
  | _ => 0

def depthItems : List Value → Nat
  | [] => 0
  | v :: rest => max v.depth (depthItems rest)

def depthMembers : List (String × Value) → Nat
  | [] => 0
  | (_, v) :: rest => max v.depth (depthMembers rest)

end

theorem depthItems_le_iff {items : List Value} {d : Nat} :
    depthItems items ≤ d ↔ ∀ v ∈ items, v.depth ≤ d := by
  induction items with
  | nil => simp [depthItems]
  | cons v items ih => rw [depthItems, Nat.max_le, ih, List.forall_mem_cons]

theorem depthMembers_le_iff {members : List (String × Value)} {d : Nat} :
    depthMembers members ≤ d ↔ ∀ m ∈ members, m.2.depth ≤ d := by
  induction members with
  | nil => simp [depthMembers]
  | cons m members ih => rw [depthMembers, Nat.max_le, ih, List.forall_mem_cons]

/-- A scalar is plain, if it is an integer that 64 bits hold or no number at all. -/
theorem plain_scalar {v : Value} (hdepth : v.depth = 0) (h : v.HoldsInteger) : v.Plain := by
  cases v with
  | array items => cases hdepth
  | object members => cases hdepth
  | _ =>
    constructor
    · rintro u ⟨⟩
      exact .nil
    · rintro u ⟨⟩
      exact h

theorem plain_array {items : List Value} : (array items).Plain ↔ ∀ v ∈ items, v.Plain := by
  constructor
  · rintro ⟨hdistinct, hintegers⟩ v hv
    exact ⟨(every_array.1 hdistinct).2 v hv, (every_array.1 hintegers).2 v hv⟩
  · intro h
    exact ⟨every_array.2 ⟨.nil, fun v hv => (h v hv).distinct⟩,
      every_array.2 ⟨trivial, fun v hv => (h v hv).integers⟩⟩

theorem plain_object {members : List (String × Value)} :
    (object members).Plain ↔ (members.map Prod.fst).Nodup ∧ ∀ m ∈ members, m.2.Plain := by
  constructor
  · rintro ⟨hdistinct, hintegers⟩
    exact ⟨(every_object.1 hdistinct).1, fun m hm =>
      ⟨(every_object.1 hdistinct).2 m hm, (every_object.1 hintegers).2 m hm⟩⟩
  · rintro ⟨hnames, h⟩
    exact ⟨every_object.2 ⟨hnames, fun m hm => (h m hm).distinct⟩,
      every_object.2 ⟨trivial, fun m hm => (h m hm).integers⟩⟩

namespace Reorders

variable {v w : Value}

theorem holdsInteger (h : Reorders v w) : v.HoldsInteger → w.HoldsInteger := by
  induction h with
  | refl v => exact id
  | permute => exact fun _ => trivial
  | item => exact fun _ => trivial
  | member => exact fun _ => trivial
  | trans _ _ ihFirst ihRest => exact fun hv => ihRest (ihFirst hv)

theorem plain (h : Reorders v w) (hv : v.Plain) : w.Plain :=
  ⟨h.distinctNames hv.distinct, h.every (fun hu => hu.holdsInteger) hv.integers⟩

theorem depth_le (h : Reorders v w) : w.depth ≤ v.depth := by
  induction h with
  | refl v => exact Nat.le_refl _
  | @permute members others h =>
    have hmembers := depthMembers_le_iff.1 (Nat.le_refl (depthMembers members))
    exact Nat.succ_le_succ (depthMembers_le_iff.2 fun m hm => hmembers m (h.mem_iff.2 hm))
  | @item v w before after _ ih =>
    have hitems := depthItems_le_iff.1 (Nat.le_refl (depthItems (before ++ v :: after)))
    refine Nat.succ_le_succ (depthItems_le_iff.2 ?_)
    simp only [List.forall_mem_append, List.forall_mem_cons] at hitems ⊢
    exact ⟨hitems.1, Nat.le_trans ih hitems.2.1, hitems.2.2⟩
  | @member v w name before after _ ih =>
    have hmembers :=
      depthMembers_le_iff.1 (Nat.le_refl (depthMembers (before ++ (name, v) :: after)))
    refine Nat.succ_le_succ (depthMembers_le_iff.2 ?_)
    simp only [List.forall_mem_append, List.forall_mem_cons] at hmembers ⊢
    exact ⟨hmembers.1, Nat.le_trans ih hmembers.2.1, hmembers.2.2⟩
  | trans _ _ ihFirst ihRest => exact Nat.le_trans ihRest ihFirst

end Reorders

theorem isValue_chars (v : Value) : v.Plain → IsValue v.chars := by
  induction v with
  | null => exact fun _ => .null
  | boolean value =>
    intro _
    cases value with
    | false => exact .no
    | true => exact .yes
  | number n =>
    intro hv
    cases n with
    | integer n => exact .numeral (isNumeral_integerText n)
    | float x => exact (hv.integers _ (.self _)).elim
  | string text => exact fun _ => .string (isBody_of_spells (spells_flatMap_escape text.toList))
  | array items ih =>
    intro hv
    have htexts : ∀ v ∈ items, IsValue (id v).chars := fun v hmem =>
      ih v hmem (plain_array.1 hv v hmem)
    have hitems := isValue_array htexts
    rwa [List.map_id] at hitems
  | object members ih =>
    intro hv
    rw [chars_object]
    have hwritten : ∀ {p : MemberText → Prop}, (∀ m ∈ members, p (Member.written m).texts) →
        ∀ t ∈ (members.map .written).map Member.texts, p t := by
      intro p h t ht
      rw [List.map_map] at ht
      obtain ⟨m, hm, rfl⟩ := List.mem_map.1 ht
      exact h m hm
    refine .object (hwritten fun m _ => (Member.isNamed_written m).blanks) (hwritten ?_)
      (hwritten fun m hm => ih m hm ((plain_object.1 hv).2 m hm))
    exact fun m _ => ⟨_, isBody_of_spells (spells_flatMap_escape m.1.toList), rfl⟩

end Value

/-! ### Members -/

theorem setMember_of_new {members : List (String × Value)} {name : String}
    (h : name ∉ members.map Prod.fst) (v : Value) :
    setMember members name v = members ++ [(name, v)] := by
  rw [setMember, if_neg]
  simpa using h

section

variable {depth : Nat}

theorem membersInto_written {m : String × Value} (hreads : Reader.value.Reads depth m.2.chars m.2)
    {before : List (String × Value)} (hnew : m.1 ∉ before.map Prod.fst) {first : Bool}
    {cs rest : List Char}
    (hnext : nextMember first cs = .ok (.named m.1 ((Member.written m).afterName rest)))
    (hrest : Delimited rest) (steps : Nat) :
    membersInto (Reader.value depth) (steps + 1) first before cs =
      membersInto (Reader.value depth) steps false (before ++ [m]) rest := by
  have hcolon : takeColon ((Member.written m).afterName rest) = .ok (m.2.chars ++ rest) :=
    takeColon_afterName (Member.isNamed_written m) rest
  have hread : Reader.value depth (m.2.chars ++ rest) = .ok (m.2, rest) :=
    hreads [] rest blanks_nil hrest
  simp only [membersInto, hnext, hcolon, hread, setMember_of_new hnew]

theorem membersInto_further_written {members : List (String × Value)}
    (hreads : ∀ m ∈ members, Reader.value.Reads depth m.2.chars m.2) :
    ∀ (steps : Nat) (before : List (String × Value)) (rest : List Char),
      ((before ++ members).map Prod.fst).Nodup → members.length < steps →
      membersInto (Reader.value depth) steps false before
          (furtherText (members.map .written) ++ rest) =
        .ok (before ++ members, rest) := by
  induction members with
  | nil =>
    intro steps before rest _ hsteps
    obtain ⟨steps, rfl⟩ : ∃ k, steps = k + 1 := ⟨steps - 1, by omega⟩
    have hend : nextMember false (furtherText [] ++ rest) = .ok (.ended rest) := rfl
    simp only [List.map_nil, membersInto, hend, List.append_nil]
  | cons m members ih =>
    intro steps before rest hnames hsteps
    obtain ⟨steps, rfl⟩ : ∃ k, steps = k + 1 := ⟨steps - 1, by omega⟩
    rw [List.forall_mem_cons] at hreads
    have hnew : m.1 ∉ before.map Prod.fst := by
      rw [List.map_append, List.nodup_append] at hnames
      exact fun hmem => hnames.2.2 _ hmem _ (by simp) rfl
    have hnext := nextMember_further (Member.isNamed_written m)
      (furtherText (members.map .written) ++ rest)
    rw [List.append_cons] at hnames ⊢
    have henough : members.length < steps := by
      rw [List.length_cons] at hsteps
      omega
    rw [List.map_cons, furtherText_cons, membersInto_written hreads.1 hnew hnext
      (delimited_furtherText _ rest), ih hreads.2 steps (before ++ [m]) rest hnames henough]

/-- The members of an object are read as they are written. -/
theorem members_written {all : List (String × Value)}
    (hreads : ∀ m ∈ all, Reader.value.Reads depth m.2.chars m.2)
    (hnames : (all.map Prod.fst).Nodup) (rest : List Char) :
    ∃ inner, (Value.object all).chars = '\x7b' :: inner ∧
      members (Reader.value depth) (inner ++ rest) = .ok (all, rest) := by
  cases all with
  | nil => exact ⟨['\x7d'], rfl, rfl⟩
  | cons m all =>
    rw [List.forall_mem_cons] at hreads
    have hnext := nextMember_first (Member.isNamed_written m)
      (furtherText (all.map .written) ++ rest)
    have henough : all.length <
        ((Member.written m).texts.chars ++ (furtherText (all.map .written) ++ rest)).length := by
      have hlength := length_le_furtherText (all.map .written)
      rw [List.length_map] at hlength
      rw [List.length_append, List.length_append]
      omega
    refine ⟨_, by rw [Value.chars_object, List.map_cons, membersText_cons], ?_⟩
    rw [members, List.append_assoc, membersInto_written hreads.1 List.not_mem_nil hnext
      (delimited_furtherText _ rest)]
    exact membersInto_further_written hreads.2 _ [m] rest hnames henough

end

/-! ### Reading back -/

namespace Value

/-- What is found at the front is all of a scalar. -/
theorem scalar_reads {v : Value} {text : List Char} (found : Found)
    (hfound : ∀ rest, Delimited rest → Found.read (text ++ rest) = .ok (found, rest))
    (hany : ∀ array object rest cs, Found.read cs = .ok (found, rest) →
      anyWith array object cs = .ok (v, rest)) (depth : Nat) :
    Reader.value.Reads depth text v := by
  intro before rest hbefore hrest
  have hread : Found.read (before ++ (text ++ rest)) = .ok (found, rest) := by
    rw [foundRead_blanks hbefore, hfound rest hrest]
  cases depth with
  | zero => exact hany _ _ _ _ hread
  | succ depth => exact hany _ _ _ _ hread

/-- **The text of a plain value is read as the value.** -/
theorem text_reads (v : Value) : ∀ depth, v.Plain → v.depth ≤ depth →
    Reader.value.Reads depth v.chars v := by
  induction v with
  | null =>
    intro depth _ _
    exact scalar_reads .null (fun rest _ => rfl)
      (fun array object rest cs h => by simp only [anyWith, h]) depth
  | boolean value =>
    intro depth _ _
    refine scalar_reads (.boolean value) (fun rest _ => ?_)
      (fun array object rest cs h => by simp only [anyWith, h]) depth
    cases value <;> rfl
  | number n =>
    intro depth hplain _
    have hinteger := hplain.integers _ (.self _)
    cases n with
    | float x => exact hinteger.elim
    | integer n =>
      exact scalar_reads (.number (.integer n))
        (fun rest hrest => foundRead_numeral (isNumeral_integerText n)
          (readNumber_integerText hinteger.1 hinteger.2 hrest))
        (fun array object rest cs h => by simp only [anyWith, h]) depth
  | string text =>
    intro depth _ _
    exact scalar_reads (.string text)
      (fun rest _ => foundRead_quoted (spells_flatMap_escape text.toList) rest)
      (fun array object rest cs h => by simp only [anyWith, h]) depth
  | array items ih =>
    intro depth hplain hdepth
    obtain ⟨depth, rfl⟩ : ∃ d, depth = d + 1 := ⟨depth - 1, by rw [Value.depth] at hdepth; omega⟩
    rw [plain_array] at hplain
    rw [Value.depth, Nat.add_le_add_iff_right, depthItems_le_iff] at hdepth
    have hitems : ∀ v ∈ items, Reader.value.Reads depth v.chars v :=
      fun v hv => ih v hv depth (hplain v hv) (hdepth v hv)
    intro before rest hbefore _
    have hlist := isList_chars id items
    rw [List.map_id] at hlist
    obtain ⟨inner, htext, hread⟩ := items_list (fun v hv => isValue_chars v (hplain v hv)) hitems
      hlist rest
    have hfound : Found.read ('[' :: inner ++ rest) = .ok (.sequence, inner ++ rest) := rfl
    simp only [Reader.value, anyWith, htext, foundRead_blanks hbefore, hfound, hread, Except.map]
  | object members ih =>
    intro depth hplain hdepth
    obtain ⟨depth, rfl⟩ : ∃ d, depth = d + 1 := ⟨depth - 1, by rw [Value.depth] at hdepth; omega⟩
    rw [plain_object] at hplain
    rw [Value.depth, Nat.add_le_add_iff_right, depthMembers_le_iff] at hdepth
    have hmembers : ∀ m ∈ members, Reader.value.Reads depth m.2.chars m.2 :=
      fun m hm => ih m hm depth (hplain.2 m hm) (hdepth m hm)
    intro before rest hbefore _
    obtain ⟨inner, htext, hread⟩ := members_written hmembers hplain.1 rest
    have hfound : Found.read ('\x7b' :: inner ++ rest) = .ok (.map, inner ++ rest) := rfl
    simp only [Reader.value, anyWith, htext, foundRead_blanks hbefore, hfound, hread, Except.map]

theorem canonical_reads {v : Value} (hplain : v.Plain) (hdepth : v.depth ≤ 127) :
    Reader.value.readText v.canonical = .ok v.sorted := by
  have hsorted := text_reads v.sorted maxDepth ((reorders_sorted v).plain hplain)
    (Nat.le_trans (reorders_sorted v).depth_le hdepth)
  apply Reader.readText_eq hsorted blanks_nil blanks_nil
  rw [canonical, text, String.toList_ofList, List.nil_append, List.append_nil]

/-- **Reading undoes writing.**  The canonical text of a plain value is read as the
    value with its members sorted, of which it is the canonical text again.  So two
    such values with one text are the same up to the order of members. -/
theorem canonical_read_back :
    (∀ v : Value, v.Plain → v.depth ≤ 127 →
      Reader.value.readText v.canonical = .ok v.sorted ∧ v.Reorders v.sorted ∧
        v.sorted.Ascending ∧ v.sorted.canonical = v.canonical) ∧
    (∀ v w : Value, v.Plain → w.Plain → v.depth ≤ 127 → w.depth ≤ 127 →
      (v.canonical = w.canonical ↔ v.Reorders w)) := by
  constructor
  · intro v hplain hdepth
    have hsame := (reorders_sorted v).sorted_eq hplain.distinct
    refine ⟨canonical_reads hplain hdepth, reorders_sorted v, ascending_sorted v hplain.distinct, ?_⟩
    rw [canonical, canonical, ← hsame]
  · intro v w hv hw hvDepth hwDepth
    constructor
    · intro htext
      have hread := canonical_reads hv hvDepth
      rw [htext, canonical_reads hw hwDepth] at hread
      have hsorted : w.sorted = v.sorted := Except.ok.inj hread
      exact .trans (hsorted ▸ reorders_sorted v) (reorders_sorted w).symm
    · intro h
      rw [canonical, canonical, h.sorted_eq hv.distinct]

/-- A value with the least and the greatest integer, characters that are escaped and
    others that are not, and containers with nothing inside; and its members in the
    other order. -/
theorem canonical_read_back_nested :
    let inner : List (String × Value) :=
      [("\"\\\n\x01", .ofInt 18446744073709551615), ("é😀", .ofInt (-9223372036854775808))]
    let v : Value := .object [("z", .array [.object inner, .array []]), ("", .object [])]
    let w : Value := .object [("", .object []), ("z", .array [.object inner.reverse, .array []])]
    Reader.value.readText v.canonical = .ok v.sorted ∧ v.sorted.canonical = v.canonical ∧
      v.canonical = w.canonical := by
  intro inner v w
  have hinner : (Value.object inner).Plain := by
    simp only [inner, plain_object, List.forall_mem_cons]
    exact ⟨by decide, plain_scalar rfl (by simp [ofInt, HoldsInteger]),
      plain_scalar rfl (by simp [ofInt, HoldsInteger]), by simp⟩
  have hv : v.Plain := by
    simp only [v, plain_object, plain_array, List.forall_mem_cons]
    exact ⟨by decide, ⟨plain_object.1 hinner, by simp, by simp⟩, ⟨.nil, by simp⟩, by simp⟩
  have hreordered : v.Reorders w :=
    .trans (.member "z" [] _ (.item [] _ (.permute (List.reverse_perm inner).symm)))
      (.permute (.swap _ _ []))
  have hw := hreordered.plain hv
  obtain ⟨hread, -, -, hagain⟩ := canonical_read_back.1 v hv (by decide)
  exact ⟨hread, hagain,
    (canonical_read_back.2 v w hv hw (by decide) (by decide)).2 hreordered⟩

end Value

end SatReplay.Json
