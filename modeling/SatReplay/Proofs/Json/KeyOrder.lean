/-
  SatReplay/Proofs/Json/KeyOrder.lean
  ===================================
  **The order of the keys in a canonical text.**  `Value.AscendingText` derives the
  text of a value from its parts, as the grammar does: in the characters of an
  object stand the names of its members, spelled one after the other, and they
  ascend by their bytes.

  A number is told by what its text has not: without quotes and brackets there is
  no room for a name.  Hence no number has to be looked into, and the text of any
  value is of this kind once its names ascend (`Value.ascendingText_chars`).
-/
import SatReplay.Proofs.Json.Canonical
import SatReplay.Proofs.Json.Numbers

namespace SatReplay.Json

/-! ### Texts whose keys ascend -/

/-- No string, array or object is put together with this character. -/
def isBare (c : Char) : Bool :=
  c ≠ '"' && c ≠ ',' && c ≠ ':' && c ≠ '[' && c ≠ ']' && c ≠ '\x7b' && c ≠ '\x7d'

/-- The characters are a text of the value, in which the names that are spelled in
    an object ascend by their bytes. -/
inductive Value.AscendingText : Value → List Char → Prop
  | null : AscendingText .null ['n', 'u', 'l', 'l']
  | yes : AscendingText (.boolean true) ['t', 'r', 'u', 'e']
  | no : AscendingText (.boolean false) ['f', 'a', 'l', 's', 'e']
  | number {n : Number} {cs : List Char} (h : ∀ c ∈ cs, isBare c = true) :
      AscendingText (.number n) cs
  | string {text : String} {cs : List Char} (h : IsText text cs) : AscendingText (.string text) cs
  | array {parts : List (Value × Padded)} (hblanks : ∀ p ∈ parts, p.2.InBlanks)
      (hitems : ∀ p ∈ parts, AscendingText p.1 p.2.text) :
      AscendingText (.array (parts.map Prod.fst)) (arrayText (parts.map Prod.snd))
  | object {parts : List (Value × Member)} (hnamed : ∀ p ∈ parts, p.2.IsNamed)
      (hascend : (parts.map fun p => Bytes.ofText p.2.name).Pairwise (· < ·))
      (hvalues : ∀ p ∈ parts, AscendingText p.1 p.2.texts.value.text) :
      AscendingText (.object (parts.map fun p => (p.2.name, p.1)))
        (membersText (parts.map Prod.snd))

/-! ### Numbers -/

theorem isBare_of_isNumeralChar {c : Char} (h : isNumeralChar c = true) : isBare c = true := by
  simp only [isBare, Bool.and_eq_true, decide_eq_true_eq, and_assoc]
  refine ⟨?_, ?_, ?_, ?_, ?_, ?_, ?_⟩
  all_goals
    rintro rfl
    cases h

/-- Also what is written for numbers that are not finite is bare. -/
theorem isBare_document (x : Binary64) :
    ∀ c ∈ (Layout.document.text x).toList, isBare c = true := by
  rcases hfinite : x.isFinite with _ | _
  · rw [Binary64.isFinite] at hfinite
    rw [Layout.text]
    split at hfinite
    · cases hfinite
    next hparts =>
      split
      next => exact List.all_eq_true.1 (by decide)
      next negative _ =>
        cases negative with
        | false => exact List.all_eq_true.1 (by decide)
        | true => exact List.all_eq_true.1 (by decide)
      next negative m q heq => exact absurd heq (hparts negative m q)
  · exact fun c hc => isBare_of_isNumeralChar (isNumeralChar_document hfinite c hc)

theorem isBare_numberChars (n : Number) :
    ∀ c ∈ Value.numberChars n, isBare c = true := by
  have hdigits : ∀ k, ∀ c ∈ Nat.toDigits 10 k, isBare c = true := fun k c hc =>
    isBare_of_isNumeralChar (isNumeralChar_digitsOf c hc)
  cases n with
  | integer value =>
    rw [Value.numberChars]
    split
    · exact List.forall_mem_cons.2 ⟨by decide, hdigits _⟩
    · exact hdigits _
  | float x => exact isBare_document x

namespace Value

/-! ### Written values -/

theorem ascendingText_array {items : List Value} (h : ∀ v ∈ items, v.AscendingText v.chars) :
    (array items).AscendingText (array items).chars := by
  have hitems : (items.map fun v => (v, Padded.plain v.chars)).map Prod.fst = items := by
    rw [List.map_map]
    exact List.map_id items
  have htexts : (items.map fun v => (v, Padded.plain v.chars)).map Prod.snd =
      (items.map chars).map .plain := by
    rw [List.map_map, List.map_map]
    rfl
  have htext := @AscendingText.array (items.map fun v => (v, .plain v.chars))
    (List.forall_mem_map.2 fun v _ => Padded.inBlanks_plain v.chars) (List.forall_mem_map.2 h)
  rwa [hitems, htexts, ← chars_array] at htext

theorem ascendingText_object {members : List (String × Value)}
    (hascend : ((object members).names.map Bytes.ofText).Pairwise (· < ·))
    (h : ∀ m ∈ members, m.2.AscendingText m.2.chars) :
    (object members).AscendingText (object members).chars := by
  have hmembers : (members.map fun m => (m.2, Member.written m)).map
      (fun p => (p.2.name, p.1)) = members := by
    rw [List.map_map]
    exact List.map_id members
  have htexts : (members.map fun m => (m.2, Member.written m)).map Prod.snd =
      members.map .written := by
    rw [List.map_map]
    rfl
  have hnames : ((members.map fun m => (m.2, Member.written m)).map
      fun p => Bytes.ofText p.2.name).Pairwise (· < ·) := by
    rw [names, List.map_map] at hascend
    rw [List.map_map]
    exact hascend
  have htext := @AscendingText.object (members.map fun m => (m.2, .written m))
    (List.forall_mem_map.2 fun m _ => Member.isNamed_written m) hnames (List.forall_mem_map.2 h)
  rwa [hmembers, htexts, ← chars_object] at htext

/-- What is written for a value whose names ascend. -/
theorem ascendingText_chars (v : Value) : v.Ascending → v.AscendingText v.chars := by
  induction v with
  | null => exact fun _ => .null
  | boolean value =>
    intro _
    cases value with
    | false => exact .no
    | true => exact .yes
  | number n => exact fun _ => .number (isBare_numberChars n)
  | string text => exact fun _ => .string (isText_stringChars text)
  | array items ih =>
    intro hv
    obtain ⟨-, hitems⟩ := every_array.1 hv
    exact ascendingText_array fun v hmem => ih v hmem (hitems v hmem)
  | object members ih =>
    intro hv
    obtain ⟨hascend, hmembers⟩ := every_object.1 hv
    exact ascendingText_object hascend fun m hmem => ih m hmem (hmembers m hmem)

/-- **The canonical text does not depend on the order of members**, at any depth.
    It is the text of a value that differs in that order alone, and in which the
    names of every object ascend by their bytes; and these names are spelled in its
    characters in this order. -/
theorem canonical_of_reordered :
    (∀ v w : Value, v.DistinctNames → v.Reorders w → v.canonical = w.canonical) ∧
    (∀ v : Value, v.DistinctNames →
      ∃ w : Value, v.Reorders w ∧ w.Ascending ∧ v.canonical = w.text ∧
        w.AscendingText v.canonical.toList) := by
  constructor
  · intro v w hv h
    rw [canonical, canonical, h.sorted_eq hv]
  · intro v hv
    have hascending := ascending_sorted v hv
    refine ⟨v.sorted, reorders_sorted v, hascending, rfl, ?_⟩
    rw [canonical, text, String.toList_ofList]
    exact ascendingText_chars v.sorted hascending

/-- Two objects that are reordered on both levels.  By its bytes the first name comes
    before the other one, of which a half would be less in units of 16 bits. -/
theorem canonical_of_reordered_nested :
    let inner : List (String × Value) := [("b", .ofInt 1), ("a", .ofInt (-2))]
    let v : Value := .object [("\uffff", .array [.object inner]), ("😀", .null)]
    let w : Value := .object [("😀", .null), ("\uffff", .array [.object inner.reverse])]
    v.canonical = w.canonical ∧
      ∃ u : Value, v.Reorders u ∧ u.Ascending ∧ v.canonical = u.text ∧
        u.AscendingText v.canonical.toList := by
  intro inner v w
  have hscalar : ∀ n, (ofInt n).DistinctNames := by
    rintro n u ⟨⟩
    exact .nil
  have hnull : null.DistinctNames := by
    rintro u ⟨⟩
    exact .nil
  have hv : v.DistinctNames := by
    simp only [v, inner, DistinctNames, every_object, every_array, List.forall_mem_cons]
    exact ⟨by decide, ⟨.nil, ⟨by decide, hscalar 1, hscalar (-2), by simp⟩, by simp⟩, hnull,
      by simp⟩
  have hinner : Reorders (.object inner) (.object inner.reverse) :=
    .permute (List.reverse_perm inner).symm
  have hitem : Reorders (.array [.object inner]) (.array [.object inner.reverse]) :=
    .item [] [] hinner
  have hw : v.Reorders w :=
    .trans (.member "\uffff" [] [("😀", .null)] hitem) (.permute (.swap _ _ []))
  exact ⟨canonical_of_reordered.1 v w hv hw, canonical_of_reordered.2 v hv⟩

end Value

end SatReplay.Json
