/-
  SatReplay/Proofs/Json/Reading.lean
  ==================================
  **Typed readers on the texts they are made for.**  A reader `Reads` a text as a
  value if it takes the text off the front as that value, with blanks before it
  and anything delimited behind.  Strings are read from every spelling, integers
  of 32 bits from their decimal digits, lists from the texts of their items.
-/
import SatReplay.Proofs.Json.Skipping

namespace SatReplay.Json

/-! ### Digits -/

theorem isDigit_of_mem_toDigits {m : Nat} {d : Char} (h : d ∈ Nat.toDigits 10 m) :
    Reading.isDigit d = true := by
  have hdigit := Nat.isDigit_of_mem_toDigits (by decide) (by decide) h
  simp only [Char.isDigit, Reading.isDigit, Bool.and_eq_true, decide_eq_true_eq] at hdigit ⊢
  exact hdigit

theorem isWhole_toDigits (m : Nat) : IsWhole (Nat.toDigits 10 m) := by
  have hne : ∀ k, Nat.toDigits 10 k ≠ [] := fun k h => by
    have hpos := Nat.length_toDigits_pos (b := 10) (n := k)
    rw [h] at hpos
    exact absurd hpos (by decide)
  refine ⟨⟨hne m, fun d hd => isDigit_of_mem_toDigits hd⟩, ?_⟩
  -- the first digit is that of the number without its last digit
  induction m using Nat.strongRecOn with
  | ind m ih =>
    intro hzero
    by_cases hsmall : m < 10
    · rw [Nat.toDigits_of_lt_base hsmall] at hzero ⊢
      rw [Option.some.inj hzero]
    · have hfront : (Nat.toDigits 10 (m / 10)).head? = some '0' := by
        rw [Nat.toDigits_of_base_le (by decide) (by omega), List.head?_append] at hzero
        rcases hdigits : Nat.toDigits 10 (m / 10) with _ | ⟨d, ds⟩
        · exact absurd hdigits (hne _)
        · rwa [hdigits] at hzero
      have hvalue := Nat.ofDigitChars_ten_toDigits (n := m / 10)
      rw [ih (m / 10) (by omega) hfront] at hvalue
      have hnone : m / 10 = 0 := hvalue.symm
      omega

theorem le_ofDigitChars (ds : List Char) : ∀ n, n ≤ Nat.ofDigitChars 10 ds n := by
  induction ds with
  | nil => exact fun n => Nat.le_refl n
  | cons d ds ih =>
    intro n
    have hrest := ih (10 * n + (d.toNat - '0'.toNat))
    have hstep : Nat.ofDigitChars 10 (d :: ds) n =
        Nat.ofDigitChars 10 ds (10 * n + (d.toNat - '0'.toNat)) := rfl
    omega

namespace Numeral

theorem significand_eq (ds : List Char) : ∀ n, Nat.ofDigitChars 10 ds n < significandBound →
    significand n ds = (Nat.ofDigitChars 10 ds n, []) := by
  induction ds with
  | nil => exact fun n _ => rfl
  | cons d ds ih =>
    intro n h
    have hstep : Nat.ofDigitChars 10 (d :: ds) n =
        Nat.ofDigitChars 10 ds (n * 10 + Reading.digitValue d) := by
      rw [Nat.mul_comm n 10]
      rfl
    rw [hstep] at h ⊢
    have hle := le_ofDigitChars ds (n * 10 + Reading.digitValue d)
    rw [significand, if_pos (by omega), ih _ h]

theorem significand_toDigits {m : Nat} (h : m < significandBound) :
    significand 0 (Nat.toDigits 10 m) = (m, []) := by
  have hvalue := Nat.ofDigitChars_ten_toDigits (n := m)
  rw [significand_eq _ 0 (by rwa [hvalue]), hvalue]

/-- The numeral of an integer of 64 bits, with or without sign, stands for it. -/
theorem number?_toDigits {n : Int} (hlow : -0x8000000000000000 ≤ n)
    (hhigh : n < 0x10000000000000000) :
    number? ⟨n < 0, Nat.toDigits 10 n.natAbs, [], none⟩ = some (.integer n) := by
  have hbound : n.natAbs < significandBound := by
    simp only [significandBound]
    omega
  simp only [number?, significand_toDigits hbound, true_and]
  by_cases hneg : n < 0
  · have habs : (-n.natAbs : Int) = n := by omega
    have hpos : 0 < n.natAbs := by omega
    have hle : n.natAbs ≤ 0x8000000000000000 := by omega
    simp only [hneg, hpos, hle, habs, decide_true, and_self, not_true, if_true, if_false]
  · have habs : (n.natAbs : Int) = n := by omega
    simp only [hneg, habs, decide_false, Bool.false_eq_true, not_false_iff, if_true]

end Numeral

/-! ### Integers -/

def integerText (n : Int) : List Char := Value.numberChars (.integer n)

theorem integerText_eq (n : Int) :
    integerText n = minusSign (n < 0) ++ Nat.toDigits 10 n.natAbs := by
  by_cases h : n < 0
  · simp [integerText, Value.numberChars, h, minusSign]
  · simp [integerText, Value.numberChars, h, minusSign]

theorem isNumeral_integerText (n : Int) : IsNumeral (integerText n) :=
  ⟨n < 0, Nat.toDigits 10 n.natAbs, [], [], isWhole_toDigits _, Or.inl rfl, Or.inl rfl, by
    rw [integerText_eq, List.append_nil, List.append_nil]⟩

theorem readNumber_integerText {n : Int} {rest : List Char} (hlow : -0x8000000000000000 ≤ n)
    (hhigh : n < 0x10000000000000000) (hrest : Delimited rest) :
    Numeral.readNumber (integerText n ++ rest) = .ok (.integer n, rest) := by
  have hread := Numeral.read_whole .endInValue (n < 0) (isWhole_toDigits n.natAbs) hrest
  rw [← List.append_assoc, ← integerText_eq] at hread
  simp only [Numeral.readNumber, hread, Numeral.number?_toDigits hlow hhigh]

/-! ### What stands at the front -/

theorem foundRead_blanks {before cs : List Char} (h : Blanks before) :
    Found.read (before ++ cs) = Found.read cs := by
  simp only [Found.read, dropBlanks_append h]

theorem foundRead_quoted {body : List Char} {s : String} (h : Spells body s.toList)
    (rest : List Char) : Found.read (quoted body ++ rest) = .ok (.string s, rest) := by
  rw [quoted, List.cons_append, List.append_assoc, List.singleton_append]
  exact congrArg (Except.map _) (takeString_quoted h rest)

theorem foundRead_numeral_head {c : Char} (hc : c = '-' ∨ Reading.isDigit c = true)
    (rest : List Char) :
    Found.read (c :: rest) =
      (Numeral.readNumber (c :: rest)).map fun (value, rest) => (.number value, rest) := by
  have harray : c ≠ '[' := numeral_head_ne hc (by decide) (by decide)
  have hobject : c ≠ '\x7b' := numeral_head_ne hc (by decide) (by decide)
  have hnull : c ≠ 'n' := numeral_head_ne hc (by decide) (by decide)
  have htrue : c ≠ 't' := numeral_head_ne hc (by decide) (by decide)
  have hfalse : c ≠ 'f' := numeral_head_ne hc (by decide) (by decide)
  have hquote : c ≠ '"' := numeral_head_ne hc (by decide) (by decide)
  simp [Found.read, dropBlanks_cons (isBlank_numeral_head hc), hc]

theorem foundRead_numeral {cs rest : List Char} {n : Number} (h : IsNumeral cs)
    (hread : Numeral.readNumber (cs ++ rest) = .ok (n, rest)) :
    Found.read (cs ++ rest) = .ok (.number n, rest) := by
  obtain ⟨c, text, rfl, hc⟩ := h.head
  rw [List.cons_append] at hread ⊢
  rw [foundRead_numeral_head hc, hread, Except.map]

/-! ### Readers -/

namespace Reader

variable {α : Type}

/-- The reader takes the text off the front as this value. -/
def Reads (reader : Reader α) (depth : Nat) (text : List Char) (a : α) : Prop :=
  ∀ before rest, Blanks before → Delimited rest →
    reader depth (before ++ (text ++ rest)) = .ok (a, rest)

theorem readText_eq_ok_iff {reader : Reader α} {text : String} {a : α} :
    reader.readText text = .ok a ↔
      ∃ tail, reader maxDepth text.toList = .ok (a, tail) ∧ dropBlanks tail = [] := by
  simp only [readText]
  constructor
  · intro h
    rcases hread : reader maxDepth text.toList with stop | ⟨b, tail⟩
    · simp only [hread] at h
      cases h
    · simp only [hread] at h
      rcases hblanks : dropBlanks tail with _ | ⟨c, rest⟩
      · rw [hblanks] at h
        obtain rfl := Except.ok.inj h
        exact ⟨tail, rfl, hblanks⟩
      · rw [hblanks] at h
        cases h
  · rintro ⟨tail, hread, hblanks⟩
    simp only [hread, hblanks]

theorem string_reads {s : String} {cs : List Char} (h : IsText s cs) (depth : Nat) :
    string.Reads depth cs s := by
  obtain ⟨body, hbody, rfl⟩ := h
  intro before rest hbefore _
  simp only [string, foundRead_blanks hbefore, foundRead_quoted hbody]

theorem boolean_reads (value : Bool) (depth : Nat) :
    boolean.Reads depth (Value.boolean value).chars value := by
  intro before rest hbefore _
  cases value with
  | false =>
    rw [boolean, foundRead_blanks hbefore]
    rfl
  | true =>
    rw [boolean, foundRead_blanks hbefore]
    rfl

theorem integer_reads (expected : Expected) {low high n : Int} (hlow : low ≤ n) (hhigh : n ≤ high)
    (hleast : -0x8000000000000000 ≤ n) (hmost : n < 0x10000000000000000) (depth : Nat) :
    (integer expected low high).Reads depth (integerText n) n := by
  intro before rest hbefore hrest
  have hread := foundRead_numeral (isNumeral_integerText n)
    (readNumber_integerText hleast hmost hrest)
  simp only [integer, foundRead_blanks hbefore, hread, hlow, hhigh, and_self, if_true]

theorem int32_reads (n : Int32) (depth : Nat) : int32.Reads depth (integerText n.toInt) n := by
  have hlow := Int32.le_toInt n
  have hhigh := Int32.toInt_lt n
  have hreads : (integer .signed32 (-0x80000000) 0x7fffffff).Reads depth (integerText n.toInt)
      n.toInt := integer_reads .signed32 (by omega) (by omega) (by omega) (by omega) depth
  intro before rest hbefore hrest
  have hread := hreads before rest hbefore hrest
  simp only [int32, hread, Except.map, Int32.ofInt_toInt]

theorem word32_reads (n : UInt32) (depth : Nat) : word32.Reads depth (integerText n.toNat) n := by
  have hlt := n.toNat_lt
  have hreads : (integer .unsigned32 0 0xffffffff).Reads depth (integerText n.toNat) n.toNat :=
    integer_reads .unsigned32 (by omega) (by omega) (by omega) (by omega) depth
  intro before rest hbefore hrest
  have hread := hreads before rest hbefore hrest
  simp only [word32, hread, Except.map, Int.toNat_natCast, UInt32.ofNat_toNat]

end Reader

/-! ### Lists -/

theorem nextItem_blanks {blanks cs : List Char} {first : Bool} (h : Blanks blanks) :
    nextItem first (blanks ++ cs) = nextItem first cs := by
  simp only [nextItem, dropBlanks_append h]

theorem nextItem_first {v rest : List Char} (h : IsValue v) :
    nextItem true (v ++ rest) = .ok (.part (v ++ rest)) := by
  obtain ⟨c, text, rfl, hblank, hclose, -⟩ := h.head
  simp [nextItem, dropBlanks_cons hblank]

theorem nextItem_further {before v rest : List Char} (hbefore : Blanks before) (h : IsValue v) :
    nextItem false (',' :: (before ++ (v ++ rest))) = .ok (.part (v ++ rest)) := by
  obtain ⟨c, text, rfl, hblank, hclose, -⟩ := h.head
  have hcomma : isBlank ',' = false := by decide
  rw [nextItem, dropBlanks_cons hcomma]
  simp only [dropBlanks_append hbefore, List.cons_append, dropBlanks_cons hblank,
    Bool.false_eq_true, if_false, if_true, Char.reduceEq, false_imp_iff]
  split
  next heq => cases heq
  next heq => exact absurd (List.cons.inj heq).1 hclose
  next => rfl

section Lists

variable {α : Type} {reader : Reader α} {depth : Nat} {text : α → List Char}

theorem itemsInto_ended {item : Scan α} {acc : Array α} {first : Bool} {cs rest : List Char}
    (hfirst : acc.isEmpty = first) (h : nextItem first cs = .ok (.ended rest)) (steps : Nat) :
    itemsInto item (steps + 1) acc cs = .ok (acc.toList, rest) := by
  simp only [itemsInto, hfirst, h]

theorem itemsInto_item {p : Padded} {a : α} (hafter : Blanks p.after) (htext : p.text = text a)
    (hreads : reader.Reads depth (text a) a) {acc : Array α} {first : Bool} {cs rest : List Char}
    (hfirst : acc.isEmpty = first)
    (hnext : nextItem first cs = .ok (.part (p.text ++ (p.after ++ rest))))
    (hrest : Delimited rest) (steps : Nat) :
    itemsInto (reader depth) (steps + 1) acc cs =
      itemsInto (reader depth) steps (acc.push a) (p.after ++ rest) := by
  have hread := hreads [] _ blanks_nil (hrest.append_blanks hafter)
  rw [List.nil_append, ← htext] at hread
  simp only [itemsInto, hfirst, hnext, hread]

theorem itemsInto_further {values : List α} (hvalue : ∀ a ∈ values, IsValue (text a))
    (hreads : ∀ a ∈ values, reader.Reads depth (text a) a) :
    ∀ (items : List Padded) (steps : Nat) (acc : Array α) (after rest : List Char),
      (∀ p ∈ items, p.InBlanks) → items.map Padded.text = values.map text →
      items.length < steps → acc.isEmpty = false → Blanks after →
      itemsInto (reader depth) steps acc (after ++ (further ']' (items.map Padded.chars) ++ rest)) =
        .ok (acc.toList ++ values, rest) := by
  induction values with
  | nil =>
    intro items steps acc after rest _ htexts hsteps hacc hafter
    obtain ⟨steps, rfl⟩ : ∃ k, steps = k + 1 := ⟨steps - 1, by omega⟩
    obtain rfl := List.map_eq_nil_iff.1 htexts
    have hend : nextItem false (after ++ (further ']' [] ++ rest)) = .ok (.ended rest) := by
      rw [nextItem_blanks hafter]
      rfl
    rw [List.map_nil, itemsInto_ended hacc hend, List.append_nil]
  | cons a values ih =>
    intro items steps acc after rest hblanks htexts hsteps hacc hafter
    obtain ⟨steps, rfl⟩ : ∃ k, steps = k + 1 := ⟨steps - 1, by omega⟩
    obtain ⟨p, items, rfl, htext, htexts⟩ := List.map_eq_cons_iff.1 htexts
    obtain ⟨hbefore, hpAfter⟩ := hblanks p (by simp)
    have hvalueText : IsValue p.text := htext ▸ hvalue a (by simp)
    have hrest := delimited_further (Or.inl rfl) (items.map Padded.chars) rest
    have hpart : nextItem false (after ++ (further ']' ((p :: items).map Padded.chars) ++ rest)) =
        .ok (.part (p.text ++ (p.after ++ (further ']' (items.map Padded.chars) ++ rest)))) := by
      rw [nextItem_blanks hafter, ← nextItem_further hbefore hvalueText]
      simp only [List.map_cons, further, Padded.chars, List.cons_append, List.append_assoc]
    have henough : items.length < steps := by
      rw [List.length_cons] at hsteps
      omega
    have hfurther := ih (fun b hb => hvalue b (by simp [hb])) (fun b hb => hreads b (by simp [hb]))
      items steps (acc.push a) p.after rest (fun q hq => hblanks q (by simp [hq])) htexts henough
      (by simp) hpAfter
    rw [itemsInto_item hpAfter htext (hreads a (by simp)) hacc hpart hrest, hfurther,
      Array.toList_push, List.append_assoc, List.singleton_append]

/-- The text of a list, given the texts of its items: items with blanks around
    them, or nothing but blanks. -/
def IsList (text : α → List Char) (values : List α) (cs : List Char) : Prop :=
  (values = [] ∧ ∃ blanks, Blanks blanks ∧ cs = '[' :: (blanks ++ [']'])) ∨
    ∃ items : List Padded, (∀ p ∈ items, p.InBlanks) ∧ items.map Padded.text = values.map text ∧
      cs = arrayText items

theorem items_list {values : List α} (hvalue : ∀ a ∈ values, IsValue (text a))
    (hreads : ∀ a ∈ values, reader.Reads depth (text a) a) {cs : List Char}
    (h : IsList text values cs) (rest : List Char) :
    ∃ inner, cs = '[' :: inner ∧ items (reader depth) (inner ++ rest) = .ok (values, rest) := by
  have hnone : (#[] : Array α).isEmpty = true := rfl
  rcases h with ⟨rfl, blanks, hblanks, rfl⟩ | ⟨items, hblanks, htexts, rfl⟩
  · refine ⟨blanks ++ [']'], rfl, ?_⟩
    have hend : nextItem true (blanks ++ ([']'] ++ rest)) = .ok (.ended rest) := by
      rw [nextItem_blanks hblanks]
      rfl
    rw [List.append_assoc, Json.items, itemsInto_ended hnone hend]
  · cases items with
    | nil =>
      obtain rfl := List.map_eq_nil_iff.1 htexts.symm
      exact ⟨[']'], rfl, rfl⟩
    | cons p items =>
      obtain ⟨a, values, rfl, htext, htexts⟩ := List.map_eq_cons_iff.1 htexts.symm
      obtain ⟨hbefore, hafter⟩ := hblanks p (by simp)
      have hvalueText : IsValue p.text := htext ▸ hvalue a (by simp)
      have hrest := delimited_further (Or.inl rfl) (items.map Padded.chars) rest
      have hpart : nextItem true (p.chars ++ further ']' (items.map Padded.chars) ++ rest) =
          .ok (.part (p.text ++ (p.after ++ (further ']' (items.map Padded.chars) ++ rest)))) := by
        simp only [Padded.chars, List.append_assoc]
        rw [nextItem_blanks hbefore, nextItem_first hvalueText]
      have hlength := length_le_further ']' (items.map Padded.chars)
      have henough : items.length <
          (p.chars ++ further ']' (items.map Padded.chars) ++ rest).length := by
        rw [List.length_map] at hlength
        rw [List.length_append, List.length_append]
        omega
      refine ⟨p.chars ++ further ']' (items.map Padded.chars), rfl, ?_⟩
      rw [Json.items, itemsInto_item hafter htext.symm (hreads a (by simp)) hnone hpart hrest]
      exact itemsInto_further (fun b hb => hvalue b (by simp [hb]))
        (fun b hb => hreads b (by simp [hb])) items _ #[a] p.after rest
        (fun q hq => hblanks q (by simp [hq])) htexts.symm henough rfl hafter

theorem Reader.list_reads {values : List α} (hvalue : ∀ a ∈ values, IsValue (text a))
    (hreads : ∀ a ∈ values, reader.Reads depth (text a) a) {cs : List Char}
    (h : IsList text values cs) : (Reader.list reader).Reads (depth + 1) cs values := by
  intro before rest hbefore _
  obtain ⟨inner, rfl, hitems⟩ := items_list hvalue hreads h rest
  have hfound : Found.read ('[' :: inner ++ rest) = .ok (.sequence, inner ++ rest) := rfl
  simp only [Reader.list, foundRead_blanks hbefore, hfound, inside, hitems]

theorem Reader.int32s_reads {values : List Int32} {cs : List Char}
    (h : IsList (fun n : Int32 => integerText n.toInt) values cs) (depth : Nat) :
    (Reader.list Reader.int32).Reads (depth + 1) cs values :=
  list_reads (fun n _ => .numeral (isNumeral_integerText n.toInt))
    (fun n _ => int32_reads n depth) h

end Lists

end SatReplay.Json
