/-
  SatReplay/Proofs/Json/Skipping.lean
  ===================================
  **Any value is passed over**, whatever its strings and numerals stand for and
  however deep it is (`skipValue_append`).

  Skipping keeps the brackets that are open and counts its steps.  The induction
  on the value is therefore about a value inside any open brackets: it takes a
  number of steps that its own length bounds, and leaves the brackets around it
  as they were (`IsValue.passes`).
-/
import SatReplay.Proofs.Json.Scanning

namespace SatReplay.Json

/-! ### The front of a value -/

theorem IsNumeral.head {cs : List Char} (h : IsNumeral cs) :
    ∃ c rest, cs = c :: rest ∧ (c = '-' ∨ Reading.isDigit c = true) := by
  obtain ⟨negative, whole, fraction, exponent, ⟨⟨hne, hdigits⟩, -⟩, -, -, rfl⟩ := h
  cases negative with
  | true => exact ⟨'-', _, rfl, Or.inl rfl⟩
  | false =>
    cases whole with
    | nil => exact absurd rfl hne
    | cons d ds => exact ⟨d, _, rfl, Or.inr (hdigits d (by simp))⟩

/-- A character with which a numeral starts starts nothing else. -/
theorem numeral_head_ne {c : Char} (h : c = '-' ∨ Reading.isDigit c = true) {d : Char}
    (hd : d ≠ '-') (hdigit : Reading.isDigit d = false) : c ≠ d := by
  rintro rfl
  rcases h with rfl | h
  · exact hd rfl
  · rw [h] at hdigit
    cases hdigit

theorem isBlank_numeral_head {c : Char} (h : c = '-' ∨ Reading.isDigit c = true) :
    isBlank c = false := by
  have hspace : c ≠ ' ' := numeral_head_ne h (by decide) (by decide)
  have hline : c ≠ '\n' := numeral_head_ne h (by decide) (by decide)
  have hreturn : c ≠ '\r' := numeral_head_ne h (by decide) (by decide)
  have htab : c ≠ '\t' := numeral_head_ne h (by decide) (by decide)
  simp [isBlank, hspace, hline, hreturn, htab]

theorem IsValue.head {v : List Char} (h : IsValue v) :
    ∃ c rest, v = c :: rest ∧ isBlank c = false ∧ c ≠ ']' ∧ c ≠ '\x7d' := by
  cases h with
  | null => exact ⟨_, _, rfl, by decide⟩
  | yes => exact ⟨_, _, rfl, by decide⟩
  | no => exact ⟨_, _, rfl, by decide⟩
  | numeral h =>
    obtain ⟨c, rest, rfl, hc⟩ := h.head
    exact ⟨c, rest, rfl, isBlank_numeral_head hc, numeral_head_ne hc (by decide) (by decide),
      numeral_head_ne hc (by decide) (by decide)⟩
  | string => exact ⟨_, _, rfl, by decide⟩
  | blankArray => exact ⟨_, _, rfl, by decide⟩
  | @array items =>
    cases items with
    | nil => exact ⟨_, _, rfl, by decide⟩
    | cons p items => exact ⟨_, _, rfl, by decide⟩
  | blankObject => exact ⟨_, _, rfl, by decide⟩
  | @object members =>
    cases members with
    | nil => exact ⟨_, _, rfl, by decide⟩
    | cons m members => exact ⟨_, _, rfl, by decide⟩

/-! ### Steps inside open brackets -/

/-- Passes over a value inside open brackets, and over what is left of these. -/
def skipWithin (steps : Nat) (outer : List Bracket) (cs : List Char) : Except Stop (List Char) :=
  match skipStart cs with
  | .error stop => .error stop
  | .ok (none, rest) => skipOpen steps false outer rest
  | .ok (some inner, rest) => skipOpen steps true (inner :: outer) rest

section Steps

variable {b : Bracket} {first : Bool} {outer : List Bracket} {cs rest : List Char}

theorem skipOpen_ended (h : b.next first cs = .ok (.ended rest)) (steps : Nat) :
    skipOpen (steps + 1) first (b :: outer) cs = skipOpen steps false outer rest := by
  simp only [skipOpen, h]

theorem skipOpen_part (h : b.next first cs = .ok (.part rest)) (steps : Nat) :
    skipOpen (steps + 1) first (b :: outer) cs = skipWithin steps (b :: outer) rest := by
  simp only [skipOpen, h]
  rfl

theorem next_blanks {blanks : List Char} (h : Blanks blanks) :
    b.next first (blanks ++ cs) = b.next first cs := by
  cases b with
  | array => simp only [Bracket.next, dropBlanks_append h]
  | object => simp only [Bracket.next, dropBlanks_append h]

theorem skipOpen_blanks {blanks : List Char} (h : Blanks blanks) (steps : Nat) :
    skipOpen steps first (b :: outer) (blanks ++ cs) = skipOpen steps first (b :: outer) cs := by
  cases steps with
  | zero => rfl
  | succ steps => simp only [skipOpen, next_blanks h]

end Steps

/-- The text is passed over as a value, in a number of steps that its length
    bounds, inside whatever brackets. -/
def Passes (v : List Char) : Prop :=
  ∃ k ≤ v.length, ∀ (steps : Nat) (outer : List Bracket) (before rest : List Char),
    Blanks before → Delimited rest →
      skipWithin (steps + k) outer (before ++ (v ++ rest)) = skipOpen steps false outer rest

theorem skipStart_blanks {before cs : List Char} (h : Blanks before) :
    skipStart (before ++ cs) = skipStart cs := by
  simp only [skipStart, dropBlanks_append h]

theorem passes_of_skipStart {v : List Char}
    (h : ∀ rest, Delimited rest → skipStart (v ++ rest) = .ok (none, rest)) : Passes v := by
  refine ⟨0, Nat.zero_le _, ?_⟩
  intro steps outer before rest hbefore hrest
  simp only [skipWithin, skipStart_blanks hbefore, h rest hrest, Nat.add_zero]

/-! ### Parts of arrays and objects -/

namespace Bracket

def opening : Bracket → Char
  | .array => '['
  | .object => '\x7b'

def close : Bracket → Char
  | .array => ']'
  | .object => '\x7d'

end Bracket

/-- The text is passed over as a part of an array or object, as the first one or
    behind a comma. -/
def PassesIn (b : Bracket) (part : List Char) : Prop :=
  ∃ k ≤ part.length, ∀ (steps : Nat) (outer : List Bracket) (rest : List Char), Delimited rest →
    (skipOpen (steps + k + 1) true (b :: outer) (part ++ rest) =
      skipOpen steps false (b :: outer) rest) ∧
    (skipOpen (steps + k + 1) false (b :: outer) (',' :: (part ++ rest)) =
      skipOpen steps false (b :: outer) rest)

theorem next_close (b : Bracket) (first : Bool) (rest : List Char) :
    b.next first (b.close :: rest) = .ok (.ended rest) := by
  cases b with
  | array => rfl
  | object => rfl

theorem skipOpen_close (b : Bracket) (first : Bool) (steps : Nat) (outer : List Bracket)
    (rest : List Char) :
    skipOpen (steps + 1) first (b :: outer) (b.close :: rest) = skipOpen steps false outer rest :=
  skipOpen_ended (next_close b first rest) steps

theorem delimited_further_close (b : Bracket) (parts : List (List Char)) (rest : List Char) :
    Delimited (further b.close parts ++ rest) := by
  cases b with
  | array => exact delimited_further (Or.inl rfl) parts rest
  | object => exact delimited_further (Or.inr rfl) parts rest

theorem skipOpen_further {b : Bracket} {parts : List (List Char)}
    (h : ∀ part ∈ parts, PassesIn b part) :
    ∃ k ≤ (further b.close parts).length, ∀ (steps : Nat) (outer : List Bracket)
      (rest : List Char),
      skipOpen (steps + k) false (b :: outer) (further b.close parts ++ rest) =
        skipOpen steps false outer rest := by
  induction parts with
  | nil => exact ⟨1, by simp [further], fun steps outer rest => skipOpen_close b _ steps outer rest⟩
  | cons part parts ih =>
    obtain ⟨k, hk, hpart⟩ := h part (by simp)
    obtain ⟨m, hm, hparts⟩ := ih fun other hother => h other (by simp [hother])
    refine ⟨m + k + 1, ?_, ?_⟩
    · simp only [further, List.length_cons, List.length_append]
      omega
    · intro steps outer rest
      have hnext := (hpart (steps + m) outer _ (delimited_further_close b parts rest)).2
      rw [hparts] at hnext
      rw [further, List.cons_append, List.append_assoc, ← Nat.add_assoc, ← Nat.add_assoc]
      exact hnext

theorem skipStart_opening (b : Bracket) (rest : List Char) :
    skipStart (b.opening :: rest) = .ok (some b, rest) := by
  cases b with
  | array => rfl
  | object => rfl

/-- What goes on from an opening bracket to its end is passed over as a value. -/
theorem passes_of_inner {b : Bracket} {inner : List Char}
    (h : ∃ k ≤ inner.length + 1, ∀ (steps : Nat) (outer : List Bracket) (rest : List Char),
      skipOpen (steps + k) true (b :: outer) (inner ++ rest) = skipOpen steps false outer rest) :
    Passes (b.opening :: inner) := by
  obtain ⟨k, hk, hopen⟩ := h
  refine ⟨k, hk, ?_⟩
  intro steps outer before rest hbefore _
  simp only [skipWithin, skipStart_blanks hbefore, List.cons_append, skipStart_opening, hopen]

theorem passes_blank (b : Bracket) {blanks : List Char} (h : Blanks blanks) :
    Passes (b.opening :: (blanks ++ [b.close])) := by
  refine passes_of_inner ⟨1, by simp, ?_⟩
  intro steps outer rest
  rw [List.append_assoc, skipOpen_blanks h]
  exact skipOpen_close b true steps outer rest

theorem passes_bracketed (b : Bracket) {parts : List (List Char)}
    (h : ∀ part ∈ parts, PassesIn b part) : Passes (bracketed b.opening b.close parts) := by
  cases parts with
  | nil => exact passes_blank b blanks_nil
  | cons part parts =>
    have hfurther : ∀ other ∈ parts, PassesIn b other := fun other hother =>
      h other (List.mem_cons_of_mem part hother)
    obtain ⟨k, hk, hpart⟩ := h part (by simp)
    obtain ⟨m, hm, hparts⟩ := skipOpen_further hfurther
    refine passes_of_inner ⟨m + k + 1, ?_, ?_⟩
    · rw [List.length_append]
      omega
    · intro steps outer rest
      have hnext := (hpart (steps + m) outer _ (delimited_further_close b parts rest)).1
      rw [hparts] at hnext
      rw [List.append_assoc, ← Nat.add_assoc, ← Nat.add_assoc]
      exact hnext

/-! ### Items and members -/

theorem skipOpen_after_value {v after rest : List Char} {b : Bracket} {outer : List Bracket}
    {steps k : Nat} (hafter : Blanks after) (hrest : Delimited rest)
    (hvalue : ∀ (steps : Nat) (outer : List Bracket) (before rest : List Char),
      Blanks before → Delimited rest →
        skipWithin (steps + k) outer (before ++ (v ++ rest)) = skipOpen steps false outer rest)
    {before : List Char} (hbefore : Blanks before) :
    skipWithin (steps + k) (b :: outer) (before ++ (v ++ (after ++ rest))) =
      skipOpen steps false (b :: outer) rest := by
  rw [hvalue steps (b :: outer) before _ hbefore (hrest.append_blanks hafter),
    skipOpen_blanks hafter]

theorem next_first_item {c : Char} {rest : List Char} (hblank : isBlank c = false)
    (hclose : c ≠ ']') : Bracket.array.next true (c :: rest) = .ok (.part (c :: rest)) := by
  simp [Bracket.next, dropBlanks_cons hblank]

theorem passesIn_item {p : Padded} (hblanks : p.InBlanks) (hvalue : IsValue p.text)
    (hpasses : Passes p.text) : PassesIn .array p.chars := by
  obtain ⟨k, hk, hskip⟩ := hpasses
  refine ⟨k, ?_, ?_⟩
  · simp only [Padded.chars, List.length_append]
    omega
  · intro steps outer rest hrest
    obtain ⟨c, text, htext, hc, hclose, -⟩ := hvalue.head
    have hchars : p.chars ++ rest = p.before ++ (p.text ++ (p.after ++ rest)) := by
      simp only [Padded.chars, List.append_assoc]
    have hfirst : Bracket.array.next true (p.chars ++ rest) =
        .ok (.part (p.text ++ (p.after ++ rest))) := by
      rw [hchars, next_blanks hblanks.1, htext]
      exact next_first_item hc hclose
    constructor
    · rw [skipOpen_part hfirst]
      exact skipOpen_after_value hblanks.2 hrest hskip blanks_nil
    · have hnext : Bracket.array.next false (',' :: (p.chars ++ rest)) =
          .ok (.part (p.chars ++ rest)) := rfl
      rw [skipOpen_part hnext, hchars]
      exact skipOpen_after_value hblanks.2 hrest hskip hblanks.1

theorem takeColon_append {blanks rest : List Char} (h : Blanks blanks) :
    takeColon (blanks ++ ':' :: rest) = .ok rest := by
  simp only [takeColon, dropBlanks_append h, dropBlanks_cons (show isBlank ':' = false by decide)]

theorem skipName_append {before body after : List Char} (hbefore : Blanks before)
    (hbody : IsBody body) (hafter : Blanks after) (rest : List Char) :
    skipName (before ++ (quoted body ++ (after ++ ':' :: rest))) = .ok rest := by
  have hquote : isBlank '"' = false := by decide
  simp only [skipName, dropBlanks_append hbefore, quoted, List.cons_append, dropBlanks_cons hquote,
    List.append_assoc, List.nil_append, skipString_body hbody, takeColon_append hafter]

theorem passesIn_member {m : MemberText} {body : List Char} (hblanks : m.InBlanks)
    (hbody : IsBody body) (hname : m.name.text = quoted body)
    (hpasses : Passes m.value.text) : PassesIn .object m.chars := by
  obtain ⟨k, hk, hskip⟩ := hpasses
  obtain ⟨hnameBlanks, hvalueBlanks⟩ := hblanks
  refine ⟨k, ?_, ?_⟩
  · simp only [MemberText.chars, Padded.chars, List.length_append, List.length_cons]
    omega
  · intro steps outer rest hrest
    have hchars : m.chars ++ rest = m.name.before ++ (quoted body ++ (m.name.after ++ ':' ::
        (m.value.before ++ (m.value.text ++ (m.value.after ++ rest))))) := by
      simp only [MemberText.chars, Padded.chars, hname, List.append_assoc, List.cons_append]
    have hfirst : Bracket.object.next true (m.chars ++ rest) =
        .ok (.part (m.value.before ++ (m.value.text ++ (m.value.after ++ rest)))) := by
      have hread := skipName_append blanks_nil hbody hnameBlanks.2
        (m.value.before ++ (m.value.text ++ (m.value.after ++ rest)))
      rw [hchars, next_blanks hnameBlanks.1]
      exact congrArg (Except.map Next.part) hread
    have hnext : Bracket.object.next false (',' :: (m.chars ++ rest)) =
        .ok (.part (m.value.before ++ (m.value.text ++ (m.value.after ++ rest)))) := by
      have hread := skipName_append hnameBlanks.1 hbody hnameBlanks.2
        (m.value.before ++ (m.value.text ++ (m.value.after ++ rest)))
      rw [hchars]
      exact congrArg (Except.map Next.part) hread
    constructor
    · rw [skipOpen_part hfirst]
      exact skipOpen_after_value hvalueBlanks.2 hrest hskip hvalueBlanks.1
    · rw [skipOpen_part hnext]
      exact skipOpen_after_value hvalueBlanks.2 hrest hskip hvalueBlanks.1

/-! ### Values -/

theorem skipStart_numeral {v rest : List Char} (h : IsNumeral v) (hrest : Delimited rest) :
    skipStart (v ++ rest) = .ok (none, rest) := by
  obtain ⟨c, text, rfl, hc⟩ := h.head
  obtain ⟨n, hread⟩ := Numeral.read_append .badNumeral h hrest
  rw [List.cons_append] at hread ⊢
  have harray : c ≠ '[' := numeral_head_ne hc (by decide) (by decide)
  have hobject : c ≠ '\x7b' := numeral_head_ne hc (by decide) (by decide)
  have hnull : c ≠ 'n' := numeral_head_ne hc (by decide) (by decide)
  have htrue : c ≠ 't' := numeral_head_ne hc (by decide) (by decide)
  have hfalse : c ≠ 'f' := numeral_head_ne hc (by decide) (by decide)
  have hquote : c ≠ '"' := numeral_head_ne hc (by decide) (by decide)
  simp [skipStart, dropBlanks_cons (isBlank_numeral_head hc), hc, hread, Except.map]

theorem skipStart_quoted {body : List Char} (h : IsBody body) (rest : List Char) :
    skipStart (quoted body ++ rest) = .ok (none, rest) := by
  rw [quoted, List.cons_append, List.append_assoc, List.singleton_append]
  show (skipString _).map _ = _
  rw [skipString_body h]
  rfl

theorem IsValue.passes {v : List Char} (h : IsValue v) : Passes v := by
  induction h with
  | null => exact passes_of_skipStart fun rest _ => rfl
  | yes => exact passes_of_skipStart fun rest _ => rfl
  | no => exact passes_of_skipStart fun rest _ => rfl
  | numeral hnumeral => exact passes_of_skipStart fun rest hrest => skipStart_numeral hnumeral hrest
  | string hbody => exact passes_of_skipStart fun rest _ => skipStart_quoted hbody rest
  | blankArray hblanks => exact passes_blank .array hblanks
  | @array items hblanks hitems ih =>
    apply passes_bracketed .array
    intro part hpart
    obtain ⟨p, hp, rfl⟩ := List.mem_map.1 hpart
    exact passesIn_item (hblanks p hp) (hitems p hp) (ih p hp)
  | blankObject hblanks => exact passes_blank .object hblanks
  | @object members hblanks hnames _ ih =>
    apply passes_bracketed .object
    intro part hpart
    obtain ⟨m, hm, rfl⟩ := List.mem_map.1 hpart
    obtain ⟨body, hbody, hname⟩ := hnames m hm
    exact passesIn_member (hblanks m hm) hbody hname (ih m hm)

theorem map_none_ne {α : Type} {r : Except Stop α} {rest : α → List Char} {b : Bracket}
    {inner : List Char} : r.map (fun a => (none, rest a)) ≠ .ok (some b, inner) := by
  intro h
  cases r with
  | error stop => cases h
  | ok a => cases h

/-- Only the bracket is taken of what opens an array or object. -/
theorem eq_of_skipStart {c : Char} {cs inner : List Char} {b : Bracket} (hblank : isBlank c = false)
    (h : skipStart (c :: cs) = .ok (some b, inner)) : inner = cs := by
  simp only [skipStart, dropBlanks_cons hblank] at h
  split at h
  next heq => cases heq
  next heq =>
    cases heq
    cases h
    rfl
  next heq =>
    cases heq
    cases h
    rfl
  next => exact absurd h map_none_ne
  next => exact absurd h map_none_ne
  next => exact absurd h map_none_ne
  next => exact absurd h map_none_ne
  next =>
    split at h
    next => exact absurd h map_none_ne
    next => cases h

/-- **Any value is passed over**, and what follows it is left. -/
theorem skipValue_append {v before rest : List Char} (h : IsValue v) (hbefore : Blanks before)
    (hrest : Delimited rest) : skipValue (before ++ (v ++ rest)) = .ok rest := by
  obtain ⟨k, hk, hskip⟩ := h.passes
  obtain ⟨c, text, rfl, hc, -, -⟩ := h.head
  -- with as many steps as the value needs, skipping inside no brackets ends behind it
  have henough : ∀ steps, k ≤ steps →
      skipWithin steps [] (before ++ (c :: text ++ rest)) = .ok rest := by
    intro steps hsteps
    have hopen := hskip (steps - k) [] before rest hbefore hrest
    rw [Nat.sub_add_cancel hsteps] at hopen
    rw [hopen, skipOpen]
  rw [skipValue]
  rcases hstart : skipStart (before ++ (c :: text ++ rest)) with stop | ⟨_ | b, inner⟩
  · have hnone := henough k (Nat.le_refl k)
    simp only [skipWithin, hstart] at hnone
    cases hnone
  · have hnone := henough k (Nat.le_refl k)
    simpa only [skipWithin, hstart, skipOpen] using hnone
  · have hinner : inner = text ++ rest := by
      rw [skipStart_blanks hbefore, List.cons_append] at hstart
      exact eq_of_skipStart hc hstart
    have hsome := henough (inner.length + 1) (by
      rw [hinner, List.length_append]
      rw [List.length_cons] at hk
      omega)
    simpa only [skipWithin, hstart] using hsome

end SatReplay.Json
