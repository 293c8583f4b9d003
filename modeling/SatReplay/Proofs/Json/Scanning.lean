/-
  SatReplay/Proofs/Json/Scanning.lean
  ===================================
  **Strings and numerals at the front of a text.**  What the grammar derives is
  taken off the front, and everything behind it is left.  The end of a string is
  its quote; the end of a numeral shows only in what follows, so there the rest
  must be `Delimited`.
-/
import SatReplay.Proofs.Json.Grammar

namespace SatReplay.Json

/-! ### Strings -/

/-- The number of a character is no half of a surrogate pair. -/
theorem not_surrogate (c : Char) : isLow c.toNat = false ∧ isHigh c.toNat = false := by
  have hvalid : c.toNat < 0xd800 ∨ 0xdfff < c.toNat ∧ c.toNat < 0x110000 := c.valid
  simp only [isLow, isHigh, Bool.and_eq_false_iff, decide_eq_false_iff_not]
  omega

theorem takeString_plain {c : Char} (hcontrol : ¬ c < ' ') (hquote : c ≠ '"') (hslash : c ≠ '\\')
    (acc : Array Char) (rest : List Char) :
    takeString acc none (c :: rest) = takeString (acc.push c) none rest := by
  rw [takeString_char acc rest hquote hslash, if_neg hcontrol]

theorem takeString_unit {a b c d char : Char} (h : unit? a b c d = some char.toNat)
    (acc : Array Char) (rest : List Char) :
    takeString acc none ('\\' :: 'u' :: a :: b :: c :: d :: rest) =
      takeString (acc.push char) none rest := by
  obtain ⟨hlow, hhigh⟩ := not_surrogate char
  rw [takeString_first acc rest h, hlow, hhigh, Char.ofNat_toNat]
  rfl

theorem takeString_pair {a b c d e f g h : Char} {high low : Nat}
    (hfirst : unit? a b c d = some high) (hhigh : isHigh high = true)
    (hsecond : unit? e f g h = some low) (hlow : isLow low = true) (acc : Array Char)
    (rest : List Char) :
    takeString acc none
        ('\\' :: 'u' :: a :: b :: c :: d :: '\\' :: 'u' :: e :: f :: g :: h :: rest) =
      takeString (acc.push (paired high low)) none rest := by
  have hnotLow : isLow high = false := by
    simp only [isHigh, isLow, Bool.and_eq_true, Bool.and_eq_false_iff, decide_eq_true_eq,
      decide_eq_false_iff_not] at hhigh ⊢
    omega
  rw [takeString_first acc _ hfirst, hnotLow, hhigh]
  show takeString acc (some high) ('\\' :: 'u' :: e :: f :: g :: h :: rest) = _
  rw [takeString_second acc rest hsecond, if_pos hlow]

theorem takeString_spells {body text : List Char} (h : Spells body text) :
    ∀ (acc : Array Char) (rest : List Char),
      takeString acc none (body ++ '"' :: rest) =
        .ok (String.ofList (acc.toList ++ text), rest) := by
  induction h with
  | nil =>
    intro acc rest
    rw [List.nil_append, takeString_quote, List.append_nil]
  | plain hcontrol hquote hslash _ ih =>
    intro acc rest
    rw [List.cons_append, takeString_plain hcontrol hquote hslash, ih, Array.toList_push,
      List.append_assoc, List.singleton_append]
  | short hshort _ ih =>
    intro acc rest
    rw [List.cons_append, List.cons_append, takeString_short acc _ hshort, ih, Array.toList_push,
      List.append_assoc, List.singleton_append]
  | unit hunit _ ih =>
    intro acc rest
    simp only [List.cons_append]
    rw [takeString_unit hunit, ih, Array.toList_push, List.append_assoc, List.singleton_append]
  | pair hfirst hhigh hsecond hlow _ ih =>
    intro acc rest
    simp only [List.cons_append]
    rw [takeString_pair hfirst hhigh hsecond hlow, ih, Array.toList_push, List.append_assoc,
      List.singleton_append]

theorem takeString_quoted {body : List Char} {s : String} (h : Spells body s.toList)
    (rest : List Char) : takeString #[] none (body ++ '"' :: rest) = .ok (s, rest) := by
  rw [takeString_spells h, List.nil_append, String.ofList_toList]

theorem skipString_body {body : List Char} (h : IsBody body) (rest : List Char) :
    skipString (body ++ '"' :: rest) = .ok rest := by
  induction h with
  | nil => exact skipString_quote rest
  | plain hcontrol hquote hslash _ ih =>
    rw [List.cons_append, skipString_char _ hquote hslash, if_neg hcontrol, ih]
  | short hshort _ ih =>
    rw [List.cons_append, List.cons_append, skipString_short _ hshort, ih]
  | unit hunit _ ih =>
    simp only [List.cons_append]
    rw [skipString_unit _ hunit, ih]

/-! ### Numerals -/

/-- Nothing follows that could belong to a row of digits. -/
def NoDigit (rest : List Char) : Prop := ∀ c, rest.head? = some c → Reading.isDigit c = false

theorem Delimited.head {c : Char} {rest : List Char} (h : Delimited (c :: rest)) :
    Reading.isDigit c = false ∧ c ≠ '.' ∧ c ≠ 'e' ∧ c ≠ 'E' := by
  have hcases : c = ' ' ∨ c = '\n' ∨ c = '\r' ∨ c = '\t' ∨ c = ',' ∨ c = ']' ∨ c = '\x7d' := by
    simpa only [Delimited, isBlank, Bool.or_eq_true, decide_eq_true_eq, or_assoc] using h
  rcases hcases with rfl | rfl | rfl | rfl | rfl | rfl | rfl
  all_goals decide

theorem Delimited.noDigit {rest : List Char} (h : Delimited rest) : NoDigit rest := by
  intro c hc
  cases rest with
  | nil => cases hc
  | cons d rest =>
    obtain rfl := Option.some.inj hc
    exact h.head.1

namespace Numeral

theorem takeDigits_append (atEnd : GrammarError) {ds rest : List Char} (h : IsDigits ds)
    (hrest : NoDigit rest) : takeDigits atEnd (ds ++ rest) = .ok (ds, rest) := by
  obtain ⟨hne, hdigits⟩ := h
  have htake : rest.takeWhile Reading.isDigit = [] := by
    cases rest with
    | nil => rfl
    | cons c rest => exact List.takeWhile_cons_of_neg (by simp [hrest c rfl])
  have hdrop : rest.dropWhile Reading.isDigit = rest := by
    cases rest with
    | nil => rfl
    | cons c rest => exact List.dropWhile_cons_of_neg (by simp [hrest c rfl])
  rw [takeDigits, List.takeWhile_append_of_pos hdigits, List.dropWhile_append_of_pos hdigits,
    htake, hdrop, List.append_nil]
  cases ds with
  | nil => exact absurd rfl hne
  | cons d ds => rfl

theorem takeWhole_append (atEnd : GrammarError) {ds rest : List Char} (h : IsWhole ds)
    (hrest : NoDigit rest) : takeWhole atEnd (ds ++ rest) = .ok (ds, rest) := by
  obtain ⟨hdigits, hzero⟩ := h
  rw [takeWhole, takeDigits_append atEnd hdigits hrest]
  split
  next d ds' rest' heq =>
    -- more digits would stand behind a zero
    obtain ⟨rfl, -⟩ := Prod.mk.inj (Except.ok.inj heq)
    cases hzero rfl
  next => rfl

theorem takeFraction_append (atEnd : GrammarError) {cs rest : List Char} (h : IsFraction cs)
    (hpoint : rest.head? ≠ some '.') (hrest : NoDigit rest) :
    ∃ ds, takeFraction atEnd (cs ++ rest) = .ok (ds, rest) := by
  rcases h with rfl | ⟨ds, hds, rfl⟩
  · refine ⟨[], ?_⟩
    rw [List.nil_append, takeFraction]
    rintro rest' rfl
    exact hpoint rfl
  · exact ⟨ds, takeDigits_append atEnd hds hrest⟩

theorem sign_digits {ds : List Char} (h : IsDigits ds) (rest : List Char) :
    Reading.sign (ds ++ rest) = (false, ds ++ rest) := by
  obtain ⟨hne, hdigits⟩ := h
  cases ds with
  | nil => exact absurd rfl hne
  | cons d ds =>
    have hd := hdigits d (by simp)
    rw [List.cons_append, Reading.sign]
    · rintro rest' heq
      obtain ⟨rfl, -⟩ := List.cons.inj heq
      exact absurd hd (by decide)
    · rintro rest' heq
      obtain ⟨rfl, -⟩ := List.cons.inj heq
      exact absurd hd (by decide)

theorem takeExponent_append (atEnd : GrammarError) {cs rest : List Char} (h : IsExponent cs)
    (hrest : Delimited rest) :
    ∃ exponent, takeExponent atEnd (cs ++ rest) = .ok (exponent, rest) := by
  rcases h with rfl | ⟨e, sign, ds, he, hsign, hds, rfl⟩
  · refine ⟨none, ?_⟩
    cases rest with
    | nil => rfl
    | cons c rest =>
      obtain ⟨-, -, hlower, hupper⟩ := hrest.head
      rw [List.nil_append, takeExponent, if_neg (by simp [hlower, hupper])]
  · have hplain := sign_digits hds rest
    have hsigned : ∃ negative, Reading.sign (sign ++ (ds ++ rest)) = (negative, ds ++ rest) := by
      rcases hsign with rfl | rfl | rfl
      · exact ⟨false, hplain⟩
      · exact ⟨false, rfl⟩
      · exact ⟨true, rfl⟩
    obtain ⟨negative, hsigned⟩ := hsigned
    refine ⟨some (negative, ds), ?_⟩
    rw [List.cons_append, List.append_assoc, takeExponent, if_pos he, hsigned]
    simp only [takeDigits_append atEnd hds hrest.noDigit, Except.map]

/-! ### Whole numerals -/

theorem takeMinus_digits {ds : List Char} (h : IsDigits ds) (rest : List Char) :
    takeMinus (ds ++ rest) = (false, ds ++ rest) := by
  obtain ⟨hne, hdigits⟩ := h
  cases ds with
  | nil => exact absurd rfl hne
  | cons d ds =>
    rw [List.cons_append, takeMinus]
    rintro rest' heq
    obtain ⟨rfl, -⟩ := List.cons.inj heq
    exact absurd (hdigits '-' (by simp)) (by decide)

theorem takeMinus_append (negative : Bool) {ds : List Char} (hds : IsDigits ds)
    (rest : List Char) :
    takeMinus (minusSign negative ++ (ds ++ rest)) = (negative, ds ++ rest) := by
  cases negative with
  | false =>
    show takeMinus (ds ++ rest) = _
    exact takeMinus_digits hds rest
  | true => rfl

theorem noDigit_exponent {cs rest : List Char} (h : IsExponent cs) (hrest : Delimited rest) :
    NoDigit (cs ++ rest) ∧ (cs ++ rest).head? ≠ some '.' := by
  rcases h with rfl | ⟨e, sign, ds, he, -, -, rfl⟩
  · refine ⟨hrest.noDigit, ?_⟩
    intro hhead
    cases rest with
    | nil => cases hhead
    | cons c rest => exact hrest.head.2.1 (Option.some.inj hhead)
  · rcases he with rfl | rfl
    · exact ⟨fun c hc => by cases hc; decide, by simp⟩
    · exact ⟨fun c hc => by cases hc; decide, by simp⟩

theorem noDigit_fraction {cs rest : List Char} (h : IsFraction cs) (hrest : NoDigit rest) :
    NoDigit (cs ++ rest) := by
  rcases h with rfl | ⟨ds, -, rfl⟩
  · exact hrest
  · exact fun c hc => by cases hc; decide

theorem read_append (atEnd : GrammarError) {cs rest : List Char} (h : IsNumeral cs)
    (hrest : Delimited rest) : ∃ n, read atEnd (cs ++ rest) = .ok (n, rest) := by
  obtain ⟨negative, whole, fraction, exponent, hwhole, hfraction, hexponent, rfl⟩ := h
  obtain ⟨hnoDigit, hpoint⟩ := noDigit_exponent hexponent hrest
  have hminusRead := takeMinus_append negative hwhole.1 (fraction ++ (exponent ++ rest))
  have hwholeRead := takeWhole_append atEnd hwhole (noDigit_fraction hfraction hnoDigit)
  obtain ⟨ds, hfractionRead⟩ := takeFraction_append atEnd hfraction hpoint hnoDigit
  obtain ⟨e, hexponentRead⟩ := takeExponent_append atEnd hexponent hrest
  refine ⟨⟨negative, whole, ds, e⟩, ?_⟩
  simp only [List.append_assoc, read, hminusRead, hwholeRead, hfractionRead, hexponentRead, bind,
    Except.bind, pure, Except.pure]

/-- A numeral without point and exponent. -/
theorem read_whole (atEnd : GrammarError) (negative : Bool) {whole rest : List Char}
    (hwhole : IsWhole whole) (hrest : Delimited rest) :
    read atEnd (minusSign negative ++ (whole ++ rest)) =
      .ok (⟨negative, whole, [], none⟩, rest) := by
  obtain ⟨hnoDigit, hpoint⟩ := noDigit_exponent (Or.inl rfl) hrest
  rw [List.nil_append] at hnoDigit hpoint
  have hfractionRead : takeFraction atEnd rest = .ok ([], rest) := by
    rw [takeFraction]
    rintro rest' rfl
    exact hpoint rfl
  have hexponentRead : takeExponent atEnd rest = .ok (none, rest) := by
    cases rest with
    | nil => rfl
    | cons c rest =>
      obtain ⟨-, -, hlower, hupper⟩ := hrest.head
      rw [takeExponent, if_neg (by simp [hlower, hupper])]
  simp only [read, takeMinus_append negative hwhole.1, takeWhole_append atEnd hwhole hnoDigit,
    hfractionRead, hexponentRead, bind, Except.bind, pure, Except.pure]

end Numeral

end SatReplay.Json
