/-
  SatReplay/Proofs/Json/Numbers.lean
  ==================================
  **A number that is read alone is read in front of anything.**  Each part of a
  numeral is taken off the front, and nothing that may follow a value goes on
  with it.  So a part that was taken from a text is taken from every longer text
  in the same way, and what is left grows by what follows (`Settled`).

  The text of a finite binary fraction has the characters of numerals only, no
  blank among them.  If it is read back at all, it is therefore read back in any
  document (`Reader.binary64_reads`).
-/
import SatReplay.Proofs.Json.Reading

namespace SatReplay.Json

/-- What was taken from the front of the text does not depend on what follows. -/
def Settled {α : Type} (scan : Scan α) (cs : List Char) : Prop :=
  ∀ a tail, scan cs = .ok (a, tail) → tail <:+ cs ∧
    ∀ rest, Delimited rest → scan (cs ++ rest) = .ok (a, tail ++ rest)

theorem settled_done {α : Type} (a : α) (cs : List Char) : Settled (fun cs => .ok (a, cs)) cs := by
  intro b tail hok
  obtain ⟨rfl, rfl⟩ := Prod.mk.inj (Except.ok.inj hok)
  exact ⟨List.suffix_refl _, fun _ _ => rfl⟩

theorem Settled.bind {α β : Type} {scan : Scan α} {next : α → Scan β} {cs : List Char}
    (hscan : Settled scan cs) (hnext : ∀ a tail, Settled (next a) tail) :
    Settled (fun cs => scan cs >>= fun (a, tail) => next a tail) cs := by
  intro b last hok
  rcases hfirst : scan cs with stop | ⟨a, tail⟩
  · simp only [hfirst, Bind.bind, Except.bind] at hok
    cases hok
  · simp only [hfirst, Bind.bind, Except.bind] at hok ⊢
    obtain ⟨hsuffix, hrest⟩ := hscan a tail hfirst
    obtain ⟨hlastSuffix, hlastRest⟩ := hnext a tail b last hok
    refine ⟨hlastSuffix.trans hsuffix, ?_⟩
    intro rest hdelimited
    simp only [hrest rest hdelimited, hlastRest rest hdelimited]

namespace Numeral

theorem takeWhile_append_of_noDigit {rest : List Char} (h : NoDigit rest) (cs : List Char) :
    (cs ++ rest).takeWhile Reading.isDigit = cs.takeWhile Reading.isDigit ∧
      (cs ++ rest).dropWhile Reading.isDigit = cs.dropWhile Reading.isDigit ++ rest := by
  induction cs with
  | nil =>
    cases rest with
    | nil => exact ⟨rfl, rfl⟩
    | cons c rest =>
      have hc : ¬ Reading.isDigit c = true := by simp [h c rfl]
      exact ⟨List.takeWhile_cons_of_neg hc, List.dropWhile_cons_of_neg hc⟩
  | cons c cs ih =>
    by_cases hc : Reading.isDigit c = true
    · simp [hc, ih]
    · simp [hc]

theorem settled_takeDigits (atEnd : GrammarError) (cs : List Char) :
    Settled (takeDigits atEnd) cs := by
  intro ds tail hok
  rw [takeDigits] at hok
  split at hok
  next => cases hok
  next ds' hne =>
    obtain ⟨rfl, rfl⟩ := Prod.mk.inj (Except.ok.inj hok)
    refine ⟨List.dropWhile_suffix _, ?_⟩
    intro rest hrest
    obtain ⟨htake, hdrop⟩ := takeWhile_append_of_noDigit hrest.noDigit cs
    rw [takeDigits, htake, hdrop]
    cases htaken : cs.takeWhile Reading.isDigit with
    | nil => exact absurd htaken hne
    | cons d ds => rfl

theorem settled_takeWhole (atEnd : GrammarError) (cs : List Char) :
    Settled (takeWhole atEnd) cs := by
  intro ds tail hok
  rw [takeWhole] at hok
  split at hok
  next => cases hok
  next hzero =>
    obtain ⟨hsuffix, hrest⟩ := settled_takeDigits atEnd cs ds tail hok
    refine ⟨hsuffix, ?_⟩
    intro rest hdelimited
    rw [takeWhole, hrest rest hdelimited]
    split
    next d ds' tail' heq =>
      obtain ⟨rfl, -⟩ := Prod.mk.inj (Except.ok.inj heq)
      exact absurd hok (hzero _ _ _)
    next => rfl

theorem takeFraction_of_ne (atEnd : GrammarError) {cs : List Char} (h : cs.head? ≠ some '.') :
    takeFraction atEnd cs = .ok ([], cs) := by
  rw [takeFraction]
  rintro rest rfl
  exact h rfl

theorem settled_takeFraction (atEnd : GrammarError) (cs : List Char) :
    Settled (takeFraction atEnd) cs := by
  intro ds tail hok
  by_cases hpoint : cs.head? = some '.'
  · obtain ⟨rest', rfl⟩ := List.head?_eq_some_iff.1 hpoint
    obtain ⟨hsuffix, hrest⟩ := settled_takeDigits atEnd rest' ds tail hok
    exact ⟨hsuffix.trans (List.suffix_cons _ _), hrest⟩
  · rw [takeFraction_of_ne atEnd hpoint] at hok
    obtain ⟨rfl, rfl⟩ := Prod.mk.inj (Except.ok.inj hok)
    refine ⟨List.suffix_refl _, ?_⟩
    intro rest hrest
    apply takeFraction_of_ne
    cases cs with
    | nil =>
      cases rest with
      | nil => exact fun h => by cases h
      | cons c rest => exact fun h => hrest.head.2.1 (Option.some.inj h)
    | cons c cs => exact hpoint

theorem sign_append {cs : List Char} (h : cs ≠ []) (rest : List Char) :
    Reading.sign (cs ++ rest) = ((Reading.sign cs).1, (Reading.sign cs).2 ++ rest) := by
  fun_cases Reading.sign cs with
  | case1 cs => rfl
  | case2 cs => rfl
  | case3 _ hminus hplus =>
    rw [Reading.sign]
    · rintro rest' heq
      cases cs with
      | nil => exact h rfl
      | cons c cs => exact hminus cs (by rw [(List.cons.inj heq).1])
    · rintro rest' heq
      cases cs with
      | nil => exact h rfl
      | cons c cs => exact hplus cs (by rw [(List.cons.inj heq).1])

theorem sign_suffix (cs : List Char) : (Reading.sign cs).2 <:+ cs := by
  fun_cases Reading.sign cs with
  | case1 cs => exact List.suffix_cons _ _
  | case2 cs => exact List.suffix_cons _ _
  | case3 => exact List.suffix_refl _

theorem settled_takeExponent (atEnd : GrammarError) (cs : List Char) :
    Settled (takeExponent atEnd) cs := by
  intro exponent tail hok
  cases cs with
  | nil =>
    obtain ⟨rfl, rfl⟩ := Prod.mk.inj (Except.ok.inj hok)
    refine ⟨List.suffix_refl _, ?_⟩
    intro rest hrest
    cases rest with
    | nil => rfl
    | cons c rest =>
      obtain ⟨-, -, hlower, hupper⟩ := hrest.head
      exact if_neg (by simp [hlower, hupper])
  | cons c cs =>
    rw [takeExponent] at hok
    split at hok
    next he =>
      have hsignSuffix := sign_suffix cs
      have hsignAppend := @sign_append cs
      rcases hsign : Reading.sign cs with ⟨negative, digits⟩
      rw [hsign] at hok hsignSuffix hsignAppend
      rcases hdigits : takeDigits atEnd digits with stop | ⟨ds, tail'⟩
      · simp only [hdigits, Except.map] at hok
        cases hok
      · simp only [hdigits, Except.map] at hok
        obtain ⟨rfl, rfl⟩ := Prod.mk.inj (Except.ok.inj hok)
        obtain ⟨hsuffix, hrest⟩ := settled_takeDigits atEnd digits ds tail' hdigits
        have hne : cs ≠ [] := by
          rintro rfl
          obtain ⟨-, rfl⟩ := Prod.mk.inj hsign
          cases hdigits
        refine ⟨hsuffix.trans (hsignSuffix.trans (List.suffix_cons _ _)), ?_⟩
        intro rest hdelimited
        rw [List.cons_append, takeExponent, if_pos he, hsignAppend hne]
        simp only [hrest rest hdelimited, Except.map]
    next he =>
      obtain ⟨rfl, rfl⟩ := Prod.mk.inj (Except.ok.inj hok)
      exact ⟨List.suffix_refl _, fun rest _ => if_neg he⟩

theorem takeMinus_append_of_ne {cs : List Char} (h : cs ≠ []) (rest : List Char) :
    takeMinus (cs ++ rest) = ((takeMinus cs).1, (takeMinus cs).2 ++ rest) := by
  fun_cases takeMinus cs with
  | case1 cs => rfl
  | case2 _ hminus =>
    rw [takeMinus]
    rintro rest' heq
    cases cs with
    | nil => exact h rfl
    | cons c cs => exact hminus cs (by rw [(List.cons.inj heq).1])

theorem takeMinus_suffix (cs : List Char) : (takeMinus cs).2 <:+ cs := by
  fun_cases takeMinus cs with
  | case1 cs => exact List.suffix_cons _ _
  | case2 => exact List.suffix_refl _

theorem settled_read (atEnd : GrammarError) (cs : List Char) : Settled (read atEnd) cs := by
  -- behind the sign, the parts come one after another
  have hparts := fun negative => (settled_takeWhole atEnd (takeMinus cs).2).bind fun whole cs =>
    (settled_takeFraction atEnd cs).bind fun fraction cs =>
      (settled_takeExponent atEnd cs).bind fun exponent cs =>
        settled_done (Numeral.mk negative whole fraction exponent) cs
  intro n tail hok
  obtain ⟨hsuffix, hrest⟩ := hparts (takeMinus cs).1 n tail hok
  refine ⟨hsuffix.trans (takeMinus_suffix cs), ?_⟩
  intro rest hdelimited
  have hne : cs ≠ [] := by
    rintro rfl
    cases hok
  have hread := hrest rest hdelimited
  simp only [read, takeMinus_append_of_ne hne]
  exact hread

theorem settled_readNumber (cs : List Char) : Settled readNumber cs := by
  intro value tail hok
  rw [readNumber] at hok
  rcases hread : read .endInValue cs with stop | ⟨n, tail'⟩
  · simp only [hread] at hok
    cases hok
  · rcases hvalue : n.number? with _ | v
    · simp only [hread, hvalue] at hok
      cases hok
    · simp only [hread, hvalue] at hok
      obtain ⟨rfl, rfl⟩ := Prod.mk.inj (Except.ok.inj hok)
      obtain ⟨hsuffix, hrest⟩ := settled_read .endInValue cs n tail' hread
      refine ⟨hsuffix, ?_⟩
      intro rest hdelimited
      simp only [readNumber, hrest rest hdelimited, hvalue]

end Numeral

/-! ### Binary fractions -/

/-- The characters that numerals are written with. -/
def isNumeralChar (c : Char) : Bool :=
  Reading.isDigit c || c = '-' || c = '+' || c = '.' || c = 'e'

theorem isBlank_of_isNumeralChar {c : Char} (h : isNumeralChar c = true) : isBlank c = false := by
  simp only [isNumeralChar, Bool.or_eq_true, decide_eq_true_eq, or_assoc] at h
  rcases h with hdigit | rfl | rfl | rfl | rfl
  · exact isBlank_numeral_head (Or.inr hdigit)
  all_goals decide

theorem dropBlanks_numeral {cs : List Char} (h : ∀ c ∈ cs, isNumeralChar c = true) :
    dropBlanks cs = cs := by
  cases cs with
  | nil => rfl
  | cons c cs => exact dropBlanks_cons (isBlank_of_isNumeralChar (h c (by simp)))

theorem foundRead_numeralChars {cs tail : List Char} {found : Found}
    (hchars : ∀ c ∈ cs, isNumeralChar c = true) (h : Found.read cs = .ok (found, tail)) :
    ∃ n, found = .number n ∧ tail <:+ cs ∧
      ∀ rest, Delimited rest → Found.read (cs ++ rest) = .ok (.number n, tail ++ rest) := by
  cases cs with
  | nil => cases h
  | cons c cs =>
    have hc := hchars c (by simp)
    simp only [isNumeralChar, Bool.or_eq_true, decide_eq_true_eq, or_assoc] at hc
    have hhead : c = '-' ∨ Reading.isDigit c = true := by
      rcases hc with hdigit | rfl | rfl | rfl | rfl
      · exact Or.inr hdigit
      · exact Or.inl rfl
      · cases h
      · cases h
      · cases h
    rw [foundRead_numeral_head hhead] at h
    rcases hread : Numeral.readNumber (c :: cs) with stop | ⟨n, tail'⟩
    · rw [hread] at h
      cases h
    · rw [hread] at h
      obtain ⟨rfl, rfl⟩ := Prod.mk.inj (Except.ok.inj h)
      obtain ⟨hsuffix, hrest⟩ := Numeral.settled_readNumber _ n tail' hread
      refine ⟨n, rfl, hsuffix, ?_⟩
      intro rest hdelimited
      have hfound := foundRead_numeral_head hhead (cs ++ rest)
      rw [List.cons_append, hfound, ← List.cons_append, hrest rest hdelimited, Except.map]

/-- A binary fraction that is read from a text of its own is read in a document. -/
theorem Reader.binary64_reads {text : String} {x : Binary64}
    (h : binary64.readText text = .ok x) (hchars : ∀ c ∈ text.toList, isNumeralChar c = true)
    (depth : Nat) : binary64.Reads depth text.toList x := by
  obtain ⟨tail, hread, hblanks⟩ := readText_eq_ok_iff.1 h
  rw [binary64] at hread
  rcases hfound : Found.read text.toList with stop | ⟨found, tail'⟩
  · simp only [hfound] at hread
    cases hread
  obtain ⟨n, rfl, hsuffix, hrest⟩ := foundRead_numeralChars hchars hfound
  have htail : tail' = tail := by
    cases n with
    | integer value =>
      simp only [hfound] at hread
      exact (Prod.mk.inj (Except.ok.inj hread)).2
    | float value =>
      simp only [hfound] at hread
      exact (Prod.mk.inj (Except.ok.inj hread)).2
  -- nothing is left of the text, since no blank is in it
  have hnone : tail' = [] := by
    rw [htail] at hsuffix ⊢
    rwa [dropBlanks_numeral fun c hc => hchars c (hsuffix.subset hc)] at hblanks
  intro before rest hbefore hdelimited
  rw [binary64, foundRead_blanks hbefore, hrest rest hdelimited, hnone, List.nil_append]
  cases n with
  | integer value =>
    simp only [hfound] at hread
    obtain ⟨rfl, -⟩ := Prod.mk.inj (Except.ok.inj hread)
    rfl
  | float value =>
    simp only [hfound] at hread
    obtain ⟨rfl, -⟩ := Prod.mk.inj (Except.ok.inj hread)
    rfl

/-! ### Written fractions -/

theorem isNumeralChar_of_isDigit {c : Char} (h : Reading.isDigit c = true) :
    isNumeralChar c = true := by
  simp [isNumeralChar, h]

theorem isNumeralChar_digitsOf {n : Nat} : ∀ c ∈ Layout.digitsOf n, isNumeralChar c = true :=
  fun _ hc => isNumeralChar_of_isDigit (isDigit_of_mem_toDigits hc)

theorem isNumeralChar_zeros {n : Nat} : ∀ c ∈ Layout.zeros n, isNumeralChar c = true := by
  intro c hc
  rw [List.eq_of_mem_replicate hc]
  decide

theorem isNumeralChar_positionalText {ds : List Char} (h : ∀ c ∈ ds, isNumeralChar c = true)
    (e : Int) : ∀ c ∈ Layout.positionalText ".0" ds e, isNumeralChar c = true := by
  have hpoint : isNumeralChar '.' = true := by decide
  have hzero : isNumeralChar '0' = true := by decide
  have hending : ∀ c ∈ ".0".toList, isNumeralChar c = true := List.all_eq_true.1 (by decide)
  simp only [Layout.positionalText]
  split
  · simp only [List.cons_append, List.forall_mem_cons, List.forall_mem_append]
    exact ⟨hzero, hpoint, isNumeralChar_zeros, h⟩
  · split
    · simp only [List.forall_mem_append]
      exact ⟨⟨h, isNumeralChar_zeros⟩, hending⟩
    · simp only [List.forall_mem_append, List.forall_mem_cons]
      exact ⟨fun c hc => h c (List.mem_of_mem_take hc), hpoint,
        fun c hc => h c (List.mem_of_mem_drop hc)⟩

theorem isNumeralChar_exponentText {ds : List Char} (h : ∀ c ∈ ds, isNumeralChar c = true)
    (e : Int) : ∀ c ∈ Layout.exponentText ds e, isNumeralChar c = true := by
  have hsign : isNumeralChar (if e < 0 then '-' else '+') = true := by
    split
    · decide
    · decide
  simp only [Layout.exponentText, List.forall_mem_append, List.forall_mem_cons]
  refine ⟨?_, by decide, hsign, isNumeralChar_digitsOf⟩
  match ds with
  | [] => exact List.forall_mem_singleton.2 (by decide)
  | [d] => exact h
  | d :: e :: rest =>
    simp only [List.forall_mem_cons] at h ⊢
    exact ⟨h.1, by decide, h.2⟩

theorem isNumeralChar_decimalText (d : Decimal) :
    ∀ c ∈ Layout.document.decimalText d, isNumeralChar c = true := by
  have hdigits : ∀ c ∈ Layout.dropTrailingZeros (Layout.digitsOf d.digits),
      isNumeralChar c = true := by
    intro c hc
    rw [Layout.dropTrailingZeros, List.mem_reverse] at hc
    have hmem := (List.dropWhile_suffix _).subset hc
    exact isNumeralChar_digitsOf c (List.mem_reverse.1 hmem)
  simp only [Layout.decimalText]
  split
  · exact isNumeralChar_positionalText hdigits _
  · exact isNumeralChar_exponentText hdigits _

/-- A finite fraction is written with the characters of numerals. -/
theorem isNumeralChar_document {x : Binary64} (h : x.isFinite = true) :
    ∀ c ∈ (Layout.document.text x).toList, isNumeralChar c = true := by
  have hbody : ∀ m q, ∀ c ∈ (if m = 0 then '0' :: Layout.document.wholeEnding.toList
      else Layout.document.decimalText (Decimal.shortest Layout.document.tie m q)),
      isNumeralChar c = true := by
    intro m q
    split
    · exact List.all_eq_true.1 (by decide)
    · exact isNumeralChar_decimalText _
  rw [Binary64.isFinite] at h
  rw [Layout.text]
  split at h
  next negative m q hparts =>
    rw [hparts]
    simp only [String.toList_ofList]
    split
    · exact List.forall_mem_cons.2 ⟨by decide, hbody m q⟩
    · exact hbody m q
  next => cases h

end SatReplay.Json
