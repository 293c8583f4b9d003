/-
  SatReplay/Proofs/Solution/TextForm.lean
  =======================================
  **Solutions as texts.**  The text of a solution is the base64 of its bytes.  Both
  steps back are exact: base64 is read from its own symbols only, and bytes are
  decoded from the encoding of a solution that fits only.  So a text is read as
  a solution just if it is the text of that solution and its lengths fit
  (`ofBase64_eq_ok_iff`), and a document just if it is a string of that text.
-/
import SatReplay.Json.Domain
import SatReplay.Proofs.Bytes.Base64
import SatReplay.Proofs.Bytes.Text
import SatReplay.Proofs.Json.Canonical
import SatReplay.Proofs.Solution.Canonical

namespace SatReplay.Solution

open Json

/-! ### Texts -/

theorem ofText_toBase64 (s : Solution) : Bytes.ofText s.toBase64 = Base64.encode s.encode :=
  Bytes.ofText_map_ofUInt8 fun _ hb => Base64.lt_of_mem_encode hb

theorem ofBase64_toBase64 {s : Solution} (h : s.Fits) : ofBase64 s.toBase64 = .ok s := by
  simp only [ofBase64, ofText_toBase64, Base64.decode_encode, decode_encode h.1 h.2]

theorem ofBase64_eq_ok_iff {text : String} {s : Solution} :
    ofBase64 text = .ok s ↔ s.Fits ∧ text = s.toBase64 := by
  constructor
  · intro h
    rw [ofBase64] at h
    rcases hsymbols : Base64.decode (Bytes.ofText text) with defect | bytes
    · simp only [hsymbols] at h
      cases h
    rcases hdecode : decode bytes with defect | t
    · simp only [hsymbols, hdecode] at h
      cases h
    simp only [hsymbols, hdecode, Except.ok.injEq] at h
    subst h
    obtain ⟨hfits, rfl⟩ := encode_of_decode hdecode
    refine ⟨hfits, Bytes.ofText_inj ?_⟩
    rw [ofText_toBase64, Base64.decode_eq_ok_iff.1 hsymbols]
  · rintro ⟨hfits, rfl⟩
    exact ofBase64_toBase64 hfits

/-! ### Documents -/

theorem reader_reads {s : Solution} (h : s.Fits) {cs : List Char} (htext : IsText s.toBase64 cs)
    (depth : Nat) : reader.Reads depth cs s := by
  obtain ⟨body, hbody, rfl⟩ := htext
  intro before rest hbefore _
  simp only [reader, foundRead_blanks hbefore, foundRead_quoted hbody, ofBase64_toBase64 h]

theorem reader_eq_ok_iff {depth : Nat} {cs rest : List Char} {s : Solution} :
    reader depth cs = .ok (s, rest) ↔
      ∃ text, Reader.string depth cs = .ok (text, rest) ∧ ofBase64 text = .ok s := by
  simp only [reader, Reader.string]
  rcases Found.read cs with stop | ⟨found, tail⟩
  · simp
  cases found with
  | string text =>
    rcases hread : ofBase64 text with cause | t
    · simp [hread, refuse]
    · simp only [hread, Except.ok.injEq, Prod.mk.injEq]
      constructor
      · rintro ⟨rfl, rfl⟩
        exact ⟨text, ⟨rfl, rfl⟩, hread⟩
      · rintro ⟨_, ⟨rfl, rfl⟩, hsame⟩
        rw [hread] at hsame
        exact ⟨Except.ok.inj hsame, rfl⟩
  | _ => simp [Reader.mistyped]

/-- A document is read as a solution just if it is a string of the solution's text,
    and the lengths of the solution fit. -/
theorem readText_eq_ok_iff {document : String} {s : Solution} :
    reader.readText document = .ok s ↔
      s.Fits ∧ Reader.string.readText document = .ok s.toBase64 := by
  simp only [Reader.readText_eq_ok_iff, reader_eq_ok_iff, ofBase64_eq_ok_iff]
  constructor
  · rintro ⟨tail, ⟨text, hread, hfits, rfl⟩, hblanks⟩
    exact ⟨hfits, tail, hread, hblanks⟩
  · rintro ⟨hfits, tail, hread, hblanks⟩
    exact ⟨tail, ⟨_, hread, hfits, rfl⟩, hblanks⟩

theorem toValue_eq_iff {s : Solution} {text : String} :
    s.toValue = .string text ↔ text = s.toBase64 := by
  rw [toValue, Value.string.injEq, eq_comm]

theorem readText_canonical {s : Solution} (h : s.Fits) :
    reader.readText s.toValue.canonical = .ok s := by
  have hreads := reader_reads h (isText_stringChars s.toBase64) maxDepth
  apply Reader.readText_eq hreads blanks_nil blanks_nil
  rw [List.nil_append, List.append_nil]
  exact String.toList_ofList

/-- **The text of a solution is canonical.**  Each solution whose lengths fit is read
    back from it, and from documents that are strings of it; from no other string,
    and from nothing that is not a string.  So one solution has one text. -/
theorem text_form_canonical :
    (∀ s : Solution, s.input.length ≤ 2 ^ 31 - 1 → s.trace.length ≤ 2 ^ 29 - 1 →
      reader.readText s.toValue.canonical = .ok s) ∧
    (∀ (document text : String) (s : Solution), Reader.string.readText document = .ok text →
      (reader.readText document = .ok s ↔
        (s.input.length ≤ 2 ^ 31 - 1 ∧ s.trace.length ≤ 2 ^ 29 - 1) ∧ s.toValue = .string text)) ∧
    (∀ (document : String) (s : Solution), reader.readText document = .ok s →
      ∃ text, Reader.string.readText document = .ok text) ∧
    (∀ (document other text otherText : String) (s : Solution),
      Reader.string.readText document = .ok text → Reader.string.readText other = .ok otherText →
      reader.readText document = .ok s → reader.readText other = .ok s → text = otherText) := by
  have hstring : ∀ (document text : String) (s : Solution),
      Reader.string.readText document = .ok text →
      (reader.readText document = .ok s ↔ s.Fits ∧ s.toValue = .string text) := by
    intro document text s htext
    rw [readText_eq_ok_iff, htext, Except.ok.injEq, toValue_eq_iff]
  refine ⟨?_, ?_, ?_, ?_⟩
  · intro s hinput htrace
    exact readText_canonical ((fits_iff s).2 ⟨hinput, htrace⟩)
  · intro document text s htext
    rw [hstring document text s htext, fits_iff]
  · intro document s h
    exact ⟨_, (readText_eq_ok_iff.1 h).2⟩
  · intro document other text otherText s htext hother hread hreadOther
    have hfirst := ((hstring document text s htext).1 hread).2
    have hsecond := ((hstring other otherText s hother).1 hreadOther).2
    exact Value.string.inj (hfirst.symm.trans hsecond)

/-- A solution of one bit and one identifier.  It is read from its text, also where
    a symbol is escaped; but not without the padding, and not with a spare bit. -/
theorem text_form_canonical_seven :
    let s : Solution := ⟨[true], [7]⟩
    s.toValue = .string "AQAAAAEEAAAABwAAAA==" ∧
      reader.readText s.toValue.canonical = .ok s ∧
      reader.readText " \"\\u0041QAAAAEEAAAABwAAAA==\"" = .ok s ∧
      reader.readText "\"AQAAAAEEAAAABwAAAA\"" ≠ .ok s ∧
      reader.readText "\"AQAAAAEEAAAABwAAAB==\"" ≠ .ok s := by
  intro s
  obtain ⟨hback, hstring, -, hsame⟩ := text_form_canonical
  have htext : s.toValue = .string "AQAAAAEEAAAABwAAAA==" :=
    toValue_eq_iff.2 (by decide +kernel)
  have hescaped : Reader.string.readText " \"\\u0041QAAAAEEAAAABwAAAA==\"" =
      .ok "AQAAAAEEAAAABwAAAA==" := by rfl
  have hread := (hstring _ _ s hescaped).2 ⟨by decide, htext⟩
  have hother : ∀ document text : String, Reader.string.readText document = .ok text →
      text ≠ "AQAAAAEEAAAABwAAAA==" → reader.readText document ≠ .ok s := by
    intro document text hdocument hne h
    exact hne (hsame document _ text _ s hdocument hescaped h hread)
  exact ⟨htext, hback s (by decide) (by decide), hread,
    hother _ "AQAAAAEEAAAABwAAAA" (by rfl) (by decide),
    hother _ "AQAAAAEEAAAABwAAAB==" (by rfl) (by decide)⟩

end SatReplay.Solution
