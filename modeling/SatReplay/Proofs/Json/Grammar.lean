/-
  SatReplay/Proofs/Json/Grammar.lean
  ==================================
  **What a JSON text is**, told by its parts and without a reader.

  Texts are lists of characters.  `IsValue` derives the text of a value from the
  texts of its parts, with blanks wherever they may stand; it neither looks at
  what strings and numerals stand for nor bounds the depth.  `Spells` says which
  characters a string stands for: one and the same string has many spellings,
  and only a body without halves of surrogate pairs spells anything.
-/
import SatReplay.Json.Record

namespace SatReplay.Json

/-! ### Blanks and ends -/

def Blanks (cs : List Char) : Prop := ∀ c ∈ cs, isBlank c = true

instance (cs : List Char) : Decidable (Blanks cs) :=
  List.decidableBAll (fun c => isBlank c = true) cs

/-- What may follow a value: the end of the text, a blank, a comma or a closing
    bracket.  Nothing of that continues a numeral. -/
def Delimited : List Char → Prop
  | [] => True
  | c :: _ => isBlank c = true ∨ c = ',' ∨ c = ']' ∨ c = '\x7d'

/-! ### Strings -/

/-- A body between quotes, as far as its characters and escapes go. -/
inductive IsBody : List Char → Prop
  | nil : IsBody []
  | plain {c : Char} {body : List Char} (hcontrol : ¬ c < ' ') (hquote : c ≠ '"')
      (hslash : c ≠ '\\') (hrest : IsBody body) : IsBody (c :: body)
  | short {e : Char} {body : List Char} (hshort : (short? e).isSome = true)
      (hrest : IsBody body) : IsBody ('\\' :: e :: body)
  | unit {a b c d : Char} {body : List Char} (hunit : (unit? a b c d).isSome = true)
      (hrest : IsBody body) : IsBody ('\\' :: 'u' :: a :: b :: c :: d :: body)

/-- A body between quotes, and the characters that it stands for. -/
inductive Spells : List Char → List Char → Prop
  | nil : Spells [] []
  | plain {c : Char} {body text : List Char} (hcontrol : ¬ c < ' ') (hquote : c ≠ '"')
      (hslash : c ≠ '\\') (hrest : Spells body text) : Spells (c :: body) (c :: text)
  | short {e c : Char} {body text : List Char} (hshort : short? e = some c)
      (hrest : Spells body text) : Spells ('\\' :: e :: body) (c :: text)
  /-- The number of a character is no half of a surrogate pair. -/
  | unit {a b c d char : Char} {body text : List Char} (hunit : unit? a b c d = some char.toNat)
      (hrest : Spells body text) :
      Spells ('\\' :: 'u' :: a :: b :: c :: d :: body) (char :: text)
  | pair {a b c d e f g h : Char} {high low : Nat} {body text : List Char}
      (hfirst : unit? a b c d = some high) (hhigh : isHigh high = true)
      (hsecond : unit? e f g h = some low) (hlow : isLow low = true) (hrest : Spells body text) :
      Spells ('\\' :: 'u' :: a :: b :: c :: d :: '\\' :: 'u' :: e :: f :: g :: h :: body)
        (paired high low :: text)

def quoted (body : List Char) : List Char := '"' :: (body ++ ['"'])

/-- The text of a string in a document. -/
def IsText (s : String) (cs : List Char) : Prop := ∃ body, Spells body s.toList ∧ cs = quoted body

/-! ### Numerals -/

def IsDigits (ds : List Char) : Prop := ds ≠ [] ∧ ∀ d ∈ ds, Reading.isDigit d = true

/-- Digits before the point: no zero stands in front of others. -/
def IsWhole (ds : List Char) : Prop := IsDigits ds ∧ (ds.head? = some '0' → ds = ['0'])

def IsFraction (cs : List Char) : Prop := cs = [] ∨ ∃ ds, IsDigits ds ∧ cs = '.' :: ds

def IsExponent (cs : List Char) : Prop :=
  cs = [] ∨ ∃ e sign ds, (e = 'e' ∨ e = 'E') ∧ (sign = [] ∨ sign = ['+'] ∨ sign = ['-']) ∧
    IsDigits ds ∧ cs = e :: (sign ++ ds)

/-- The sign of a numeral; a plus is not written. -/
def minusSign : Bool → List Char
  | true => ['-']
  | false => []

def IsNumeral (cs : List Char) : Prop :=
  ∃ negative whole fraction exponent, IsWhole whole ∧ IsFraction fraction ∧
    IsExponent exponent ∧ cs = minusSign negative ++ (whole ++ (fraction ++ exponent))

/-! ### Values -/

/-- A text with what stands around it. -/
structure Padded where
  before : List Char
  text : List Char
  after : List Char

namespace Padded

def chars (p : Padded) : List Char := p.before ++ (p.text ++ p.after)

/-- Only blanks stand around the text. -/
def InBlanks (p : Padded) : Prop := Blanks p.before ∧ Blanks p.after

instance (p : Padded) : Decidable p.InBlanks :=
  inferInstanceAs (Decidable (Blanks p.before ∧ Blanks p.after))

end Padded

/-- The texts of a name and of a value in an object. -/
structure MemberText where
  name : Padded
  value : Padded

namespace MemberText

def chars (m : MemberText) : List Char := m.name.chars ++ ':' :: m.value.chars

/-- Only blanks stand around the name and the value. -/
def InBlanks (m : MemberText) : Prop := m.name.InBlanks ∧ m.value.InBlanks

instance (m : MemberText) : Decidable m.InBlanks :=
  inferInstanceAs (Decidable (m.name.InBlanks ∧ m.value.InBlanks))

end MemberText

/-- Further parts up to a closing bracket, each behind a comma. -/
def further (close : Char) : List (List Char) → List Char
  | [] => [close]
  | part :: parts => ',' :: (part ++ further close parts)

/-- Parts from an opening bracket to a closing one. -/
def bracketed (opening close : Char) : List (List Char) → List Char
  | [] => [opening, close]
  | part :: parts => opening :: (part ++ further close parts)

def arrayText (items : List Padded) : List Char := bracketed '[' ']' (items.map Padded.chars)

def objectText (members : List MemberText) : List Char :=
  bracketed '\x7b' '\x7d' (members.map MemberText.chars)

/-- The text of a value, without the blanks before and after it. -/
inductive IsValue : List Char → Prop
  | null : IsValue ['n', 'u', 'l', 'l']
  | yes : IsValue ['t', 'r', 'u', 'e']
  | no : IsValue ['f', 'a', 'l', 's', 'e']
  | numeral {cs : List Char} (h : IsNumeral cs) : IsValue cs
  | string {body : List Char} (h : IsBody body) : IsValue (quoted body)
  | blankArray {blanks : List Char} (h : Blanks blanks) : IsValue ('[' :: (blanks ++ [']']))
  | array {items : List Padded} (hblanks : ∀ p ∈ items, p.InBlanks)
      (hitems : ∀ p ∈ items, IsValue p.text) : IsValue (arrayText items)
  | blankObject {blanks : List Char} (h : Blanks blanks) :
      IsValue ('\x7b' :: (blanks ++ ['\x7d']))
  | object {members : List MemberText} (hblanks : ∀ m ∈ members, m.InBlanks)
      (hnames : ∀ m ∈ members, ∃ body, IsBody body ∧ m.name.text = quoted body)
      (hvalues : ∀ m ∈ members, IsValue m.value.text) : IsValue (objectText members)

/-! ### Around a value -/

theorem blanks_nil : Blanks [] := fun _ hc => absurd hc List.not_mem_nil

theorem dropBlanks_append {before : List Char} (h : Blanks before) (rest : List Char) :
    dropBlanks (before ++ rest) = dropBlanks rest :=
  List.dropWhile_append_of_pos h

theorem dropBlanks_cons {c : Char} {rest : List Char} (h : isBlank c = false) :
    dropBlanks (c :: rest) = c :: rest := by
  rw [dropBlanks, List.dropWhile_cons_of_neg (by simp [h])]

theorem dropBlanks_of_blanks {cs : List Char} (h : Blanks cs) : dropBlanks cs = [] := by
  have hall := dropBlanks_append h []
  rwa [List.append_nil] at hall

theorem Delimited.append_blanks {blanks rest : List Char} (hblanks : Blanks blanks)
    (h : Delimited rest) : Delimited (blanks ++ rest) := by
  cases blanks with
  | nil => exact h
  | cons c blanks => exact Or.inl (hblanks c (by simp))

theorem delimited_further {close : Char} (h : close = ']' ∨ close = '\x7d')
    (parts : List (List Char)) (rest : List Char) : Delimited (further close parts ++ rest) := by
  cases parts with
  | nil => exact Or.inr (Or.inr h)
  | cons part parts => exact Or.inr (Or.inl rfl)

theorem length_le_further (close : Char) (parts : List (List Char)) :
    parts.length + 1 ≤ (further close parts).length := by
  induction parts with
  | nil => simp [further]
  | cons part parts ih =>
    simp only [further, List.length_cons, List.length_append]
    omega

end SatReplay.Json
