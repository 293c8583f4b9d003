/-
  SatReplay/Json/Scan.lean
  ========================
  **What stands at the front of a text**: blanks, words and strings.  Reading
  takes characters from the front and gives back the rest, or stops at a
  mistake.  Where it stops is told by how many bytes are left: a character that
  must not be there counts as taken.
-/
import SatReplay.Json.ReadError

namespace SatReplay.Json

/-- A mistake, and the number of bytes that are left then. -/
structure Stop where
  mistake : Mistake
  left : Nat
deriving DecidableEq, Repr

/-- Reads a value from the front of a text. -/
abbrev Scan (α : Type) := List Char → Except Stop (α × List Char)

/-- Where the error of a stop is in the whole text. -/
def Stop.inText (s : Stop) (cs : List Char) : ReadError :=
  ⟨s.mistake, Position.before cs s.left⟩

/-- A text stops being JSON with its first character, or by its end. -/
def broken {α : Type} (cause : GrammarError) (rest : List Char) : Except Stop α :=
  .error ⟨.grammar cause, byteCount rest - 1⟩

/-- A text has stopped being JSON before its first character. -/
def brokenBefore {α : Type} (cause : GrammarError) (rest : List Char) : Except Stop α :=
  .error ⟨.grammar cause, byteCount rest⟩

/-- What has been read before the rest is refused. -/
def refuse {α : Type} (cause : DataError) (rest : List Char) : Except Stop α :=
  .error ⟨.data cause, byteCount rest⟩

/-! ### Blanks and words -/

def isBlank (c : Char) : Bool := c = ' ' || c = '\n' || c = '\r' || c = '\t'

def dropBlanks (cs : List Char) : List Char := cs.dropWhile isBlank

/-- Takes the letters that a word goes on with. -/
def takeWord : List Char → List Char → Except Stop (List Char)
  | [], cs => .ok cs
  | _ :: _, [] => broken .endInValue []
  | letter :: letters, c :: cs =>
    if c = letter then takeWord letters cs else broken .otherWord (c :: cs)

/-! ### Escapes -/

/-- The value of a digit of a unit. -/
def hexDigit? (c : Char) : Option Nat :=
  if '0' ≤ c ∧ c ≤ '9' then some (c.toNat - '0'.toNat)
  else if 'a' ≤ c ∧ c ≤ 'f' then some (c.toNat - 'a'.toNat + 10)
  else if 'A' ≤ c ∧ c ≤ 'F' then some (c.toNat - 'A'.toNat + 10)
  else none

/-- The unit of 16 bits that four digits give. -/
def unit? (a b c d : Char) : Option Nat :=
  match hexDigit? a, hexDigit? b, hexDigit? c, hexDigit? d with
  | some a, some b, some c, some d => some (((a * 16 + b) * 16 + c) * 16 + d)
  | _, _, _, _ => none

/-- The digits of a unit are not there: four bytes are taken for them, if there
    are four. -/
def brokenUnit {α : Type} (rest : List Char) : Except Stop α :=
  if byteCount rest < 4 then broken .endInString []
  else .error ⟨.grammar .badEscape, byteCount rest - 4⟩

def short? (c : Char) : Option Char :=
  if c = '"' ∨ c = '\\' ∨ c = '/' then some c
  else if c = 'b' then some '\x08'
  else if c = 'f' then some '\x0c'
  else if c = 'n' then some '\n'
  else if c = 'r' then some '\r'
  else if c = 't' then some '\t'
  else none

theorem ne_u_of_short? {e c : Char} (h : short? e = some c) : e ≠ 'u' := by
  rintro rfl
  have hnone : short? 'u' = none := by decide
  rw [hnone] at h
  cases h

def isHigh (code : Nat) : Bool := 0xd800 ≤ code && code < 0xdc00

def isLow (code : Nat) : Bool := 0xdc00 ≤ code && code < 0xe000

def paired (high low : Nat) : Char :=
  Char.ofNat (0x10000 + (high - 0xd800) * 0x400 + (low - 0xdc00))

/-! ### Strings -/

/-- The characters of a string up to its closing quote.  After the first half of
    a surrogate pair only the second half may come. -/
def takeString (acc : Array Char) (high : Option Nat) : Scan String
  | [] => broken .endInString []
  | ['\\'] => broken .endInString []
  | '"' :: rest =>
    match high with
    | none => .ok (String.ofList acc.toList, rest)
    | some _ => broken .missingSurrogate ('"' :: rest)
  | '\\' :: 'u' :: a :: b :: c :: d :: rest =>
    match unit? a b c d, high with
    | none, _ => brokenUnit (a :: b :: c :: d :: rest)
    | some low, some high =>
      if isLow low then takeString (acc.push (paired high low)) none rest
      else brokenBefore .loneSurrogate rest
    | some code, none =>
      if isLow code then brokenBefore .loneSurrogate rest
      else if isHigh code then takeString acc (some code) rest
      else takeString (acc.push (Char.ofNat code)) none rest
  | '\\' :: 'u' :: rest => brokenUnit rest
  | '\\' :: c :: rest =>
    match high, short? c with
    | some _, _ => broken .missingSurrogate (c :: rest)
    | none, some c => takeString (acc.push c) none rest
    | none, none => broken .badEscape (c :: rest)
  | c :: rest =>
    match high with
    | some _ => broken .missingSurrogate (c :: rest)
    | none =>
      if c < ' ' then broken .control (c :: rest) else takeString (acc.push c) none rest

section

variable (acc : Array Char) (rest : List Char)

theorem takeString_quote :
    takeString acc none ('"' :: rest) = .ok (String.ofList acc.toList, rest) := by
  rw [takeString]

theorem takeString_char {c : Char} (hquote : c ≠ '"') (hslash : c ≠ '\\') :
    takeString acc none (c :: rest) =
      if c < ' ' then broken .control (c :: rest) else takeString (acc.push c) none rest := by
  rw [takeString]
  all_goals simp [hquote, hslash]

theorem takeString_short {e c : Char} (h : short? e = some c) :
    takeString acc none ('\\' :: e :: rest) = takeString (acc.push c) none rest := by
  rw [takeString.eq_def]
  simp [h, ne_u_of_short? h]

theorem takeString_first {a b c d : Char} {code : Nat} (h : unit? a b c d = some code) :
    takeString acc none ('\\' :: 'u' :: a :: b :: c :: d :: rest) =
      if isLow code then brokenBefore .loneSurrogate rest
      else if isHigh code then takeString acc (some code) rest
      else takeString (acc.push (Char.ofNat code)) none rest := by
  rw [takeString.eq_def]
  simp only [h]

theorem takeString_second {a b c d : Char} {high low : Nat} (h : unit? a b c d = some low) :
    takeString acc (some high) ('\\' :: 'u' :: a :: b :: c :: d :: rest) =
      if isLow low then takeString (acc.push (paired high low)) none rest
      else brokenBefore .loneSurrogate rest := by
  rw [takeString.eq_def]
  simp only [h]

end

/-- Passes over a string that nobody reads; surrogates are not looked at. -/
def skipString : List Char → Except Stop (List Char)
  | [] => broken .endInString []
  | '"' :: rest => .ok rest
  | '\\' :: 'u' :: a :: b :: c :: d :: rest =>
    if (unit? a b c d).isSome then skipString rest else brokenUnit (a :: b :: c :: d :: rest)
  | '\\' :: 'u' :: rest => brokenUnit rest
  | '\\' :: c :: rest =>
    if (short? c).isSome then skipString rest else broken .badEscape (c :: rest)
  | c :: rest =>
    if c < ' ' then brokenBefore .control (c :: rest) else skipString rest

section

variable (rest : List Char)

theorem skipString_quote : skipString ('"' :: rest) = .ok rest := by
  rw [skipString]

theorem skipString_char {c : Char} (hquote : c ≠ '"') (hslash : c ≠ '\\') :
    skipString (c :: rest) =
      if c < ' ' then brokenBefore .control (c :: rest) else skipString rest := by
  rw [skipString]
  all_goals simp [hquote, hslash]

theorem skipString_short {e : Char} (h : (short? e).isSome = true) :
    skipString ('\\' :: e :: rest) = skipString rest := by
  obtain ⟨c, hc⟩ := Option.isSome_iff_exists.1 h
  rw [skipString, if_pos h]
  all_goals simp [ne_u_of_short? hc]

theorem skipString_unit {a b c d : Char} (h : (unit? a b c d).isSome = true) :
    skipString ('\\' :: 'u' :: a :: b :: c :: d :: rest) = skipString rest := by
  rw [skipString, if_pos h]

end

end SatReplay.Json
