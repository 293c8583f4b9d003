/-
  SatReplay/Text/Quoted.lean
  ==========================
  **Texts in quotation marks**, as messages show them: quotes, backslashes and
  the common controls have short escapes, and other characters that would not
  show are given by their number.  Apostrophes stay as they are.
-/
import SatReplay.Text.Unprintable

namespace SatReplay.Quoted

/-- A character whose number is shown instead of it. -/
def isHidden (c : Char) : Bool :=
  c < ' ' || c = '\x7f' || ('\x7f' < c && Unprintable.covers c.toNat)

/-- What stands for a character between the quotes. -/
def escape (c : Char) : List Char :=
  if c = '"' then ['\\', '"']
  else if c = '\\' then ['\\', '\\']
  else if c = '\n' then ['\\', 'n']
  else if c = '\r' then ['\\', 'r']
  else if c = '\t' then ['\\', 't']
  else if c = '\x00' then ['\\', '0']
  else if isHidden c then ['\\', 'u', '\x7b'] ++ Nat.toDigits 16 c.toNat ++ ['\x7d']
  else [c]

def quote (text : String) : String :=
  String.ofList ('"' :: text.toList.flatMap escape ++ ['"'])

end SatReplay.Quoted
