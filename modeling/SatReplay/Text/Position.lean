/-
  SatReplay/Text/Position.lean
  ============================
  **Places in a text.**  A place is given by the number of bytes before it, or
  by its line and the number of bytes before it in that line.  Lines count from
  1, so the first place of a text is line 1, column 0, and the character just
  before a place in column `n` is the `n`th of its line if all are of one byte.
-/

namespace SatReplay

/-- The number of bytes that some characters take. -/
def byteCount (cs : List Char) : Nat := cs.foldl (fun n c => n + c.utf8Size) 0

structure Position where
  line : Nat
  column : Nat
deriving DecidableEq, Repr

namespace Position

def first : Position := ⟨1, 0⟩

/-- The position after a number of bytes from here on. -/
def advance (p : Position) : Nat → List Char → Position
  | 0, _ => p
  | _, [] => p
  | bytes + 1, c :: cs =>
    if c = '\n' then advance ⟨p.line + 1, 0⟩ bytes cs
    else advance ⟨p.line, p.column + min (bytes + 1) c.utf8Size⟩ (bytes + 1 - c.utf8Size) cs

/-- The position of a text where so many bytes are left. -/
def before (cs : List Char) (left : Nat) : Position := first.advance (byteCount cs - left) cs

end Position

end SatReplay
