/-
  SatReplay/Bytes/Word.lean
  =========================
  **Words of 32 bits as four bytes**, least significant byte first.
-/

namespace SatReplay

abbrev Bytes := List UInt8

namespace Bytes

/-- The four bytes of a word, least significant first. -/
def ofWord (w : UInt32) : Bytes :=
  [w.toUInt8, (w >>> 8).toUInt8, (w >>> 16).toUInt8, (w >>> 24).toUInt8]

/-- The word of four bytes, least significant first. -/
def toWord (a b c d : UInt8) : UInt32 :=
  a.toUInt32 ||| b.toUInt32 <<< 8 ||| c.toUInt32 <<< 16 ||| d.toUInt32 <<< 24

/-- The words of whole groups of four bytes; up to three last bytes are left
    over. -/
def wordsInto (acc : Array UInt32) : Bytes → Array UInt32
  | a :: b :: c :: d :: rest => wordsInto (acc.push (toWord a b c d)) rest
  | _ => acc

def toWords (bytes : Bytes) : List UInt32 := (wordsInto #[] bytes).toList

def ofText (text : String) : Bytes := text.toUTF8.data.toList

/-- The text that the bytes are in UTF-8, if they are. -/
def toText? (bytes : Bytes) : Option String := String.fromUTF8? ⟨bytes.toArray⟩

end Bytes

end SatReplay
