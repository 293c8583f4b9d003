/-
  SatReplay/Zlib/Bits.lean
  ========================
  **Reading bits from bytes.**  The bits of a byte are read from the lowest up,
  and a number is read from its lowest bit up.  Reading past the end fails.
-/
import SatReplay.Bytes.Word

namespace SatReplay.Zlib

/-- Bits to be read: `count` bits of a byte that was started, lowest first, and
    the bytes after it. -/
structure Bits where
  held : Nat
  count : Nat
  rest : Bytes

namespace Bits

def ofBytes (bytes : Bytes) : Bits := ⟨0, 0, bytes⟩

def remaining (bits : Bits) : Nat := bits.count + 8 * bits.rest.length

def bit? (bits : Bits) : Option (Nat × Bits) :=
  match bits.count with
  | count + 1 => some (bits.held % 2, ⟨bits.held / 2, count, bits.rest⟩)
  | 0 =>
    match bits.rest with
    | [] => none
    | b :: rest => some (b.toNat % 2, ⟨b.toNat / 2, 7, rest⟩)

def number? : Nat → Bits → Option (Nat × Bits)
  | 0, bits => some (0, bits)
  | n + 1, bits =>
    match bits.bit? with
    | none => none
    | some (low, bits) =>
      match number? n bits with
      | none => none
      | some (high, bits) => some (low + 2 * high, bits)

/-- The bytes after the one that was started. -/
def wholeBytes (bits : Bits) : Bytes := bits.rest

end Bits

end SatReplay.Zlib
