/-
  SatReplay/Zlib/Container.lean
  =============================
  **The zlib container**: two bytes that name the method, a deflate stream, and
  the checksum of what it holds.  Writing stores the bytes in blocks as they are;
  reading takes any stream, and ignores what comes after it.
-/
import SatReplay.Zlib.Inflate

namespace SatReplay.Zlib

/-- The modulus of the checksum, the largest prime below `2 ^ 16`. -/
def adlerModulus : Nat := 65521

/-- The Adler-32 checksum: the sum of the bytes, and the sum of these sums. -/
def adler32 (bytes : Bytes) : Nat :=
  let (a, b) := bytes.foldl
    (fun (a, b) byte =>
      let a := (a + byte.toNat) % adlerModulus
      (a, (b + a) % adlerModulus))
    (1, 0)
  b * 65536 + a

/-- A checksum is written most significant byte first. -/
def checksumBytes (bytes : Bytes) : Bytes := (Bytes.ofWord (UInt32.ofNat (adler32 bytes))).reverse

/-! ### Writing -/

/-- The most bytes that a stored block takes. -/
def maxStored : Nat := 65535

def storedBlock (last : Bool) (bytes : Bytes) : Bytes :=
  let length := bytes.length
  let other := maxStored - length
  [if last then 1 else 0, (length % 256).toUInt8, (length / 256).toUInt8,
    (other % 256).toUInt8, (other / 256).toUInt8] ++ bytes

def storedBlocks (bytes : Bytes) : Bytes :=
  if bytes.length ≤ maxStored then storedBlock true bytes
  else storedBlock false (bytes.take maxStored) ++ storedBlocks (bytes.drop maxStored)
termination_by bytes.length
decreasing_by simp only [List.length_drop, maxStored] at *; omega

/-- The two bytes in front: deflate with the largest window. -/
def header : Bytes := [0x78, 0x9c]

def compress (bytes : Bytes) : Bytes := header ++ storedBlocks bytes ++ checksumBytes bytes

/-! ### Reading -/

/-- The method is deflate, the window is at most the largest, nothing is left to
    be agreed on beforehand, and the two bytes check each other. -/
def isHeader (method flags : UInt8) : Bool :=
  method.toNat % 16 = 8 && method.toNat / 16 ≤ 7 && flags.toNat / 32 % 2 = 0 &&
    (method.toNat * 256 + flags.toNat) % 31 = 0

/-- The bytes that a container holds, if it is whole and its checksum agrees. -/
def decompress? (bytes : Bytes) : Option Bytes :=
  match bytes with
  | method :: flags :: rest =>
    if isHeader method flags then
      match inflate rest with
      | none => none
      | some (out, rest) => if rest.take 4 = checksumBytes out then some out else none
    else none
  | _ => none

end SatReplay.Zlib
