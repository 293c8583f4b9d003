/-
  SatReplay/Random/KeyStream.lean
  ===============================
  **Reproducible randomness**: a stream of words, and the draws that are made
  from it.

  A 64-bit state is spread into a key of the cipher, and block `i` of the stream
  is the cipher's block for counter `i`.  Words are handed out in order, and
  each draw uses the words that follow those of the draw before it.
-/
import SatReplay.Random.ChaCha

namespace SatReplay

/-! ### Seeding -/

namespace CipherKey

/-- One step of the generator that spreads a seed: the state moves first, and
    its upper bits are folded and rotated into a word. -/
def spread (state : UInt64) : UInt32 × UInt64 :=
  let state := state * 6364136223846793005 + 11634580027462260723
  let folded := (((state >>> 18) ^^^ state) >>> 27).toUInt32
  let turn := (state >>> 59).toUInt32
  (folded >>> turn ||| folded <<< ((32 - turn) % 32), state)

/-- The next four words that a state is spread into. -/
def spreadRow (state : UInt64) : WordRow × UInt64 :=
  let (first, state) := spread state
  let (second, state) := spread state
  let (third, state) := spread state
  let (fourth, state) := spread state
  (⟨first, second, third, fourth⟩, state)

/-- The key that a state is spread into. -/
def ofState (state : UInt64) : CipherKey :=
  let (low, state) := spreadRow state
  ⟨low, (spreadRow state).1⟩

end CipherKey

/-! ### Streams -/

/-- A stream of words: the key, the number of the next block, and the words of
    the current block that are not read yet. -/
structure KeyStream where
  key : CipherKey
  nextBlock : UInt64
  unread : List UInt32

namespace KeyStream

def ofState (state : UInt64) : KeyStream := ⟨CipherKey.ofState state, 0, []⟩

/-- The stream of a signed seed, whose sign is carried into the upper half. -/
def ofSeed (seed : Int32) : KeyStream := ofState seed.toInt64.toUInt64

/-! ### Draws -/

def word (s : KeyStream) : UInt32 × KeyStream :=
  match s.unread with
  | w :: rest => (w, { s with unread := rest })
  | [] =>
    match s.key.block s.nextBlock with
    | w :: rest => (w, ⟨s.key, s.nextBlock + 1, rest⟩)
    | [] => (0, s)

/-- Two words, the lower half first. -/
def longWord (s : KeyStream) : UInt64 × KeyStream :=
  let (low, s) := s.word
  let (high, s) := s.word
  (high.toUInt64 <<< 32 ||| low.toUInt64, s)

/-- A coin: the top bit of a word. -/
def coin (s : KeyStream) : Bool × KeyStream :=
  let (w, s) := s.word
  (w ≥ 0x80000000, s)

/-- The number of words after which a stream repeats: the counter has 64 bits
    and a block sixteen words. -/
def period : Nat := 0x100000000000000000

/-- The largest lower half of a product that is accepted: the largest multiple
    of `n` by a power of two below `2 ^ 32`, less one. -/
def zone (n : Nat) : Nat := n * Nat.pow 2 (31 - n.log2) - 1

/-- Multiplies words by `n` until the lower half of the product lies in the
    zone, and gives the upper half.  If no word of a whole period does, none
    ever would, and the draw ends with 0. -/
def belowWithin (n : Nat) (pos : 0 < n) : Nat → KeyStream → Fin n × KeyStream
  | 0, s => (⟨0, pos⟩, s)
  | left + 1, s =>
    let (w, s) := s.word
    if w.toNat * n % 0x100000000 ≤ zone n then
      (⟨w.toNat * n / 0x100000000, Nat.div_lt_of_lt_mul (Nat.mul_lt_mul_of_pos_right w.toNat_lt pos)⟩, s)
    else belowWithin n pos left s

/-- A number below `n`, every one of them equally likely. -/
def below (n : Nat) (pos : 0 < n) (s : KeyStream) : Fin n × KeyStream :=
  belowWithin n pos period s

end KeyStream

end SatReplay
