/-
  SatReplay/Random/ChaCha.lean
  ============================
  **The ChaCha cipher with twelve rounds**, as far as it gives a key stream.

  The state is a grid of four rows of four words: a constant row, two rows of
  key, and a row that counts the blocks.  A round mixes the columns; a round on
  the diagonals is the same after the rows are turned against each other.
-/

namespace SatReplay

/-! ### Rows of words -/

structure WordRow where
  first : UInt32
  second : UInt32
  third : UInt32
  fourth : UInt32
deriving DecidableEq, Repr

namespace WordRow

def map (f : UInt32 → UInt32) (r : WordRow) : WordRow :=
  ⟨f r.first, f r.second, f r.third, f r.fourth⟩

def zipWith (f : UInt32 → UInt32 → UInt32) (r s : WordRow) : WordRow :=
  ⟨f r.first s.first, f r.second s.second, f r.third s.third, f r.fourth s.fourth⟩

def add : WordRow → WordRow → WordRow := zipWith (· + ·)

def xor : WordRow → WordRow → WordRow := zipWith (· ^^^ ·)

/-- Every word rotated to the left by `n` bits, `n` below 32. -/
def rotate (r : WordRow) (n : UInt32) : WordRow := r.map fun w => w <<< n ||| w >>> (32 - n)

/-- The row one place further, the first word behind the others. -/
def turn (r : WordRow) : WordRow := ⟨r.second, r.third, r.fourth, r.first⟩

def toList (r : WordRow) : List UInt32 := [r.first, r.second, r.third, r.fourth]

end WordRow

/-! ### The cipher's blocks -/

structure WordGrid where
  a : WordRow
  b : WordRow
  c : WordRow
  d : WordRow
deriving DecidableEq, Repr

namespace WordGrid

/-- A round on the four columns at once. -/
def mixColumns (g : WordGrid) : WordGrid :=
  let a := g.a.add g.b
  let d := (g.d.xor a).rotate 16
  let c := g.c.add d
  let b := (g.b.xor c).rotate 12
  let a := a.add b
  let d := (d.xor a).rotate 8
  let c := c.add d
  let b := (b.xor c).rotate 7
  ⟨a, b, c, d⟩

/-- Turns the rows so that diagonals stand in columns. -/
def skew (g : WordGrid) : WordGrid := ⟨g.a, g.b.turn, g.c.turn.turn, g.d.turn.turn.turn⟩

def unskew (g : WordGrid) : WordGrid := ⟨g.a, g.b.turn.turn.turn, g.c.turn.turn, g.d.turn⟩

/-- A round on the columns and a round on the diagonals. -/
def doubleRound (g : WordGrid) : WordGrid := g.mixColumns.skew.mixColumns.unskew

def add (g h : WordGrid) : WordGrid := ⟨g.a.add h.a, g.b.add h.b, g.c.add h.c, g.d.add h.d⟩

def toList (g : WordGrid) : List UInt32 := g.a.toList ++ g.b.toList ++ g.c.toList ++ g.d.toList

end WordGrid

structure CipherKey where
  low : WordRow
  high : WordRow
deriving DecidableEq, Repr

namespace CipherKey

def constants : WordRow := ⟨0x61707865, 0x3320646e, 0x79622d32, 0x6b206574⟩

/-- The state before the rounds of a block; the nonce is zero. -/
def start (key : CipherKey) (counter : UInt64) : WordGrid :=
  ⟨constants, key.low, key.high, ⟨counter.toUInt32, (counter >>> 32).toUInt32, 0, 0⟩⟩

/-- The words of one block, after twelve rounds. -/
def block (key : CipherKey) (counter : UInt64) : List UInt32 :=
  let start := key.start counter
  ((Nat.repeat WordGrid.doubleRound 6 start).add start).toList

end CipherKey

end SatReplay
