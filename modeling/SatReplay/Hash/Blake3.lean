/-
  SatReplay/Hash/Blake3.lean
  ==========================
  **The BLAKE3 hash**, plain mode, 32 bytes.

  The input is cut into chunks of 1024 bytes and each chunk into blocks of 64;
  a chunk's blocks are compressed one after another, and the chunks' results are
  joined by a binary tree whose left subtrees are complete.  The last
  compression of all carries the root flag.
-/
import SatReplay.Bytes.Word

namespace SatReplay.Blake3

/-- Sixteen words: a message block, or the state of a compression. -/
abbrev Block := Vector UInt32 16

/-- Eight words: the result that one compression hands to the next. -/
abbrev Chain := Vector UInt32 8

def iv : Chain :=
  #v[0x6A09E667, 0xBB67AE85, 0x3C6EF372, 0xA54FF53A,
     0x510E527F, 0x9B05688C, 0x1F83D9AB, 0x5BE0CD19]

def chunkStart : UInt32 := 1
def chunkEnd : UInt32 := 2
def parentFlag : UInt32 := 4
def rootFlag : UInt32 := 8

def rotateRight (w n : UInt32) : UInt32 := w >>> n ||| w <<< (32 - n)

/-- The mixing of one column or diagonal with two message words. -/
def mix (s : Block) (a b c d : Fin 16) (x y : UInt32) : Block :=
  let va := s[a] + s[b] + x
  let vd := rotateRight (s[d] ^^^ va) 16
  let vc := s[c] + vd
  let vb := rotateRight (s[b] ^^^ vc) 12
  let va := va + vb + y
  let vd := rotateRight (vd ^^^ va) 8
  let vc := vc + vd
  let vb := rotateRight (vb ^^^ vc) 7
  (((s.set a va).set b vb).set c vc).set d vd

/-- Columns, then diagonals. -/
def round (s m : Block) : Block :=
  let s := mix s 0 4 8 12 m[0] m[1]
  let s := mix s 1 5 9 13 m[2] m[3]
  let s := mix s 2 6 10 14 m[4] m[5]
  let s := mix s 3 7 11 15 m[6] m[7]
  let s := mix s 0 5 10 15 m[8] m[9]
  let s := mix s 1 6 11 12 m[10] m[11]
  let s := mix s 2 7 8 13 m[12] m[13]
  mix s 3 4 9 14 m[14] m[15]

/-- The order of the message words from one round to the next. -/
def permute (m : Block) : Block :=
  #v[m[2], m[6], m[3], m[10], m[7], m[0], m[4], m[13],
     m[1], m[11], m[12], m[5], m[9], m[14], m[15], m[8]]

def rounds : Nat → Block → Block → Block
  | 0, s, _ => s
  | n + 1, s, m => rounds n (round s m) (permute m)

/-- A compression that is still to be done, so that it can be flagged as the
    root when it turns out to be the last. -/
structure Pending where
  chain : Chain
  block : Block
  counter : UInt64
  length : UInt32
  flags : UInt32

/-- Seven rounds; the two halves of the state make the eight result words. -/
def Pending.compress (p : Pending) : Chain :=
  let h := p.chain
  let s : Block :=
    #v[h[0], h[1], h[2], h[3], h[4], h[5], h[6], h[7],
       iv[0], iv[1], iv[2], iv[3],
       p.counter.toUInt32, (p.counter >>> 32).toUInt32, p.length, p.flags]
  let s := rounds 7 s p.block
  #v[s[0] ^^^ s[8], s[1] ^^^ s[9], s[2] ^^^ s[10], s[3] ^^^ s[11],
     s[4] ^^^ s[12], s[5] ^^^ s[13], s[6] ^^^ s[14], s[7] ^^^ s[15]]

/-- The words of up to 64 bytes, filled up with zeros. -/
def blockOf (bytes : Bytes) : Block :=
  let words := (Bytes.toWords (bytes ++ List.replicate (64 - bytes.length) 0)).toArray
  Vector.ofFn fun i => words.getD i 0

/-- The rest of a chunk: every block but the last is compressed. -/
def chunkRest (counter : UInt64) : Nat → Chain → UInt32 → Bytes → Pending
  | 0, chain, start, bytes =>
    ⟨chain, blockOf bytes, counter, UInt32.ofNat bytes.length, start ||| chunkEnd⟩
  | blocks + 1, chain, start, bytes =>
    if bytes.length ≤ 64 then
      ⟨chain, blockOf bytes, counter, UInt32.ofNat bytes.length, start ||| chunkEnd⟩
    else
      let next := Pending.compress ⟨chain, blockOf (bytes.take 64), counter, 64, start⟩
      chunkRest counter blocks next 0 (bytes.drop 64)

/-- A chunk has at most sixteen blocks. -/
def chunk (counter : UInt64) (bytes : Bytes) : Pending :=
  chunkRest counter 15 iv chunkStart bytes

def parent (left right : Pending) : Pending where
  chain := iv
  block := left.compress ++ right.compress
  counter := 0
  length := 64
  flags := parentFlag

/-- The tree over some bytes that start at a chunk: the left subtree takes the
    largest power of two of chunks that leaves something to the right. -/
def tree (first : Nat) (bytes : Bytes) : Pending :=
  if h : bytes.length ≤ 1024 then chunk (UInt64.ofNat first) bytes
  else
    let left := Nat.pow 2 ((bytes.length - 1) / 1024).log2
    parent (tree first (bytes.take (left * 1024))) (tree (first + left) (bytes.drop (left * 1024)))
termination_by bytes.length
decreasing_by
  · have hc : (bytes.length - 1) / 1024 ≠ 0 := by omega
    have : Nat.pow 2 ((bytes.length - 1) / 1024).log2 ≤ (bytes.length - 1) / 1024 :=
      Nat.log2_self_le hc
    simp only [List.length_take]
    omega
  · have : 0 < Nat.pow 2 ((bytes.length - 1) / 1024).log2 := Nat.two_pow_pos _
    simp only [List.length_drop]
    omega

def hash (bytes : Bytes) : Bytes :=
  let root := tree 0 bytes
  (Pending.compress { root with flags := root.flags ||| rootFlag }).toList.flatMap Bytes.ofWord

/-- The first word of the hash of a text. -/
def textWord (text : String) : UInt32 :=
  match hash (Bytes.ofText text) with
  | a :: b :: c :: d :: _ => Bytes.toWord a b c d
  | _ => 0

end SatReplay.Blake3
