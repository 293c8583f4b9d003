/-
  SatReplay/Proofs/Challenge/Checked.lean
  =======================================
  **Generation stays within the machine's numbers.**  `generate?` makes a formula
  as a machine does: each subtraction, product, quotient, change of width and
  negation has to give a number of its type, each place has to lie in the row,
  and a draw needs a positive bound.  Whatever fails of this ends it with `none`.

  Nothing ever does, for any source of draws (`generate?_eq`), so the formula is
  the one that `Challenge.generate` makes without checks.  Sizes are words of 64
  bits here.
-/
import SatReplay.Proofs.Challenge.Generated

namespace SatReplay

/-! ### Numbers of a machine -/

/-- The numbers of a machine type, from the least one up to a bound. -/
structure NumberType where
  least : Int
  bound : Int

namespace NumberType

def signed32 : NumberType := ⟨-0x80000000, 0x80000000⟩

def unsigned32 : NumberType := ⟨0, 0x100000000⟩

def signed64 : NumberType := ⟨-0x8000000000000000, 0x8000000000000000⟩

def size : NumberType := ⟨0, 0x10000000000000000⟩

/-- The number, if the type has it. -/
def fit? (t : NumberType) (x : Int) : Option Int :=
  if t.least ≤ x ∧ x < t.bound then some x else none

theorem fit?_eq_some {t : NumberType} {x : Int} (hleast : t.least ≤ x) (hbound : x < t.bound) :
    t.fit? x = some x := if_pos ⟨hleast, hbound⟩

end NumberType

namespace Generator

/-! ### Generation with checks -/

/-- The bound of a draw when some places of a row are taken. -/
def bound? (n : Int) (taken : Nat) : Option Int :=
  (NumberType.size.fit? (n - taken)).bind NumberType.unsigned32.fit?

/-- The last of the places that are not taken. -/
def last? (n : Int) (taken : Nat) : Option Int :=
  (NumberType.size.fit? (n - 1)).bind fun last => NumberType.size.fit? (last - taken)

def swap? (row : Array Int32) (i j : Nat) : Option (Array Int32) :=
  if h : i < row.size ∧ j < row.size then some (row.swap i j h.1 h.2) else none

/-- The variable at a place of a row, which is swapped to the last place. -/
def pick? (n : Int) (taken : Nat) (row : Array Int32) (drawn : Int) :
    Option (Int32 × Array Int32) :=
  (NumberType.size.fit? drawn).bind fun place =>
  row[place.toNat]?.bind fun v =>
  (last? n taken).bind fun last =>
  (swap? row place.toNat last.toNat).map fun row => (v, row)

def literal? (v : Int32) (negated : Bool) : Option Literal :=
  if negated then (NumberType.signed32.fit? (-v.toInt)).map Int32.ofInt else some v

section

variable {σ : Type} (source : DrawSource σ)

/-- A draw below a bound; there is none below zero. -/
def draw? (bound : Int) (s : σ) : Option (Nat × σ) :=
  if 0 < bound then some (source.below bound.toNat s) else none

/-- A literal, the row left behind, and the state of the source. -/
def take? (n : Int) (taken : Nat) (row : Array Int32) (s : σ) :
    Option (Literal × Array Int32 × σ) :=
  (bound? n taken).bind fun bound =>
  (draw? source bound s).bind fun drawn =>
  (pick? n taken row drawn.1).bind fun picked =>
  (literal? picked.1 (source.coin drawn.2).1).map fun l =>
    (l, picked.2, (source.coin drawn.2).2)

def clause? (n : Int) (row : Array Int32) (s : σ) : Option (Clause × Array Int32 × σ) :=
  (take? source n 0 row s).bind fun first =>
  (take? source n 1 first.2.1 first.2.2).bind fun second =>
  (take? source n 2 second.2.1 second.2.2).map fun third =>
    ([first.1, second.1, third.1], third.2)

def clauses? (n : Int) : Nat → Array Int32 → σ → Option (List Clause)
  | 0, _, _ => some []
  | count + 1, row, s =>
    (clause? source n row s).bind fun made =>
    (clauses? n count made.2.1 made.2.2).map fun rest => made.1 :: rest

end

/-- The number of clauses of a difficulty; quotients drop the fraction. -/
def clauseCount? (d : Difficulty) : Option Int :=
  (NumberType.signed64.fit? (d.numVariables.toInt * d.ratio.toInt)).bind fun product =>
  (NumberType.signed64.fit? (product.tdiv 100)).bind NumberType.size.fit?

def generate? {σ : Type} (source : DrawSource σ) (d : Difficulty) (s : σ) : Option (List Clause) :=
  (NumberType.size.fit? d.numVariables.toInt).bind fun n =>
  (NumberType.signed32.fit? n).bind fun last =>
  (clauseCount? d).bind fun count =>
  clauses? source n count.toNat (Row.initial last.toNat).toArray s

/-! ### No check fails -/

section

variable {n taken : Nat}

theorem size_fit?_eq {x : Int} (hleast : 0 ≤ x) (hbound : x < 0x80000000) :
    NumberType.size.fit? x = some x :=
  NumberType.fit?_eq_some hleast (by simp only [NumberType.size]; omega)

theorem bound?_eq (hn : n < 2 ^ 31) (htaken : taken ≤ n) :
    bound? n taken = some ((n - taken : Nat) : Int) := by
  have hsub : (n : Int) - taken = ((n - taken : Nat) : Int) := by omega
  rw [bound?, hsub, size_fit?_eq (by omega) (by omega), Option.bind_some]
  exact NumberType.fit?_eq_some (by simp only [NumberType.unsigned32]; omega)
    (by simp only [NumberType.unsigned32]; omega)

theorem last?_eq (hn : n < 2 ^ 31) (htaken : taken < n) :
    last? n taken = some ((n - 1 - taken : Nat) : Int) := by
  have hsub : (n : Int) - 1 - taken = ((n - 1 - taken : Nat) : Int) := by omega
  rw [last?, size_fit?_eq (by omega) (by omega), Option.bind_some, hsub,
    size_fit?_eq (by omega) (by omega)]

theorem swap?_eq (row : Row n) {i j : Nat} (hi : i < n) (hj : j < n) :
    swap? row.toArray i j = some (row.swap i j hi hj).toArray := by
  have h : i < row.toArray.size ∧ j < row.toArray.size := by simp [hi, hj]
  rw [swap?, dif_pos h, Vector.toArray_swap]

theorem literal?_eq {v : Int32} (h : Literal.Proper v) (negated : Bool) :
    literal? v negated = some (if negated then -v else v) := by
  cases negated with
  | false => rfl
  | true =>
    have hneg := Literal.toInt_neg h.2
    have hleast := Int32.le_toInt (-v)
    have hbound := Int32.toInt_lt (-v)
    rw [hneg] at hleast hbound
    have hfit : NumberType.signed32.fit? (-v.toInt) = some (-v.toInt) :=
      NumberType.fit?_eq_some hleast hbound
    rw [literal?, if_pos rfl, hfit, Option.map_some, Int32.ofInt_neg, Int32.ofInt_toInt,
      if_pos rfl]

theorem pick?_eq (hn : n < 2 ^ 31) (row : Row n) (place : Fin (n - taken)) (hplace : place.val < n)
    (hlast : n - 1 - taken < n) :
    pick? n taken row.toArray place.val =
      some (row[place.val], (row.swap place.val (n - 1 - taken)).toArray) := by
  have hget : row.toArray[place.val]? = some row[place.val] := by simp [hplace]
  rw [pick?, size_fit?_eq (by omega) (by omega), Option.bind_some, Int.toNat_natCast, hget,
    Option.bind_some, last?_eq hn (by omega), Option.bind_some, Int.toNat_natCast,
    swap?_eq row hplace hlast, Option.map_some]

end

section

variable {σ : Type} (source : DrawSource σ) {n : Nat}

theorem draw?_eq {m : Nat} (pos : 0 < m) (s : σ) :
    draw? source m s = some ((source.place m pos s).1.val, (source.place m pos s).2) :=
  if_pos (by omega)

section

variable (hn : n < 2 ^ 31)

include hn

theorem take?_eq {row : Row n} (hrow : row.IsArrangement) {taken : Nat} (htaken : 0 < n - taken)
    (s : σ) :
    let drawn := source.place (n - taken) htaken s
    let coin := source.coin drawn.2
    let picked := row.take taken drawn.1 coin.1
    take? source n taken row.toArray s = some (picked.1, picked.2.toArray, coin.2) := by
  intro drawn coin picked
  have hplace : drawn.1.val < n := by omega
  have hlast : n - 1 - taken < n := by omega
  -- an arrangement holds no literal whose negation leaves its type
  have hproper := (hrow.within hn hplace).proper hn
  have hdrawn : draw? source ((n - taken : Nat) : Int) s = some (drawn.1.val, drawn.2) :=
    draw?_eq source htaken s
  rw [take?, bound?_eq hn (by omega), Option.bind_some, hdrawn, Option.bind_some,
    pick?_eq hn row drawn.1 hplace hlast, Option.bind_some, literal?_eq hproper, Option.map_some]
  rfl

theorem clause?_eq (h : 3 ≤ n) {row : Row n} (hrow : row.IsArrangement) (s : σ) :
    let drawn := source.choices n h s
    let made := row.clause drawn.1
    clause? source n row.toArray s = some (made.1, made.2.toArray, drawn.2) := by
  intro drawn made
  rw [clause?, take?_eq source hn hrow (DrawSource.pos_of_three_le h), Option.bind_some]
  simp only
  rw [take?_eq source hn (hrow.take 0 _ _) (DrawSource.sub_one_pos_of_three_le h),
    Option.bind_some]
  simp only
  rw [take?_eq source hn ((hrow.take 0 _ _).take 1 _ _) (DrawSource.sub_two_pos_of_three_le h),
    Option.map_some]
  rfl

theorem clauses?_eq (h : 3 ≤ n) (count : Nat) : ∀ {row : Row n}, row.IsArrangement → ∀ s : σ,
    clauses? source n count row.toArray s = some (source.clauses h count s row) := by
  induction count with
  | zero =>
    intro row _ s
    rfl
  | succ count ih =>
    intro row hrow s
    rw [clauses?, clause?_eq source hn h hrow, Option.bind_some, ih (hrow.clause _),
      Option.map_some]
    rfl

end

end

/-- Two words of 32 bits have a product well within 64 bits. -/
theorem product_bounds (d : Difficulty) :
    0 ≤ d.numVariables.toInt * d.ratio.toInt ∧
      d.numVariables.toInt * d.ratio.toInt < 0x4000000000000000 := by
  have hn := Int32.toInt_lt d.numVariables
  have hr := Int32.toInt_lt d.ratio
  have hn3 := Int32.le_iff_toInt_le.1 d.three_le_numVariables
  have hr1 := Int32.le_iff_toInt_le.1 d.one_le_ratio
  have h3 : (3 : Int32).toInt = 3 := by decide
  have h1 : (1 : Int32).toInt = 1 := by decide
  rw [h3] at hn3
  rw [h1] at hr1
  refine ⟨Int.mul_nonneg (by omega) (by omega), ?_⟩
  calc d.numVariables.toInt * d.ratio.toInt ≤ 0x7fffffff * 0x7fffffff :=
        Int.mul_le_mul (by omega) (by omega) (by omega) (by omega)
    _ < 0x4000000000000000 := by decide

theorem clauseCount_eq (d : Difficulty) :
    (d.clauseCount : Int) = d.numVariables.toInt * d.ratio.toInt / 100 := by
  obtain ⟨hnonneg, hlt⟩ := product_bounds d
  have hproduct : (d.numVariables.toInt64 * d.ratio.toInt64).toInt =
      d.numVariables.toInt * d.ratio.toInt := by
    rw [Int64.toInt_mul, Int32.toInt_toInt64, Int32.toInt_toInt64,
      Int.bmod_eq_of_le (by omega) (by omega)]
  have hhundred : (100 : Int64).toInt = 100 := by decide
  have hquotient : (d.numVariables.toInt64 * d.ratio.toInt64 / 100).toInt =
      d.numVariables.toInt * d.ratio.toInt / 100 := by
    rw [Int64.toInt_div, hproduct, hhundred, Int.tdiv_eq_ediv_of_nonneg hnonneg,
      Int.bmod_eq_of_le (by omega) (by omega)]
  rw [Difficulty.clauseCount, hquotient, Int.toNat_of_nonneg (by omega)]

theorem clauseCount?_eq (d : Difficulty) : clauseCount? d = some (d.clauseCount : Int) := by
  obtain ⟨hnonneg, hlt⟩ := product_bounds d
  have hproduct : NumberType.signed64.fit? (d.numVariables.toInt * d.ratio.toInt) =
      some (d.numVariables.toInt * d.ratio.toInt) :=
    NumberType.fit?_eq_some (by simp only [NumberType.signed64]; omega)
      (by simp only [NumberType.signed64]; omega)
  have hquotient : NumberType.signed64.fit? (d.numVariables.toInt * d.ratio.toInt / 100) =
      some (d.numVariables.toInt * d.ratio.toInt / 100) :=
    NumberType.fit?_eq_some (by simp only [NumberType.signed64]; omega)
      (by simp only [NumberType.signed64]; omega)
  have hsize : NumberType.size.fit? (d.numVariables.toInt * d.ratio.toInt / 100) =
      some (d.numVariables.toInt * d.ratio.toInt / 100) :=
    NumberType.fit?_eq_some (by simp only [NumberType.size]; omega)
      (by simp only [NumberType.size]; omega)
  rw [clauseCount?, hproduct, Option.bind_some, Int.tdiv_eq_ediv_of_nonneg hnonneg, hquotient,
    Option.bind_some, hsize, clauseCount_eq]

theorem generate?_eq {σ : Type} (source : DrawSource σ) (d : Difficulty) (s : σ) :
    generate? source d s =
      some (source.clauses d.three_le_variableCount d.clauseCount s (Row.initial _)) := by
  have hcount := d.variableCount_lt
  have hpos := d.three_le_variableCount
  have hn : d.numVariables.toInt = (d.variableCount : Int) := by
    rw [Difficulty.variableCount] at hpos ⊢
    omega
  have hlast : NumberType.signed32.fit? (d.variableCount : Int) = some (d.variableCount : Int) :=
    NumberType.fit?_eq_some (by simp only [NumberType.signed32]; omega)
      (by simp only [NumberType.signed32]; omega)
  rw [generate?, hn, size_fit?_eq (by omega) (by omega), Option.bind_some, hlast,
    Option.bind_some, clauseCount?_eq, Option.bind_some, Int.toNat_natCast, Int.toNat_natCast]
  exact clauses?_eq source hcount d.three_le_variableCount _ Row.isArrangement_initial s

end Generator

/-! ### Generated formulas -/

/-- A formula of the size that the difficulty says: clauses of three literals of
    different variables. -/
structure Difficulty.Describes (d : Difficulty) (clauses : List Clause) : Prop where
  length_eq : (clauses.length : Int) = d.numVariables.toInt * d.ratio.toInt / 100
  wellFormed : ∀ c ∈ clauses, c.WellFormed d.variableCount

theorem Generator.describes_clauses {σ : Type} (source : DrawSource σ) (d : Difficulty) (s : σ) :
    d.Describes (source.clauses d.three_le_variableCount d.clauseCount s (Row.initial _)) where
  length_eq := by rw [source.length_clauses, clauseCount_eq]
  wellFormed :=
    source.wellFormed_of_mem_clauses d.variableCount_lt _ _ s Row.isArrangement_initial

/-- **Every seed and difficulty make a well-formed formula**, and no operation of
    the machine that makes it leaves its range.  Of the draws only their bounds
    matter. -/
theorem Challenge.generate_describes (seed : Int32) (d : Difficulty) :
    (∀ (σ : Type) (source : Generator.DrawSource σ) (s : σ),
      ∃ clauses, Generator.generate? source d s = some clauses ∧ d.Describes clauses) ∧
    Generator.generate? .keyStream d (KeyStream.ofSeed (seed + Generator.seedOffset)) =
      some (generate seed d).clauses ∧
    d.Describes (generate seed d).clauses := by
  have hclauses := clauses_generate seed d
  refine ⟨?_, ?_, ?_⟩
  · intro σ source s
    exact ⟨_, Generator.generate?_eq source d s, Generator.describes_clauses source d s⟩
  · rw [hclauses]
    exact Generator.generate?_eq _ d _
  · rw [hclauses]
    exact Generator.describes_clauses _ d _

end SatReplay
