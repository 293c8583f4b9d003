/-
  SatReplay/Proofs/Challenge/Growth.lean
  ======================================
  **A larger ratio only appends clauses.**  The ratio decides how many clauses are
  made and nothing else.  Making clauses is a run over two things that are never
  reset, the source of draws and the row of variables, so a longer run is a
  shorter one that goes on from what this left behind (`DrawSource.clauses_add`).

  The number of clauses grows with the ratio, also where the hundredths are
  dropped.  Whatever satisfies the longer formula satisfies its front.
-/
import SatReplay.Proofs.Challenge.Checked
import SatReplay.Proofs.Checks

namespace SatReplay

/-! ### Longer runs -/

namespace Generator.DrawSource

variable {σ : Type} (source : DrawSource σ) {n : Nat} (h : 3 ≤ n)

/-- What so many clauses leave behind for the next one. -/
def left : Nat → σ → Row n → σ × Row n
  | 0, s, row => (s, row)
  | count + 1, s, row =>
    let (choices, s) := source.choices n h s
    left count s (row.clause choices).2

theorem clauses_add (first second : Nat) : ∀ (s : σ) (row : Row n),
    source.clauses h (first + second) s row =
      source.clauses h first s row ++
        source.clauses h second (source.left h first s row).1 (source.left h first s row).2 := by
  induction first with
  | zero =>
    intro s row
    rw [Nat.zero_add]
    rfl
  | succ first ih =>
    intro s row
    rw [Nat.add_right_comm]
    exact congrArg (_ :: ·) (ih _ _)

theorem clauses_isPrefix {count more : Nat} (hle : count ≤ more) (s : σ) (row : Row n) :
    source.clauses h count s row <+: source.clauses h more s row := by
  obtain ⟨second, rfl⟩ := Nat.exists_eq_add_of_le hle
  rw [clauses_add]
  exact List.prefix_append _ _

end Generator.DrawSource

/-! ### Larger ratios -/

theorem Difficulty.clauseCount_mono {d e : Difficulty} (hn : d.numVariables = e.numVariables)
    (hr : d.ratio ≤ e.ratio) : d.clauseCount ≤ e.clauseCount := by
  have hle := Int32.le_iff_toInt_le.1 hr
  have hpos := Int32.le_iff_toInt_le.1 d.three_le_numVariables
  have hthree : (3 : Int32).toInt = 3 := by decide
  have hnonneg : 0 ≤ d.numVariables.toInt := by omega
  have hproduct : d.numVariables.toInt * d.ratio.toInt ≤ e.numVariables.toInt * e.ratio.toInt := by
    rw [← hn]
    exact Int.mul_le_mul_of_nonneg_left hle hnonneg
  have hquotient := Int.ediv_le_ediv (by decide : (0 : Int) < 100) hproduct
  rw [← Generator.clauseCount_eq, ← Generator.clauseCount_eq] at hquotient
  exact Int.ofNat_le.1 hquotient

/-- A model of a formula is one of its front. -/
theorem Satisfies.of_isPrefix {σ : Nat → Bool} {clauses longer : List Clause}
    (h : Satisfies σ longer) (hfront : clauses <+: longer) : Satisfies σ clauses :=
  fun c hc => h c (hfront.subset hc)

theorem Satisfiable.of_isPrefix {n : Nat} {clauses longer : List Clause}
    (h : Satisfiable n longer) (hfront : clauses <+: longer) : Satisfiable n clauses := by
  obtain ⟨input, hlength, hsat⟩ := h
  exact ⟨input, hlength, hsat.of_isPrefix hfront⟩

namespace Challenge

theorem clauses_generate_isPrefix (seed : Int32) {n r r' : Int32} (hn : 3 ≤ n) (hr : 1 ≤ r)
    (hr' : 1 ≤ r') (hle : r ≤ r') :
    (generate seed ⟨n, r, hn, hr⟩).clauses <+: (generate seed ⟨n, r', hn, hr'⟩).clauses := by
  have hcount : Difficulty.clauseCount ⟨n, r, hn, hr⟩ ≤ Difficulty.clauseCount ⟨n, r', hn, hr'⟩ :=
    Difficulty.clauseCount_mono rfl hle
  rw [clauses_generate, clauses_generate]
  exact Generator.DrawSource.keyStream.clauses_isPrefix _ hcount _ _

/-- **A larger ratio only appends clauses.**  The formula for the smaller ratio is
    the front of the one for the larger ratio, so it is satisfiable if that is, and
    every input that is accepted for the larger ratio is accepted for the smaller. -/
theorem generate_grows (seed : Int32) {n r r' : Int32} (hn : 3 ≤ n) (hr : 1 ≤ r) (hle : r ≤ r') :
    let small := generate seed ⟨n, r, hn, hr⟩
    let large := generate seed ⟨n, r', hn, Int32.le_trans hr hle⟩
    small.clauses <+: large.clauses ∧
      (¬ Satisfiable small.variableCount small.clauses →
        ¬ Satisfiable large.variableCount large.clauses) ∧
      ∀ input, (large.accepts input = .ok true → small.accepts input = .ok true) ∧
        (large.checkInput input = .ok () → small.checkInput input = .ok ()) := by
  intro small large
  have hfront : small.clauses <+: large.clauses :=
    clauses_generate_isPrefix seed hn hr (Int32.le_trans hr hle) hle
  have hsame : small.variableCount = large.variableCount := rfl
  have hsmall : LiteralsWithin small.variableCount small.clauses := generate_within seed _
  have hlarge : LiteralsWithin large.variableCount large.clauses := generate_within seed _
  have hchecked : ∀ input, large.checkInput input = .ok () → small.checkInput input = .ok () := by
    intro input
    rw [checkInput_eq_ok_iff hsmall, checkInput_eq_ok_iff hlarge]
    rintro ⟨hlength, hsat⟩
    exact ⟨hlength, hsat.of_isPrefix hfront⟩
  refine ⟨hfront, ?_, ?_⟩
  · intro hunsat hsat
    exact hunsat (hsat.of_isPrefix hfront)
  · intro input
    rw [accepts_eq_true_iff, accepts_eq_true_iff]
    exact ⟨hchecked input, hchecked input⟩

/-- From two clauses to three, since of 2.01 clauses two are made. -/
theorem generate_grows_seven :
    let small := generate 7 ⟨3, 67, by decide, by decide⟩
    let large := generate 7 ⟨3, 100, by decide, by decide⟩
    small.clauses <+: large.clauses ∧ small.clauses.length = 2 ∧ large.clauses.length = 3 ∧
      small.accepts [true, true, true] = .ok true := by
  intro small large
  obtain ⟨hfront, -, haccepts⟩ := generate_grows 7 (by decide : (3 : Int32) ≤ 3)
    (by decide : (1 : Int32) ≤ 67) (by decide : (67 : Int32) ≤ 100)
  have hlarge : large.clauses = [[3, -1, -2], [1, -3, -2], [3, 2, 1]] := by decide +kernel
  have hcount : small.clauses.length = 2 := by decide +kernel
  have haccepted : large.accepts [true, true, true] = .ok true := by
    rw [accepts, if_pos (by decide), hlarge]
    decide
  exact ⟨hfront, hcount, by rw [hlarge]; rfl, (haccepts _).1 haccepted⟩

end Challenge

end SatReplay
