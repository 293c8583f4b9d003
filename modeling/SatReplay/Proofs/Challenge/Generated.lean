/-
  SatReplay/Proofs/Challenge/Generated.lean
  =========================================
  **Clauses of generated formulas.**  The row that clauses are picked from is
  never reset, so what holds of it has to survive every pick of every clause:
  it stays an arrangement of the variables `1 … n`, since a pick only swaps two
  places.  A picked variable is moved behind the places that the next picks of
  its clause are made from, so the three variables of a clause differ
  (`Row.IsArrangement.clause_wellFormed`).

  Nothing depends on what is drawn.  The clauses are therefore described for any
  source of draws that stay below their bounds; the key stream is one.
-/
import Mathlib.Data.List.Nodup
import SatReplay.Challenge.Generator
import SatReplay.Proofs.Literals

namespace SatReplay

theorem Difficulty.variableCount_lt (d : Difficulty) : d.variableCount < 2 ^ 31 := by
  have h := Int32.toInt_lt d.numVariables
  rw [variableCount]
  omega

/-- Three literals of different variables among `1 … n`. -/
structure Clause.WellFormed (n : Nat) (c : Clause) : Prop where
  length_eq : c.length = 3
  within : ∀ l ∈ c, Literal.Within n l
  nodup_vars : (c.map Literal.var).Nodup

namespace Generator

variable {n : Nat}

/-! ### The row of variables -/

/-- The row holds each of the variables `1 … n` once, in some order. -/
def Row.IsArrangement (row : Row n) : Prop := row.Perm (Row.initial n)

theorem Row.isArrangement_initial : (Row.initial n).IsArrangement := Vector.Perm.rfl

theorem Row.vars_initial (hn : n < 2 ^ 31) :
    (Row.initial n).toList.map Literal.var = List.range' 1 n := by
  apply List.ext_getElem
  · simp
  · intro i hi _
    have hlt : i < n := by simpa using hi
    have hvar : Literal.var (Int32.ofNat (i + 1)) = i + 1 :=
      Literal.var_ofVar (by omega) true
    have hentry : (Row.initial n)[i] = Int32.ofNat (i + 1) := Vector.getElem_ofFn hlt
    rw [List.getElem_map, Vector.getElem_toList, hentry, hvar, List.getElem_range', Nat.one_mul,
      Nat.add_comm]

section

variable {row : Row n} (h : row.IsArrangement)

include h

theorem Row.IsArrangement.vars_perm (hn : n < 2 ^ 31) :
    (row.toList.map Literal.var).Perm (List.range' 1 n) := by
  rw [← vars_initial hn]
  exact h.toList.map Literal.var

theorem Row.IsArrangement.within (hn : n < 2 ^ 31) {place : Nat} (hplace : place < n) :
    Literal.Within n row[place] := by
  have hmem : Literal.var row[place] ∈ row.toList.map Literal.var :=
    List.mem_map_of_mem (Vector.mem_toList_iff.2 (Vector.getElem_mem hplace))
  obtain ⟨hpos, hle⟩ := List.mem_range'_1.1 ((h.vars_perm hn).mem_iff.1 hmem)
  refine ⟨?_, by omega⟩
  intro hzero
  have hvar : Literal.var 0 = 0 := by decide
  rw [hzero, hvar] at hpos
  omega

theorem Row.IsArrangement.var_ne (hn : n < 2 ^ 31) {i j : Nat} (hi : i < n) (hj : j < n)
    (hne : i ≠ j) : Literal.var row[i] ≠ Literal.var row[j] := by
  have hnodup : (row.toList.map Literal.var).Nodup :=
    (h.vars_perm hn).nodup_iff.2 List.nodup_range'
  have hi' : i < (row.toList.map Literal.var).length := by simpa using hi
  have hj' : j < (row.toList.map Literal.var).length := by simpa using hj
  have hinj : (row.toList.map Literal.var)[i] = (row.toList.map Literal.var)[j] ↔ i = j :=
    hnodup.getElem_inj_iff
  rw [List.getElem_map, List.getElem_map, Vector.getElem_toList, Vector.getElem_toList] at hinj
  exact fun heq => hne (hinj.1 heq)

end

/-! ### Picks and clauses -/

namespace Row

variable (row : Row n)

section

variable (taken : Nat) (place : Fin (n - taken)) (negated : Bool)

theorem var_take (hplace : place.val < n) :
    Literal.var (row.take taken place negated).1 = Literal.var row[place.val] := by
  cases negated with
  | false => rfl
  | true => exact Literal.var_neg _

theorem getElem_take_last (hplace : place.val < n) (hlast : n - 1 - taken < n) :
    (row.take taken place negated).2[n - 1 - taken] = row[place.val] :=
  Vector.getElem_swap_right hplace hlast

theorem getElem_take_of_ne {i : Nat} (hi : i < n) (hplace : i ≠ place.val)
    (hlast : i ≠ n - 1 - taken) : (row.take taken place negated).2[i] = row[i] := by
  have hfrom : place.val < n := by omega
  have hto : n - 1 - taken < n := by omega
  show (row.swap place.val (n - 1 - taken) hfrom hto)[i] = row[i]
  exact Vector.getElem_swap_of_ne hplace hlast

end

/-- The variables of a clause stand in the last places of the row left behind,
    since a pick leaves alone the places that earlier picks swapped to. -/
theorem vars_clause (choices : Choices n) (h₁ : n - 1 < n) (h₂ : n - 2 < n) (h₃ : n - 3 < n) :
    (row.clause choices).1.map Literal.var =
      [Literal.var (row.clause choices).2[n - 1], Literal.var (row.clause choices).2[n - 2],
        Literal.var (row.clause choices).2[n - 3]] := by
  obtain ⟨first, firstNegated, second, secondNegated, third, thirdNegated⟩ := choices
  have hfirst : first.val < n := by omega
  have hsecond : second.val < n := by omega
  have hthird : third.val < n := by omega
  obtain ⟨row₁, hrow₁⟩ : ∃ row₁, (row.take 0 first firstNegated).2 = row₁ := ⟨_, rfl⟩
  obtain ⟨row₂, hrow₂⟩ : ∃ row₂, (row₁.take 1 second secondNegated).2 = row₂ := ⟨_, rfl⟩
  obtain ⟨row₃, hrow₃⟩ : ∃ row₃, (row₂.take 2 third thirdNegated).2 = row₃ := ⟨_, rfl⟩
  have hlast : row₃[n - 1] = row[first.val] := by
    calc row₃[n - 1] = row₂[n - 1] := by
          rw [← hrow₃]
          exact getElem_take_of_ne _ _ _ _ h₁ (by omega) (by omega)
      _ = row₁[n - 1] := by
          rw [← hrow₂]
          exact getElem_take_of_ne _ _ _ _ h₁ (by omega) (by omega)
      _ = row[first.val] := by
          rw [← hrow₁]
          exact getElem_take_last _ _ _ _ hfirst h₁
  have hbefore : row₃[n - 2] = row₁[second.val] := by
    calc row₃[n - 2] = row₂[n - 2] := by
          rw [← hrow₃]
          exact getElem_take_of_ne _ _ _ _ h₂ (by omega) (by omega)
      _ = row₁[second.val] := by
          rw [← hrow₂]
          exact getElem_take_last _ _ _ _ hsecond h₂
  have hnext : row₃[n - 3] = row₂[third.val] := by
    rw [← hrow₃]
    exact getElem_take_last _ _ _ _ hthird h₃
  have hclause : row.clause ⟨first, firstNegated, second, secondNegated, third, thirdNegated⟩ =
      ([(row.take 0 first firstNegated).1, (row₁.take 1 second secondNegated).1,
        (row₂.take 2 third thirdNegated).1], row₃) := by
    simp only [clause, hrow₁, hrow₂, hrow₃]
  rw [hclause, List.map_cons, List.map_cons, List.map_cons, List.map_nil,
    var_take row 0 first firstNegated hfirst, var_take row₁ 1 second secondNegated hsecond,
    var_take row₂ 2 third thirdNegated hthird, ← hlast, ← hbefore, ← hnext]

end Row

section

variable {row : Row n} (h : row.IsArrangement)

include h

theorem Row.IsArrangement.take (taken : Nat) (place : Fin (n - taken)) (negated : Bool) :
    (row.take taken place negated).2.IsArrangement := by
  have hplace : place.val < n := by omega
  have hlast : n - 1 - taken < n := by omega
  exact (Vector.swap_perm hplace hlast).trans h

theorem Row.IsArrangement.take_within (hn : n < 2 ^ 31) (taken : Nat) (place : Fin (n - taken))
    (negated : Bool) : Literal.Within n (row.take taken place negated).1 := by
  have hplace : place.val < n := by omega
  cases negated with
  | false => exact h.within hn hplace
  | true => exact (h.within hn hplace).neg

theorem Row.IsArrangement.clause (choices : Choices n) :
    (row.clause choices).2.IsArrangement :=
  ((h.take 0 choices.first choices.firstNegated).take 1 choices.second
    choices.secondNegated).take 2 choices.third choices.thirdNegated

theorem Row.IsArrangement.clause_within (hn : n < 2 ^ 31) (choices : Choices n) :
    ∀ l ∈ (row.clause choices).1, Literal.Within n l := by
  have hfirst := h.take 0 choices.first choices.firstNegated
  have hsecond := hfirst.take 1 choices.second choices.secondNegated
  intro l hl
  simp only [Row.clause, List.mem_cons, List.not_mem_nil, or_false] at hl
  rcases hl with rfl | rfl | rfl
  · exact h.take_within hn ..
  · exact hfirst.take_within hn ..
  · exact hsecond.take_within hn ..

theorem Row.IsArrangement.clause_nodup_vars (hn : n < 2 ^ 31) (choices : Choices n) :
    ((row.clause choices).1.map Literal.var).Nodup := by
  have hthird := choices.third.isLt
  have hrow := h.clause choices
  have h₁₂ := hrow.var_ne hn (i := n - 1) (j := n - 2) (by omega) (by omega) (by omega)
  have h₁₃ := hrow.var_ne hn (i := n - 1) (j := n - 3) (by omega) (by omega) (by omega)
  have h₂₃ := hrow.var_ne hn (i := n - 2) (j := n - 3) (by omega) (by omega) (by omega)
  rw [Row.vars_clause row choices (by omega) (by omega) (by omega)]
  simp [h₁₂, h₁₃, h₂₃]

theorem Row.IsArrangement.clause_wellFormed (hn : n < 2 ^ 31) (choices : Choices n) :
    (row.clause choices).1.WellFormed n where
  length_eq := rfl
  within := h.clause_within hn choices
  nodup_vars := h.clause_nodup_vars hn choices

end

/-! ### Draws -/

/-- Where draws come from: numbers that stay below a positive bound, and coins. -/
structure DrawSource (σ : Type) where
  below (bound : Nat) (s : σ) : Nat × σ
  coin (s : σ) : Bool × σ
  below_lt (bound : Nat) (s : σ) : 0 < bound → (below bound s).1 < bound

namespace DrawSource

def keyStream : DrawSource KeyStream where
  below bound s :=
    if pos : 0 < bound then ((s.below bound pos).1.val, (s.below bound pos).2) else (0, s)
  coin := KeyStream.coin
  below_lt := by
    intro bound s pos
    rw [dif_pos pos]
    exact (s.below bound pos).1.isLt

variable {σ : Type} (source : DrawSource σ)

/-- A drawn place, which lies in the part of the row that is left. -/
def place (m : Nat) (pos : 0 < m) (s : σ) : Fin m × σ :=
  (⟨(source.below m s).1, source.below_lt m s pos⟩, (source.below m s).2)

theorem pos_of_three_le (h : 3 ≤ n) : 0 < n := by omega

theorem sub_one_pos_of_three_le (h : 3 ≤ n) : 0 < n - 1 := by omega

theorem sub_two_pos_of_three_le (h : 3 ≤ n) : 0 < n - 2 := by omega

/-- The choices of a clause, drawn in the order in which the clause is made. -/
def choices (n : Nat) (h : 3 ≤ n) (s : σ) : Choices n × σ :=
  let (first, s) := source.place n (pos_of_three_le h) s
  let (firstNegated, s) := source.coin s
  let (second, s) := source.place (n - 1) (sub_one_pos_of_three_le h) s
  let (secondNegated, s) := source.coin s
  let (third, s) := source.place (n - 2) (sub_two_pos_of_three_le h) s
  let (thirdNegated, s) := source.coin s
  (⟨first, firstNegated, second, secondNegated, third, thirdNegated⟩, s)

/-- The clauses that are made with the draws of a source. -/
def clauses (h : 3 ≤ n) : Nat → σ → Row n → List Clause
  | 0, _, _ => []
  | count + 1, s, row =>
    let (choices, s) := source.choices n h s
    let (clause, row) := row.clause choices
    clause :: clauses h count s row

theorem length_clauses (h : 3 ≤ n) (count : Nat) : ∀ (s : σ) (row : Row n),
    (source.clauses h count s row).length = count := by
  induction count with
  | zero =>
    intro s row
    rfl
  | succ count ih =>
    intro s row
    exact congrArg (· + 1) (ih _ _)

theorem wellFormed_of_mem_clauses (hn : n < 2 ^ 31) (h : 3 ≤ n) (count : Nat) :
    ∀ (s : σ) {row : Row n}, row.IsArrangement →
      ∀ c ∈ source.clauses h count s row, c.WellFormed n := by
  induction count with
  | zero =>
    intro s row _ c hc
    cases hc
  | succ count ih =>
    intro s row hrow c hc
    rcases List.mem_cons.1 hc with rfl | hc
    · exact hrow.clause_wellFormed hn _
    · exact ih _ (hrow.clause _) c hc

theorem place_keyStream (m : Nat) (pos : 0 < m) (s : KeyStream) :
    keyStream.place m pos s = s.below m pos := by
  have hbelow : keyStream.below m s = ((s.below m pos).1.val, (s.below m pos).2) := dif_pos pos
  apply Prod.ext
  · apply Fin.ext
    show (keyStream.below m s).1 = (s.below m pos).1.val
    rw [hbelow]
  · show (keyStream.below m s).2 = (s.below m pos).2
    rw [hbelow]

theorem choices_keyStream (h : 3 ≤ n) (s : KeyStream) :
    keyStream.choices n h s = drawChoices n h s := by
  have hcoin : keyStream.coin = KeyStream.coin := rfl
  simp only [choices, drawChoices, place_keyStream, hcoin]

theorem clausesInto_eq (h : 3 ≤ n) (count : Nat) : ∀ (s : KeyStream) (row : Row n)
    (acc : Array Clause),
      clausesInto h count s row acc = acc ++ (keyStream.clauses h count s row).toArray := by
  induction count with
  | zero =>
    intro s row acc
    simp [clausesInto, clauses]
  | succ count ih =>
    intro s row acc
    simp [clausesInto, clauses, choices_keyStream, ih]

end DrawSource

end Generator

theorem Challenge.clauses_generate (seed : Int32) (d : Difficulty) :
    (generate seed d).clauses =
      Generator.DrawSource.keyStream.clauses d.three_le_variableCount d.clauseCount
        (KeyStream.ofSeed (seed + Generator.seedOffset))
        (Generator.Row.initial d.variableCount) := by
  rw [generate, Generator.DrawSource.clausesInto_eq]
  simp

theorem Challenge.generate_within (seed : Int32) (d : Difficulty) :
    LiteralsWithin d.variableCount (generate seed d).clauses := by
  rw [clauses_generate]
  intro c hc
  exact (Generator.DrawSource.wellFormed_of_mem_clauses _ d.variableCount_lt _ _ _
    Generator.Row.isArrangement_initial c hc).within

end SatReplay
