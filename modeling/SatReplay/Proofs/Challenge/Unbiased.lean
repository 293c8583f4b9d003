/-
  SatReplay/Proofs/Challenge/Unbiased.lean
  ========================================
  **Generated clauses are not biased.**  Whatever arrangement of the variables a
  clause is picked from, its choices and the clauses that it can become
  correspond one to one.  A single pick is the step: its literal tells the place
  and the sign, and every literal whose variable was not picked before in the
  clause stands somewhere in the part of the row that is left.

  The row that a clause leaves behind is an arrangement again, so the same holds
  of the next clause.  Uniform draws therefore make all clauses equally likely,
  whatever clauses came before.
-/
import Mathlib.Probability.Distributions.Uniform
import SatReplay.Proofs.Challenge.Generated

namespace SatReplay.Generator

variable {n : Nat}

/-! ### One pick -/

namespace Row.IsArrangement

section

variable {row : Row n} (h : row.IsArrangement) (hn : n < 2 ^ 31)

include h hn

theorem exists_getElem {l : Literal} (hl : l.Within n) :
    ∃ (i : Nat) (hi : i < n), Literal.var row[i] = l.var := by
  have hrange : l.var ∈ List.range' 1 n :=
    List.mem_range'_1.2 ⟨hl.var_pos, Nat.lt_one_add_iff.2 hl.2⟩
  have hmem : l.var ∈ row.toList.map Literal.var := (h.vars_perm hn).mem_iff.2 hrange
  obtain ⟨v, hv, hvar⟩ := List.mem_map.1 hmem
  obtain ⟨i, hi, rfl⟩ := List.getElem_of_mem hv
  have hlt : i < n := by simpa using hi
  exact ⟨i, hlt, by simpa using hvar⟩

/-- The picked literal tells the place and the sign. -/
theorem take_inj {taken : Nat} {place place' : Fin (n - taken)} {negated negated' : Bool}
    (heq : (row.take taken place negated).1 = (row.take taken place' negated').1) :
    place = place' ∧ negated = negated' := by
  have hlt : place.val < n := by omega
  have hlt' : place'.val < n := by omega
  have hvar : Literal.var row[place.val] = Literal.var row[place'.val] := by
    rw [← row.var_take taken place negated hlt, heq, row.var_take taken place' negated' hlt']
  have hplace : place = place' := by
    apply Fin.ext
    by_contra hne
    exact h.var_ne hn hlt hlt' hne hvar
  subst hplace
  refine ⟨rfl, ?_⟩
  have hne : row[place.val] ≠ -row[place.val] := ((h.within hn hlt).proper hn).ne_neg
  cases negated <;> cases negated'
  · rfl
  · exact absurd heq hne
  · exact absurd heq.symm hne
  · rfl

/-- A literal can be picked if its variable is not in the places that are taken. -/
theorem exists_take (taken : Nat) {l : Literal} (hl : l.Within n)
    (hfresh : ∀ (i : Nat) (hi : i < n), n - taken ≤ i → Literal.var row[i] ≠ l.var) :
    ∃ (place : Fin (n - taken)) (negated : Bool), (row.take taken place negated).1 = l := by
  obtain ⟨i, hi, hvar⟩ := h.exists_getElem hn hl
  have hleft : i < n - taken := by
    by_contra hge
    exact hfresh i hi (by omega) hvar
  rcases Literal.eq_or_eq_neg_of_var ((h.within hn hi).proper hn) hvar.symm with heq | heq
  · exact ⟨⟨i, hleft⟩, false, heq.symm⟩
  · exact ⟨⟨i, hleft⟩, true, heq.symm⟩

/-! ### One clause -/

theorem clause_injective :
    Function.Injective fun choices : Choices n => (row.clause choices).1 := by
  rintro ⟨first, firstNegated, second, secondNegated, third, thirdNegated⟩
    ⟨first', firstNegated', second', secondNegated', third', thirdNegated'⟩ heq
  simp only [Row.clause, List.cons.injEq, and_true] at heq
  obtain ⟨h₁, h₂, h₃⟩ := heq
  -- equal picks leave the same row to the next one
  have hrow₁ := h.take 0 first firstNegated
  have hrow₂ := hrow₁.take 1 second secondNegated
  obtain ⟨rfl, rfl⟩ := h.take_inj hn h₁
  obtain ⟨rfl, rfl⟩ := hrow₁.take_inj hn h₂
  obtain ⟨rfl, rfl⟩ := hrow₂.take_inj hn h₃
  rfl

theorem exists_clause {c : Clause} (hc : c.WellFormed n) :
    ∃ choices, (row.clause choices).1 = c := by
  obtain ⟨l₁, l₂, l₃, rfl⟩ := List.length_eq_three.1 hc.length_eq
  have hnodup : (l₁.var ≠ l₂.var ∧ l₁.var ≠ l₃.var) ∧ l₂.var ≠ l₃.var := by
    simpa using hc.nodup_vars
  obtain ⟨⟨h₁₂, h₁₃⟩, h₂₃⟩ := hnodup
  obtain ⟨first, firstNegated, hfirst⟩ :=
    h.exists_take hn 0 (hc.within l₁ (by simp)) fun i hi hle => by omega
  have hrow₁ := h.take 0 first firstNegated
  have hlast₁ : ∀ hlast : n - 1 < n,
      Literal.var (row.take 0 first firstNegated).2[n - 1] = l₁.var := by
    intro hlast
    rw [← hfirst, row.var_take 0 first firstNegated (by omega)]
    exact congrArg Literal.var (row.getElem_take_last 0 first firstNegated (by omega) hlast)
  obtain ⟨second, secondNegated, hsecond⟩ :=
    hrow₁.exists_take hn 1 (hc.within l₂ (by simp)) fun i hi hle hvar => by
      obtain rfl : i = n - 1 := by omega
      exact h₁₂ ((hlast₁ hi).symm.trans hvar)
  have hrow₂ := hrow₁.take 1 second secondNegated
  obtain ⟨row₁, hrow₁eq⟩ : ∃ row₁, (row.take 0 first firstNegated).2 = row₁ := ⟨_, rfl⟩
  rw [hrow₁eq] at hrow₁ hrow₂ hlast₁ hsecond
  obtain ⟨third, thirdNegated, hthird⟩ :=
    hrow₂.exists_take hn 2 (hc.within l₃ (by simp)) fun i hi hle hvar => by
      have hplace := second.isLt
      rcases (by omega : i = n - 1 ∨ i = n - 2) with rfl | rfl
      · have hkept := row₁.getElem_take_of_ne 1 second secondNegated hi (by omega) (by omega)
        rw [hkept, hlast₁ hi] at hvar
        exact h₁₃ hvar
      · have hmoved := row₁.getElem_take_last 1 second secondNegated (by omega) hi
        have hpicked := row₁.var_take 1 second secondNegated (by omega)
        rw [hsecond] at hpicked
        exact h₂₃ (hpicked.trans ((congrArg Literal.var hmoved).symm.trans hvar))
  refine ⟨⟨first, firstNegated, second, secondNegated, third, thirdNegated⟩, ?_⟩
  simp only [Row.clause, hrow₁eq, hfirst, hsecond, hthird]

/-- The clauses of three literals of different variables are those of the choices,
    each of one choice. -/
theorem clause_bijOn :
    Set.BijOn (fun choices : Choices n => (row.clause choices).1) Set.univ
      {c | c.WellFormed n} := by
  refine ⟨?_, ?_, ?_⟩
  · intro choices _
    exact h.clause_wellFormed hn choices
  · exact (h.clause_injective hn).injOn
  · intro c hc
    obtain ⟨choices, hchoices⟩ := h.exists_clause hn hc
    exact ⟨choices, trivial, hchoices⟩

end

end Row.IsArrangement

/-! ### Clauses one after another -/

/-- The clauses of some choices, and the row that the last one leaves behind. -/
def Row.clauses (row : Row n) : List (Choices n) → List Clause × Row n
  | [] => ([], row)
  | choices :: rest =>
    let (clause, row) := row.clause choices
    let (others, row) := row.clauses rest
    (clause :: others, row)

theorem Row.IsArrangement.clauses (draws : List (Choices n)) : ∀ {row : Row n},
    row.IsArrangement → (row.clauses draws).2.IsArrangement := by
  induction draws with
  | nil =>
    intro row h
    exact h
  | cons choices rest ih =>
    intro row h
    exact ih (h.clause choices)

namespace DrawSource

variable {σ : Type} (source : DrawSource σ) (h : 3 ≤ n)

/-- The choices of so many clauses. -/
def draws : Nat → σ → List (Choices n)
  | 0, _ => []
  | count + 1, s =>
    let (choices, s) := source.choices n h s
    choices :: draws count s

theorem clauses_eq (count : Nat) : ∀ (s : σ) (row : Row n),
    source.clauses h count s row = (row.clauses (source.draws h count s)).1 := by
  induction count with
  | zero =>
    intro s row
    rfl
  | succ count ih =>
    intro s row
    exact congrArg _ (ih _ _)

end DrawSource

/-! ### Probabilities -/

namespace Choices

/-- A place and a sign for each of the three picks. -/
def equivProd (n : Nat) :
    Choices n ≃ (Fin n × Bool) × (Fin (n - 1) × Bool) × (Fin (n - 2) × Bool) where
  toFun c := ((c.first, c.firstNegated), (c.second, c.secondNegated), (c.third, c.thirdNegated))
  invFun p := ⟨p.1.1, p.1.2, p.2.1.1, p.2.1.2, p.2.2.1, p.2.2.2⟩
  left_inv _ := rfl
  right_inv _ := rfl

instance (n : Nat) : Fintype (Choices n) := Fintype.ofEquiv _ (equivProd n).symm

theorem card_eq (n : Nat) : Fintype.card (Choices n) = 8 * (n * (n - 1) * (n - 2)) := by
  rw [Fintype.card_congr (equivProd n)]
  simp only [Fintype.card_prod, Fintype.card_fin, Fintype.card_bool]
  ring

theorem nonempty (h : 3 ≤ n) : Nonempty (Choices n) :=
  ⟨⟨0, by omega⟩, false, ⟨0, by omega⟩, false, ⟨0, by omega⟩, false⟩

/-- All choices are equally likely. -/
noncomputable def uniform (h : 3 ≤ n) : PMF (Choices n) :=
  haveI := nonempty h
  PMF.uniformOfFintype (Choices n)

theorem uniform_apply (h : 3 ≤ n) (choices : Choices n) :
    uniform h choices = ((8 * (n * (n - 1) * (n - 2)) : Nat) : ENNReal)⁻¹ := by
  have := nonempty h
  rw [uniform, PMF.uniformOfFintype_apply, card_eq]

theorem map_uniform_apply (h : 3 ≤ n) {β : Type} {f : Choices n → β}
    (hf : Function.Injective f) (choices : Choices n) :
    (uniform h).map f (f choices) = ((8 * (n * (n - 1) * (n - 2)) : Nat) : ENNReal)⁻¹ := by
  classical
  have hother : ∀ other ≠ choices,
      (if f choices = f other then uniform h other else 0) = 0 := by
    intro other hne
    exact if_neg fun heq => hne (hf heq).symm
  rw [PMF.map_apply, tsum_eq_single choices hother, if_pos rfl, uniform_apply]

end Choices

/-- **The sampler is unbiased.**  From every arrangement of the variables, the
    choices of a clause correspond one to one to the lists of three literals of
    different variables, and what is left is an arrangement again.  Uniform draws
    so give every such clause the same probability, whatever was drawn for the
    clauses before it; and these clauses are the ones that are generated. -/
theorem Row.clause_unbiased (h : 3 ≤ n) (hn : n < 2 ^ 31) {row : Row n}
    (hrow : row.IsArrangement) :
    Set.BijOn (fun choices : Choices n => (row.clause choices).1) Set.univ
      {c | c.WellFormed n} ∧
    (∀ choices, (row.clause choices).2.IsArrangement) ∧
    (∀ (earlier : List (Choices n)) (c : Clause), c.WellFormed n →
      (Choices.uniform h).map (fun choices => ((row.clauses earlier).2.clause choices).1) c =
        ((8 * (n * (n - 1) * (n - 2)) : Nat) : ENNReal)⁻¹) ∧
    ∀ {σ : Type} (source : DrawSource σ) (count : Nat) (s : σ),
      source.clauses h count s row = (row.clauses (source.draws h count s)).1 := by
  refine ⟨hrow.clause_bijOn hn, hrow.clause, ?_, ?_⟩
  · intro earlier c hc
    have hleft : (row.clauses earlier).2.IsArrangement := hrow.clauses earlier
    obtain ⟨choices, rfl⟩ := hleft.exists_clause hn hc
    exact Choices.map_uniform_apply h (hleft.clause_injective hn) choices
  · intro σ source count s
    exact source.clauses_eq h count s row

/-- With three variables the last pick has one place only. -/
theorem Row.clause_unbiased_three :
    let row := ((Row.initial 3).clause ⟨0, true, 0, false, 0, false⟩).2
    row.toList = [2, 3, 1] ∧ row.IsArrangement ∧
      (∃ choices, (row.clause choices).1 = [3, -1, 2]) ∧
      (Choices.uniform (Nat.le_refl 3)).map (fun choices => (row.clause choices).1) [3, -1, 2] =
        (48 : ENNReal)⁻¹ := by
  intro row
  have hrow : row.IsArrangement := Row.isArrangement_initial.clause _
  have hwithin : LiteralsWithin 3 [[3, -1, 2]] := by decide
  have hclause : Clause.WellFormed 3 [3, -1, 2] :=
    ⟨rfl, hwithin _ (List.mem_singleton_self _), by decide⟩
  obtain ⟨⟨-, -, hsurj⟩, -, hprobability, -⟩ :=
    Row.clause_unbiased (Nat.le_refl 3) (by decide) hrow
  obtain ⟨choices, -, hchoices⟩ := hsurj hclause
  refine ⟨by decide +kernel, hrow, ⟨choices, hchoices⟩, ?_⟩
  exact (hprobability [] [3, -1, 2] hclause).trans (by norm_num)

end SatReplay.Generator
