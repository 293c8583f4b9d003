/-
  SatReplay/Proofs/Dpll/Identifiers.lean
  ======================================
  **Identifiers of nearby states differ.**  An identifier is a number modulo
  `2 ^ 32`: the number of clauses, followed by the digits of the variables in
  base 31 (`Assignment.numeral`).

  The gap between two such numbers grows with each variable, from `d` to
  `31 * d + δ` where the digits differ by `δ`.  It is 0 before the first variable
  in which the states differ, and along seven variables it stays below
  `31 ^ 7 / 15`, which is less than `2 ^ 32`.  At the last variable in which they
  differ `δ` is not 0, so neither is the gap, and `2 ^ 32` does not divide it.  The
  variables that follow only multiply it by 31, which is odd.
-/
import Mathlib.Algebra.Group.Int.Defs
import Mathlib.Algebra.Group.Nat.Defs
import SatReplay.Dpll.Search

namespace SatReplay.Dpll

/-! ### Identifiers as numbers -/

/-- The number behind an identifier, before it wraps around. -/
def Assignment.numeral (a : Assignment) (remaining : Nat) : Nat → Nat
  | 0 => remaining
  | n + 1 => a.numeral remaining n * 31 + (a.digit (n + 1)).toNat

theorem progressIdentifier_eq (a : Assignment) (n remaining : Nat) :
    progressIdentifier a n remaining = (UInt32.ofNat (a.numeral remaining n)).toInt32 := by
  rw [progressIdentifier]
  congr 1
  induction n with
  | zero => rfl
  | succ n ih =>
    rw [List.range'_1_concat, List.foldl_append, ih, List.foldl_cons, List.foldl_nil,
      Assignment.numeral, UInt32.ofNat_add, UInt32.ofNat_mul, UInt32.ofNat_toNat, Nat.add_comm 1 n]
    rfl

/-- How far the numbers of two states are apart. -/
def gap (a b : Assignment) (remaining other n : Nat) : Int :=
  (a.numeral remaining n : Int) - b.numeral other n

theorem progressIdentifier_eq_iff {a b : Assignment} {n remaining other : Nat} :
    progressIdentifier a n remaining = progressIdentifier b n other ↔
      2 ^ 32 ∣ gap a b remaining other n := by
  have hwords : ∀ v w : UInt32, v.toInt32 = w.toInt32 ↔ v = w :=
    fun _ _ => ⟨congrArg Int32.toUInt32, congrArg UInt32.toInt32⟩
  rw [progressIdentifier_eq, progressIdentifier_eq, hwords, ← UInt32.toNat_inj,
    UInt32.toNat_ofNat', UInt32.toNat_ofNat', gap]
  omega

/-! ### Digits -/

def digitGap (a b : Assignment) (v : Nat) : Int :=
  ((a.digit v).toNat : Int) - (b.digit v).toNat

theorem natAbs_digitGap_le (a b : Assignment) (v : Nat) : (digitGap a b v).natAbs ≤ 2 := by
  have hdigit : ∀ a : Assignment, (a.digit v).toNat ≤ 2 := by
    intro a
    rw [Assignment.digit]
    rcases a[v]? with _ | _ | _ <;> decide
  have ha := hdigit a
  have hb := hdigit b
  rw [digitGap]
  omega

/-- Different states have different digits. -/
theorem digitGap_eq_zero_iff {a b : Assignment} {v : Nat} :
    digitGap a b v = 0 ↔ a[v]? = b[v]? := by
  rw [digitGap, Assignment.digit, Assignment.digit]
  rcases a[v]? with _ | _ | _ <;> rcases b[v]? with _ | _ | _ <;> decide

section

variable {a b : Assignment} {remaining other n : Nat}

theorem gap_succ : gap a b remaining other (n + 1) =
    31 * gap a b remaining other n + digitGap a b (n + 1) := by
  rw [gap, gap, digitGap, Assignment.numeral, Assignment.numeral]
  omega

/-- Equal digits that follow change nothing, since 31 is odd. -/
theorem dvd_gap_succ_iff (h : a[n + 1]? = b[n + 1]?) :
    2 ^ 32 ∣ gap a b remaining other (n + 1) ↔ 2 ^ 32 ∣ gap a b remaining other n := by
  rw [gap_succ, digitGap_eq_zero_iff.2 h]
  omega

/-- A digit that differs is not made up for by those before it. -/
theorem gap_succ_ne_zero (h : a[n + 1]? ≠ b[n + 1]?) : gap a b remaining other (n + 1) ≠ 0 := by
  have hle := natAbs_digitGap_le a b (n + 1)
  have hne := mt digitGap_eq_zero_iff.1 h
  rw [gap_succ]
  omega

/-- What some more digits can add. -/
theorem natAbs_gap_add_lt (h : gap a b remaining other n = 0) (count : Nat) :
    15 * (gap a b remaining other (n + count)).natAbs < 31 ^ count := by
  induction count with
  | zero =>
    rw [Nat.add_zero, h]
    decide
  | succ count ih =>
    have hle := natAbs_digitGap_le a b (n + count + 1)
    rw [← Nat.add_assoc, gap_succ, Nat.pow_succ]
    omega

end

/-! ### States that differ -/

/-- The variable is one of `1 … n`, and its states differ. -/
def DiffersAt (a b : Assignment) (n v : Nat) : Prop := 1 ≤ v ∧ v ≤ n ∧ a[v]? ≠ b[v]?

section

variable {a b : Assignment} {n : Nat}

theorem DiffersAt.succ {v : Nat} (h : DiffersAt a b n v) : DiffersAt a b (n + 1) v :=
  ⟨h.1, Nat.le_succ_of_le h.2.1, h.2.2⟩

/-- Among one variable more, either that one differs or the same as before do. -/
theorem differsAt_last_or {v : Nat} (h : DiffersAt a b (n + 1) v) :
    a[n + 1]? ≠ b[n + 1]? ∨ DiffersAt a b n v := by
  obtain ⟨hpos, hle, hne⟩ := h
  rcases Nat.eq_or_lt_of_le hle with rfl | hlt
  · exact .inl hne
  · exact .inr ⟨hpos, Nat.le_of_lt_succ hlt, hne⟩

theorem states_last_eq (h : ∀ v, ¬ DiffersAt a b (n + 1) v) : a[n + 1]? = b[n + 1]? :=
  Classical.not_not.1 fun hne => h (n + 1) ⟨Nat.succ_pos n, Nat.le_refl _, hne⟩

theorem gap_eq_zero {remaining : Nat} (h : ∀ v, ¬ DiffersAt a b n v) :
    gap a b remaining remaining n = 0 := by
  induction n with
  | zero => exact Int.sub_self _
  | succ n ih =>
    rw [gap_succ, ih fun v hv => h v hv.succ, digitGap_eq_zero_iff.2 (states_last_eq h)]
    rfl

theorem dvd_gap_iff {remaining other : Nat} (h : ∀ v, ¬ DiffersAt a b n v) :
    2 ^ 32 ∣ gap a b remaining other n ↔ remaining % 2 ^ 32 = other % 2 ^ 32 := by
  induction n with
  | zero =>
    rw [gap, Assignment.numeral, Assignment.numeral]
    omega
  | succ n ih => rw [dvd_gap_succ_iff (states_last_eq h), ih fun v hv => h v hv.succ]

/-- The last variable that differs leaves a gap that is not 0, and too small to be
    a multiple of `2 ^ 32`. -/
theorem not_dvd_gap {remaining first : Nat} (hdiffers : ∃ v, DiffersAt a b n v)
    (hwindow : ∀ v, DiffersAt a b n v → first ≤ v ∧ v < first + 7) :
    ¬ 2 ^ 32 ∣ gap a b remaining remaining n := by
  induction n with
  | zero =>
    obtain ⟨v, hpos, hle, -⟩ := hdiffers
    omega
  | succ n ih =>
    by_cases hlast : a[n + 1]? = b[n + 1]?
    · obtain ⟨v, hv⟩ := hdiffers
      rw [dvd_gap_succ_iff hlast]
      exact ih ⟨v, (differsAt_last_or hv).resolve_left (not_not_intro hlast)⟩
        fun w hw => hwindow w hw.succ
    · have hend := hwindow (n + 1) ⟨Nat.succ_pos n, Nat.le_refl _, hlast⟩
      -- the window ends at this variable, so nothing differs before the last seven
      have hbefore : gap a b remaining remaining (n + 1 - 7) = 0 := by
        apply gap_eq_zero
        rintro v ⟨hpos, hle, hne⟩
        have hin := hwindow v ⟨hpos, by omega, hne⟩
        omega
      have hne : gap a b remaining remaining (n + 1) ≠ 0 := gap_succ_ne_zero hlast
      have hsum : n + 1 - 7 + (n + 1 - (n + 1 - 7)) = n + 1 := by omega
      have hlt := natAbs_gap_add_lt hbefore (n + 1 - (n + 1 - 7))
      have hpow : 31 ^ (n + 1 - (n + 1 - 7)) ≤ 31 ^ 7 :=
        Nat.pow_le_pow_right (by decide) (by omega)
      rw [hsum] at hlt
      omega

end

/-- **Identifiers separate nearby states.**  With as many clauses left, the
    identifiers of two assignments differ if the variables in which their states
    differ lie in a window of seven, so certainly if it is a single one.  Where no
    states differ, the identifiers tell the numbers of clauses apart up to a
    multiple of `2 ^ 32`. -/
theorem progressIdentifier_separates (n : Nat) :
    (∀ (remaining first : Nat) (a b : Assignment), (∃ v, DiffersAt a b n v) →
      (∀ v, DiffersAt a b n v → first ≤ v ∧ v < first + 7) →
      progressIdentifier a n remaining ≠ progressIdentifier b n remaining) ∧
    (∀ (remaining other : Nat) (a b : Assignment), (∀ v, ¬ DiffersAt a b n v) →
      (progressIdentifier a n remaining = progressIdentifier b n other ↔
        remaining % 2 ^ 32 = other % 2 ^ 32)) ∧
    (∀ (remaining v : Nat) (a b : Assignment), DiffersAt a b n v →
      (∀ w, w ≠ v → a[w]? = b[w]?) →
      progressIdentifier a n remaining ≠ progressIdentifier b n remaining) := by
  have hnearby : ∀ (remaining first : Nat) (a b : Assignment), (∃ v, DiffersAt a b n v) →
      (∀ v, DiffersAt a b n v → first ≤ v ∧ v < first + 7) →
      progressIdentifier a n remaining ≠ progressIdentifier b n remaining := by
    intro remaining first a b hdiffers hwindow
    rw [Ne, progressIdentifier_eq_iff]
    exact not_dvd_gap hdiffers hwindow
  refine ⟨hnearby, ?_, ?_⟩
  · intro remaining other a b hsame
    rw [progressIdentifier_eq_iff, dvd_gap_iff hsame]
  · intro remaining v a b hv hothers
    refine hnearby remaining v a b ⟨v, hv⟩ ?_
    intro w hw
    obtain rfl : w = v := Classical.not_not.1 fun hne => hw.2.2 (hothers w hne)
    omega

/-- Two states that differ at both ends of a window, with numbers far beyond
    `2 ^ 32`. -/
theorem progressIdentifier_separates_ends :
    let a : Assignment := Std.TreeMap.ofList [(4, true), (10, false), (12, true)]
    let b : Assignment := Std.TreeMap.ofList [(10, true), (12, true)]
    (DiffersAt a b 12 4 ∧ DiffersAt a b 12 10 ∧ 2 ^ 64 < a.numeral 852 12) ∧
      progressIdentifier a 12 852 ≠ progressIdentifier b 12 852 ∧
      progressIdentifier a 12 852 ≠ progressIdentifier (a.erase 4) 12 852 ∧
      progressIdentifier a 12 (2 ^ 32 + 852) = progressIdentifier a 12 852 := by
  intro a b
  obtain ⟨hnearby, hcounts, hsingle⟩ := progressIdentifier_separates 12
  have hstates : a[4]? ≠ b[4]? ∧ a[10]? ≠ b[10]? := by decide +kernel
  have hwindow : ∀ v ≤ 12, a[v]? ≠ b[v]? → 4 ≤ v ∧ v < 4 + 7 := by decide +kernel
  have hfirst : DiffersAt a b 12 4 := ⟨by decide, by decide, hstates.1⟩
  have herased : DiffersAt a (a.erase 4) 12 4 := ⟨by decide, by decide, by decide +kernel⟩
  refine ⟨⟨hfirst, ⟨by decide, by decide, hstates.2⟩, by decide +kernel⟩, ?_, ?_, ?_⟩
  · exact hnearby 852 4 a b ⟨4, hfirst⟩ fun v hv => hwindow v hv.2.1 hv.2.2
  · refine hsingle 852 4 a _ herased ?_
    intro w hw
    rw [Std.TreeMap.getElem?_erase]
    simp [hw.symm]
  · exact (hcounts _ _ a a fun v hv => hv.2.2 rfl).2 (by decide)

end SatReplay.Dpll
