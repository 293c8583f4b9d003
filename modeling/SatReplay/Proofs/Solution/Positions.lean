/-
  SatReplay/Proofs/Solution/Positions.lean
  ========================================
  **Reading never leaves the bytes.**  A machine does not cut its bytes up: it keeps
  a position in all of them, adds to it the lengths that the bytes name, cuts slices
  out, looks at single places and subtracts for its messages.  `Reading.decode` is
  the decoder in these operations, each with its check.  A slice or a place out of
  range and a difference below zero leave no outcome at all.  A sum that is no size
  of the machine is an answer, the same as that of a part that is too long.

  No check ever fails, since from each position within the bytes a reading `Follows`
  the reader that takes its part off the front of what is behind the position.  It
  ends at a position within the bytes again, in front of what the reader leaves.  A
  part that is too short does not move the position, so that what a refusal says to
  be left is what is behind it.  Readings one behind another follow readers one
  behind another (`Follows.bind`), which carries this through the whole decoder.
-/
import Mathlib.Algebra.Group.Int.Defs
import SatReplay.Proofs.Solution.Defects

namespace SatReplay.Solution

/-! ### Operations of the machine -/

/-- Where a reading stands, and where it stood before, the latest first. -/
structure Cursor where
  position : Nat
  earlier : List Nat

namespace Cursor

def start : Cursor := ⟨0, []⟩

def positions (c : Cursor) : List Nat := c.position :: c.earlier

def moveTo (c : Cursor) (position : Nat) : Cursor := ⟨position, c.positions⟩

/-- It never stood behind the end of the bytes. -/
def Within (c : Cursor) (bytes : Bytes) : Prop := ∀ p ∈ c.positions, p ≤ bytes.length

theorem Within.position_le {c : Cursor} {bytes : Bytes} (h : c.Within bytes) :
    c.position ≤ bytes.length := h _ (List.mem_cons_self ..)

theorem Within.moveTo {c : Cursor} {bytes : Bytes} (h : c.Within bytes) {position : Nat}
    (hposition : position ≤ bytes.length) : (c.moveTo position).Within bytes := by
  intro p hp
  rcases List.mem_cons.1 hp with rfl | hp
  · exact hposition
  · exact h p hp

theorem within_start (bytes : Bytes) : start.Within bytes := by
  intro p hp
  rw [List.mem_singleton.1 hp]
  exact Nat.zero_le _

end Cursor

/-- Reading with a cursor.  There is no outcome where an operation of the machine
    leaves its range. -/
abbrev Reading := ExceptT Failure (StateT Cursor Option)

namespace Reading

/-- The number as a size of so many bits. -/
def size? (width : Nat) (x : Int) : Option Nat :=
  if 0 ≤ x ∧ x < 2 ^ width then some x.toNat else none

def difference? (m n : Nat) : Option Nat := if n ≤ m then some (m - n) else none

def slice? (bytes : Bytes) (start stop : Nat) : Option Bytes :=
  if start ≤ stop ∧ stop ≤ bytes.length then some ((bytes.take stop).drop start) else none

/-- The word at the first four places. -/
def word? (bytes : Bytes) : Option UInt32 :=
  bytes[0]?.bind fun a => bytes[1]?.bind fun b => bytes[2]?.bind fun c => bytes[3]?.map fun d =>
    Bytes.toWord a b c d

/-- Whole groups of four bytes. -/
def groups : Bytes → List Bytes
  | a :: b :: c :: d :: rest => [a, b, c, d] :: groups rest
  | _ => []

def check {α : Type} (x : Option α) : Reading α := liftM x

def refuse {α : Type} (d : ProofDefect) : Reading α := throw (.malformedProof d)

def position : Reading Nat := return (← get).position

def moveTo (position : Nat) : Reading Unit := modify (·.moveTo position)

section

variable (width : Nat) (bytes : Bytes)

/-! ### The parts of a solution -/

def takeBytes (part : Section) (n : Nat) : Reading Bytes := do
  let start ← position
  match (size? width (start + n)).filter (· ≤ bytes.length) with
  | some stop =>
    let front ← check (slice? bytes start stop)
    moveTo stop
    return front
  | none =>
    let remaining ← check (difference? bytes.length start)
    refuse (.truncated part n remaining)

def takeLength (part : Section) : Reading Nat := do
  let word ← check (word? (← takeBytes width bytes part 4))
  match size? width word.toInt32.toInt with
  | some length => return length
  | none => refuse (.negativeLength part word.toInt32)

def takeInput : Reading Input := do
  let length ← takeLength width bytes .input
  let values ← takeBytes width bytes .input length
  match bitsInto #[] values with
  | .ok bits => return bits.toList
  | .error d => refuse d

def takeTrace : Reading (List Int32) := do
  let length ← takeLength width bytes .trace
  if length % 4 = 0 then
    let words ← check ((groups (← takeBytes width bytes .trace length)).mapM word?)
    return words.map UInt32.toInt32
  else refuse (.unevenTrace length)

/-- The solution, if nothing follows it. -/
def finish (s : Solution) : Reading Solution := do
  let stop ← position
  if stop = bytes.length then return s
  else refuse (.trailing (← check (difference? bytes.length stop)))

def decode : Reading Solution := do
  let input ← takeInput width bytes
  let trace ← takeTrace width bytes
  finish bytes ⟨input, trace⟩

end

/-! ### Runs -/

/-- The outcome from a cursor on, with the cursor that is left. -/
def runFrom {α : Type} (m : Reading α) (c : Cursor) : Option (Except Failure α × Cursor) :=
  StateT.run (ExceptT.run m) c

section

variable {α β : Type} {c : Cursor}

@[simp] theorem runFrom_pure (x : α) : runFrom (pure x) c = some (.ok x, c) := rfl

@[simp] theorem runFrom_refuse (d : ProofDefect) :
    runFrom (refuse d : Reading α) c = some (.error (.malformedProof d), c) := rfl

@[simp] theorem runFrom_check (x : α) : runFrom (check (some x)) c = some (.ok x, c) := rfl

@[simp] theorem runFrom_position : runFrom position c = some (.ok c.position, c) := rfl

@[simp] theorem runFrom_moveTo (p : Nat) : runFrom (moveTo p) c = some (.ok (), c.moveTo p) := rfl

/-- What a reading comes to that goes on with the value of another one. -/
def andThen (f : α → Reading β) :
    Except Failure α × Cursor → Option (Except Failure β × Cursor)
  | (.ok x, c) => runFrom (f x) c
  | (.error cause, c) => some (.error cause, c)

theorem runFrom_bind (m : Reading α) (f : α → Reading β) :
    runFrom (m >>= f) c = (runFrom m c).bind (andThen f) := by
  show Option.bind (runFrom m c) _ = Option.bind (runFrom m c) _
  congr 1
  funext ⟨r, c'⟩
  cases r with
  | error cause => rfl
  | ok x => rfl

end

/-! ### Readings that follow readers -/

/-- A reading of the bytes comes to the same as a reader: it is left within the bytes,
    in front of what the reader leaves.  Where a refusal says how many bytes are left,
    those are the ones behind it. -/
inductive Comes {α : Type} (bytes : Bytes) :
    Except ProofDefect (α × Bytes) → Option (Except Failure α × Cursor) → Prop where
  | ok {x : α} {c : Cursor} (hwithin : c.Within bytes) :
      Comes bytes (.ok (x, bytes.drop c.position)) (some (.ok x, c))
  | refused {d : ProofDefect} {c : Cursor} (hwithin : c.Within bytes)
      (hleft : ∀ left, d.left? = some left → c.position + left = bytes.length) :
      Comes bytes (.error d) (some (.error (.malformedProof d), c))

/-- A refusal that counts the bytes behind the cursor. -/
theorem Comes.refused_here {α : Type} {bytes : Bytes} {d : ProofDefect} {c : Cursor}
    (hwithin : c.Within bytes) (hd : d.left? = some (bytes.length - c.position)) :
    Comes bytes (.error d : Except ProofDefect (α × Bytes))
      (some (.error (.malformedProof d), c)) := by
  refine .refused hwithin fun left hleft => ?_
  rw [hd] at hleft
  cases hleft
  exact Nat.add_sub_cancel' hwithin.position_le

/-- From every position within the bytes, the reading comes to the same as the reader
    of what is behind the position. -/
def Follows {α : Type} (bytes : Bytes) (m : Reading α)
    (read : Bytes → Except ProofDefect (α × Bytes)) : Prop :=
  ∀ c : Cursor, c.Within bytes → Comes bytes (read (bytes.drop c.position)) (runFrom m c)

namespace Follows

variable {α β : Type} {bytes : Bytes}

theorem pure (x : α) : Follows bytes (pure x) fun rest => .ok (x, rest) :=
  fun _ hc => .ok hc

theorem refuse {d : ProofDefect} (h : d.left? = none) :
    Follows bytes (refuse d : Reading α) fun _ => .error d := by
  intro c hc
  refine .refused hc fun left hleft => ?_
  rw [h] at hleft
  cases hleft

theorem bind {m : Reading α} {read : Bytes → Except ProofDefect (α × Bytes)} {f : α → Reading β}
    {next : α × Bytes → Except ProofDefect (β × Bytes)} (hm : Follows bytes m read)
    (hf : ∀ x before rest, read before = .ok (x, rest) →
      Follows bytes (f x) fun behind => next (x, behind)) :
    Follows bytes (m >>= f) fun front => (read front).bind next := by
  intro c hc
  show Comes bytes ((read (bytes.drop c.position)).bind _) _
  rw [runFrom_bind]
  have hcomes := hm c hc
  generalize hread : read (bytes.drop c.position) = result at hcomes
  generalize runFrom m c = outcome at hcomes
  cases hcomes with
  | ok hwithin => exact hf _ _ _ hread _ hwithin
  | refused hwithin hleft => exact .refused hwithin hleft

end Follows

/-! ### The parts -/

theorem size?_eq_some {width : Nat} {x : Int} (hzero : 0 ≤ x) (hfits : x < 2 ^ width) :
    size? width x = some x.toNat := if_pos ⟨hzero, hfits⟩

/-- A length is no size just if it is negative. -/
theorem size?_toInt {width : Nat} (hwidth : 31 ≤ width) (length : Int32) :
    size? width length.toInt = if length < 0 then none else some length.toInt.toNat := by
  have hzero : (0 : Int32).toInt = 0 := by decide
  have hlt := Int32.toInt_lt length
  have hpow : (2 ^ 31 : Int) ≤ 2 ^ width := by
    exact_mod_cast Nat.pow_le_pow_right Nat.two_pos hwidth
  by_cases hsign : length < 0
  · rw [if_pos hsign]
    rw [Int32.lt_iff_toInt_lt, hzero] at hsign
    exact if_neg fun hsize => by omega
  · rw [if_neg hsign]
    rw [Int32.lt_iff_toInt_lt, hzero] at hsign
    exact size?_eq_some (by omega) (by omega)

theorem difference?_of_le {m n : Nat} (h : n ≤ m) : difference? m n = some (m - n) := if_pos h

theorem slice?_of_le {bytes : Bytes} {start n : Nat} (h : start + n ≤ bytes.length) :
    slice? bytes start (start + n) = some ((bytes.drop start).take n) := by
  rw [slice?, if_pos ⟨Nat.le_add_right start n, h⟩, List.take_drop]

/-- A sum that is no size would be behind the end of the bytes as well. -/
theorem filter_size? {width : Nat} {bytes : Bytes} (hlength : bytes.length < 2 ^ width)
    (start n : Nat) :
    (size? width (start + n)).filter (· ≤ bytes.length) =
      if start + n ≤ bytes.length then some (start + n) else none := by
  by_cases hsize : (start + n : Int) < 2 ^ width
  · rw [size?_eq_some (by omega) hsize]
    simp only [Option.filter_some, decide_eq_true_eq]
    rfl
  · have hbehind : ¬start + n ≤ bytes.length := by
      intro hfits
      have : start + n < 2 ^ width := by omega
      exact hsize (by exact_mod_cast this)
    rw [size?, if_neg fun h => hsize h.2, if_neg hbehind, Option.filter_none]

section

variable {width : Nat} {bytes : Bytes} (hlength : bytes.length < 2 ^ width)

include hlength in
theorem follows_takeBytes (part : Section) (n : Nat) :
    Follows bytes (takeBytes width bytes part n) (Solution.takeBytes part n) := by
  intro c hc
  have hposition := hc.position_le
  by_cases hfits : c.position + n ≤ bytes.length
  · have hread : Solution.takeBytes part n (bytes.drop c.position) =
        .ok ((bytes.drop c.position).take n, bytes.drop (c.position + n)) := by
      rw [Solution.takeBytes, if_pos (by rw [List.length_drop]; omega), List.drop_drop]
    simp only [takeBytes, runFrom_bind, runFrom_position, Option.bind_some, andThen,
      filter_size? hlength, if_pos hfits, slice?_of_le hfits, runFrom_check, runFrom_moveTo, runFrom_pure,
      hread]
    exact .ok (hc.moveTo hfits)
  · have hread : Solution.takeBytes part n (bytes.drop c.position) =
        .error (.truncated part n (bytes.length - c.position)) := by
      rw [takeBytes_of_short part (by rw [List.length_drop]; omega), List.length_drop]
    simp only [takeBytes, runFrom_bind, runFrom_position, Option.bind_some, andThen,
      filter_size? hlength, if_neg hfits, difference?_of_le hposition, runFrom_check,
      runFrom_refuse, hread]
    exact .refused_here hc rfl

theorem word?_eq {a b c d : UInt8} : word? [a, b, c, d] = some (Bytes.toWord a b c d) := rfl

/-- The length of a part is the word of its first four bytes. -/
theorem takeLength_eq (part : Section) (rest : Bytes) :
    Solution.takeLength part rest = (Solution.takeBytes part 4 rest).bind fun p =>
      Solution.takeLength part (p.1 ++ p.2) := by
  rcases Nat.lt_or_ge rest.length 4 with hshort | hfour
  · rw [takeLength_of_short part hshort, takeBytes_of_short part hshort]
    rfl
  · rw [Solution.takeBytes, if_pos hfour]
    show _ = Solution.takeLength part (rest.take 4 ++ rest.drop 4)
    rw [List.take_append_drop]

theorem mapM_word?_groups (acc : Array UInt32) (bytes : Bytes) :
    ((groups bytes).mapM word?).map (acc.toList ++ ·) =
      some (Bytes.wordsInto acc bytes).toList := by
  fun_induction Bytes.wordsInto acc bytes with
  | case1 acc a b c d rest ih =>
    rw [groups, List.mapM_cons, word?_eq, ← ih, Array.toList_push]
    cases (groups rest).mapM word? with
    | none => rfl
    | some words => simp
  | case2 bytes acc hshort =>
    have hgroups : groups bytes = [] := by
      rw [groups]
      exact hshort
    rw [hgroups]
    simp

/-- Whole groups of four bytes have a word each. -/
theorem words_of_groups (bytes : Bytes) :
    (groups bytes).mapM word? = some (Bytes.toWords bytes) := by
  have h := mapM_word?_groups #[] bytes
  rw [List.nil_append_fun, Option.map_id] at h
  exact h

variable (hwidth : 31 ≤ width)

include hlength hwidth in
theorem follows_takeLength (part : Section) :
    Follows bytes (takeLength width bytes part) (Solution.takeLength part) := by
  rw [funext (takeLength_eq part)]
  refine (follows_takeBytes hlength part 4).bind fun front _ _ hread => ?_
  obtain ⟨a, b, c, d, rfl⟩ : ∃ a b c d, front = [a, b, c, d] := by
    match front, (eq_of_takeBytes hread).1 with
    | [a, b, c, d], _ => exact ⟨a, b, c, d, rfl⟩
  intro cursor hc
  simp only [word?_eq, runFrom_bind, runFrom_check, Option.bind_some, andThen, List.cons_append,
    List.nil_append, Solution.takeLength, size?_toInt hwidth]
  by_cases hsign : (Bytes.toWord a b c d).toInt32 < 0
  · rw [if_pos hsign, if_pos hsign]
    exact Follows.refuse rfl cursor hc
  · rw [if_neg hsign, if_neg hsign]
    exact Follows.pure _ cursor hc

include hlength hwidth in
theorem follows_takeInput : Follows bytes (takeInput width bytes) Solution.takeInput := by
  refine (follows_takeLength hlength hwidth .input).bind fun n _ _ _ => ?_
  refine (follows_takeBytes hlength .input n).bind fun values _ _ _ => ?_
  cases hbits : bitsInto #[] values with
  | ok bits =>
    simp only [hbits]
    exact .pure bits.toList
  | error d =>
    simp only [hbits]
    exact .refuse (bitsInto_eq_error hbits)

include hlength hwidth in
theorem follows_takeTrace : Follows bytes (takeTrace width bytes) Solution.takeTrace := by
  refine (follows_takeLength hlength hwidth .trace).bind fun n _ _ _ => ?_
  by_cases hfour : n % 4 = 0
  · simp only [hfour, if_true]
    refine (follows_takeBytes hlength .trace n).bind fun words _ _ _ => ?_
    rw [words_of_groups]
    exact .pure _
  · simp only [hfour, if_false]
    exact .refuse rfl

theorem follows_finish (s : Solution) : Follows bytes (finish bytes s) fun rest =>
    if rest = [] then .ok (s, []) else .error (.trailing rest.length) := by
  intro c hc
  have hposition := hc.position_le
  simp only [finish, runFrom_bind, runFrom_position, Option.bind_some, andThen]
  by_cases hend : c.position = bytes.length
  · have hnil : bytes.drop c.position = [] := List.drop_eq_nil_iff.2 (Nat.le_of_eq hend.symm)
    rw [if_pos hend, if_pos hnil, ← hnil]
    exact .ok hc
  · have hmore : bytes.drop c.position ≠ [] := fun hnil => hend (by
      have := List.drop_eq_nil_iff.1 hnil
      omega)
    rw [if_neg hend, if_neg hmore, List.length_drop, difference?_of_le hposition, runFrom_bind,
      runFrom_check]
    exact .refused_here hc rfl

/-- The parts one behind another, and nothing behind them. -/
theorem decode_eq (front : Bytes) : ((Solution.decode front).map fun s => (s, ([] : Bytes))) =
    (Solution.takeInput front).bind fun p => (Solution.takeTrace p.2).bind fun q =>
      if q.2 = [] then .ok (⟨p.1, q.1⟩, []) else .error (.trailing q.2.length) := by
  rw [Solution.decode]
  cases Solution.takeInput front with
  | error d => rfl
  | ok p =>
    show Except.map _ ((Solution.takeTrace p.2).bind _) = (Solution.takeTrace p.2).bind _
    cases Solution.takeTrace p.2 with
    | error d => rfl
    | ok q =>
      simp only [Except.bind]
      split
      · rfl
      · rfl

include hlength hwidth in
theorem follows_decode : Follows bytes (decode width bytes)
    fun front => (Solution.decode front).map fun s => (s, []) := by
  rw [funext decode_eq]
  refine (follows_takeInput hlength hwidth).bind fun input _ _ _ => ?_
  dsimp only
  refine (follows_takeTrace hlength hwidth).bind fun trace _ _ _ => ?_
  exact follows_finish ⟨input, trace⟩

end

end Reading

/-- Every outcome of a decoding run, with the bytes that are left where it says so. -/
theorem runFrom_decode {width : Nat} (hwidth : 31 ≤ width) {bytes : Bytes}
    (hlength : bytes.length < 2 ^ width) :
    ∃ c : Cursor,
      (Reading.decode width bytes).runFrom .start =
        some ((decode bytes).mapError .malformedProof, c) ∧
      c.Within bytes ∧
      ∀ d left, decode bytes = .error d → d.left? = some left →
        c.position + left = bytes.length := by
  have hcomes : Reading.Comes bytes ((decode bytes).map fun s => (s, [])) _ :=
    Reading.follows_decode hlength hwidth .start (Cursor.within_start bytes)
  generalize (Reading.decode width bytes).runFrom .start = outcome at hcomes
  cases hdecode : decode bytes with
  | error d =>
    rw [hdecode, Except.map] at hcomes
    cases hcomes with
    | @refused _ c hwithin hleft =>
      refine ⟨c, rfl, hwithin, fun _ left hd => ?_⟩
      cases hd
      exact hleft left
  | ok s =>
    rw [hdecode, Except.map] at hcomes
    generalize hrest : ([] : Bytes) = rest at hcomes
    cases hcomes with
    | @ok _ c hwithin =>
      refine ⟨c, rfl, hwithin, fun _ _ hd => ?_⟩
      cases hd

/-- **Reading never leaves the bytes, and the numbers in its refusals are true.**  On
    a machine whose sizes hold every length that a part can name, and the length of the
    bytes, every operation has its outcome and no position is behind the end.  A part is
    truncated just if more is asked for at the position than is left there, and bytes
    are trailing just if they stand behind an encoding that ends there. -/
theorem decode_stays_within {width : Nat} (hwidth : 31 ≤ width) {bytes : Bytes}
    (hlength : bytes.length < 2 ^ width) :
    ∃ c : Cursor,
      (Reading.decode width bytes).runFrom .start =
        some ((decode bytes).mapError .malformedProof, c) ∧
      (∀ p ∈ c.positions, p ≤ bytes.length) ∧
      (∀ part needed remaining, decode bytes = .error (.truncated part needed remaining) ↔
        Asks (bytes.take c.position) part needed ∧ c.position + remaining = bytes.length ∧
          remaining < needed) ∧
      (∀ count, decode bytes = .error (.trailing count) ↔
        ∃ s, Fits s ∧ bytes.take c.position = encode s ∧ c.position + count = bytes.length ∧
          0 < count) := by
  obtain ⟨c, hrun, hwithin, hleft⟩ := runFrom_decode hwidth hlength
  have hposition := hwithin.position_le
  -- the bytes in front of the cursor are those that are followed by what is left
  have htake : ∀ front rest : Bytes, bytes = front ++ rest →
      c.position + rest.length = bytes.length → bytes.take c.position = front := by
    rintro front rest rfl hsum
    rw [List.length_append] at hsum
    exact List.take_left' (by omega)
  have hdrop : ∀ n, c.position + n = bytes.length → (bytes.drop c.position).length = n := by
    intro n hsum
    rw [List.length_drop]
    omega
  refine ⟨c, hrun, hwithin, fun part needed remaining => ⟨fun h => ?_, ?_⟩,
    fun count => ⟨fun h => ?_, ?_⟩⟩
  · have hsum := hleft _ remaining h rfl
    obtain ⟨front, rest, hbytes, hasks, rfl, hshort⟩ := decode_eq_truncated_iff.1 h
    rw [htake front rest hbytes hsum]
    exact ⟨hasks, hsum, hshort⟩
  · rintro ⟨hasks, hsum, hshort⟩
    exact decode_eq_truncated_iff.2 ⟨_, _, (List.take_append_drop c.position bytes).symm, hasks,
      hdrop remaining hsum, hshort⟩
  · have hsum := hleft _ count h rfl
    obtain ⟨s, rest, hfits, hbytes, rfl, hpos⟩ := decode_eq_trailing_iff.1 h
    exact ⟨s, hfits, htake _ rest hbytes hsum, hsum, hpos⟩
  · rintro ⟨s, hfits, hfront, hsum, hpos⟩
    refine decode_eq_trailing_iff.2 ⟨s, bytes.drop c.position, hfits, ?_, hdrop count hsum, hpos⟩
    rw [← hfront, List.take_append_drop]

/-- The greatest length and a single byte behind it: on a machine of 31 bits, the end
    of the part is no size. -/
theorem decode_stays_within_greatest :
    let bytes : Bytes := [255, 255, 255, 127, 1]
    Reading.size? 31 (4 + 2147483647) = none ∧
      decode bytes = .error (.truncated .input 2147483647 1) ∧
      ∃ c : Cursor, (Reading.decode 31 bytes).runFrom .start =
          some (.error (.malformedProof (.truncated .input 2147483647 1)), c) ∧
        (∀ p ∈ c.positions, p ≤ 5) ∧ Asks (bytes.take c.position) .input 2147483647 ∧
        c.position + 1 = 5 := by
  intro bytes
  have hdecode : decode bytes = .error (.truncated .input 2147483647 1) := by rfl
  obtain ⟨c, hrun, hpositions, htruncated, -⟩ :=
    decode_stays_within (Nat.le_refl 31) (show bytes.length < 2 ^ 31 by decide)
  obtain ⟨hasks, hsum, -⟩ := (htruncated _ _ _).1 hdecode
  rw [hdecode] at hrun
  exact ⟨by decide, hdecode, c, hrun, hpositions, hasks, hsum⟩

end SatReplay.Solution
