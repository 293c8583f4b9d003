/-
  SatReplay/Proofs/Solution/PrefixFree.lean
  =========================================
  **No encoding is the front of another one.**  A reader `NeedsAll` of some bytes
  when it finds every shorter front of them truncated.  Words and counted bytes
  are needed, and so is one part followed by the next (`NeedsAll.append`): a cut
  falls into the first part, or it falls into the second and leaves the first as
  it was.

  Decoded bytes are an encoding, all of which is needed part by part, so a front
  of them is truncated.  Behind an encoding the decoder asks whether anything is
  left, so what goes on there is trailing.
-/
import SatReplay.Proofs.Solution.Canonical

namespace SatReplay.Solution

/-- More bytes were needed than there were. -/
def Truncated {α : Type} (r : Except ProofDefect α) : Prop :=
  ∃ part needed remaining, remaining < needed ∧ r = .error (.truncated part needed remaining)

/-- Whatever is cut off at the end of the bytes, the reader misses it. -/
def NeedsAll {α : Type} (read : Bytes → Except ProofDefect α) (bytes : Bytes) : Prop :=
  ∀ front, front <+: bytes → front.length < bytes.length → Truncated (read front)

/-! ### Cuts -/

/-- A front that does not reach the end ends in the first part or in the second. -/
theorem isPrefix_append_of_length_lt {front first second : Bytes} (h : front <+: first ++ second)
    (hlt : front.length < (first ++ second).length) :
    (front <+: first ∧ front.length < first.length) ∨
      ∃ more, front = first ++ more ∧ more <+: second ∧ more.length < second.length := by
  have hwhole : first <+: first ++ second := List.prefix_append first second
  rcases Nat.lt_or_ge front.length first.length with hshort | hreaches
  · exact .inl ⟨List.prefix_of_prefix_length_le h hwhole (Nat.le_of_lt hshort), hshort⟩
  · obtain ⟨more, rfl⟩ := List.prefix_of_prefix_length_le hwhole h hreaches
    rw [List.length_append, List.length_append] at hlt
    exact .inr ⟨more, rfl, (List.prefix_append_right_inj first).1 h, by omega⟩

namespace NeedsAll

variable {α β : Type} {read : Bytes → Except ProofDefect α} {first second : Bytes}

theorem bind (h : NeedsAll read first) (next : α → Except ProofDefect β) :
    NeedsAll (fun bytes => read bytes >>= next) first := by
  intro front hfront hlt
  obtain ⟨part, needed, remaining, hshort, herror⟩ := h front hfront hlt
  exact ⟨part, needed, remaining, hshort, congrArg (· >>= next) herror⟩

theorem append (hfirst : NeedsAll read first)
    (hsecond : NeedsAll (fun more => read (first ++ more)) second) :
    NeedsAll read (first ++ second) := by
  intro front hfront hlt
  rcases isPrefix_append_of_length_lt hfront hlt with ⟨hin, hshort⟩ | ⟨more, rfl, hin, hshort⟩
  · exact hfirst front hin hshort
  · exact hsecond more hin hshort

end NeedsAll

/-! ### The parts of a solution -/

theorem takeLength_of_short (part : Section) {bytes : Bytes} (h : bytes.length < 4) :
    takeLength part bytes = .error (.truncated part 4 bytes.length) := by
  match bytes, h with
  | [], _ | [_], _ | [_, _], _ | [_, _, _], _ => rfl

theorem takeBytes_of_short (part : Section) {n : Nat} {bytes : Bytes} (h : bytes.length < n) :
    takeBytes part n bytes = .error (.truncated part n bytes.length) :=
  if_neg (Nat.not_le.2 h)

theorem needsAll_takeLength (part : Section) (n : Nat) :
    NeedsAll (takeLength part) (lengthWord n) := by
  intro front _ hlt
  exact ⟨part, 4, front.length, hlt, takeLength_of_short part hlt⟩

theorem needsAll_takeBytes (part : Section) {n : Nat} {bytes : Bytes} (h : bytes.length = n) :
    NeedsAll (takeBytes part n) bytes := by
  intro front _ hlt
  rw [h] at hlt
  exact ⟨part, n, front.length, hlt, takeBytes_of_short part hlt⟩

theorem needsAll_takeInput {input : Input} (h : input.length < 2 ^ 31) :
    NeedsAll takeInput (lengthWord input.length ++ input.map bitByte) := by
  refine .append ((needsAll_takeLength .input _).bind _) ?_
  simp only [takeInput, takeLength_append .input h]
  exact (needsAll_takeBytes .input (List.length_map bitByte)).bind _

theorem needsAll_takeTrace {trace : List Int32} (h : trace.length * 4 < 2 ^ 31) :
    NeedsAll takeTrace (lengthWord (trace.length * 4) ++
      trace.flatMap fun i => Bytes.ofWord i.toUInt32) := by
  have hlength := Bytes.length_flatMap_ofWord (trace.map Int32.toUInt32)
  rw [List.flatMap_map, List.length_map] at hlength
  refine .append ((needsAll_takeLength .trace _).bind _) ?_
  simp only [takeTrace, takeLength_append .trace h, Bind.bind, Except.bind, Nat.mul_mod_left,
    if_true]
  exact (needsAll_takeBytes .trace hlength).bind _

theorem needsAll_decode {s : Solution} (h : s.Fits) : NeedsAll decode (encode s) := by
  obtain ⟨hinput, htrace⟩ := h
  have hfit : s.trace.length * 4 < 2 ^ 31 := by omega
  refine .append ((needsAll_takeInput hinput).bind _) ?_
  simp only [decode, takeInput_append hinput, Bind.bind, Except.bind]
  exact (needsAll_takeTrace hfit).bind _

theorem decode_encode_append {s : Solution} (h : s.Fits) {more : Bytes} (hmore : more ≠ []) :
    decode (encode s ++ more) = .error (.trailing more.length) := by
  obtain ⟨hinput, htrace⟩ := h
  have hfit : s.trace.length * 4 < 2 ^ 31 := by omega
  rw [encode, List.append_assoc]
  simp only [decode, takeInput_append hinput, takeTrace_append hfit, Bind.bind, Except.bind,
    if_neg hmore]

/-- **The encoding is prefix-free.**  When bytes are decoded, every proper front of
    them is refused, since one of their parts is truncated, and everything that
    goes on behind them is refused for as many bytes as trail. -/
theorem decode_prefix_free {bytes : Bytes} {s : Solution} (h : decode bytes = .ok s) :
    (∀ front, front <+: bytes → front ≠ bytes → Truncated (decode front)) ∧
    (∀ longer, bytes <+: longer → longer ≠ bytes →
      decode longer = .error (.trailing (longer.length - bytes.length))) := by
  obtain ⟨hfits, rfl⟩ := encode_of_decode h
  constructor
  · intro front hfront hne
    refine needsAll_decode hfits front hfront (Nat.lt_of_le_of_ne hfront.length_le ?_)
    exact fun hlength => hne (hfront.eq_of_length hlength)
  · rintro longer ⟨more, rfl⟩ hne
    have hmore : more ≠ [] := fun hnil => hne (by rw [hnil, List.append_nil])
    rw [decode_encode_append hfits hmore, List.length_append, Nat.add_sub_cancel_left]

/-- The bytes of one bit and one identifier: cut inside the first length, behind the
    bit and inside the identifier, and with a second length behind them. -/
theorem decode_prefix_free_seven :
    let bytes : Bytes := [1, 0, 0, 0, 1, 4, 0, 0, 0, 7, 0, 0, 0]
    (decode bytes = .ok ⟨[true], [7]⟩ ∧ ∀ n ∈ [0, 2, 5, 11], Truncated (decode (bytes.take n))) ∧
      decode (bytes ++ [0, 0, 0, 0]) = .error (.trailing 4) := by
  intro bytes
  have hdecode : decode bytes = .ok ⟨[true], [7]⟩ := by rfl
  obtain ⟨hfronts, hlonger⟩ := decode_prefix_free hdecode
  refine ⟨⟨hdecode, ?_⟩, hlonger _ (List.prefix_append _ _) (by decide)⟩
  have hproper : ∀ n ∈ [0, 2, 5, 11], bytes.take n ≠ bytes := by decide
  exact fun n hn => hfronts _ ⟨bytes.drop n, List.take_append_drop n bytes⟩ (hproper n hn)

end SatReplay.Solution
