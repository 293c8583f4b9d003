/-
  SatReplay/Proofs/Solution/Defects.lean
  ======================================
  **What a refusal says about the bytes is so.**  At four places the decoder asks
  for a number of bytes behind those that it has read: for each length, and for the
  bytes that each length counts (`Asks`).  It finds a part truncated just if the
  bytes start with what leads to such a place and fewer are left than it asks for
  there (`decode_eq_truncated_iff`).  It finds trailing bytes just if they stand
  behind the encoding of a solution that fits (`decode_eq_trailing_iff`).

  Both directions go part by part: a part that was read is what its writer wrote,
  and written parts are read back in front of anything.
-/
import SatReplay.Proofs.Results
import SatReplay.Proofs.Solution.PrefixFree

namespace SatReplay

/-- How many bytes are left, if the defect says so. -/
def ProofDefect.left? : ProofDefect → Option Nat
  | .truncated _ _ remaining => some remaining
  | .trailing count => some count
  | _ => none

namespace Solution

/-- Behind some bytes the decoder asks for so many more, for one of the parts. -/
inductive Asks : Bytes → Section → Nat → Prop where
  | inputLength : Asks [] .input 4
  | input {n : Nat} (hn : n < 2 ^ 31) : Asks (lengthWord n) .input n
  | traceLength {input : Input} (hinput : input.length < 2 ^ 31) :
      Asks (lengthWord input.length ++ input.map bitByte) .trace 4
  | trace {input : Input} {n : Nat} (hinput : input.length < 2 ^ 31) (hn : n < 2 ^ 31)
      (hfour : n % 4 = 0) :
      Asks (lengthWord input.length ++ input.map bitByte ++ lengthWord n) .trace n

/-- Behind those that were read, the bytes lead to a place where the decoder asks
    for more than are left, and the defect says so. -/
def Lacks (read bytes : Bytes) (d : ProofDefect) : Prop :=
  ∃ before rest part needed, bytes = before ++ rest ∧ Asks (read ++ before) part needed ∧
    rest.length < needed ∧ d = .truncated part needed rest.length

namespace Lacks

variable {read bytes : Bytes} {d : ProofDefect}

theorem here {part : Section} {needed : Nat} (hasks : Asks read part needed)
    (hshort : bytes.length < needed) : Lacks read bytes (.truncated part needed bytes.length) :=
  ⟨[], bytes, part, needed, rfl, by rwa [List.append_nil], hshort, rfl⟩

theorem behind (read : Bytes) {front : Bytes} (h : Lacks (read ++ front) bytes d) :
    Lacks read (front ++ bytes) d := by
  obtain ⟨before, rest, part, needed, rfl, hasks, hshort, rfl⟩ := h
  rw [List.append_assoc] at hasks
  exact ⟨front ++ before, rest, part, needed, (List.append_assoc ..).symm, hasks, hshort, rfl⟩

end Lacks

/-! ### Readers that refuse -/

theorem takeLength_eq_error {part : Section} {bytes : Bytes} {d : ProofDefect}
    (h : takeLength part bytes = .error d) :
    d.left? = none ∨ (bytes.length < 4 ∧ d = .truncated part 4 bytes.length) := by
  rcases Nat.lt_or_ge bytes.length 4 with hshort | hfour
  · rw [takeLength_of_short part hshort] at h
    exact .inr ⟨hshort, (Except.error.inj h).symm⟩
  · match bytes, hfour with
    | a :: b :: c :: e :: rest, _ =>
      simp only [takeLength] at h
      split at h
      next => exact .inl (Except.error.inj h ▸ rfl)
      next => cases h

theorem takeBytes_eq_error {part : Section} {n : Nat} {bytes : Bytes} {d : ProofDefect}
    (h : takeBytes part n bytes = .error d) :
    bytes.length < n ∧ d = .truncated part n bytes.length := by
  rw [takeBytes] at h
  split at h
  next => cases h
  next hshort => exact ⟨Nat.not_le.1 hshort, (Except.error.inj h).symm⟩

theorem bitsInto_eq_error {acc : Array Bool} {bytes : Bytes} {d : ProofDefect}
    (h : bitsInto acc bytes = .error d) : d.left? = none := by
  fun_induction bitsInto acc bytes with
  | case1 => cases h
  | case2 _ _ ih => exact ih h
  | case3 _ _ _ ih => exact ih h
  | case4 acc byte => exact Except.error.inj h ▸ rfl

theorem takeInput_eq_error {bytes : Bytes} {d : ProofDefect} (h : takeInput bytes = .error d) :
    d.left? = none ∨ Lacks [] bytes d := by
  obtain hlength | ⟨⟨n, bytes₁⟩, hlength, hcounted⟩ := bind_eq_error_iff.1 h
  · obtain hnone | ⟨hshort, rfl⟩ := takeLength_eq_error hlength
    · exact .inl hnone
    · exact .inr (.here .inputLength hshort)
  obtain ⟨hn, rfl⟩ := eq_of_takeLength hlength
  obtain hbytes | ⟨⟨front, bytes₂⟩, -, hvalues⟩ := bind_eq_error_iff.1 hcounted
  · obtain ⟨hshort, rfl⟩ := takeBytes_eq_error hbytes
    exact .inr (.behind [] (.here (.input hn) hshort))
  obtain hbits | ⟨bits, -, hread⟩ := bind_eq_error_iff.1 hvalues
  · exact .inl (bitsInto_eq_error hbits)
  · cases hread

theorem takeTrace_eq_error {input : Input} (hinput : input.length < 2 ^ 31) {bytes : Bytes}
    {d : ProofDefect} (h : takeTrace bytes = .error d) :
    d.left? = none ∨ Lacks (lengthWord input.length ++ input.map bitByte) bytes d := by
  obtain hlength | ⟨⟨n, bytes₁⟩, hlength, hcounted⟩ := bind_eq_error_iff.1 h
  · obtain hnone | ⟨hshort, rfl⟩ := takeLength_eq_error hlength
    · exact .inl hnone
    · exact .inr (.here (.traceLength hinput) hshort)
  obtain ⟨hn, rfl⟩ := eq_of_takeLength hlength
  by_cases hfour : n % 4 = 0
  · simp only [hfour, if_true] at hcounted
    obtain hbytes | ⟨⟨front, bytes₂⟩, -, hread⟩ := bind_eq_error_iff.1 hcounted
    · obtain ⟨hshort, rfl⟩ := takeBytes_eq_error hbytes
      exact .inr (.behind _ (.here (.trace hinput hn hfour) hshort))
    · cases hread
  · simp only [hfour, if_false] at hcounted
    exact .inl (Except.error.inj hcounted ▸ rfl)

/-! ### The decoder -/

/-- The bytes are the encoding of a solution that fits, and behind it so many others
    as the defect says. -/
def Exceeds (bytes : Bytes) (d : ProofDefect) : Prop :=
  ∃ s rest, Fits s ∧ bytes = encode s ++ rest ∧ rest ≠ [] ∧ d = .trailing rest.length

theorem decode_eq_error {bytes : Bytes} {d : ProofDefect} (h : decode bytes = .error d) :
    d.left? = none ∨ Lacks [] bytes d ∨ Exceeds bytes d := by
  obtain hinput | ⟨⟨input, bytes₁⟩, hinput, hbehind⟩ := bind_eq_error_iff.1 h
  · exact (takeInput_eq_error hinput).imp_right .inl
  obtain ⟨hinputFits, rfl⟩ := eq_of_takeInput hinput
  obtain htrace | ⟨⟨trace, bytes₂⟩, htrace, hending⟩ := bind_eq_error_iff.1 hbehind
  · exact (takeTrace_eq_error hinputFits htrace).imp_right fun hlacks => .inl (hlacks.behind [])
  obtain ⟨htraceFits, rfl⟩ := eq_of_takeTrace htrace
  by_cases hend : bytes₂ = []
  · simp only [hend, if_true] at hending
    cases hending
  · simp only [hend, if_false] at hending
    have hlength : trace.length < 2 ^ 29 := by omega
    refine .inr (.inr ⟨⟨input, trace⟩, bytes₂, ⟨hinputFits, hlength⟩, ?_, hend,
      (Except.error.inj hending).symm⟩)
    simp only [encode, List.append_assoc]

theorem decode_of_asks {before rest : Bytes} {part : Section} {needed : Nat}
    (hasks : Asks before part needed) (hshort : rest.length < needed) :
    decode (before ++ rest) = .error (.truncated part needed rest.length) := by
  cases hasks with
  | inputLength =>
    simp only [decode, takeInput, List.nil_append, takeLength_of_short .input hshort, bind,
      Except.bind]
  | input hn =>
    simp only [decode, takeInput, takeLength_append .input hn, takeBytes_of_short .input hshort,
      bind, Except.bind]
  | traceLength hinput =>
    simp only [decode, takeInput_append hinput, takeTrace, takeLength_of_short .trace hshort, bind,
      Except.bind]
  | trace hinput hn hfour =>
    rw [List.append_assoc]
    simp only [decode, takeInput_append hinput, takeTrace, takeLength_append .trace hn, hfour,
      if_true, takeBytes_of_short .trace hshort, bind, Except.bind]

/-- A part is truncated just if fewer bytes are left than the decoder asks for. -/
theorem decode_eq_truncated_iff {bytes : Bytes} {part : Section} {needed remaining : Nat} :
    decode bytes = .error (.truncated part needed remaining) ↔
      ∃ before rest, bytes = before ++ rest ∧ Asks before part needed ∧
        rest.length = remaining ∧ remaining < needed := by
  constructor
  · intro h
    rcases decode_eq_error h with hnone | hlacks | ⟨_, _, _, _, _, hd⟩
    · cases hnone
    · obtain ⟨before, rest, _, _, hbytes, hasks, hshort, hd⟩ := hlacks
      cases hd
      exact ⟨before, rest, hbytes, hasks, rfl, hshort⟩
    · cases hd
  · rintro ⟨before, rest, rfl, hasks, rfl, hshort⟩
    exact decode_of_asks hasks hshort

/-- Bytes are trailing just if they stand behind an encoding. -/
theorem decode_eq_trailing_iff {bytes : Bytes} {count : Nat} :
    decode bytes = .error (.trailing count) ↔
      ∃ s rest, Fits s ∧ bytes = encode s ++ rest ∧ rest.length = count ∧ 0 < count := by
  constructor
  · intro h
    rcases decode_eq_error h with hnone | ⟨_, _, _, _, _, _, _, hd⟩ | hexceeds
    · cases hnone
    · cases hd
    · obtain ⟨s, rest, hfits, hbytes, hrest, hd⟩ := hexceeds
      cases hd
      exact ⟨s, rest, hfits, hbytes, rfl, List.length_pos_iff.2 hrest⟩
  · rintro ⟨s, rest, hfits, rfl, rfl, hpos⟩
    exact decode_encode_append hfits (List.length_pos_iff.1 hpos)

end Solution

end SatReplay
