/-
  SatReplay/Proofs/Solution/Canonical.lean
  ========================================
  **What is read is what would be written.**  Each reader, when it succeeds, took
  off the front exactly the bytes that the writer puts there for its result, and
  its length word had the sign bit free.  So decoded bytes are the encoding of a
  solution that fits its two length words (`encode_of_decode`).

  This settles what becomes of the encoding of a solution that does not fit, in
  which a length word has wrapped around.  If it were read as anything, that
  would be a solution with the same bytes that fits; but then there are too few
  bytes for a wrapped length, and the solution fits itself.
-/
import SatReplay.Proofs.Solution.RoundTrip

namespace SatReplay.Solution

/-- The two lengths can be read back from their words. -/
def Fits (s : Solution) : Prop := s.input.length < 2 ^ 31 ∧ s.trace.length < 2 ^ 29

/-! ### Readers that succeed -/

theorem eq_of_takeLength {part : Section} {n : Nat} {bytes rest : Bytes}
    (h : takeLength part bytes = .ok (n, rest)) : n < 2 ^ 31 ∧ bytes = lengthWord n ++ rest := by
  rw [takeLength.eq_def] at h
  split at h
  next a b c d rest' =>
    simp only at h
    split at h
    next => cases h
    next hsign =>
      simp only [Except.ok.injEq, Prod.mk.injEq] at h
      obtain ⟨hn, rfl⟩ := h
      have h0 : (0 : Int32).toInt = 0 := by decide
      rw [Int32.lt_iff_toInt_lt, h0] at hsign
      have hlt := Int32.toInt_lt (Bytes.toWord a b c d).toInt32
      -- with the sign bit free, the word is that of the length read from it
      have hvalue : (UInt32.ofNat n).toInt32.toInt = n := Int32.toInt_ofNat_of_lt (by omega)
      have hsame : (UInt32.ofNat n).toInt32 = (Bytes.toWord a b c d).toInt32 := by
        apply Int32.toInt_inj.1
        omega
      have hword : UInt32.ofNat n = Bytes.toWord a b c d := congrArg Int32.toUInt32 hsame
      refine ⟨by omega, ?_⟩
      rw [lengthWord, hword, Bytes.ofWord_toWord]
      rfl
  next => cases h

theorem eq_of_takeBytes {part : Section} {n : Nat} {bytes front rest : Bytes}
    (h : takeBytes part n bytes = .ok (front, rest)) :
    front.length = n ∧ bytes = front ++ rest := by
  rw [takeBytes] at h
  split at h
  next hle =>
    simp only [Except.ok.injEq, Prod.mk.injEq] at h
    obtain ⟨rfl, rfl⟩ := h
    exact ⟨List.length_take_of_le hle, (List.take_append_drop n bytes).symm⟩
  next => cases h

theorem eq_of_bitsInto {acc bits : Array Bool} {bytes : Bytes}
    (h : bitsInto acc bytes = .ok bits) :
    ∃ values : List Bool, bits = acc ++ values.toArray ∧ bytes = values.map bitByte := by
  fun_induction bitsInto acc bytes with
  | case1 acc => exact ⟨[], by simpa using (Except.ok.inj h).symm, rfl⟩
  | case2 acc rest ih =>
    obtain ⟨values, rfl, rfl⟩ := ih h
    exact ⟨false :: values, by simp, rfl⟩
  | case3 acc rest _ ih =>
    obtain ⟨values, rfl, rfl⟩ := ih h
    exact ⟨true :: values, by simp, rfl⟩
  | case4 => cases h

theorem eq_of_takeInput {input : Input} {bytes rest : Bytes}
    (h : takeInput bytes = .ok (input, rest)) :
    input.length < 2 ^ 31 ∧ bytes = lengthWord input.length ++ input.map bitByte ++ rest := by
  rw [takeInput] at h
  rcases hlength : takeLength .input bytes with defect | ⟨n, bytes₁⟩
  · simp [hlength, bind, Except.bind] at h
  rcases hbytes : takeBytes .input n bytes₁ with defect | ⟨front, bytes₂⟩
  · simp [hlength, hbytes, bind, Except.bind] at h
  rcases hbits : bitsInto #[] front with defect | bits
  · simp [hlength, hbytes, hbits, bind, Except.bind] at h
  simp only [hlength, hbytes, hbits, bind, Except.bind, pure, Except.pure, Except.ok.injEq,
    Prod.mk.injEq] at h
  obtain ⟨rfl, rfl⟩ := h
  obtain ⟨hn, rfl⟩ := eq_of_takeLength hlength
  obtain ⟨hfront, rfl⟩ := eq_of_takeBytes hbytes
  obtain ⟨values, rfl, rfl⟩ := eq_of_bitsInto hbits
  rw [List.length_map] at hfront
  subst hfront
  exact ⟨by simpa using hn, by simp⟩

theorem eq_of_takeTrace {trace : List Int32} {bytes rest : Bytes}
    (h : takeTrace bytes = .ok (trace, rest)) :
    trace.length * 4 < 2 ^ 31 ∧
      bytes = lengthWord (trace.length * 4) ++
        trace.flatMap (fun i => Bytes.ofWord i.toUInt32) ++ rest := by
  rw [takeTrace] at h
  rcases hlength : takeLength .trace bytes with defect | ⟨n, bytes₁⟩
  · simp [hlength, bind, Except.bind] at h
  by_cases hfour : n % 4 = 0
  · rcases hbytes : takeBytes .trace n bytes₁ with defect | ⟨front, bytes₂⟩
    · simp [hlength, hfour, hbytes, bind, Except.bind] at h
    simp only [hlength, hfour, hbytes, bind, Except.bind, pure, Except.pure, if_true,
      Except.ok.injEq, Prod.mk.injEq] at h
    obtain ⟨rfl, rfl⟩ := h
    obtain ⟨hn, rfl⟩ := eq_of_takeLength hlength
    obtain ⟨rfl, rfl⟩ := eq_of_takeBytes hbytes
    have hwords := Bytes.flatMap_toWords hfour
    have hlengths := Bytes.length_flatMap_ofWord (Bytes.toWords front)
    rw [hwords] at hlengths
    have htrace : ((Bytes.toWords front).map UInt32.toInt32).flatMap
        (fun i => Bytes.ofWord i.toUInt32) = front := by
      rw [List.flatMap_map]
      exact hwords
    rw [List.length_map, ← hlengths, htrace, List.append_assoc]
    exact ⟨hn, rfl⟩
  · simp [hlength, hfour, bind, Except.bind] at h

/-- **What is decoded is an encoding**, of a solution that fits its length words. -/
theorem encode_of_decode {bytes : Bytes} {s : Solution} (h : decode bytes = .ok s) :
    s.Fits ∧ bytes = encode s := by
  rw [decode] at h
  rcases hinput : takeInput bytes with defect | ⟨input, bytes₁⟩
  · simp [hinput, bind, Except.bind] at h
  rcases htrace : takeTrace bytes₁ with defect | ⟨trace, bytes₂⟩
  · simp [hinput, htrace, bind, Except.bind] at h
  by_cases hend : bytes₂ = []
  · simp only [hinput, htrace, hend, bind, Except.bind, pure, Except.pure, if_true,
      Except.ok.injEq] at h
    subst h
    obtain ⟨hinputFits, rfl⟩ := eq_of_takeInput hinput
    obtain ⟨htraceFits, rfl⟩ := eq_of_takeTrace htrace
    have hlength : trace.length < 2 ^ 29 := by omega
    refine ⟨⟨hinputFits, hlength⟩, ?_⟩
    rw [encode, hend, List.append_nil]
  · simp [hinput, htrace, hend, bind, Except.bind] at h

/-! ### Length words that wrap around -/

theorem length_encode (s : Solution) :
    (encode s).length = 8 + s.input.length + s.trace.length * 4 := by
  have htrace := Bytes.length_flatMap_ofWord (s.trace.map Int32.toUInt32)
  rw [List.flatMap_map, List.length_map] at htrace
  simp only [encode, lengthWord, Bytes.ofWord, List.length_append, List.length_cons,
    List.length_nil, List.length_map] at htrace ⊢
  omega

theorem mod_eq_of_lengthWord_append_eq {m n : Nat} {rest rest' : Bytes}
    (h : lengthWord m ++ rest = lengthWord n ++ rest') : m % 2 ^ 32 = n % 2 ^ 32 := by
  have hwords : lengthWord m = lengthWord n := List.append_inj_left h rfl
  have hnats := congrArg UInt32.toNat (Bytes.ofWord_inj hwords)
  rwa [UInt32.toNat_ofNat', UInt32.toNat_ofNat'] at hnats

/-- A solution with the bytes of one that fits is no longer than that one, so its
    lengths have not wrapped around. -/
theorem Fits.of_encode_eq {s t : Solution} (ht : t.Fits) (h : encode s = encode t) : s.Fits := by
  have hlength := congrArg List.length h
  rw [length_encode, length_encode] at hlength
  have hword : s.input.length % 2 ^ 32 = t.input.length % 2 ^ 32 := by
    simp only [encode, List.append_assoc] at h
    exact mod_eq_of_lengthWord_append_eq h
  obtain ⟨hinput, htrace⟩ := ht
  -- a longer input would be longer by 2 ^ 32 bytes, and identifiers that fit have fewer than 2 ^ 31
  constructor
  · omega
  · omega

theorem fits_iff (s : Solution) :
    s.Fits ↔ s.input.length ≤ 2 ^ 31 - 1 ∧ s.trace.length ≤ 2 ^ 29 - 1 := by
  rw [Fits]
  omega

/-- **Exactly the solutions that fit are read back**, and the encoding of any
    other solution is refused: it is never read as a solution. -/
theorem decode_encode_iff (s : Solution) :
    (decode (encode s) = .ok s ↔
      s.input.length ≤ 2 ^ 31 - 1 ∧ s.trace.length ≤ 2 ^ 29 - 1) ∧
    ((∃ defect, decode (encode s) = .error defect) ↔
      ¬ (s.input.length ≤ 2 ^ 31 - 1 ∧ s.trace.length ≤ 2 ^ 29 - 1)) := by
  rw [← fits_iff]
  have hback : s.Fits → decode (encode s) = .ok s := fun h => decode_encode h.1 h.2
  have hfits : ∀ {t : Solution}, decode (encode s) = .ok t → s.Fits := by
    intro t ht
    obtain ⟨htfits, hencode⟩ := encode_of_decode ht
    exact htfits.of_encode_eq hencode
  refine ⟨⟨hfits, hback⟩, ?_⟩
  constructor
  · rintro ⟨defect, hdefect⟩ h
    rw [hback h] at hdefect
    cases hdefect
  · intro h
    rcases hdecode : decode (encode s) with defect | t
    · exact ⟨defect, rfl⟩
    · exact absurd (hfits hdecode) h

/-! ### The language of the decoder -/

/-- Four parts of some bytes: each length stands as a signed word in front of the
    bytes that it counts. -/
structure Layout where
  inputLength : Int32
  bits : Bytes
  traceLength : Int32
  words : Bytes

namespace Layout

def bytes (p : Layout) : Bytes :=
  Bytes.ofWord p.inputLength.toUInt32 ++ p.bits ++ (Bytes.ofWord p.traceLength.toUInt32 ++ p.words)

/-- The parts are those of an encoded solution. -/
structure WellFormed (p : Layout) : Prop where
  inputLength_nonneg : 0 ≤ p.inputLength
  length_bits : (p.bits.length : Int) = p.inputLength.toInt
  bits_eq : ∀ b ∈ p.bits, b = 0 ∨ b = 1
  traceLength_nonneg : 0 ≤ p.traceLength
  traceLength_mod : p.traceLength.toInt % 4 = 0
  length_words : (p.words.length : Int) = p.traceLength.toInt

/-- The solution that the parts stand for. -/
def solution (p : Layout) : Solution where
  input := p.bits.map (· = 1)
  trace := (Bytes.toWords p.words).map UInt32.toInt32

end Layout

theorem lengthWord_eq_ofWord {n : Nat} {k : Int32} (h : (n : Int) = k.toInt) :
    lengthWord n = Bytes.ofWord k.toUInt32 := by
  have hlt := Int32.toInt_lt k
  have hvalue : (UInt32.ofNat n).toInt32.toInt = n := Int32.toInt_ofNat_of_lt (by omega)
  have hsame : (UInt32.ofNat n).toInt32 = k := Int32.toInt_inj.1 (hvalue.trans h)
  rw [lengthWord, ← hsame]
  rfl

theorem map_bitByte_map_eq_one {bits : Bytes} (h : ∀ b ∈ bits, b = 0 ∨ b = 1) :
    (bits.map fun b => decide (b = 1)).map bitByte = bits := by
  have hback : ∀ b ∈ bits, bitByte (decide (b = 1)) = b := by
    intro b hb
    rcases h b hb with rfl | rfl
    · rfl
    · rfl
  rw [List.map_map]
  exact (List.map_congr_left hback).trans (List.map_id bits)

theorem Layout.WellFormed.length_trace {p : Layout} (h : p.WellFormed) :
    (Bytes.toWords p.words).length * 4 = p.words.length := by
  have hmod : p.words.length % 4 = 0 := by
    have hlength := h.length_words
    have htrace := h.traceLength_mod
    omega
  rw [← Bytes.length_flatMap_ofWord, Bytes.flatMap_toWords hmod]

theorem Layout.WellFormed.encode_solution {p : Layout} (h : p.WellFormed) :
    encode p.solution = p.bytes := by
  have htrace := h.length_trace
  have hmod : p.words.length % 4 = 0 := by omega
  have hwords : (Bytes.toWords p.words).length * 4 = p.traceLength.toInt := by
    rw [← h.length_words]
    omega
  simp only [encode, Layout.solution, List.length_map, List.flatMap_map]
  rw [lengthWord_eq_ofWord h.length_bits, map_bitByte_map_eq_one h.bits_eq,
    lengthWord_eq_ofWord (by exact_mod_cast hwords)]
  exact congrArg (fun words => _ ++ (_ ++ words)) (Bytes.flatMap_toWords hmod)

theorem Layout.WellFormed.fits {p : Layout} (h : p.WellFormed) : p.solution.Fits := by
  have hbits := h.length_bits
  have hwords := h.length_words
  have htrace := h.length_trace
  have hinputLt := Int32.toInt_lt p.inputLength
  have htraceLt := Int32.toInt_lt p.traceLength
  rw [Fits, Layout.solution, List.length_map, List.length_map]
  omega

/-- The parts of the encoding of a solution that fits. -/
def layout (s : Solution) : Layout where
  inputLength := (UInt32.ofNat s.input.length).toInt32
  bits := s.input.map bitByte
  traceLength := (UInt32.ofNat (s.trace.length * 4)).toInt32
  words := s.trace.flatMap fun i => Bytes.ofWord i.toUInt32

theorem bytes_layout (s : Solution) : s.layout.bytes = encode s := rfl

theorem Fits.wellFormed_layout {s : Solution} (h : s.Fits) : s.layout.WellFormed := by
  obtain ⟨hinput, htrace⟩ := h
  have hzero : (0 : Int32).toInt = 0 := by decide
  have hinputLength : s.layout.inputLength.toInt = s.input.length :=
    Int32.toInt_ofNat_of_lt hinput
  have htraceLength : s.layout.traceLength.toInt = (s.trace.length * 4 : Nat) :=
    Int32.toInt_ofNat_of_lt (by omega)
  have hwords := Bytes.length_flatMap_ofWord (s.trace.map Int32.toUInt32)
  rw [List.flatMap_map, List.length_map] at hwords
  constructor
  · rw [Int32.le_iff_toInt_le, hinputLength, hzero]
    omega
  · rw [hinputLength, layout, List.length_map]
  · intro b hb
    obtain ⟨value, -, rfl⟩ := List.mem_map.1 hb
    cases value with
    | false => exact Or.inl rfl
    | true => exact Or.inr rfl
  · rw [Int32.le_iff_toInt_le, htraceLength, hzero]
    omega
  · rw [htraceLength]
    omega
  · rw [htraceLength]
    exact congrArg Nat.cast hwords

/-- **The encoding is canonical, and its language is exact**: what is decoded are
    the well-formed layouts and nothing else, and a solution is decoded from its
    own encoding only. -/
theorem decode_iff_layout (bytes : Bytes) :
    ((∃ s, decode bytes = .ok s) ↔ ∃ p : Layout, p.WellFormed ∧ p.bytes = bytes) ∧
    (∀ s, decode bytes = .ok s → encode s = bytes) ∧
    (∀ s other, decode bytes = .ok s → decode other = .ok s → other = bytes) := by
  refine ⟨⟨?_, ?_⟩, ?_, ?_⟩
  · rintro ⟨s, hs⟩
    obtain ⟨hfits, rfl⟩ := encode_of_decode hs
    exact ⟨s.layout, hfits.wellFormed_layout, bytes_layout s⟩
  · rintro ⟨p, hp, rfl⟩
    have hfits := hp.fits
    refine ⟨p.solution, ?_⟩
    rw [← hp.encode_solution]
    exact decode_encode hfits.1 hfits.2
  · intro s hs
    exact (encode_of_decode hs).2.symm
  · intro s other hs hother
    rw [(encode_of_decode hs).2, (encode_of_decode hother).2]

/-- A solution of one bit and one identifier is decoded; with a bit that is neither
    0 nor 1 the bytes have no layout. -/
theorem decode_iff_layout_seven :
    (∃ s, decode ([1, 0, 0, 0, 1] ++ [4, 0, 0, 0, 7, 0, 0, 0]) = .ok s) ∧
      ¬ ∃ p : Layout, p.WellFormed ∧ p.bytes = [1, 0, 0, 0, 2] ++ [4, 0, 0, 0, 7, 0, 0, 0] := by
  constructor
  · have hwell : Layout.WellFormed ⟨1, [1], 4, [7, 0, 0, 0]⟩ :=
      ⟨by decide, by decide, by simp, by decide, by decide, by decide⟩
    exact (decode_iff_layout _).1.2 ⟨_, hwell, by decide⟩
  · have hrefused : decode ([1, 0, 0, 0, 2] ++ [4, 0, 0, 0, 7, 0, 0, 0]) =
        .error (.notABit 0 2) := by rfl
    rw [← (decode_iff_layout _).1, hrefused]
    rintro ⟨s, hs⟩
    cases hs

end SatReplay.Solution
