/-
  SatReplay/Proofs/Solution/RoundTrip.lean
  ========================================
  **Encoded solutions are read back.**  Each part is read off the front of what
  its writer put there, whatever follows, so a solution comes back as long as
  both of its length words keep the sign bit free (`decode_encode`).
-/
import SatReplay.Solution.Encoding
import SatReplay.Proofs.Bytes.Words

namespace SatReplay.Solution

theorem takeLength_append (part : Section) {n : Nat} (hn : n < 2 ^ 31) (rest : Bytes) :
    takeLength part (lengthWord n ++ rest) = .ok (n, rest) := by
  have hword : (UInt32.ofNat n).toInt32.toInt = n := Int32.toInt_ofNat_of_lt hn
  have hsign : ¬ (UInt32.ofNat n).toInt32 < 0 := by
    have h0 : (0 : Int32).toInt = 0 := by decide
    rw [Int32.lt_iff_toInt_lt, hword, h0]
    omega
  simp only [lengthWord, Bytes.ofWord, List.cons_append, List.nil_append, takeLength,
    Bytes.toWord_ofWord]
  rw [if_neg hsign, hword, Int.toNat_natCast]

theorem takeBytes_append (part : Section) (bytes rest : Bytes) :
    takeBytes part bytes.length (bytes ++ rest) = .ok (bytes, rest) := by
  rw [takeBytes, if_pos (by simp), List.take_left, List.drop_left]

theorem bitsInto_map (bits : List Bool) : ∀ acc : Array Bool,
    bitsInto acc (bits.map bitByte) = .ok (acc ++ bits.toArray) := by
  induction bits with
  | nil =>
    intro acc
    simp [bitsInto]
  | cons bit bits ih =>
    intro acc
    cases bit with
    | false => simp [bitsInto, bitByte, ih]
    | true => simp [bitsInto, bitByte, ih]

theorem takeInput_append {input : Input} (h : input.length < 2 ^ 31) (rest : Bytes) :
    takeInput (lengthWord input.length ++ input.map bitByte ++ rest) = .ok (input, rest) := by
  have hbytes := takeBytes_append .input (input.map bitByte) rest
  rw [List.length_map] at hbytes
  rw [List.append_assoc]
  simp [takeInput, takeLength_append .input h, hbytes, bitsInto_map, bind, Except.bind, pure,
    Except.pure]

theorem takeTrace_append {trace : List Int32} (h : trace.length * 4 < 2 ^ 31) (rest : Bytes) :
    takeTrace (lengthWord (trace.length * 4) ++
      trace.flatMap (fun i => Bytes.ofWord i.toUInt32) ++ rest) = .ok (trace, rest) := by
  have hwords : trace.flatMap (fun i => Bytes.ofWord i.toUInt32) =
      (trace.map Int32.toUInt32).flatMap Bytes.ofWord := by
    rw [List.flatMap_map]
  have hlength := Bytes.length_flatMap_ofWord (trace.map Int32.toUInt32)
  rw [List.length_map] at hlength
  have hbytes := takeBytes_append .trace ((trace.map Int32.toUInt32).flatMap Bytes.ofWord) rest
  rw [hlength] at hbytes
  have hback : (trace.map Int32.toUInt32).map UInt32.toInt32 = trace := by
    rw [List.map_map]
    exact List.map_id trace
  rw [hwords, List.append_assoc]
  simp only [takeTrace, takeLength_append .trace h, hbytes, Bytes.toWords_flatMap, hback, bind,
    Except.bind, pure, Except.pure, Nat.mul_mod_left, if_true]

theorem decode_encode {s : Solution} (hinput : s.input.length < 2 ^ 31)
    (htrace : s.trace.length < 2 ^ 29) : decode (encode s) = .ok s := by
  have hfit : s.trace.length * 4 < 2 ^ 31 := by omega
  have hrest := takeTrace_append hfit []
  rw [List.append_nil] at hrest
  simp only [decode, encode, takeInput_append hinput, hrest, bind, Except.bind, pure, Except.pure,
    if_true]

end SatReplay.Solution
