/-
  SatReplay/Proofs/Zlib.lean
  ==========================
  **What is compressed is read back.**  The writer stores bytes in blocks as they
  are.  A stored block starts at a byte, and the five bits that its head leaves
  over are skipped, so the reader finds the lengths and the bytes where the
  writer put them; the checksum is of the same bytes on both sides.
-/
import SatReplay.Zlib.Container

namespace SatReplay.Zlib

/-! ### One block -/

/-- The three bits at the head of a stored block, and the five after them. -/
theorem head_bits (last : Bool) (rest : Bytes) :
    let head := Bits.ofBytes ((if last then 1 else 0) :: rest)
    ∃ bits : Bits, head.number? 1 = some (if last then 1 else 0, bits) ∧
      bits.number? 2 = some (0, ⟨0, 5, rest⟩) := by
  cases last with
  | false => exact ⟨⟨0, 7, rest⟩, rfl, by simp [Bits.number?, Bits.bit?]⟩
  | true => exact ⟨⟨0, 7, rest⟩, rfl, by simp [Bits.number?, Bits.bit?]⟩

theorem toNat_toUInt8 {n : Nat} (h : n < 256) : n.toUInt8.toNat = n := by
  rw [Nat.toUInt8, UInt8.toNat_ofNat_of_lt' h]

theorem stored_append {bytes : Bytes} (h : bytes.length ≤ maxStored) (held : Nat)
    (rest : Bytes) (out : Array UInt8) (last : Bool) :
    stored ⟨held, 5, (storedBlock last bytes).tail ++ rest⟩ out =
      some (out ++ bytes.toArray, Bits.ofBytes rest) := by
  simp only [maxStored] at h
  have hlow : (bytes.length % 256).toUInt8.toNat = bytes.length % 256 := toNat_toUInt8 (by omega)
  have hhigh : (bytes.length / 256).toUInt8.toNat = bytes.length / 256 := toNat_toUInt8 (by omega)
  have hotherLow : ((maxStored - bytes.length) % 256).toUInt8.toNat =
      (maxStored - bytes.length) % 256 := toNat_toUInt8 (by omega)
  have hotherHigh : ((maxStored - bytes.length) / 256).toUInt8.toNat =
      (maxStored - bytes.length) / 256 := toNat_toUInt8 (by simp only [maxStored]; omega)
  have hlength : bytes.length % 256 + 256 * (bytes.length / 256) = bytes.length :=
    Nat.mod_add_div _ _
  have hother : (maxStored - bytes.length) % 256 + 256 * ((maxStored - bytes.length) / 256) =
      maxStored - bytes.length := Nat.mod_add_div _ _
  have hsum : bytes.length + (maxStored - bytes.length) = 65535 := by
    simp only [maxStored]
    omega
  simp only [storedBlock, stored, Bits.wholeBytes, List.cons_append, List.nil_append, List.tail_cons,
    hlow, hhigh, hotherLow, hotherHigh, hlength, hother, hsum]
  simp

theorem blocksWithin_append {bytes : Bytes} (h : bytes.length ≤ maxStored) (left : Nat)
    (rest : Bytes) (out : Array UInt8) (last : Bool) :
    blocksWithin (left + 1) (Bits.ofBytes (storedBlock last bytes ++ rest)) out =
      if last then some (out ++ bytes.toArray, Bits.ofBytes rest)
      else blocksWithin left (Bits.ofBytes rest) (out ++ bytes.toArray) := by
  obtain ⟨bits, hlast, hkind⟩ := head_bits last ((storedBlock last bytes).tail ++ rest)
  have hblock : block 0 ⟨0, 5, (storedBlock last bytes).tail ++ rest⟩ out =
      some (out ++ bytes.toArray, Bits.ofBytes rest) := stored_append h 0 rest out last
  have hbytes : storedBlock last bytes ++ rest =
      (if last then 1 else 0) :: ((storedBlock last bytes).tail ++ rest) := rfl
  rw [hbytes]
  simp only [blocksWithin, hlast, hkind, hblock, bind, Option.bind]
  cases last with
  | false => rfl
  | true => rfl

/-! ### Streams and containers -/

theorem blocksWithin_storedBlocks (bytes : Bytes) :
    ∀ (left : Nat) (rest : Bytes) (out : Array UInt8), (storedBlocks bytes).length < left →
      blocksWithin left (Bits.ofBytes (storedBlocks bytes ++ rest)) out =
        some (out ++ bytes.toArray, Bits.ofBytes rest) := by
  fun_induction storedBlocks bytes with
  | case1 bytes hshort =>
    intro left rest out hleft
    obtain ⟨left, rfl⟩ : ∃ k, left = k + 1 := ⟨left - 1, by omega⟩
    rw [blocksWithin_append hshort, if_pos rfl]
  | case2 bytes hlong ih =>
    intro left rest out hleft
    obtain ⟨left, rfl⟩ : ∃ k, left = k + 1 := ⟨left - 1, by omega⟩
    have htake : (bytes.take maxStored).length ≤ maxStored := List.length_take_le _ _
    have henough : (storedBlocks (bytes.drop maxStored)).length < left := by
      rw [List.length_append] at hleft
      have hhead : 0 < (storedBlock false (bytes.take maxStored)).length := Nat.succ_pos _
      omega
    have hjoined : (bytes.take maxStored).toArray ++ (bytes.drop maxStored).toArray =
        bytes.toArray := Array.toList_inj.1 (by simp)
    rw [List.append_assoc, blocksWithin_append htake, if_neg Bool.false_ne_true, ih _ _ _ henough,
      Array.append_assoc, hjoined]

theorem inflate_storedBlocks (bytes rest : Bytes) :
    inflate (storedBlocks bytes ++ rest) = some (bytes, rest) := by
  have hremaining : (Bits.ofBytes (storedBlocks bytes ++ rest)).remaining =
      8 * (storedBlocks bytes ++ rest).length := Nat.zero_add _
  have henough : (storedBlocks bytes).length <
      (Bits.ofBytes (storedBlocks bytes ++ rest)).remaining + 1 := by
    rw [hremaining, List.length_append]
    omega
  have hblocks := blocksWithin_storedBlocks bytes _ rest #[] henough
  rw [Array.empty_append] at hblocks
  simp only [inflate, hblocks, bind, Option.bind]
  rfl

/-- **What is compressed is read back.** -/
theorem decompress?_compress (bytes : Bytes) : decompress? (compress bytes) = some bytes := by
  have hchecksum : (checksumBytes bytes).take 4 = checksumBytes bytes := rfl
  have hcontainer : compress bytes = 0x78 :: 0x9c :: (storedBlocks bytes ++ checksumBytes bytes) := rfl
  have hheader : isHeader 0x78 0x9c = true := by decide
  simp only [hcontainer, decompress?, hheader, inflate_storedBlocks, hchecksum, if_true]

end SatReplay.Zlib
