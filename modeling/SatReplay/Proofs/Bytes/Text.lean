/-
  SatReplay/Proofs/Bytes/Text.lean
  ================================
  **Texts and their bytes.**  The bytes of a text are read as that text, and a
  text of one-byte characters has one byte for each.

  The order of texts is that of their bytes (`ofText_lt_iff`): the bytes of two
  different characters differ at the latest in the last one, and the lesser
  character has the lesser byte there.
-/
import SatReplay.Bytes.Word

namespace SatReplay.Bytes

theorem toText?_ofText (text : String) : toText? (ofText text) = some text := by
  have hbytes : (⟨(ofText text).toArray⟩ : ByteArray) = text.toUTF8 := by
    rw [ofText, Array.toArray_toList]
  rw [toText?, hbytes, String.fromUTF8?, String.toUTF8_eq_toByteArray, dif_pos text.isValidUTF8]
  rfl

theorem ofText_inj {text other : String} (h : ofText text = ofText other) : text = other := by
  have hread := toText?_ofText text
  rw [h, toText?_ofText] at hread
  exact (Option.some.inj hread).symm

theorem ofText_eq_flatMap (text : String) :
    ofText text = text.toList.flatMap String.utf8EncodeChar := by
  obtain ⟨cs, rfl⟩ : ∃ cs, text = String.ofList cs := ⟨text.toList, String.ofList_toList.symm⟩
  rw [ofText, String.toUTF8_eq_toByteArray, String.toByteArray_ofList, List.utf8Encode,
    List.toList_data_toByteArray, String.toList_ofList]

/-! ### One-byte characters -/

theorem utf8EncodeChar_ofUInt8 {b : UInt8} (h : b < 128) :
    String.utf8EncodeChar (Char.ofUInt8 b) = [b] := by
  have hsize : (Char.ofUInt8 b).utf8Size = 1 := by
    rw [Char.utf8Size_eq_one_iff, UInt32.le_iff_toNat_le]
    rw [UInt8.lt_iff_toNat_lt] at h
    have hvalue : (Char.ofUInt8 b).val.toNat = b.toNat := UInt8.toNat_toUInt32 b
    have hbound : (128 : UInt8).toNat = 128 := rfl
    have hlast : (127 : UInt32).toNat = 127 := rfl
    omega
  rw [String.utf8EncodeChar_eq_singleton hsize]
  exact congrArg (fun c => [c]) (UInt8.toUInt8_toUInt32 b)

theorem ofText_map_ofUInt8 {bytes : Bytes} (h : ∀ b ∈ bytes, b < 128) :
    ofText (String.ofList (bytes.map Char.ofUInt8)) = bytes := by
  have hflat : (bytes.map Char.ofUInt8).flatMap String.utf8EncodeChar = bytes := by
    induction bytes with
    | nil => rfl
    | cons b bytes ih =>
      rw [List.map_cons, List.flatMap_cons, utf8EncodeChar_ofUInt8 (h b (by simp)),
        ih fun c hc => h c (by simp [hc]), List.singleton_append]
  rw [ofText_eq_flatMap, String.toList_ofList, hflat]

/-! ### Order -/

theorem ofNat_cons_lt_iff {m n : Nat} (hm : m < 256) (hn : n < 256) (bytes others : Bytes) :
    UInt8.ofNat m :: bytes < UInt8.ofNat n :: others ↔ m < n ∨ m = n ∧ bytes < others := by
  rw [List.cons_lt_cons_iff, UInt8.lt_iff_toNat_lt, ← UInt8.toNat_inj,
    UInt8.toNat_ofNat_of_lt' hm, UInt8.toNat_ofNat_of_lt' hn]

theorem utf8EncodeChar_append_lt {c d : Char} (h : c < d) (bytes others : Bytes) :
    String.utf8EncodeChar c ++ bytes < String.utf8EncodeChar d ++ others := by
  have hlt : c.val.toNat < d.val.toNat := h
  have hd : d.val.toNat < 0x110000 := by
    have hvalid : d.val.toNat < 0xd800 ∨ 0xdfff < d.val.toNat ∧ d.val.toNat < 0x110000 := d.valid
    omega
  have hdigits : ∀ v < 0x110000,
      v / 64 / 64 = v / 4096 ∧ v / 4096 / 64 = v / 262144 ∧ v / 262144 / 8 = 0 := by omega
  have hcDigits := hdigits c.val.toNat (by omega)
  have hdDigits := hdigits d.val.toNat hd
  -- the first byte tells how many there are, and it is the greater the more there are
  fun_cases String.utf8EncodeChar c
  all_goals
    fun_cases String.utf8EncodeChar d
    all_goals
      simp +zetaDelta (disch := omega) only [List.cons_append, ofNat_cons_lt_iff]
      omega

theorem ofText_lt_of_lt {text other : String} (h : text < other) : ofText text < ofText other := by
  rw [String.lt_iff] at h
  rw [ofText_eq_flatMap, ofText_eq_flatMap]
  generalize text.toList = cs at h
  generalize other.toList = ds at h
  induction cs generalizing ds with
  | nil =>
    cases ds with
    | nil => exact absurd h (List.lt_irrefl [])
    | cons d ds =>
      obtain ⟨b, bytes, hbytes⟩ := List.exists_cons_of_ne_nil (String.utf8EncodeChar_ne_nil (c := d))
      rw [List.flatMap_cons, hbytes]
      exact List.nil_lt_cons _ _
  | cons c cs ih =>
    cases ds with
    | nil => exact absurd h (List.not_lt_nil _)
    | cons d ds =>
      rw [List.flatMap_cons, List.flatMap_cons]
      rcases List.cons_lt_cons_iff.1 h with hlt | ⟨rfl, hrest⟩
      · exact utf8EncodeChar_append_lt hlt _ _
      · exact List.append_left_lt (ih ds hrest)

/-- **Texts have the order of their bytes.** -/
theorem ofText_lt_iff {text other : String} : ofText text < ofText other ↔ text < other := by
  refine ⟨?_, ofText_lt_of_lt⟩
  intro hbytes
  by_cases h : text < other
  · exact h
  · rcases Decidable.em (other < text) with hgt | hge
    · exact absurd (ofText_lt_of_lt hgt) (List.lt_asymm hbytes)
    · obtain rfl := String.le_antisymm hge h
      exact absurd hbytes (List.lt_irrefl _)

end SatReplay.Bytes
