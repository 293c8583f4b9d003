/-
  SatReplay/Proofs/Bytes/Base64.lean
  ==================================
  **Base64 is read back, and nothing else is read.**  `symbols` is the row of
  symbols without the array in which it is collected, group by group.  The values
  of a group's symbols are what its bytes were shifted into; shifting them back,
  the parts of one byte meet again and those of its neighbours fall out.  So every
  group gives its bytes, and the induction over the groups gives all of them
  (`decode_encode`).

  The other way round, the bytes of a group that is read are cut into its values
  again (`sextets_joined`).  Where a group is short, the spare bits are 0, which
  are also those of the missing bytes, and the pads are as many as those.  So a
  row that is read is the row of its bytes (`decode_eq_ok_iff`).
-/
import SatReplay.Bytes.Base64

namespace SatReplay.Base64

/-! ### Bytes one by one -/

theorem forall_byte {p : UInt8 → Prop} (h : ∀ n < 256, p (UInt8.ofNat n)) (a : UInt8) : p a := by
  have ha := h a.toNat a.toNat_lt
  rwa [UInt8.ofNat_toNat] at ha

theorem value?_symbol (v : UInt8) : v < 64 → value? (symbol v) = some v ∧ symbol v ≠ pad := by
  revert v
  exact forall_byte (by decide +kernel)

theorem high_lt (a : UInt8) : a >>> 2 < 64 ∧ (a &&& 3) <<< 4 < 64 ∧ (a &&& 15) <<< 2 < 64 ∧
    a >>> 4 < 64 ∧ a >>> 6 < 64 ∧ a &&& 63 < 64 := by
  revert a
  exact forall_byte (by decide +kernel)

theorem or_lt {a b : UInt8} (ha : a < 64) (hb : b < 64) : a ||| b < 64 := by
  rw [UInt8.lt_iff_toNat_lt] at ha hb ⊢
  rw [UInt8.toNat_or]
  exact Nat.or_lt_two_pow (n := 6) ha hb

/-- A byte that was cut in two is put together from its halves. -/
theorem joined (a : UInt8) : a >>> 2 <<< 2 ||| (a &&& 3) = a ∧ a >>> 4 <<< 4 ||| (a &&& 15) = a ∧
    a >>> 6 <<< 6 ||| (a &&& 63) = a := by
  revert a
  exact forall_byte (by decide +kernel)

/-- Bits that are shifted back stay, and those of a neighbour fall out. -/
theorem shifted (a : UInt8) :
    (a &&& 3) <<< 4 >>> 4 = a &&& 3 ∧ (a &&& 15) <<< 2 >>> 2 = a &&& 15 ∧
    a >>> 4 >>> 4 = 0 ∧ a >>> 6 >>> 2 = 0 ∧ (a &&& 3) <<< 4 <<< 4 = 0 ∧
    (a &&& 15) <<< 2 <<< 6 = 0 := by
  revert a
  exact forall_byte (by decide +kernel)

theorem spare (a : UInt8) : (a &&& 3) <<< 4 &&& 15 = 0 ∧ (a &&& 15) <<< 2 &&& 3 = 0 := by
  revert a
  exact forall_byte (by decide +kernel)

/-! ### Groups -/

theorem values_map_symbol {vs : List UInt8} (h : ∀ v ∈ vs, v < 64) : ∀ offset : Nat,
    values offset (vs.map symbol) = .ok vs := by
  induction vs with
  | nil => exact fun offset => rfl
  | cons v vs ih =>
    intro offset
    have hv := (value?_symbol v (h v (by simp))).1
    simp only [List.map_cons, values, hv, ih (fun u hu => h u (by simp [hu]))]

theorem decodeLast_map_symbol {vs : List UInt8} (h : ∀ v ∈ vs, v < 64) (hlength : 2 ≤ vs.length)
    (offset pads : Nat) :
    ∃ last, decodeLast offset (vs.map symbol ++ List.replicate pads pad) =
      groupBytes offset last pads vs := by
  have hsymbols : ∀ s ∈ vs.map symbol, decide (s ≠ pad) = true := by
    intro s hs
    obtain ⟨v, hv, rfl⟩ := List.mem_map.1 hs
    exact decide_eq_true (value?_symbol v (h v hv)).2
  have htake : (vs.map symbol ++ List.replicate pads pad).takeWhile (fun s => decide (s ≠ pad)) =
      vs.map symbol := by
    rw [List.takeWhile_append_of_pos hsymbols]
    simp
  have hdrop : (vs.map symbol ++ List.replicate pads pad).dropWhile (fun s => decide (s ≠ pad)) =
      List.replicate pads pad := by
    rw [List.dropWhile_append_of_pos hsymbols]
    simp
  have hpads : ¬ (List.replicate pads pad ≠ [] ∧ ((vs.map symbol).length < 2 ∨
      ¬ (List.replicate pads pad).all (fun s => decide (s = pad)) = true)) := by
    rintro ⟨-, hshort | hother⟩
    · rw [List.length_map] at hshort
      omega
    · simp at hother
  refine ⟨(vs.map symbol).getLast?.getD pad, ?_⟩
  simp only [decodeLast, htake, hdrop, values_map_symbol h, if_neg hpads, List.length_replicate]

theorem decodeWhole_symbol {a b c d : UInt8} (h : ∀ v ∈ [a, b, c, d], v < 64) (offset : Nat) :
    decodeWhole offset (symbol a) (symbol b) (symbol c) (symbol d) =
      groupBytes offset (symbol d) 0 [a, b, c, d] := by
  have hvalues := values_map_symbol h offset
  simp only [List.map_cons, List.map_nil] at hvalues
  simp only [decodeWhole, hvalues]

/-- The values into which three bytes are shifted. -/
def sextets (a b c : UInt8) : List UInt8 :=
  [a >>> 2, (a &&& 3) <<< 4 ||| b >>> 4, (b &&& 15) <<< 2 ||| c >>> 6, c &&& 63]

theorem sextets_lt (a b c : UInt8) : ∀ v ∈ sextets a b c, v < 64 := by
  simp only [sextets, List.forall_mem_cons]
  exact ⟨(high_lt a).1, or_lt (high_lt a).2.1 (high_lt b).2.2.2.1,
    or_lt (high_lt b).2.2.1 (high_lt c).2.2.2.2.1, (high_lt c).2.2.2.2.2, by simp⟩

theorem first_sextets (a b : UInt8) :
    a >>> 2 <<< 2 ||| ((a &&& 3) <<< 4 ||| b >>> 4) >>> 4 = a := by
  rw [UInt8.shiftRight_or, (shifted a).1, (shifted b).2.2.1, UInt8.or_zero, (joined a).1]

theorem second_sextets (a b c : UInt8) :
    ((a &&& 3) <<< 4 ||| b >>> 4) <<< 4 ||| ((b &&& 15) <<< 2 ||| c >>> 6) >>> 2 = b := by
  rw [UInt8.shiftLeft_or, UInt8.shiftRight_or, (shifted a).2.2.2.2.1, (shifted b).2.1,
    (shifted c).2.2.2.1, UInt8.zero_or, UInt8.or_zero, (joined b).2.1]

theorem third_sextets (b c : UInt8) : ((b &&& 15) <<< 2 ||| c >>> 6) <<< 6 ||| (c &&& 63) = c := by
  rw [UInt8.shiftLeft_or, (shifted b).2.2.2.2.2, UInt8.zero_or, (joined c).2.2]

theorem groupBytes_three (offset : Nat) (last : UInt8) (pads : Nat) (a b c : UInt8) :
    groupBytes offset last pads (sextets a b c) = .ok [a, b, c] := by
  rw [sextets, groupBytes, first_sextets, second_sextets, third_sextets]

theorem groupBytes_two (offset : Nat) (last : UInt8) (a b : UInt8) :
    groupBytes offset last 1 ((sextets a b 0).take 3) = .ok [a, b] := by
  have hzero : (0 : UInt8) >>> 6 = 0 := rfl
  have hspare : ((b &&& 15) <<< 2 ||| (0 : UInt8) >>> 6) &&& 3 = 0 := by
    rw [hzero, UInt8.or_zero, (spare b).2]
  simp only [sextets, List.take_succ_cons, List.take_zero, groupBytes, hspare, first_sextets,
    second_sextets, ne_eq, not_true_eq_false, if_false]

theorem groupBytes_one (offset : Nat) (last : UInt8) (a : UInt8) :
    groupBytes offset last 2 ((sextets a 0 0).take 2) = .ok [a] := by
  have hzero : (0 : UInt8) >>> 4 = 0 := rfl
  have hspare : ((a &&& 3) <<< 4 ||| (0 : UInt8) >>> 4) &&& 15 = 0 := by
    rw [hzero, UInt8.or_zero, (spare a).1]
  simp only [sextets, List.take_succ_cons, List.take_zero, groupBytes, hspare, first_sextets,
    ne_eq, not_true_eq_false, if_false]

/-! ### Rows of symbols -/

/-- The symbols of bytes, group by group. -/
def symbols : Bytes → Bytes
  | [] => []
  | [a] => ((sextets a 0 0).take 2).map symbol ++ List.replicate 2 pad
  | [a, b] => ((sextets a b 0).take 3).map symbol ++ List.replicate 1 pad
  | a :: b :: c :: rest => (sextets a b c).map symbol ++ symbols rest

theorem encode_eq_symbols (bytes : Bytes) : encode bytes = symbols bytes := by
  have hinto : ∀ acc : Array UInt8, (encodeInto acc bytes).toList = acc.toList ++ symbols bytes := by
    fun_induction symbols bytes with
    | case1 => simp [encodeInto]
    | case2 a => simp [encodeInto, sextets]
    | case3 a b => simp [encodeInto, sextets]
    | case4 a b c rest ih => simp [encodeInto, ih, sextets]
  exact (hinto #[]).trans (List.nil_append _)

theorem decodeInto_last {vs : List UInt8} (h : ∀ v ∈ vs, v < 64) (hlength : 2 ≤ vs.length)
    {pads : Nat} (hfour : vs.length + pads = 4) {offset : Nat} {bytes : Bytes}
    (hgroup : ∀ last, groupBytes offset last pads vs = .ok bytes) (acc : Array UInt8) :
    decodeInto offset acc (vs.map symbol ++ List.replicate pads pad) = .ok (acc ++ bytes.toArray) := by
  obtain ⟨last, hlast⟩ := decodeLast_map_symbol h hlength offset pads
  have hfits : (vs.map symbol ++ List.replicate pads pad).length = 4 := by
    rw [List.length_append, List.length_map, List.length_replicate, hfour]
  rw [hgroup] at hlast
  obtain ⟨group, heq⟩ : ∃ group, vs.map symbol ++ List.replicate pads pad = group := ⟨_, rfl⟩
  rw [heq] at hfits hlast ⊢
  match group, hfits with
  | [a, b, c, d], _ =>
    show (decodeLast offset [a, b, c, d]).map _ = _
    rw [hlast]
    rfl

theorem decodeInto_whole (offset : Nat) (acc : Array UInt8) (a b c e : UInt8) (rest : Bytes) :
    decodeInto offset acc ((sextets a b c).map symbol ++ e :: rest) =
      decodeInto (offset + 4) (acc ++ #[a, b, c]) (e :: rest) := by
  have hwhole := decodeWhole_symbol (sextets_lt a b c) offset
  rw [← sextets, groupBytes_three] at hwhole
  simp only [sextets, List.map_cons, List.map_nil, List.cons_append, List.nil_append, decodeInto,
    hwhole]

theorem exists_symbols_eq_cons {bytes : Bytes} (h : bytes ≠ []) :
    ∃ s rest, symbols bytes = s :: rest := by
  fun_cases symbols bytes with
  | case1 => exact absurd rfl h
  | case2 a => exact ⟨_, _, rfl⟩
  | case3 a b => exact ⟨_, _, rfl⟩
  | case4 a b c rest => exact ⟨_, _, rfl⟩

theorem decodeInto_symbols (bytes : Bytes) : ∀ (offset : Nat) (acc : Array UInt8),
    decodeInto offset acc (symbols bytes) = .ok (acc ++ bytes.toArray) := by
  have htake : ∀ {n : Nat} {a b c : UInt8}, ∀ v ∈ (sextets a b c).take n, v < 64 := fun v hv =>
    sextets_lt _ _ _ v (List.mem_of_mem_take hv)
  fun_induction symbols bytes with
  | case1 => simp [decodeInto]
  | case2 a =>
    exact fun offset acc => decodeInto_last htake (by simp [sextets]) rfl
      (fun last => groupBytes_one offset last a) acc
  | case3 a b =>
    exact fun offset acc => decodeInto_last htake (by simp [sextets]) rfl
      (fun last => groupBytes_two offset last a b) acc
  | case4 a b c rest ih =>
    intro offset acc
    by_cases hrest : rest = []
    · subst hrest
      have hfour : (sextets a b c).length + 0 = 4 := rfl
      exact decodeInto_last (sextets_lt a b c) (by simp [sextets]) hfour
        (fun last => groupBytes_three offset last 0 a b c) acc
    · obtain ⟨e, more, heq⟩ := exists_symbols_eq_cons hrest
      rw [heq, decodeInto_whole, ← heq, ih]
      simp

theorem length_symbols (bytes : Bytes) : (symbols bytes).length % 4 = 0 := by
  fun_induction symbols bytes with
  | case1 => rfl
  | case2 a => simp [sextets]
  | case3 a b => simp [sextets]
  | case4 a b c rest ih =>
    have hfour : (sextets a b c).length = 4 := rfl
    rw [List.length_append, List.length_map]
    omega

/-- **Base64 is read back.** -/
theorem decode_encode (bytes : Bytes) : decode (encode bytes) = .ok bytes := by
  have hstray : strayEnd? (symbols bytes) = none := by
    have hlength := length_symbols bytes
    rw [strayEnd?, if_neg (by omega)]
  rw [decode, encode_eq_symbols, hstray]
  simp [decodeInto_symbols, Except.map]

theorem symbol_lt (v : UInt8) : symbol v < 128 := by
  revert v
  exact forall_byte (by decide +kernel)

/-- All symbols are bytes of one-byte characters. -/
theorem lt_of_mem_encode {bytes : Bytes} {s : UInt8} (h : s ∈ encode bytes) : s < 128 := by
  rw [encode_eq_symbols] at h
  have hgroup : ∀ vs : List UInt8, ∀ t ∈ vs.map symbol, t < 128 := by
    intro vs t ht
    obtain ⟨v, -, rfl⟩ := List.mem_map.1 ht
    exact symbol_lt v
  have hpad : ∀ n : Nat, ∀ t ∈ List.replicate n pad, t < 128 := by
    intro n t ht
    rw [List.eq_of_mem_replicate ht]
    decide
  fun_induction symbols bytes with
  | case1 => cases h
  | case2 a => exact (List.mem_append.1 h).elim (hgroup _ s) (hpad _ s)
  | case3 a b => exact (List.mem_append.1 h).elim (hgroup _ s) (hpad _ s)
  | case4 a b c rest ih => exact (List.mem_append.1 h).elim (hgroup _ s) ih

/-! ### What is read -/

theorem value?_eq_some (s : UInt8) : ∀ v ∈ value? s, v < 64 ∧ symbol v = s := by
  -- one symbol has one value, so no search through all values is needed
  have hvalue : ∀ s, (value? s).all (fun v => decide (v < 64 ∧ symbol v = s)) = true :=
    forall_byte (by decide +kernel)
  intro v hv
  have hs := hvalue s
  rw [Option.mem_def.1 hv] at hs
  exact of_decide_eq_true hs

theorem map_symbol_of_values {symbols : Bytes} : ∀ {offset : Nat} {vs : List UInt8},
    values offset symbols = .ok vs → (∀ v ∈ vs, v < 64) ∧ vs.map symbol = symbols := by
  induction symbols with
  | nil =>
    rintro offset vs ⟨⟩
    exact ⟨by simp, rfl⟩
  | cons s symbols ih =>
    intro offset vs h
    rw [values] at h
    rcases hvalue : value? s with _ | v
    · simp [hvalue] at h
    rcases hrest : values (offset + 1) symbols with defect | more
    · simp [hvalue, hrest] at h
    simp only [hvalue, hrest, Except.ok.injEq] at h
    subst h
    obtain ⟨hlt, hsymbol⟩ := value?_eq_some s v hvalue
    obtain ⟨hmore, hmap⟩ := ih hrest
    exact ⟨List.forall_mem_cons.2 ⟨hlt, hmore⟩, by rw [List.map_cons, hsymbol, hmap]⟩

theorem or_and_distrib (a b c : UInt8) : (a ||| b) &&& c = (a &&& c) ||| (b &&& c) :=
  UInt8.toBitVec_inj.1 (BitVec.and_or_distrib_right)

/-- A value of six bits that was cut in two is put together from its halves, and the
    bits of one half are not in the place of the other. -/
theorem sextet_halves (v : UInt8) : v < 64 →
    (v <<< 2 >>> 2 = v ∧ v >>> 4 >>> 2 = 0 ∧ v <<< 2 &&& 3 = 0 ∧
      v >>> 4 &&& (3 : UInt8) = v >>> 4) ∧
    (v >>> 2 >>> 4 = 0 ∧ v >>> 4 <<< 4 ||| v <<< 4 >>> 4 = v) ∧
    (v <<< 4 &&& 15 = 0 ∧ v >>> 2 &&& (15 : UInt8) = v >>> 2 ∧ v >>> 6 = 0 ∧
      v >>> 2 <<< 2 ||| v <<< 6 >>> 6 = v) ∧
    (v <<< 6 &&& 63 = 0 ∧ v &&& 63 = v) := by
  revert v
  exact forall_byte (by decide +kernel)

/-- Three bytes are cut into the values from which they were put together. -/
theorem sextets_joined {a b c d : UInt8} (ha : a < 64) (hb : b < 64) (hc : c < 64) (hd : d < 64) :
    sextets (a <<< 2 ||| b >>> 4) (b <<< 4 ||| c >>> 2) (c <<< 6 ||| d) = [a, b, c, d] := by
  obtain ⟨⟨haBack, -, haLow, -⟩, -, -, -⟩ := sextet_halves a ha
  obtain ⟨⟨-, hbOut, -, hbLow⟩, ⟨-, hbJoined⟩, ⟨hbHigh, -, -, -⟩, -⟩ := sextet_halves b hb
  obtain ⟨-, ⟨hcOut, -⟩, ⟨-, hcLow, -, hcJoined⟩, ⟨hcHigh, -⟩⟩ := sextet_halves c hc
  obtain ⟨-, -, ⟨-, -, hdOut, -⟩, ⟨-, hdLow⟩⟩ := sextet_halves d hd
  simp only [sextets, UInt8.shiftRight_or, or_and_distrib, haBack, hbOut, haLow, hbLow, hcOut,
    hbHigh, hcLow, hdOut, hcHigh, hdLow, UInt8.zero_or, UInt8.or_zero, hbJoined, hcJoined]

/-- With no spare bit set, nothing is left for the bytes that are not there. -/
theorem spare_shifted (v : UInt8) : (v &&& 3 = 0 → v <<< 6 = 0) ∧ (v &&& 15 = 0 → v <<< 4 = 0) := by
  revert v
  exact forall_byte (by decide +kernel)

theorem symbols_of_groupBytes {offset pads : Nat} {last : UInt8} {vs : List UInt8} {bytes : Bytes}
    (hlt : ∀ v ∈ vs, v < 64) (hfour : vs.length + pads ≤ 4)
    (h : groupBytes offset last pads vs = .ok bytes) :
    symbols bytes = vs.map symbol ++ List.replicate pads pad := by
  have hzero : (0 : UInt8) < 64 := by decide
  revert h
  fun_cases groupBytes offset last pads vs with
  | case1 a b c d =>
    rintro ⟨⟩
    simp only [List.forall_mem_cons] at hlt
    obtain ⟨ha, hb, hc, hd, -⟩ := hlt
    have hpads : pads = 0 := by
      simp only [List.length_cons, List.length_nil] at hfour
      omega
    rw [symbols, sextets_joined ha hb hc hd, hpads]
    rfl
  | case4 a b c hpads hspare =>
    rintro ⟨⟩
    simp only [List.forall_mem_cons] at hlt
    obtain ⟨ha, hb, hc, -⟩ := hlt
    have hjoined := sextets_joined ha hb hc hzero
    rw [UInt8.or_zero, (spare_shifted c).1 (Decidable.not_not.1 hspare)] at hjoined
    rw [symbols, hjoined, Decidable.not_not.1 hpads]
    rfl
  | case7 a b hpads hspare =>
    rintro ⟨⟩
    simp only [List.forall_mem_cons] at hlt
    obtain ⟨ha, hb, -⟩ := hlt
    have hjoined := sextets_joined ha hb hzero hzero
    rw [(spare_shifted b).2 (Decidable.not_not.1 hspare)] at hjoined
    rw [symbols, Decidable.not_not.1 hpads]
    exact congrArg (fun vs => (vs.take 2).map symbol ++ List.replicate 2 pad) hjoined
  | case2 | case3 | case5 | case6 | case8 => rintro ⟨⟩

theorem symbols_of_decodeLast {offset : Nat} {group bytes : Bytes} (hfour : group.length ≤ 4)
    (h : decodeLast offset group = .ok bytes) : symbols bytes = group := by
  have hgroup : group.takeWhile (fun s => decide (s ≠ pad)) ++
      group.dropWhile (fun s => decide (s ≠ pad)) = group := List.takeWhile_append_dropWhile
  rw [decodeLast] at h
  obtain ⟨front, hfront⟩ : ∃ front, group.takeWhile (fun s => decide (s ≠ pad)) = front := ⟨_, rfl⟩
  obtain ⟨pads, hpads⟩ : ∃ pads, group.dropWhile (fun s => decide (s ≠ pad)) = pads := ⟨_, rfl⟩
  rw [hfront, hpads] at h hgroup
  rcases hvalues : values offset front with defect | vs
  · simp only [hvalues] at h
    cases h
  obtain ⟨hlt, rfl⟩ := map_symbol_of_values hvalues
  simp only [hvalues] at h
  split at h
  next => cases h
  next hregular =>
    have hreplicate : pads = List.replicate pads.length pad := by
      refine List.eq_replicate_iff.2 ⟨rfl, fun s hs => ?_⟩
      have hall := Decidable.not_not.1 fun hother =>
        hregular ⟨List.ne_nil_of_mem hs, Or.inr hother⟩
      exact of_decide_eq_true (List.all_eq_true.1 hall s hs)
    have hlength := congrArg List.length hgroup
    rw [List.length_append, List.length_map] at hlength
    rw [symbols_of_groupBytes hlt (by omega) h, ← hreplicate, hgroup]

theorem symbols_of_decodeWhole {offset : Nat} {a b c d : UInt8} {bytes : Bytes}
    (h : decodeWhole offset a b c d = .ok bytes) (rest : Bytes) :
    symbols (bytes ++ rest) = a :: b :: c :: d :: symbols rest := by
  rw [decodeWhole] at h
  rcases hvalues : values offset [a, b, c, d] with defect | vs
  · simp only [hvalues] at h
    cases h
  obtain ⟨hlt, hmap⟩ := map_symbol_of_values hvalues
  simp only [hvalues] at h
  match vs, hmap with
  | [a, b, c, d], hmap =>
    obtain rfl := Except.ok.inj h
    simp only [List.forall_mem_cons] at hlt
    obtain ⟨ha, hb, hc, hd, -⟩ := hlt
    rw [List.cons_append, List.cons_append, List.cons_append, List.nil_append, symbols,
      sextets_joined ha hb hc hd, hmap]
    rfl

theorem symbols_of_decodeInto {offset : Nat} {acc out : Array UInt8} {group : Bytes}
    (h : decodeInto offset acc group = .ok out) :
    ∃ bytes : Bytes, out = acc ++ bytes.toArray ∧ symbols bytes = group := by
  revert h
  fun_induction decodeInto offset acc group with
  | case1 offset acc =>
    rintro ⟨⟩
    exact ⟨[], by simp, rfl⟩
  | case2 => rintro ⟨⟩
  | case3 offset acc a b c d e rest bytes hwhole ih =>
    intro h
    obtain ⟨more, rfl, hmore⟩ := ih h
    refine ⟨bytes ++ more, by simp, ?_⟩
    rw [symbols_of_decodeWhole hwhole, hmore]
  | case4 offset acc group hnil hlong =>
    intro h
    rcases hlast : decodeLast offset group with defect | bytes
    · rw [hlast] at h
      cases h
    rw [hlast] at h
    obtain rfl := Except.ok.inj h
    refine ⟨bytes, rfl, symbols_of_decodeLast ?_ hlast⟩
    match group, hlong with
    | [], _ => simp
    | [a], _ => simp
    | [a, b], _ => simp
    | [a, b, c], _ => simp
    | [a, b, c, d], _ => simp
    | a :: b :: c :: d :: e :: rest, hlong => exact (hlong a b c d e rest rfl).elim

/-- **Each row of symbols that is read is the one that is written** for its bytes. -/
theorem decode_eq_ok_iff {row bytes : Bytes} : decode row = .ok bytes ↔ row = encode bytes := by
  constructor
  · intro h
    rw [decode] at h
    split at h
    next => cases h
    next =>
      rcases hinto : decodeInto 0 #[] row with defect | out
      · rw [hinto] at h
        cases h
      rw [hinto] at h
      obtain rfl := Except.ok.inj h
      obtain ⟨bytes, rfl, hrow⟩ := symbols_of_decodeInto hinto
      simp [encode_eq_symbols, hrow]
  · rintro rfl
    exact decode_encode bytes

end SatReplay.Base64
