import ApiStack.Proofs.Decimal.Shortest
import ApiStack.Proofs.Json.Numerals

namespace ApiStack

open Json

theorem scaleByTen_of_neg (fuel : Nat) (x : Binary64) {exponent : Int} (h : exponent < 0) :
    ∃ y, scaleByTen fuel x exponent = some y := by
  induction fuel generalizing x exponent with
  | zero =>
    unfold scaleByTen
    by_cases hs : exponent.natAbs ≤ 308
    · exact ⟨_, by rw [if_pos hs, if_neg (by omega)]⟩
    · exact ⟨_, by rw [if_neg hs]⟩
  | succ fuel ih =>
    unfold scaleByTen
    by_cases hs : exponent.natAbs ≤ 308
    · exact ⟨_, by rw [if_pos hs, if_neg (by omega)]⟩
    · rw [if_neg hs]
      by_cases hx : x.isNonzero = true
      · simp only [hx, Bool.not_true, Bool.false_eq_true, if_false]
        rw [if_neg (by omega)]
        exact ih _ (by omega)
      · rw [Bool.not_eq_true] at hx
        exact ⟨x, by simp [hx]⟩

theorem isOk_assemble {negative : Bool} {significand : Nat} {exponent : Int} {rest : List Char}
    (h : ∃ y, scaleByTen 4 (Binary64.ofNat significand) exponent = some y) :
    (assemble negative significand exponent rest).isOk = true := by
  obtain ⟨y, hy⟩ := h
  rw [assemble, hy]
  rfl

theorem takeExponent_cases (ds : List Char) (exponent : Nat) (h : ds.all Char.isDigit = true) :
    takeExponent exponent ds = (Nat.ofDigitChars 10 ds exponent, true, []) ∨
      ∃ e rest, takeExponent exponent ds = (e, false, rest) := by
  induction ds generalizing exponent with
  | nil => exact .inl rfl
  | cons c ds ih =>
    rw [List.all_cons, Bool.and_eq_true] at h
    rw [takeExponent, if_pos h.1]
    simp only
    split
    · exact .inr ⟨_, _, rfl⟩
    · exact ih _ h.2

/-- An exponent that makes a number smaller never fails. -/
theorem isOk_readExponent_minus {negative : Bool} {significand : Nat} {start : Int}
    {ds : List Char} (hne : ds ≠ []) (hds : ds.all Char.isDigit = true)
    (he : start < Nat.ofDigitChars 10 ds 0) :
    (readExponent negative significand start ('-' :: ds)).isOk = true := by
  obtain ⟨c, cs, rfl⟩ := List.exists_cons_of_ne_nil hne
  have hc : c.isDigit = true := List.all_eq_true.1 hds c List.mem_cons_self
  simp only [readExponent, hc, Bool.not_true, Bool.false_eq_true, if_false]
  rcases takeExponent_cases (c :: cs) 0 hds with ht | ⟨e, rest, ht⟩
  · rw [ht]
    exact isOk_assemble (scaleByTen_of_neg 4 _ (Int.sub_neg_of_lt he))
  · rw [ht]
    rfl

/-- An exponent that makes a number greater fails only if the number gets too large. -/
theorem isOk_readExponent_plus {negative : Bool} {significand : Nat} {start : Int}
    {ds : List Char} (hne : ds ≠ []) (hds : ds.all Char.isDigit = true)
    (hle : Nat.ofDigitChars 10 ds 0 ≤ Nat.pow 2 31 - 1)
    (h : ∃ y, scaleByTen 4 (Binary64.ofNat significand) (start + Nat.ofDigitChars 10 ds 0) =
      some y) : (readExponent negative significand start ('+' :: ds)).isOk = true := by
  obtain ⟨c, cs, rfl⟩ := List.exists_cons_of_ne_nil hne
  have hc : c.isDigit = true := List.all_eq_true.1 hds c List.mem_cons_self
  simp only [readExponent, hc, Bool.not_true, Bool.false_eq_true, if_false]
  rw [takeExponent_of_le hds hle]
  exact isOk_assemble h

/-- A text without its sign is a number that can be read. -/
def IsReadable (negative : Bool) (text : List Char) : Prop :=
  ∃ n : Numeral, n.negative = negative ∧ n.IsWellFormed ∧ n.unsignedText = text ∧
    (readNumber n.text).isOk = true

theorem isReadable_of_fraction {n : Numeral} (h : n.IsWellFormed)
    (hs : n.significand ≤ greatestWord) (hf : n.fraction ≠ []) (he : n.exponent = none) :
    IsReadable n.negative n.unsignedText := by
  refine ⟨n, rfl, h, rfl, ?_⟩
  have hlength : 0 < n.fraction.length := List.length_pos_iff.2 hf
  have htext : n.exponentText = [] := by rw [Numeral.exponentText, he]
  rw [n.readNumber_text h, h.readUnsigned_scale hs (.inl hf), htext]
  refine isOk_assemble (scaleByTen_of_neg 4 _ ?_)
  rw [Int.ofNat_eq_natCast]
  omega

namespace Decimal

variable {d : Decimal}

theorem isReadable_zero (negative : Bool) : IsReadable negative ['0', '.', '0'] := by
  have hs : Nat.ofDigitChars 10 ['0', '0'] 0 ≤ greatestWord := by decide
  exact isReadable_of_fraction (n := ⟨negative, ['0'], ['0'], none⟩) ⟨.inl rfl, rfl, nofun⟩ hs
    (List.cons_ne_nil _ _) rfl

theorem digitText_all (d : Decimal) : d.digitText.all Char.isDigit = true :=
  toDigits_all_isDigit d.digits

theorem ofDigitChars_digitText (d : Decimal) : Nat.ofDigitChars 10 d.digitText 0 = d.digits :=
  Nat.ofDigitChars_ten_toDigits

theorem exists_digitText_eq_cons (h : d.digits ≠ 0) : ∃ c cs, d.digitText = c :: cs ∧ c ≠ '0' ∧
    c.isDigit = true ∧ cs.all Char.isDigit = true := by
  obtain ⟨c, cs, he, hc⟩ := exists_toDigits_eq_cons (Nat.pos_of_ne_zero h)
  have hall := d.digitText_all
  rw [digitText, he, List.all_cons, Bool.and_eq_true] at hall
  exact ⟨c, cs, he, hc, hall.1, hall.2⟩

theorem all_replicate_zero (n : Nat) : (List.replicate n '0').all Char.isDigit = true := by
  rw [List.all_replicate]
  simp

theorem isReadable_whole (negative : Bool) (h : d.digits ≠ 0) (he : 0 ≤ d.exponent)
    (hp : d.pointPlace ≤ 16) : IsReadable negative d.positional := by
  obtain ⟨c, cs, hds, hc, hdigit, hcs⟩ := exists_digitText_eq_cons h
  have hw : Numeral.IsWellFormed ⟨negative, d.digitText ++ List.replicate d.exponent.toNat '0',
      ['0'], none⟩ := by
    refine ⟨.inr ⟨c, cs ++ List.replicate d.exponent.toNat '0', ?_, hc, hdigit, ?_⟩, rfl, nofun⟩
    · rw [hds, List.cons_append]
    · rw [List.all_append, hcs, all_replicate_zero]
      rfl
  have hs : Numeral.significand ⟨negative, d.digitText ++ List.replicate d.exponent.toNat '0',
      ['0'], none⟩ ≤ greatestWord := by
    have hlength : d.digitText.length + d.exponent.toNat ≤ 16 := by
      rw [pointPlace, Int.ofNat_eq_natCast] at hp
      omega
    have hlt : d.digits * 10 ^ d.exponent.toNat < 10 ^ 16 :=
      calc d.digits * 10 ^ d.exponent.toNat
          < 10 ^ d.digitText.length * 10 ^ d.exponent.toNat :=
            Nat.mul_lt_mul_of_pos_right (lt_pow_toDigits d.digits) (Nat.pow_pos (by decide))
        _ = 10 ^ (d.digitText.length + d.exponent.toNat) := (Nat.pow_add ..).symm
        _ ≤ 10 ^ 16 := Nat.pow_le_pow_right (by decide) hlength
    have hvalue : Nat.ofDigitChars 10
        (d.digitText ++ List.replicate d.exponent.toNat '0' ++ ['0']) 0 =
          10 * (10 ^ d.exponent.toNat * d.digits) := by
      rw [Nat.ofDigitChars_append, Nat.ofDigitChars_append, ofDigitChars_digitText,
        Nat.ofDigitChars_replicate_zero]
      rfl
    have hword : 10 * 10 ^ 16 ≤ greatestWord := by decide
    rw [Numeral.significand, hvalue, Nat.mul_comm (10 ^ _)]
    omega
  have htext : Numeral.unsignedText ⟨negative, d.digitText ++ List.replicate d.exponent.toNat '0',
      ['0'], none⟩ = d.positional := by
    rw [positional, if_pos he]
    rfl
  exact htext ▸ isReadable_of_fraction hw hs (List.cons_ne_nil _ _) rfl

theorem isReadable_point (negative : Bool) (h : d.digits ≠ 0) (hd : d.digits ≤ greatestWord)
    (he : d.exponent < 0) (hp : 0 < d.pointPlace) : IsReadable negative d.positional := by
  obtain ⟨c, cs, hds, hc, hdigit, hcs⟩ := exists_digitText_eq_cons h
  have hall : ∀ a ∈ cs, a.isDigit = true := List.all_eq_true.1 hcs
  obtain ⟨place, hplace⟩ : ∃ place, d.pointPlace.toNat = place + 1 :=
    ⟨d.pointPlace.toNat - 1, by omega⟩
  have hlt : d.pointPlace.toNat < d.digitText.length := by
    rw [pointPlace, Int.ofNat_eq_natCast] at hp ⊢
    omega
  have hw : Numeral.IsWellFormed ⟨negative, d.digitText.take d.pointPlace.toNat,
      d.digitText.drop d.pointPlace.toNat, none⟩ := by
    refine ⟨.inr ⟨c, cs.take place, ?_, hc, hdigit, ?_⟩, ?_, nofun⟩
    · rw [hplace, hds, List.take_succ_cons]
    · exact List.all_eq_true.2 fun a ha => hall a (List.mem_of_mem_take ha)
    · exact List.all_eq_true.2 fun a ha =>
        List.all_eq_true.1 d.digitText_all a (List.mem_of_mem_drop ha)
  have hs : Numeral.significand ⟨negative, d.digitText.take d.pointPlace.toNat,
      d.digitText.drop d.pointPlace.toNat, none⟩ ≤ greatestWord := by
    rw [Numeral.significand, List.take_append_drop, ofDigitChars_digitText]
    exact hd
  have hf : d.digitText.drop d.pointPlace.toNat ≠ [] := by
    rw [Ne, List.drop_eq_nil_iff]
    omega
  have htext : Numeral.unsignedText ⟨negative, d.digitText.take d.pointPlace.toNat,
      d.digitText.drop d.pointPlace.toNat, none⟩ = d.positional := by
    rw [positional, if_neg (by omega), if_pos hp, Numeral.unsignedText,
      Numeral.fractionText, if_neg hf, Numeral.exponentText, List.append_nil]
  exact htext ▸ isReadable_of_fraction hw hs hf rfl

theorem isReadable_small (negative : Bool) (h : d.digits ≠ 0) (hd : d.digits ≤ greatestWord)
    (he : d.exponent < 0) (hp : ¬0 < d.pointPlace) : IsReadable negative d.positional := by
  have hw : Numeral.IsWellFormed ⟨negative, ['0'],
      List.replicate (-d.pointPlace).toNat '0' ++ d.digitText, none⟩ := by
    refine ⟨.inl rfl, ?_, nofun⟩
    rw [List.all_append, all_replicate_zero, digitText_all]
    rfl
  have hs : Numeral.significand ⟨negative, ['0'],
      List.replicate (-d.pointPlace).toNat '0' ++ d.digitText, none⟩ ≤ greatestWord := by
    have hzero : Nat.ofDigitChars 10 ['0'] 0 = 0 := rfl
    rw [Numeral.significand, Nat.ofDigitChars_append, Nat.ofDigitChars_append, hzero,
      Nat.ofDigitChars_replicate_zero, Nat.mul_zero, ofDigitChars_digitText]
    exact hd
  have hf : List.replicate (-d.pointPlace).toNat '0' ++ d.digitText ≠ [] := by
    obtain ⟨c, cs, hds, -⟩ := exists_digitText_eq_cons h
    rw [hds]
    simp
  have htext : Numeral.unsignedText ⟨negative, ['0'],
      List.replicate (-d.pointPlace).toNat '0' ++ d.digitText, none⟩ = d.positional := by
    rw [positional, if_neg (by omega), if_neg hp, Numeral.unsignedText,
      Numeral.fractionText, if_neg hf, Numeral.exponentText, List.append_nil]
    rfl
  exact htext ▸ isReadable_of_fraction hw hs hf rfl

def scientificNumeral (d : Decimal) (negative : Bool) : Numeral :=
  ⟨negative, d.digitText.take 1, d.digitText.drop 1,
    some (!(d.pointPlace - 1 < 0), Nat.toDigits 10 (d.pointPlace - 1).natAbs)⟩

theorem isWellFormed_scientificNumeral (negative : Bool) (h : d.digits ≠ 0) :
    (d.scientificNumeral negative).IsWellFormed := by
  obtain ⟨c, cs, hds, hc, hdigit, hcs⟩ := exists_digitText_eq_cons h
  refine ⟨.inr ⟨c, [], ?_, hc, hdigit, rfl⟩, ?_, fun e he => ?_⟩
  · rw [scientificNumeral, hds]
    rfl
  · rw [scientificNumeral, hds]
    exact hcs
  · cases he
    exact ⟨Nat.toDigits_ne_nil, toDigits_all_isDigit _⟩

theorem unsignedText_scientificNumeral (negative : Bool) (h : d.digits ≠ 0) :
    (d.scientificNumeral negative).unsignedText = d.scientific true := by
  obtain ⟨c, cs, hds, -⟩ := exists_digitText_eq_cons h
  rw [scientific, scientificNumeral, hds]
  by_cases hn : d.pointPlace - 1 < 0 <;> cases cs <;>
    simp [Numeral.unsignedText, Numeral.fractionText, Numeral.exponentText, hn]

theorem significand_scientificNumeral (d : Decimal) (negative : Bool) :
    (d.scientificNumeral negative).significand = d.digits := by
  rw [Numeral.significand, scientificNumeral, List.take_append_drop, ofDigitChars_digitText]

theorem exponentText_scientificNumeral (d : Decimal) (negative : Bool) :
    (d.scientificNumeral negative).exponentText = 'e' ::
      (if d.pointPlace - 1 < 0 then '-' else '+') :: Nat.toDigits 10 (d.pointPlace - 1).natAbs := by
  by_cases hn : d.pointPlace - 1 < 0 <;> simp [scientificNumeral, Numeral.exponentText, hn]

theorem isReadable_scientific (negative : Bool) (h : d.digits ≠ 0) (hd : d.digits ≤ 10 ^ 17)
    (hbig : 0 ≤ d.exponent → d.exponent ≤ 308 ∧
      ∃ y, scaleByTen 4 (Binary64.ofNat d.digits) d.exponent = some y) :
    IsReadable negative (d.scientific true) := by
  obtain ⟨power, hpower⟩ : ∃ power, power = d.pointPlace - 1 := ⟨_, rfl⟩
  obtain ⟨ds, hds⟩ : ∃ ds, ds = d.digitText.drop 1 := ⟨_, rfl⟩
  have hw := isWellFormed_scientificNumeral negative h
  have hs := d.significand_scientificNumeral negative
  have hword : 10 ^ 17 ≤ greatestWord := by decide
  have hlength : d.digitText.length ≤ 18 :=
    (Nat.length_toDigits_le_iff (by decide) (by decide)).2 (hd.trans_lt (by decide))
  have hplace : power = ds.length + d.exponent := by
    have hpos : 0 < d.digitText.length := Nat.length_toDigits_pos
    rw [hpower, pointPlace, hds, List.length_drop, Int.ofNat_eq_natCast]
    omega
  have hle : ds.length ≤ 17 := by
    rw [hds, List.length_drop]
    omega
  have habs : Nat.ofDigitChars 10 (Nat.toDigits 10 power.natAbs) 0 = power.natAbs :=
    Nat.ofDigitChars_ten_toDigits
  refine ⟨_, rfl, hw, unsignedText_scientificNumeral negative h, ?_⟩
  rw [Numeral.readNumber_text _ hw,
    hw.readUnsigned_scale (by rw [hs]; omega) (.inr (Option.some_ne_none _)), hs,
    exponentText_scientificNumeral, ← hpower]
  -- The exponent counts from the first digit, so the one of the last digit is less.
  change (readExponent _ _ (-Int.ofNat (d.digitText.drop 1).length) _).isOk = true
  rw [← hds]
  by_cases hn : power < 0
  · rw [if_pos hn]
    refine isOk_readExponent_minus Nat.toDigits_ne_nil (toDigits_all_isDigit _) ?_
    rw [habs, Int.ofNat_eq_natCast]
    omega
  · have hsum : -Int.ofNat ds.length + (power.natAbs : Int) = d.exponent := by
      rw [Int.ofNat_eq_natCast]
      omega
    have hpow : Nat.pow 2 31 - 1 = 2147483647 := by decide
    rw [if_neg hn]
    refine isOk_readExponent_plus Nat.toDigits_ne_nil (toDigits_all_isDigit _) ?_ ?_
    · rw [habs, hpow]
      by_cases he : 0 ≤ d.exponent
      · have hle := (hbig he).1
        omega
      · omega
    · rw [habs, hsum]
      by_cases he : 0 ≤ d.exponent
      · exact (hbig he).2
      · exact scaleByTen_of_neg 4 _ (by omega)

/-- The text of a decimal can be read unless the number is too large. -/
theorem isReadable_compact (negative : Bool) (hd : d.digits ≤ 10 ^ 17)
    (hbig : d.digits ≠ 0 → 0 ≤ d.exponent → d.exponent ≤ 308 ∧
      ∃ y, scaleByTen 4 (Binary64.ofNat d.digits) d.exponent = some y) :
    IsReadable negative (d.compact true) := by
  have hword : 10 ^ 17 ≤ greatestWord := by decide
  unfold compact
  by_cases h : d.digits = 0
  · rw [if_pos h]
    exact isReadable_zero negative
  rw [if_neg h]
  by_cases hp : (decide (-5 < d.pointPlace) && decide (d.pointPlace ≤ 16)) = true
  · rw [if_pos hp]
    rw [Bool.and_eq_true, decide_eq_true_eq, decide_eq_true_eq] at hp
    by_cases he : 0 ≤ d.exponent
    · exact isReadable_whole negative h he hp.2
    by_cases hpos : 0 < d.pointPlace
    · exact isReadable_point negative h (hd.trans hword) (by omega) hpos
    · exact isReadable_small negative h (hd.trans hword) (by omega) hpos
  · rw [if_neg hp]
    exact isReadable_scientific negative h hd (hbig h)

end Decimal

end ApiStack
