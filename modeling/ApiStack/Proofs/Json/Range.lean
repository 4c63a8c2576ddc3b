import ApiStack.Proofs.Decimal.Readable
import ApiStack.Json.Printer

namespace ApiStack

open Binary64

namespace Binary64

theorem ten_pow_lt_overflow {k : ℕ} (hk : k ≤ 308) : (10 : ℚ) ^ k < overflow := by
  have hpow : (2 : ℚ) ^ (971 : ℤ) * 2 ^ 53 = (2 ^ 256) ^ 4 := by
    rw [← zpow_natCast, ← zpow_natCast, ← zpow_natCast, ← zpow_mul, ← zpow_add₀ two_ne_zero]
    rfl
  calc (10 : ℚ) ^ k ≤ 10 ^ 308 := pow_le_pow_right₀ (by norm_num) hk
    _ = (10 ^ 77) ^ 4 := by rw [← pow_mul]
    _ ≤ (87 / 100 * 2 ^ 256) ^ 4 := by
        gcongr
        norm_num
    _ = (87 / 100) ^ 4 * (2 ^ (971 : ℤ) * 2 ^ 53) := by rw [mul_pow, hpow]
    _ = ((87 / 100) ^ 4 * 2 ^ 53) * 2 ^ (971 : ℤ) := by ring
    _ < overflow := by
        rw [overflow]
        gcongr
        norm_num

theorem isFinite_div_power {x : Binary64} (h : x.isFinite = true) {k : ℕ} (hk : k ≤ 308) :
    (x.divMagnitude (ofDecimal false 1 (Int.ofNat k))).isFinite = true := by
  refine isFinite_divMagnitude (value_lt_overflow h) ?_
  have hone : (1 : ℚ) ≤ ((10 ^ k : ℕ) : ℚ) / (1 : ℕ) := by
    push_cast
    rw [div_one]
    exact one_le_pow₀ (by norm_num)
  have hlt : ((10 ^ k : ℕ) : ℚ) / (1 : ℕ) < overflow := by
    push_cast
    rw [div_one]
    exact ten_pow_lt_overflow hk
  rw [ofDecimal_one hk]
  exact (value_ofRatio Nat.one_pos hone hlt).1

end Binary64

namespace Json

theorem isFinite_scaleByTen {fuel : ℕ} {x y : Binary64} {exponent : ℤ} (hx : x.isFinite = true)
    (h : scaleByTen fuel x exponent = some y) : y.isFinite = true := by
  -- Scaling by one power of ten, whatever the fuel.
  have hnear {exponent : ℤ} {x : Binary64} (hx : x.isFinite = true)
      (hs : exponent.natAbs ≤ 308) (h : (if 0 ≤ exponent then
        if (x.mulMagnitude (ofDecimal false 1 (Int.ofNat exponent.natAbs))).isFinite = true then
          some (x.mulMagnitude (ofDecimal false 1 (Int.ofNat exponent.natAbs))) else none
        else some (x.divMagnitude (ofDecimal false 1 (Int.ofNat exponent.natAbs)))) = some y) :
      y.isFinite = true := by
    split at h
    · split at h
      · next hfinite =>
        cases h
        exact hfinite
      · cases h
    · cases h
      exact isFinite_div_power hx hs
  induction fuel generalizing x exponent with
  | zero =>
    unfold scaleByTen at h
    by_cases hs : exponent.natAbs ≤ 308
    · rw [if_pos hs] at h
      exact hnear hx hs h
    · rw [if_neg hs] at h
      cases h
      exact hx
  | succ fuel ih =>
    unfold scaleByTen at h
    by_cases hs : exponent.natAbs ≤ 308
    · rw [if_pos hs] at h
      exact hnear hx hs h
    · rw [if_neg hs] at h
      simp only at h
      split at h
      · cases h
        exact hx
      · split at h
        · cases h
        · exact ih (isFinite_div_power hx (by decide)) h

/-- Integers have 64 bits, with or without a sign, and doubles are finite. -/
def Number.InRange : Number → Prop
  | .int n => -((Nat.pow 2 63 : ℕ) : ℤ) ≤ n ∧ n ≤ greatestWord
  | .float x => x.isFinite = true

theorem inRange_ofNat {n : ℕ} (h : n ≤ greatestWord) : (Number.int (Int.ofNat n)).InRange := by
  show -((Nat.pow 2 63 : ℕ) : ℤ) ≤ Int.ofNat n ∧ Int.ofNat n ≤ greatestWord
  rw [Int.ofNat_eq_natCast]
  omega

theorem inRange_neg {n : ℕ} (h : n ≤ Nat.pow 2 63) : (Number.int (-Int.ofNat n)).InRange := by
  show -((Nat.pow 2 63 : ℕ) : ℤ) ≤ -Int.ofNat n ∧ -Int.ofNat n ≤ greatestWord
  rw [Int.ofNat_eq_natCast]
  omega

theorem takeDigits_le {significand : ℕ} (count : ℕ) (cs : List Char)
    (h : significand ≤ greatestWord) : (takeDigits significand count cs).1 ≤ greatestWord := by
  induction cs generalizing significand count with
  | nil => exact h
  | cons c cs ih =>
    rw [takeDigits]
    split
    · simp only
      split
      · exact h
      · next hle => exact ih _ (not_lt.1 hle)
    · exact h

theorem isFinite_ofNat {n : ℕ} (h : n ≤ greatestWord) : (Binary64.ofNat n).isFinite = true := by
  refine isFinite_ofRatio Nat.one_pos ?_
  have hle : (n : ℚ) ≤ 10 ^ 20 := by
    have hword : greatestWord ≤ 10 ^ 20 := by decide
    exact_mod_cast h.trans hword
  rw [Nat.cast_one, div_one]
  exact hle.trans_lt (ten_pow_lt_overflow (by decide))

section Reading

variable {negative : Bool} {significand : ℕ} {start : ℤ} {cs rest : List Char} {n : Number}

theorem inRange_assemble (hs : significand ≤ greatestWord)
    (h : assemble negative significand start cs = .ok (n, rest)) : n.InRange := by
  unfold assemble at h
  split at h
  · next x hx =>
    have hfinite := isFinite_scaleByTen (isFinite_ofNat hs) hx
    cases h
    cases negative with
    | true => exact isFinite_negate hfinite
    | false => exact hfinite
  · cases h

theorem inRange_readExponent (hs : significand ≤ greatestWord)
    (h : readExponent negative significand start cs = .ok (n, rest)) : n.InRange := by
  unfold readExponent at h
  simp only at h
  split at h
  · cases h
  · split at h
    · cases h
    · split at h
      · exact inRange_assemble hs h
      · rcases (ite_eq_or_eq _ _ _).imp h.symm.trans h.symm.trans with he | he
        · cases he
        · cases he
          exact isFinite_ofSignedBits negative (by decide)

theorem inRange_readScale (hs : significand ≤ greatestWord)
    (h : readScale negative significand start cs = .ok (n, rest)) : n.InRange := by
  unfold readScale at h
  split at h
  · exact inRange_readExponent hs h
  · exact inRange_readExponent hs h
  · exact inRange_assemble hs h

theorem inRange_readFraction (hs : significand ≤ greatestWord)
    (h : readFraction negative significand start cs = .ok (n, rest)) : n.InRange := by
  have hs' := takeDigits_le 0 cs hs
  unfold readFraction at h
  split at h
  · cases h
  · split at h
    · cases h
    · exact inRange_readScale hs' h

theorem inRange_readUnsigned (h : readUnsigned negative cs = .ok (n, rest)) : n.InRange := by
  have hs := takeDigits_le 0 cs (Nat.zero_le greatestWord)
  unfold readUnsigned at h
  split at h
  · cases h
  · split at h
    · cases h
    · split at h
      · cases h
      · simp only at h
        split at h
        · exact inRange_readFraction hs h
        · exact inRange_readExponent hs h
        · exact inRange_readExponent hs h
        · split at h
          · exact inRange_assemble hs h
          · split at h
            · cases h
              exact inRange_ofNat hs
            · split at h
              · cases h
                exact isFinite_negate (isFinite_ofNat hs)
              · next hneg =>
                cases h
                rw [Bool.or_eq_true, decide_eq_true_eq, decide_eq_true_eq] at hneg
                exact inRange_neg (not_lt.1 fun hlt => hneg (.inr hlt))

theorem inRange_readNumber (h : readNumber cs = .ok (n, rest)) : n.InRange := by
  unfold readNumber at h
  split at h <;> exact inRange_readUnsigned h

end Reading

/-- The number that is read where a number is written. A double may become a neighbour of it. -/
def Number.reread (n : Number) : Number :=
  match readNumber n.render.toList with
  | .ok (m, _) => m
  | .error _ => n

theorem Number.InRange.exists_numeral {n : Number} (h : n.InRange) :
    ∃ k : Numeral, k.IsWellFormed ∧ k.text = n.render.toList ∧ (readNumber k.text).isOk = true := by
  cases n with
  | int n =>
    refine ⟨Numeral.ofInt n, Numeral.isWellFormed_toDigits _ _, Numeral.text_ofInt n, ?_⟩
    rw [Numeral.readNumber_ofInt h.1 h.2]
    rfl
  | float x =>
    obtain ⟨k, hk, hwell, htext, hok⟩ := Decimal.isReadable_shortest h x.isNegative
    refine ⟨k, hwell, ?_, hok⟩
    rw [render, Binary64.render, String.toList_ofList, Numeral.text, hk, htext]

theorem Number.InRange.reread_int {n : Int} (h : (Number.int n).InRange) :
    (Number.int n).reread = .int n := by
  have htext : (Number.int n).render.toList = (Numeral.ofInt n).text := (Numeral.text_ofInt n).symm
  rw [reread, htext, Numeral.readNumber_ofInt h.1 h.2]

end Json

end ApiStack
