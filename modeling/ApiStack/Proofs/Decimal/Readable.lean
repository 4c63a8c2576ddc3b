import ApiStack.Proofs.Decimal.Layout

namespace ApiStack

open Json

namespace Binary64

theorem overflow_lt : overflow < 10 ^ 309 := by
  have hpow : (2 : ℚ) ^ 1024 = (2 ^ 93) ^ 11 * 2 := by
    rw [← pow_mul, ← pow_succ]
  calc overflow < 2 ^ 53 * 2 ^ (971 : ℤ) := by
        rw [overflow]
        gcongr
        norm_num
    _ = 2 ^ 1024 := by
        rw [← zpow_natCast, ← zpow_natCast, ← zpow_add₀ two_ne_zero]
        rfl
    _ = (2 ^ 93) ^ 11 * 2 := hpow
    _ ≤ (10 ^ 28) ^ 11 * 10 := by
        gcongr <;> norm_num
    _ = 10 ^ 309 := by rw [← pow_mul, ← pow_succ]

theorem ofDecimal_one {k : ℕ} (hk : k ≤ 308) :
    ofDecimal false 1 (Int.ofNat k) = ofRatio false (10 ^ k) 1 := by
  have hone : (Nat.toDigits 10 1).length = 1 := rfl
  unfold ofDecimal
  simp only [hone, Int.ofNat_eq_natCast]
  rw [if_neg (by simp only [Bool.or_eq_true, decide_eq_true_eq]; omega), if_neg (by omega),
    powerOfTen, if_pos (by omega), Int.toNat_natCast]
  simp

/-- A product that is out of range by no more than two roundings can still be formed. -/
theorem exists_scaleByTen {digits : ℕ} {k : ℤ} (hd : digits ≠ 0) (hk : 0 ≤ k)
    (h : digits * 10 ^ k * (1 + 1 / 2 ^ 53) ^ 2 < overflow) :
    k ≤ 308 ∧ ∃ y, scaleByTen 4 (ofNat digits) k = some y := by
  obtain ⟨k, rfl⟩ := Int.eq_ofNat_of_zero_le hk
  rw [zpow_natCast] at h
  have hone : (1 : ℚ) ≤ digits := by exact_mod_cast Nat.pos_of_ne_zero hd
  have hpow : (1 : ℚ) ≤ 10 ^ k := one_le_pow₀ (by norm_num)
  have hprod : (digits : ℚ) * 10 ^ k < overflow := by
    refine lt_of_le_of_lt (le_mul_of_one_le_right (by positivity) ?_) h
    norm_num
  have hdigits : (digits : ℚ) / (1 : ℕ) < overflow := by
    rw [Nat.cast_one, div_one]
    exact lt_of_le_of_lt (le_mul_of_one_le_right (by positivity) hpow) hprod
  have hten : ((10 ^ k : ℕ) : ℚ) / (1 : ℕ) < overflow := by
    rw [Nat.cast_one, div_one]
    push_cast
    exact lt_of_le_of_lt (le_mul_of_one_le_left (by positivity) hone) hprod
  have hk308 : k ≤ 308 := by
    by_contra hbig
    have hle : (10 : ℚ) ^ 309 ≤ 10 ^ k := pow_le_pow_right₀ (by norm_num) (by omega)
    push_cast at hten
    rw [div_one] at hten
    exact absurd (overflow_lt.trans_le hle) (not_lt.2 hten.le)
  have hvalue := (value_ofRatio Nat.one_pos (by simpa using hone) hdigits).2
  have hpower := (value_ofRatio Nat.one_pos (by simpa using hpow) hten).2
  obtain ⟨power, hpow'⟩ : ∃ power, power = ofDecimal false 1 (Int.ofNat k) := ⟨_, rfl⟩
  have hfinite : ((ofNat digits).mulMagnitude power).isFinite = true := by
    refine isFinite_mulMagnitude (lt_of_le_of_lt ?_ h)
    rw [hpow', ofDecimal_one hk308, ofNat]
    calc (ofRatio false digits 1).value * (ofRatio false (10 ^ k) 1).value
        ≤ (digits / (1 : ℕ) * (1 + 1 / 2 ^ 53)) * ((10 ^ k : ℕ) / (1 : ℕ) * (1 + 1 / 2 ^ 53)) :=
          mul_le_mul hvalue hpower (value_nonneg _) (by positivity)
      _ = digits * 10 ^ k * (1 + 1 / 2 ^ 53) ^ 2 := by
          push_cast
          ring
  refine ⟨by exact_mod_cast hk308, (ofNat digits).mulMagnitude power, ?_⟩
  subst hpow'
  unfold scaleByTen
  rw [Int.natAbs_natCast, if_pos hk308, if_pos hk, if_pos hfinite]

end Binary64

namespace Decimal

open Binary64

theorem shortest_congr {x y : Binary64} (h : x.significand = y.significand) :
    shortest x = shortest y := by
  have hratio : x.ratio = y.ratio := by rw [ratio, ratio, h]
  unfold shortest
  rw [h, hratio]

/-- The two greatest doubles are too near to the end of the range for an estimate. -/
theorem shortest_greatest {x : Binary64} (hm : 2 ^ 53 - 2 ≤ x.significand.1)
    (hm' : x.significand.1 < 2 ^ 53) (hq : x.significand.2 = 971) :
    (shortest x).exponent = 292 ∧
      (scaleByTen 4 (ofNat (shortest x).digits) 292).isSome = true := by
  have hcases : x.significand.1 = 2 ^ 53 - 1 ∨ x.significand.1 = 2 ^ 53 - 2 := by omega
  rcases hcases with he | he
  · have hsig : x.significand = (⟨0x7FEFFFFFFFFFFFFF⟩ : Binary64).significand := Prod.ext he hq
    rw [shortest_congr hsig]
    decide +kernel
  · have hsig : x.significand = (⟨0x7FEFFFFFFFFFFFFE⟩ : Binary64).significand := Prod.ext he hq
    rw [shortest_congr hsig]
    decide +kernel

/-- Half a step above any other double is still in range after two roundings. -/
theorem rounded_lt_overflow {m : ℕ} {q : ℤ} (hm : m < 2 ^ 53) (hq : q ≤ 971)
    (h : q = 971 → m < 2 ^ 53 - 2) :
    (m + 1 / 2 : ℚ) * 2 ^ q * (1 + 1 / 2 ^ 53) ^ 2 < overflow := by
  rw [overflow]
  rcases hq.lt_or_eq with hlt | he
  · have hle : (m : ℚ) + 1 ≤ 2 ^ 53 := by exact_mod_cast hm
    have hpow : (2 : ℚ) ^ q ≤ 2 ^ (971 : ℤ) / 2 := by
      rw [le_div_iff₀ two_pos, ← zpow_add_one₀ two_ne_zero]
      exact zpow_le_zpow_right₀ one_le_two (by omega)
    calc (m + 1 / 2 : ℚ) * 2 ^ q * (1 + 1 / 2 ^ 53) ^ 2
        ≤ (2 ^ 53 - 1 / 2) * (2 ^ (971 : ℤ) / 2) * (1 + 1 / 2 ^ 53) ^ 2 := by
          gcongr
          linarith
      _ = (2 ^ 53 - 1 / 2) * ((1 + 1 / 2 ^ 53) ^ 2 / 2) * 2 ^ (971 : ℤ) := by ring
      _ < (2 ^ 53 - 1 / 2) * 2 ^ (971 : ℤ) := by
          gcongr
          norm_num
  · have hle : (m : ℚ) + 3 ≤ 2 ^ 53 := by
      have := h he
      exact_mod_cast (by omega : m + 3 ≤ 2 ^ 53)
    subst he
    calc (m + 1 / 2 : ℚ) * 2 ^ (971 : ℤ) * (1 + 1 / 2 ^ 53) ^ 2
        ≤ (2 ^ 53 - 5 / 2) * 2 ^ (971 : ℤ) * (1 + 1 / 2 ^ 53) ^ 2 := by
          gcongr
          linarith
      _ = (2 ^ 53 - 5 / 2) * (1 + 1 / 2 ^ 53) ^ 2 * 2 ^ (971 : ℤ) := by ring
      _ < (2 ^ 53 - 1 / 2) * 2 ^ (971 : ℤ) := by
          gcongr
          norm_num

theorem exists_scaleByTen_shortest {x : Binary64} (h : x.isFinite = true)
    (hd : (shortest x).digits ≠ 0) (he : 0 ≤ (shortest x).exponent) :
    (shortest x).exponent ≤ 308 ∧
      ∃ y, scaleByTen 4 (ofNat (shortest x).digits) (shortest x).exponent = some y := by
  obtain ⟨hm, hq⟩ := significand_lt h
  by_cases hgreat : x.significand.2 = 971 ∧ 2 ^ 53 - 2 ≤ x.significand.1
  · obtain ⟨hexp, hsome⟩ := shortest_greatest hgreat.2 hm hgreat.1
    rw [hexp]
    exact ⟨by decide, Option.isSome_iff_exists.1 hsome⟩
  · have hlt := rounded_lt_overflow hm hq fun hq => not_le.1 fun hm => hgreat ⟨hq, hm⟩
    refine exists_scaleByTen hd he (lt_of_le_of_lt ?_ hlt)
    have hvalue := (shortest_spec x).2
    rw [value] at hvalue
    gcongr

theorem isReadable_shortest {x : Binary64} (h : x.isFinite = true) (negative : Bool) :
    IsReadable negative ((shortest x).compact true) :=
  isReadable_compact negative (shortest_spec x).1 (exists_scaleByTen_shortest h)

end Decimal

end ApiStack
