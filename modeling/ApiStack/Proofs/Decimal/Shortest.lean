import ApiStack.Decimal.Shortest
import ApiStack.Proofs.Decimal.Rounding

namespace ApiStack.Decimal

open Binary64

def value (d : Decimal) : ℚ := d.digits * 10 ^ d.exponent

theorem ten_zpow_pos (k : ℤ) : (0 : ℚ) < 10 ^ k := zpow_pos (by norm_num) k

theorem dropZeros_spec (fuel : ℕ) (d : Decimal) :
    (dropZeros fuel d).digits ≤ d.digits ∧ (dropZeros fuel d).value = d.value := by
  induction fuel generalizing d with
  | zero => exact ⟨le_refl _, rfl⟩
  | succ fuel ih =>
    rw [dropZeros]
    split
    · next h =>
      rw [Bool.and_eq_true, decide_eq_true_eq, decide_eq_true_eq] at h
      obtain ⟨hdigits, hvalue⟩ := ih ⟨d.digits / 10, d.exponent + 1⟩
      refine ⟨hdigits.trans (Nat.div_le_self _ _), hvalue.trans ?_⟩
      have hten : (d.digits : ℚ) = (d.digits / 10 : ℕ) * 10 := by
        exact_mod_cast (Nat.div_mul_cancel (Nat.dvd_of_mod_eq_zero h.2)).symm
      show ((d.digits / 10 : ℕ) : ℚ) * 10 ^ (d.exponent + 1) = d.digits * 10 ^ d.exponent
      rw [hten, zpow_add₀ (by norm_num)]
      ring
    · exact ⟨le_refl _, rfl⟩

theorem lt_pow_toDigits (n : ℕ) : n < 10 ^ (Nat.toDigits 10 n).length :=
  (Nat.length_toDigits_le_iff (by decide) Nat.length_toDigits_pos).1 (le_refl _)

theorem pow_toDigits_le {n : ℕ} (h : n ≠ 0) : 10 ^ ((Nat.toDigits 10 n).length - 1) ≤ n := by
  by_contra hlt
  rcases Nat.eq_zero_or_pos ((Nat.toDigits 10 n).length - 1) with hz | hpos
  · rw [hz] at hlt
    omega
  · have hle := (Nat.length_toDigits_le_iff (by decide) hpos).2 (not_le.1 hlt)
    omega

theorem lt_logTen {num den : ℕ} (hn : 0 < num) (hd : 0 < den) :
    (num : ℚ) / den < 10 ^ (logTen num den + 1) := by
  have hnq : (0 : ℚ) < num := by exact_mod_cast hn
  have hdq : (0 : ℚ) < den := by exact_mod_cast hd
  unfold logTen
  split
  · next h =>
    have hlt : num < 10 ^ (Nat.toDigits 10 (num / den)).length * den :=
      (Nat.div_lt_iff_lt_mul hd).1 (lt_pow_toDigits _)
    rw [Int.sub_add_cancel, Int.ofNat_eq_natCast, zpow_natCast, div_lt_iff₀ hdq]
    exact_mod_cast hlt
  · next h =>
    obtain ⟨count, hcount⟩ : ∃ count, (Nat.toDigits 10 ((den - 1) / num)).length = count + 1 :=
      ⟨_, (Nat.succ_pred_eq_of_pos Nat.length_toDigits_pos).symm⟩
    have hne : (den - 1) / num ≠ 0 := (Nat.div_pos (by omega) hn).ne'
    have hle : 10 ^ count * num ≤ den - 1 := by
      have hpow := pow_toDigits_le hne
      rw [hcount, Nat.add_sub_cancel] at hpow
      exact (Nat.le_div_iff_mul_le hn).1 hpow
    have hlt : (10 : ℚ) ^ count * num < den := by
      have hlt : 10 ^ count * num < den := by omega
      exact_mod_cast hlt
    have hexp : -Int.ofNat (count + 1) + 1 = -(count : ℤ) := by
      rw [Int.ofNat_eq_natCast]
      omega
    rw [hcount, hexp, zpow_neg, zpow_natCast, div_lt_iff₀ hdq, ← div_eq_inv_mul,
      lt_div_iff₀ (by positivity), mul_comm]
    exact hlt

/-- Quarters of the last place of a double, counted in steps of a grid. -/
theorem quarters_div (quarters : ℕ) (q step : ℤ) :
    ((quarters * (powerOfTwo (q - 2)).1 * (powerOfTen step).2 : ℕ) : ℚ) /
      ((powerOfTen step).1 * (powerOfTwo (q - 2)).2 : ℕ) = quarters / 4 * 2 ^ q / 10 ^ step := by
  obtain ⟨-, hunit, hpow⟩ := powerOfTwo_spec (q - 2)
  obtain ⟨hstep, -, hten⟩ := powerOfTen_spec step
  have hq : (2 : ℚ) ^ q = 2 ^ (q - 2) * 4 := by
    rw [show q = q - 2 + 2 by ring, zpow_add₀ two_ne_zero]
    norm_num
  rw [hq, ← hpow, ← hten]
  push_cast
  field_simp

/-- A count of steps of a grid that is tried for a double, and not above its interval. -/
theorem gridPoint_spec {m n : ℕ} {q step : ℤ}
    (hn : n ≤ 4 * m * (powerOfTwo (q - 2)).1 * (powerOfTen step).2 /
      ((powerOfTen step).1 * (powerOfTwo (q - 2)).2) + 1)
    (hle : n * ((powerOfTen step).1 * (powerOfTwo (q - 2)).2) ≤
      (4 * m + 2) * (powerOfTwo (q - 2)).1 * (powerOfTen step).2) :
    (n : ℚ) ≤ m * 2 ^ q / 10 ^ step + 1 ∧ (n : ℚ) * 10 ^ step ≤ (m + 1 / 2) * 2 ^ q := by
  have hwidth : 0 < (powerOfTen step).1 * (powerOfTwo (q - 2)).2 :=
    Nat.mul_pos (powerOfTen_spec step).1 (powerOfTwo_spec (q - 2)).2.1
  have hn' := Nat.cast_le (α := ℚ).2 hn
  have hdiv := Nat.cast_div_le (α := ℚ)
    (m := 4 * m * (powerOfTwo (q - 2)).1 * (powerOfTen step).2)
    (n := (powerOfTen step).1 * (powerOfTwo (q - 2)).2)
  have hle' := Nat.cast_le (α := ℚ).2 hle
  rw [quarters_div] at hdiv
  rw [Nat.cast_mul, ← le_div_iff₀ (by exact_mod_cast hwidth), quarters_div,
    le_div_iff₀ (ten_zpow_pos step)] at hle'
  push_cast at hn' hdiv hle'
  constructor
  · calc (n : ℚ) ≤ _ := hn'
      _ ≤ 4 * m / 4 * 2 ^ q / 10 ^ step + 1 := by gcongr
      _ = m * 2 ^ q / 10 ^ step + 1 := by ring
  · calc (n : ℚ) * 10 ^ step ≤ _ := hle'
      _ = (m + 1 / 2) * 2 ^ q := by ring

/-- What is taken from a grid is at most one step above the double, and inside its interval. -/
theorem onGrid?_spec {m : ℕ} {q step : ℤ} {d : Decimal} (h : onGrid? m q step = some d) :
    (d.digits : ℚ) ≤ m * 2 ^ q / 10 ^ step + 1 ∧ d.value ≤ (m + 1 / 2) * 2 ^ q := by
  have hweak {n lower upper : ℕ} (hb : (if m % 2 = 0 then decide (lower ≤ n) && decide (n ≤ upper)
      else decide (lower < n) && decide (n < upper)) = true) : n ≤ upper := by
    split at hb <;> rw [Bool.and_eq_true, decide_eq_true_eq, decide_eq_true_eq] at hb <;> omega
  simp only [onGrid?, roundingInterval] at h
  split at h
  · next hbelow habove =>
    rcases (ite_eq_or_eq _ _ _).imp h.symm.trans h.symm.trans with he | he
    · cases he
      exact gridPoint_spec (Nat.le_succ _) (hweak hbelow)
    · cases he
      exact gridPoint_spec (le_refl _) (hweak habove)
  · next hbelow _ =>
    cases h
    exact gridPoint_spec (Nat.le_succ _) (hweak hbelow)
  · next _ habove =>
    cases h
    exact gridPoint_spec (le_refl _) (hweak habove)
  · cases h

/-- The shortest decimal has at most seventeen digits, or is the seventeenth power of ten, and is
above the double by half of its last place at most. -/
theorem shortest_spec (x : Binary64) : (shortest x).digits ≤ 10 ^ 17 ∧
    (shortest x).value ≤ (x.significand.1 + 1 / 2) * 2 ^ x.significand.2 := by
  obtain ⟨m, hm⟩ : ∃ m, x.significand.1 = m := ⟨_, rfl⟩
  obtain ⟨q, hq⟩ : ∃ q, x.significand.2 = q := ⟨_, rfl⟩
  have hpos : (0 : ℚ) ≤ (m + 1 / 2) * 2 ^ q := by
    have := two_zpow_pos q
    positivity
  have hzero (k : ℤ) : value ⟨0, k⟩ ≤ (m + 1 / 2) * 2 ^ q := by
    rw [value, Nat.cast_zero, zero_mul]
    exact hpos
  unfold shortest
  simp only [hm, hq]
  split
  · exact ⟨Nat.zero_le _, hzero 0⟩
  next hne =>
  obtain ⟨hdigits, hvalue⟩ := dropZeros_spec 20 (((List.range 17).findSome? fun n =>
    onGrid? m q (logTen x.ratio.1 x.ratio.2 - Int.ofNat n)).getD ⟨0, 0⟩)
  rw [hvalue]
  cases hfound : (List.range 17).findSome? fun n =>
      onGrid? m q (logTen x.ratio.1 x.ratio.2 - Int.ofNat n) with
  | none =>
    rw [hfound] at hdigits
    exact ⟨hdigits.trans (Nat.zero_le _), hzero 0⟩
  | some d =>
    rw [hfound] at hdigits
    obtain ⟨n, hn, hd⟩ := List.exists_of_findSome?_eq_some hfound
    rw [List.mem_range] at hn
    obtain ⟨hle, hvalue⟩ := onGrid?_spec hd
    refine ⟨hdigits.trans ?_, hvalue⟩
    have hlt : (m : ℚ) * 2 ^ q / 10 ^ (logTen x.ratio.1 x.ratio.2 - Int.ofNat n) < 10 ^ 17 := by
      rw [div_lt_iff₀ (ten_zpow_pos _)]
      calc (m : ℚ) * 2 ^ q = x.ratio.1 / x.ratio.2 := (value_of_significand (Prod.ext hm hq)).symm
        _ < 10 ^ (logTen x.ratio.1 x.ratio.2 + 1) :=
            lt_logTen (ratio_fst_pos (hm ▸ hne)) x.ratio_pos
        _ ≤ 10 ^ (17 + (logTen x.ratio.1 x.ratio.2 - Int.ofNat n)) :=
            zpow_le_zpow_right₀ (by norm_num) (by rw [Int.ofNat_eq_natCast]; omega)
        _ = 10 ^ 17 * 10 ^ (logTen x.ratio.1 x.ratio.2 - Int.ofNat n) := by
            rw [zpow_add₀ (by norm_num)]
            norm_cast
    have hlt' : (d.digits : ℚ) < 10 ^ 17 + 1 := by
      linarith
    exact Nat.lt_succ_iff.1 (by exact_mod_cast hlt')

end ApiStack.Decimal
