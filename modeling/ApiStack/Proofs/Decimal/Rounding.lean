import ApiStack.Decimal.Binary64
import Mathlib.Algebra.Order.Field.Power
import Mathlib.Data.Rat.Cast.Order
import Mathlib.Tactic

namespace ApiStack.Binary64

def value (x : Binary64) : ℚ := (x.ratio.1 : ℚ) / x.ratio.2

theorem two_zpow_pos (q : ℤ) : (0 : ℚ) < 2 ^ q := zpow_pos (by norm_num) q

theorem zpow_eq_div {b : ℕ} (hb : 0 < b) (k : ℤ) {p : ℕ × ℕ}
    (hp : p = if 0 ≤ k then (Nat.pow b k.toNat, 1) else (1, Nat.pow b (-k).toNat)) :
    0 < p.1 ∧ 0 < p.2 ∧ (p.1 : ℚ) / p.2 = (b : ℚ) ^ k := by
  subst hp
  split
  · next h =>
    have hk : (b : ℚ) ^ k = (b : ℚ) ^ k.toNat := by rw [← zpow_natCast, Int.toNat_of_nonneg h]
    exact ⟨Nat.pow_pos hb, Nat.one_pos, by simp [hk]⟩
  · next h =>
    have hk : (b : ℚ) ^ k = ((b : ℚ) ^ (-k).toNat)⁻¹ := by
      rw [← zpow_natCast, Int.toNat_of_nonneg (by omega), zpow_neg, inv_inv]
    exact ⟨Nat.one_pos, Nat.pow_pos hb, by simp [hk]⟩

theorem powerOfTwo_spec (q : ℤ) : 0 < (powerOfTwo q).1 ∧ 0 < (powerOfTwo q).2 ∧
    ((powerOfTwo q).1 : ℚ) / (powerOfTwo q).2 = 2 ^ q :=
  zpow_eq_div (b := 2) (by decide) q rfl

theorem powerOfTen_spec (k : ℤ) : 0 < (powerOfTen k).1 ∧ 0 < (powerOfTen k).2 ∧
    ((powerOfTen k).1 : ℚ) / (powerOfTen k).2 = 10 ^ k :=
  zpow_eq_div (b := 10) (by decide) k rfl

/-- A quotient is rounded by at most a half. -/
theorem roundQuotient_spec (num : ℕ) {den : ℕ} (hd : 0 < den) :
    |(roundQuotient num den : ℚ) - (num : ℚ) / den| ≤ 1 / 2 := by
  have hdq : (0 : ℚ) < den := by exact_mod_cast hd
  have hmod : num % den < den := Nat.mod_lt num hd
  have hsplit : (num : ℚ) = den * (num / den : ℕ) + (num % den : ℕ) := by
    exact_mod_cast (Nat.div_add_mod num den).symm
  have hquot : (num : ℚ) / den = (num / den : ℕ) + (num % den : ℕ) / den := by
    rw [div_eq_iff hdq.ne', add_mul, div_mul_cancel₀ _ hdq.ne']
    linarith
  -- Half of the divisor is where rounding turns, whichever way a tie goes.
  have hlow (h : 2 * (num % den) ≤ den) : ((num % den : ℕ) : ℚ) / den ≤ 1 / 2 := by
    rw [div_le_iff₀ hdq]
    have hc : ((2 * (num % den) : ℕ) : ℚ) ≤ den := by exact_mod_cast h
    push_cast at hc
    linarith
  have hhigh (h : den ≤ 2 * (num % den)) : 1 / 2 ≤ ((num % den : ℕ) : ℚ) / den := by
    rw [le_div_iff₀ hdq]
    have hc : (den : ℚ) ≤ ((2 * (num % den) : ℕ) : ℚ) := by exact_mod_cast h
    push_cast at hc
    linarith
  have hnonneg : 0 ≤ ((num % den : ℕ) : ℚ) / den := by positivity
  have hle : ((num % den : ℕ) : ℚ) / den ≤ 1 := by
    rw [div_le_one hdq]
    exact_mod_cast hmod.le
  have hdown (h : 2 * (num % den) ≤ den) :
      |((num / den : ℕ) : ℚ) - (num : ℚ) / den| ≤ 1 / 2 := by
    have := hlow h
    rw [hquot, abs_le]
    constructor <;> linarith
  have hup (h : den ≤ 2 * (num % den)) :
      |((num / den + 1 : ℕ) : ℚ) - (num : ℚ) / den| ≤ 1 / 2 := by
    have := hhigh h
    rw [hquot, abs_le]
    push_cast
    constructor <;> linarith
  unfold roundQuotient
  simp only
  split
  · next h => exact hdown h.le
  · next h =>
    split
    · next h' => exact hup h'.le
    · next h' =>
      split
      · exact hdown (not_lt.1 h')
      · exact hup (not_lt.1 h)

section Significand

variable {m : ℕ} {q : ℤ}

/-- The magnitude bits of a significand and its exponent. A significand that rounding has made too
long counts as the shortest one of the next exponent. -/
def bitsOf (m : ℕ) (q : ℤ) : ℕ := (q + 1074).toNat * Nat.pow 2 52 + m

theorem magnitudeBits_ofSignedBits (negative : Bool) {bits : ℕ} (h : bits < Nat.pow 2 63) :
    (ofSignedBits negative bits).magnitudeBits = bits := by
  have h63 : Nat.pow 2 63 = 9223372036854775808 := rfl
  rw [magnitudeBits, ofSignedBits, UInt64.toNat_ofNat']
  rw [h63] at h ⊢
  cases negative <;> simp only [if_true, Bool.false_eq_true, if_false] <;> omega

theorem isFinite_ofSignedBits (negative : Bool) {bits : ℕ} (h : bits < infinityBits) :
    (ofSignedBits negative bits).isFinite = true := by
  have hinf : infinityBits < Nat.pow 2 63 := by decide
  rw [isFinite, magnitudeBits_ofSignedBits negative (h.trans hinf)]
  exact decide_eq_true h

theorem value_of_significand {x : Binary64} (h : x.significand = (m, q)) :
    x.value = m * 2 ^ q := by
  obtain ⟨hn, hd, hq⟩ := powerOfTwo_spec q
  rw [value, ratio, h]
  push_cast
  rw [mul_div_assoc, hq]

theorem significand_of_magnitudeBits {x : Binary64} (exponent fraction : ℕ)
    (h : x.magnitudeBits = (exponent + 1) * 4503599627370496 + fraction)
    (hf : fraction < 4503599627370496) :
    x.significand = (4503599627370496 + fraction, (exponent : ℤ) - 1074) := by
  have h52 : Nat.pow 2 52 = 4503599627370496 := rfl
  have hdiv : x.magnitudeBits / 4503599627370496 = exponent + 1 := by omega
  have hmod : x.magnitudeBits % 4503599627370496 = fraction := by omega
  unfold significand
  rw [h52, hdiv, hmod]
  simp only [Nat.succ_ne_zero]
  refine Prod.ext rfl ?_
  show Int.ofNat (exponent + 1) - 1075 = _
  rw [Int.ofNat_eq_natCast]
  omega

theorem value_bitsOf (hm : 2 ^ 52 ≤ m) (hm' : m ≤ 2 ^ 53) (hq : -1074 ≤ q)
    (hbits : bitsOf m q < infinityBits) :
    (ofSignedBits false (bitsOf m q)).value = m * 2 ^ q := by
  have hinf : infinityBits < Nat.pow 2 63 := by decide
  have hmag : (ofSignedBits false (bitsOf m q)).magnitudeBits =
      (q + 1074).toNat * 4503599627370496 + m := magnitudeBits_ofSignedBits false (hbits.trans hinf)
  rcases Nat.lt_or_ge m (2 ^ 53) with hlt | hge
  · have hsig := significand_of_magnitudeBits (q + 1074).toNat (m - 4503599627370496)
      (by rw [hmag]; omega) (by omega)
    have hfraction : 4503599627370496 + (m - 4503599627370496) = m := by omega
    rw [value_of_significand hsig, hfraction, Int.toNat_of_nonneg (by omega), Int.add_sub_cancel]
  · have hsig := significand_of_magnitudeBits (q + 1075).toNat 0
      (by rw [hmag]; omega) (by omega)
    have hexp : ((q + 1075).toNat : ℤ) - 1074 = q + 1 := by omega
    obtain rfl : m = 2 ^ 53 := le_antisymm hm' hge
    rw [value_of_significand hsig, hexp, zpow_add₀ (by norm_num)]
    norm_num
    ring

end Significand

structure RoundsTo (r : ℚ) (m : ℕ) (q : ℤ) : Prop where
  least : -1074 ≤ q
  upper : r / 2 ^ q < 2 ^ 53
  lower : q = -1074 ∨ 2 ^ 52 ≤ r / 2 ^ q
  near : |(m : ℚ) - r / 2 ^ q| ≤ 1 / 2

theorem ratio_bounds {num den : ℕ} (hn : 0 < num) (hd : 0 < den) :
    (2 : ℚ) ^ 52 < num / den / 2 ^ ((num.log2 : ℤ) - den.log2 - 53) ∧
      (num : ℚ) / den / 2 ^ ((num.log2 : ℤ) - den.log2 - 53) < 2 ^ 54 := by
  have hdq : (0 : ℚ) < den := by exact_mod_cast hd
  have hnum : (2 : ℚ) ^ num.log2 ≤ num := by exact_mod_cast Nat.log2_self_le hn.ne'
  have hnum' : (num : ℚ) < 2 ^ (num.log2 + 1) := by exact_mod_cast Nat.lt_log2_self
  have hden : (2 : ℚ) ^ den.log2 ≤ den := by exact_mod_cast Nat.log2_self_le hd.ne'
  have hden' : (den : ℚ) < 2 ^ (den.log2 + 1) := by exact_mod_cast Nat.lt_log2_self
  have hscale := two_zpow_pos ((num.log2 : ℤ) - den.log2 - 53)
  have hlow : (2 : ℚ) ^ 52 * (2 ^ ((num.log2 : ℤ) - den.log2 - 53) * 2 ^ (den.log2 + 1)) =
      2 ^ num.log2 := by
    rw [← zpow_natCast, ← zpow_natCast, ← zpow_natCast, ← zpow_add₀ two_ne_zero,
      ← zpow_add₀ two_ne_zero]
    congr 1
    push_cast
    ring
  have hhigh : (2 : ℚ) ^ 54 * (2 ^ ((num.log2 : ℤ) - den.log2 - 53) * 2 ^ den.log2) =
      2 ^ (num.log2 + 1) := by
    rw [← zpow_natCast, ← zpow_natCast, ← zpow_natCast, ← zpow_add₀ two_ne_zero,
      ← zpow_add₀ two_ne_zero]
    congr 1
    push_cast
    ring
  rw [div_div, mul_comm (den : ℚ), lt_div_iff₀ (by positivity), div_lt_iff₀ (by positivity)]
  constructor
  · calc (2 : ℚ) ^ 52 * (2 ^ ((num.log2 : ℤ) - den.log2 - 53) * den)
        < 2 ^ 52 * (2 ^ ((num.log2 : ℤ) - den.log2 - 53) * 2 ^ (den.log2 + 1)) := by gcongr
      _ = 2 ^ num.log2 := hlow
      _ ≤ num := hnum
  · calc (num : ℚ) < 2 ^ (num.log2 + 1) := hnum'
      _ = 2 ^ 54 * (2 ^ ((num.log2 : ℤ) - den.log2 - 53) * 2 ^ den.log2) := hhigh.symm
      _ ≤ 2 ^ 54 * (2 ^ ((num.log2 : ℤ) - den.log2 - 53) * den) := by gcongr

theorem scaled_eq (num : ℕ) {den : ℕ} (hd : 0 < den) (q : ℤ) : 0 < den * (powerOfTwo q).1 ∧
    ((num * (powerOfTwo q).2 : ℕ) : ℚ) / (den * (powerOfTwo q).1 : ℕ) = num / den / 2 ^ q := by
  obtain ⟨hp, -, hpow⟩ := powerOfTwo_spec q
  refine ⟨Nat.mul_pos hd hp, ?_⟩
  rw [← hpow]
  push_cast
  rw [div_div_div_eq]

theorem le_div_iff_le_cast {n num den : ℕ} (hd : 0 < den) :
    n ≤ num / den ↔ (n : ℚ) ≤ num / den := by
  have hdq : (0 : ℚ) < den := by exact_mod_cast hd
  rw [Nat.le_div_iff_mul_le hd, le_div_iff₀ hdq]
  exact_mod_cast Iff.rfl

/-- From here on the nearest double is infinite. -/
def overflow : ℚ := (2 ^ 53 - 1 / 2) * 2 ^ (971 : ℤ)

/-- The nearest double, by its significand and exponent. -/
theorem ofRatio_eq {num den : ℕ} (hn : 0 < num) (hd : 0 < den) : ∃ m q, RoundsTo (num / den) m q ∧
    ofRatio false num den = ofSignedBits false (min (bitsOf m q) infinityBits) := by
  obtain ⟨hlow, hhigh⟩ := ratio_bounds hn hd
  obtain ⟨least, hleast⟩ : ∃ least : ℤ,
    least = max (Int.ofNat num.log2 - Int.ofNat den.log2 - 53) (-1074) := ⟨_, rfl⟩
  have hge : (num.log2 : ℤ) - den.log2 - 53 ≤ least := hleast ▸ le_max_left _ _
  have hmin : -1074 ≤ least := hleast ▸ le_max_right _ _
  have hlower : least = -1074 ∨ (2 : ℚ) ^ 52 ≤ num / den / 2 ^ least := by
    rcases max_choice (Int.ofNat num.log2 - Int.ofNat den.log2 - 53) (-1074) with h | h
    · exact .inr (by rw [hleast, h]; exact hlow.le)
    · exact .inl (hleast.trans h)
  have hupper : (num : ℚ) / den / 2 ^ least < 2 ^ 54 := by
    refine lt_of_le_of_lt ?_ hhigh
    gcongr
    exact one_le_two
  have hround (q : ℤ) (m : ℕ)
      (hm : m = roundQuotient (num * (powerOfTwo q).2) (den * (powerOfTwo q).1)) :
      |(m : ℚ) - num / den / 2 ^ q| ≤ 1 / 2 := by
    obtain ⟨hpos, heq⟩ := scaled_eq num hd q
    rw [hm, ← heq]
    exact roundQuotient_spec _ hpos
  have hcut : 2 ^ 53 ≤ num * (powerOfTwo least).2 / (den * (powerOfTwo least).1) ↔
      (2 : ℚ) ^ 53 ≤ num / den / 2 ^ least := by
    obtain ⟨hpos, heq⟩ := scaled_eq num hd least
    rw [le_div_iff_le_cast hpos, heq]
    norm_num
  unfold ofRatio
  rw [if_neg hn.ne']
  simp only [← hleast]
  -- A quotient of 54 bits is formed once more, for the next exponent.
  by_cases h : (2 : ℚ) ^ 53 ≤ num / den / 2 ^ least
  · have hhalf : (num : ℚ) / den / 2 ^ (least + 1) = num / den / 2 ^ least / 2 := by
      rw [zpow_add₀ two_ne_zero, zpow_one, div_mul_eq_div_div]
    refine ⟨_, least + 1, ⟨by omega, ?_, .inr ?_, hround _ _ rfl⟩, ?_⟩
    · rw [hhalf]
      linarith
    · rw [hhalf]
      linarith
    · have hpow : Nat.pow 2 53 ≤ num * (powerOfTwo least).2 / (den * (powerOfTwo least).1) :=
        hcut.2 h
      simp only [if_pos hpow]
      rfl
  · refine ⟨_, least, ⟨hmin, not_le.1 h, hlower, hround _ _ rfl⟩, ?_⟩
    have hpow : ¬Nat.pow 2 53 ≤ num * (powerOfTwo least).2 / (den * (powerOfTwo least).1) :=
      fun hp => h (hcut.1 hp)
    simp only [if_neg hpow]
    rfl

section Bounds

variable {r : ℚ} {m : ℕ} {q : ℤ}

theorem RoundsTo.le (h : RoundsTo r m q) : m ≤ 2 ^ 53 := by
  have hm := (abs_le.1 h.near).2
  have hlt : (m : ℚ) < 2 ^ 53 + 1 := by linarith [h.upper]
  exact Nat.lt_succ_iff.1 (by exact_mod_cast hlt)

theorem RoundsTo.neg_le (h : RoundsTo r m q) (hr : 1 ≤ r) : -52 ≤ q := by
  by_contra hsmall
  have hle : (2 : ℚ) ^ 53 ≤ r / 2 ^ q :=
    calc (2 : ℚ) ^ 53 = 2 ^ (53 : ℤ) := by norm_cast
      _ ≤ 2 ^ (-q) := zpow_le_zpow_right₀ one_le_two (by omega)
      _ = 1 / 2 ^ q := by rw [zpow_neg, one_div]
      _ ≤ r / 2 ^ q := by gcongr
  exact absurd h.upper (not_lt.2 hle)

theorem RoundsTo.le_div (h : RoundsTo r m q) (hr : 1 ≤ r) : 2 ^ 52 ≤ r / 2 ^ q := by
  have hq := h.neg_le hr
  exact h.lower.resolve_left (by omega)

/-- What is nearer to the greatest double than half of the next step is rounded to a double. -/
theorem RoundsTo.bitsOf_lt (h : RoundsTo r m q) (hr : r < overflow) :
    bitsOf m q < infinityBits := by
  have hinf : infinityBits = 2047 * 4503599627370496 := rfl
  have h52 : Nat.pow 2 52 = 4503599627370496 := rfl
  have hm := (abs_le.1 h.near).2
  have hm53 := h.le
  have hmq : r = r / 2 ^ q * 2 ^ q := (div_mul_cancel₀ _ (two_zpow_pos q).ne').symm
  rw [bitsOf, hinf, h52]
  -- Only the last exponent has significands that are too great for it.
  rcases lt_trichotomy q 971 with hq | hq | hq
  · omega
  · have hlt : r / 2 ^ q < 2 ^ 53 - 1 / 2 := by
      rw [hq, div_lt_iff₀ (two_zpow_pos 971)]
      exact hr
    have hm' : (m : ℚ) < 2 ^ 53 := by linarith
    have hm'' : m < 2 ^ 53 := by exact_mod_cast hm'
    omega
  · have hl : 2 ^ 52 ≤ r / 2 ^ q := h.lower.resolve_left (by omega)
    have hge : overflow ≤ r :=
      calc overflow ≤ 2 ^ 53 * 2 ^ (971 : ℤ) := by
            rw [overflow]
            gcongr
            norm_num
        _ = 2 ^ 52 * 2 ^ (972 : ℤ) := by
            rw [show (972 : ℤ) = 1 + 971 from rfl, zpow_add₀ two_ne_zero]
            ring
        _ ≤ 2 ^ 52 * 2 ^ q := by
            gcongr
            · exact one_le_two
            · omega
        _ ≤ r / 2 ^ q * 2 ^ q := by gcongr
        _ = r := hmq.symm
    exact absurd hr (not_lt.2 hge)

/-- The error of rounding is at most one in `2 ^ 53`, and nothing is rounded down past one. -/
theorem RoundsTo.value_bounds (h : RoundsTo r m q) (hr : 1 ≤ r) (hfinite : r < overflow) :
    1 ≤ (ofSignedBits false (bitsOf m q)).value ∧
      (ofSignedBits false (bitsOf m q)).value ≤ r * (1 + 1 / 2 ^ 53) := by
  have hl := h.le_div hr
  obtain ⟨hlow, hhigh⟩ := abs_le.1 h.near
  have hm : 2 ^ 52 ≤ m := by
    have hlt : (2 : ℚ) ^ 52 < m + 1 := by linarith
    exact Nat.lt_succ_iff.1 (by exact_mod_cast hlt)
  have hq := two_zpow_pos q
  rw [value_bitsOf hm h.le h.least (h.bitsOf_lt hfinite)]
  constructor
  · have hexp := h.neg_le hr
    calc (1 : ℚ) = 2 ^ 52 * 2 ^ (-52 : ℤ) := by norm_num
      _ ≤ m * 2 ^ q := by
        gcongr
        · exact_mod_cast hm
        · exact one_le_two
  · calc (m : ℚ) * 2 ^ q ≤ (r / 2 ^ q * (1 + 1 / 2 ^ 53)) * 2 ^ q := by
          gcongr
          linarith
      _ = r * (1 + 1 / 2 ^ 53) := by field_simp

end Bounds

section Ratios

variable {num den : ℕ}

theorem isFinite_ofRatio (hd : 0 < den) (h : (num : ℚ) / den < overflow) :
    (ofRatio false num den).isFinite = true := by
  rcases Nat.eq_zero_or_pos num with rfl | hn
  · rfl
  obtain ⟨m, q, hround, he⟩ := ofRatio_eq hn hd
  have hlt := hround.bitsOf_lt h
  rw [he, min_eq_left hlt.le]
  exact isFinite_ofSignedBits false hlt

theorem value_ofRatio (hd : 0 < den) (hone : 1 ≤ (num : ℚ) / den) (h : (num : ℚ) / den < overflow) :
    1 ≤ (ofRatio false num den).value ∧
      (ofRatio false num den).value ≤ num / den * (1 + 1 / 2 ^ 53) := by
  have hn : 0 < num := by
    by_contra hz
    rw [Nat.eq_zero_of_not_pos hz, Nat.cast_zero, zero_div] at hone
    exact absurd hone (by norm_num)
  obtain ⟨m, q, hround, he⟩ := ofRatio_eq hn hd
  rw [he, min_eq_left (hround.bitsOf_lt h).le]
  exact hround.value_bounds hone h

end Ratios

section Operations

variable {x y : Binary64}

theorem ratio_pos (x : Binary64) : 0 < x.ratio.2 := (powerOfTwo_spec x.significand.2).2.1

theorem ratio_fst_pos (h : x.significand.1 ≠ 0) : 0 < x.ratio.1 :=
  Nat.mul_pos (Nat.pos_of_ne_zero h) (powerOfTwo_spec x.significand.2).1

theorem value_nonneg (x : Binary64) : 0 ≤ x.value := by
  rw [value]
  positivity

theorem isFinite_mulMagnitude (h : x.value * y.value < overflow) :
    (x.mulMagnitude y).isFinite = true := by
  refine isFinite_ofRatio (Nat.mul_pos x.ratio_pos y.ratio_pos) ?_
  push_cast
  rw [← div_mul_div_comm]
  exact h

theorem isFinite_divMagnitude (hx : x.value < overflow) (hy : 1 ≤ y.value) :
    (x.divMagnitude y).isFinite = true := by
  have hpos : 0 < y.ratio.1 := by
    by_contra hz
    rw [value, Nat.eq_zero_of_not_pos hz, Nat.cast_zero, zero_div] at hy
    exact absurd hy (by norm_num)
  refine isFinite_ofRatio (Nat.mul_pos x.ratio_pos hpos) ?_
  push_cast
  rw [← div_div_div_eq]
  exact (div_le_self x.value_nonneg hy).trans_lt hx

theorem isFinite_negate (h : x.isFinite = true) : x.negate.isFinite = true :=
  isFinite_ofSignedBits _ (of_decide_eq_true h)

theorem significand_lt (h : x.isFinite = true) :
    x.significand.1 < 2 ^ 53 ∧ x.significand.2 ≤ 971 := by
  have hinf : infinityBits = 2047 * 4503599627370496 := rfl
  have h52 : Nat.pow 2 52 = 4503599627370496 := rfl
  have hlt : x.magnitudeBits < infinityBits := of_decide_eq_true h
  unfold significand
  simp only [h52]
  split
  · exact ⟨by simp only; omega, by simp only; omega⟩
  · exact ⟨by simp only; omega, by simp only [Int.ofNat_eq_natCast]; omega⟩

theorem value_lt_overflow (h : x.isFinite = true) : x.value < overflow := by
  obtain ⟨hm, hq⟩ := significand_lt h
  have hm' : (x.significand.1 : ℚ) ≤ 2 ^ 53 - 1 := by
    have hle : (x.significand.1 : ℚ) + 1 ≤ 2 ^ 53 := by exact_mod_cast hm
    linarith
  rw [value_of_significand rfl, overflow]
  calc (x.significand.1 : ℚ) * 2 ^ x.significand.2
      ≤ (2 ^ 53 - 1) * 2 ^ (971 : ℤ) := by
        gcongr
        norm_num
    _ < (2 ^ 53 - 1 / 2) * 2 ^ (971 : ℤ) := by
        gcongr
        norm_num

end Operations

end ApiStack.Binary64
