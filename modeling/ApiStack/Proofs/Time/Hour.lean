import ApiStack.Time.Rfc3339
import Mathlib.Tactic.Common

namespace ApiStack.Instant

/-- The hour that a point lies in, counted since 1970. A leap second belongs to the hour of the
second before it. -/
def hour (t : Instant) : Int := t.seconds / 3600

def yearStart (year : Nat) : Int := Rfc3339.dayNumber year 1 1 * 86400

/-- The point lies in the years from one to another. -/
def InYears (first last : Nat) (t : Instant) : Prop :=
  yearStart first ≤ t.seconds ∧ t.seconds < yearStart (last + 1)

instance (first last : Nat) (t : Instant) : Decidable (t.InYears first last) :=
  inferInstanceAs (Decidable (_ ∧ _))

variable {t : Instant}

theorem InYears.totalNanos_bounds (h : t.InYears 1678 2261) (hl : t.inLeapSecond = false) :
    -9223372036854775808 ≤ t.totalNanos ∧ t.totalNanos < 9223372036854775808 ∧
      t.nanos < 1000000000 := by
  have hfirst : yearStart 1678 = -9214560000 := by decide
  have hlast : yearStart 2262 = 9214646400 := by decide
  obtain ⟨hleast, hgreatest⟩ := h
  rw [hfirst] at hleast
  rw [hlast] at hgreatest
  have hn : t.nanos < 1000000000 := Nat.not_le.1 (of_decide_eq_false hl)
  have htotal : t.totalNanos = t.seconds * 1000000000 + t.nanos := rfl
  omega

/-- Outside of leap seconds the start of the hour is the first second of it. -/
theorem startOfHour_eq (h : t.InYears 1678 2261) (hl : t.inLeapSecond = false) :
    t.startOfHour = ⟨t.hour * 3600, 0⟩ := by
  obtain ⟨hleast, hgreatest, hn⟩ := h.totalNanos_bounds hl
  have hrange : ¬(t.totalNanos < -Int.ofNat (Nat.pow 2 63) ||
      Int.ofNat (Nat.pow 2 63) ≤ t.totalNanos) = true := by
    have hpow : Int.ofNat (Nat.pow 2 63) = 9223372036854775808 := rfl
    rw [Bool.or_eq_true, decide_eq_true_eq, decide_eq_true_eq, hpow]
    omega
  -- what of the hour is over
  have hspan : (t.totalNanos % nanosPerHour).toNat =
      (t.seconds % 3600).toNat * 1000000000 + t.nanos := by
    have htotal : t.totalNanos = t.seconds * 1000000000 + t.nanos := rfl
    have hhour : (nanosPerHour : Int) = 3600000000000 := rfl
    rw [htotal, hhour]
    omega
  have hseconds : ((t.seconds % 3600).toNat * 1000000000 + t.nanos) / nanosPerSecond =
      (t.seconds % 3600).toNat := by
    have hsecond : nanosPerSecond = 1000000000 := rfl
    rw [hsecond]
    omega
  have hnanos : ((t.seconds % 3600).toNat * 1000000000 + t.nanos) % nanosPerSecond = t.nanos := by
    have hsecond : nanosPerSecond = 1000000000 := rfl
    rw [hsecond]
    omega
  have hstart : t.seconds - ((t.seconds % 3600).toNat : Int) = t.hour * 3600 := by
    rw [hour]
    omega
  rw [startOfHour]
  simp only [hrange, hspan, earlier, hseconds, hnanos, hl, Bool.false_and, Bool.false_eq_true,
    if_false, Nat.le_refl, if_true, Nat.sub_self, hstart]

theorem startOfHour_eq_of_hour {s : Instant} (hs : s.InYears 1678 2261) (ht : t.InYears 1678 2261)
    (hls : s.inLeapSecond = false) (hlt : t.inLeapSecond = false) (h : s.hour = t.hour) :
    s.startOfHour = t.startOfHour := by
  rw [startOfHour_eq hs hls, startOfHour_eq ht hlt, h]

end ApiStack.Instant
