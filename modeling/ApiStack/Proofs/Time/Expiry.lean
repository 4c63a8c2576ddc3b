import ApiStack.Proofs.Time.Duration
import ApiStack.Proofs.Time.Hour
import ApiStack.Time.Expiry

namespace ApiStack

namespace Instant

/-- The point that lies some nanoseconds after the beginning of 1970, and not in a leap second. -/
def ofNanos (n : Int) : Instant := ⟨n / nanosPerSecond, (n % nanosPerSecond).toNat⟩

/-- The first point of the hour. -/
def hourStart (t : Instant) : Instant := ⟨t.hour * 3600, 0⟩

instance : LE Instant :=
  ⟨fun s t => s.seconds < t.seconds ∨ (s.seconds = t.seconds ∧ s.nanos ≤ t.nanos)⟩

instance (s t : Instant) : Decidable (s ≤ t) := inferInstanceAs (Decidable (_ ∨ _))

variable {s t : Instant}

theorem le_def : s ≤ t ↔ s.seconds < t.seconds ∨ (s.seconds = t.seconds ∧ s.nanos ≤ t.nanos) :=
  Iff.rfl

theorem before_eq_false_iff : t.before s = false ↔ s ≤ t := by
  rw [before, le_def]
  simp only [Bool.or_eq_false_iff, Bool.and_eq_false_iff, decide_eq_false_iff_not]
  omega

theorem totalNanos_eq (t : Instant) : t.totalNanos = t.seconds * 1000000000 + t.nanos := rfl

theorem ofNanos_eq (n : Int) : ofNanos n = ⟨n / 1000000000, (n % 1000000000).toNat⟩ := rfl

theorem ofNanos_le_ofNanos {m n : Int} : ofNanos m ≤ ofNanos n ↔ m ≤ n := by
  rw [ofNanos_eq, ofNanos_eq, le_def]
  dsimp only
  omega

/-- Outside of leap seconds a span is added to the nanoseconds. -/
theorem later_eq (h : t.inLeapSecond = false) (span : Nat) :
    t.later span = ofNanos (t.totalNanos + span) := by
  have hsecond : nanosPerSecond = 1000000000 := rfl
  rw [ofNanos_eq, totalNanos_eq, later, h, hsecond]
  simp only [Bool.false_and, Bool.false_eq_true, if_false, Instant.mk.injEq, Int.ofNat_eq_natCast]
  constructor <;> omega

end Instant

namespace Expiry

open Config

variable {key : ApiKey} {now t : Instant} {span : Duration} {millis : Nat}

/-- The point lies between one day and 365 days after another one. -/
def IsInWindow (now t : Instant) : Prop :=
  .ofNanos (now.totalNanos + nanosPerDay) ≤ t ∧
    t ≤ .ofNanos (now.totalNanos + (365 * nanosPerDay : Nat))

instance (now t : Instant) : Decidable (IsInWindow now t) := inferInstanceAs (Decidable (_ ∧ _))

theorem of_eq_of_asked (hl : now.inLeapSecond = false) (h : asked key now = .ok t) :
    Expiry.of key now = if IsInWindow now t then .ok t else .error (.keyExpiry key.name) := by
  have hwindow : (t.before (now.later nanosPerDay)
      || (now.later (365 * nanosPerDay)).before t) = false ↔ IsInWindow now t := by
    rw [Bool.or_eq_false_iff, Instant.before_eq_false_iff, Instant.before_eq_false_iff,
      Instant.later_eq hl, Instant.later_eq hl]
    rfl
  have hof : Expiry.of key now = if t.before (now.later nanosPerDay)
      || (now.later (365 * nanosPerDay)).before t then .error (.keyExpiry key.name) else .ok t := by
    rw [Expiry.of, h]
    rfl
  rw [hof]
  by_cases hw : IsInWindow now t
  · rw [if_pos hw, hwindow.2 hw]
    rfl
  · rw [if_neg hw, eq_true_of_ne_false fun he => hw (hwindow.1 he)]
    rfl

theorem millisPerHour_eq : millisPerHour = 3600000 := rfl

theorem nanosPerMilli_eq : nanosPerMilli = 1000000 := rfl

theorem nanosPerDay_eq : nanosPerDay = 86400000000000 := rfl

/-- The nanoseconds of the hour that are over. -/
def ofHour (now : Instant) : Int := now.totalNanos - now.hourStart.totalNanos

theorem ofHour_bounds (hl : now.inLeapSecond = false) :
    0 ≤ ofHour now ∧ ofHour now < 3600000000000 := by
  have hn : now.nanos < 1000000000 := Nat.not_le.1 (of_decide_eq_false hl)
  rw [ofHour, Instant.totalNanos_eq, Instant.totalNanos_eq, Instant.hourStart]
  simp only [Instant.hour]
  omega

/-- The point that lies some nanoseconds after the start of the hour. -/
def fromHour (now : Instant) (nanos : Nat) : Instant :=
  .ofNanos (now.hourStart.totalNanos + nanos)

theorem later_startOfHour (hy : now.InYears 1678 2261) (hl : now.inLeapSecond = false)
    (nanos : Nat) : now.startOfHour.later nanos = fromHour now nanos := by
  rw [Instant.startOfHour_eq hy hl, Instant.later_eq rfl]
  rfl

/-- A span from the start of the hour ends in the window if it is long enough even from the last
point of the hour, and not too long from where the hour is now. -/
theorem isInWindow_fromHour {nanos : Nat} : IsInWindow now (fromHour now nanos) ↔
    nanosPerDay + ofHour now ≤ nanos ∧ nanos ≤ 365 * nanosPerDay + ofHour now := by
  rw [IsInWindow, fromHour, Instant.ofNanos_le_ofNanos, Instant.ofNanos_le_ofNanos, ofHour]
  omega

/-- The span is at least a day, and at most 365 days and what of the hour is over. -/
def IsAllowed (now : Instant) (millis : Nat) : Prop :=
  24 * millisPerHour ≤ millis ∧
    (millis * nanosPerMilli : Nat) ≤ 365 * nanosPerDay + ofHour now

instance (now : Instant) (millis : Nat) : Decidable (IsAllowed now millis) :=
  inferInstanceAs (Decidable (_ ∧ _))

/-- The span for one that is allowed: one of less than 25 hours is taken as 25. -/
def granted (millis : Nat) : Nat :=
  if millis < 25 * millisPerHour then 25 * millisPerHour else millis

theorem grantedMillis_of_le (h : 24 * millisPerHour ≤ millis) :
    grantedMillis millis = granted millis := by
  rw [grantedMillis, decide_eq_true h, Bool.true_and, granted]
  simp only [decide_eq_true_eq]

theorem grantedMillis_of_lt (h : millis < 24 * millisPerHour) : grantedMillis millis = millis := by
  rw [grantedMillis, decide_eq_false (Nat.not_le.2 h)]
  rfl

theorem isInWindow_grantedMillis (hl : now.inLeapSecond = false) :
    IsInWindow now (fromHour now (grantedMillis millis * nanosPerMilli)) ↔
      IsAllowed now millis := by
  obtain ⟨hleast, hmost⟩ := ofHour_bounds hl
  simp only [isInWindow_fromHour, IsAllowed, millisPerHour_eq, nanosPerMilli_eq, nanosPerDay_eq]
  rcases Nat.lt_or_ge millis (24 * millisPerHour) with hd | hd
  · rw [grantedMillis_of_lt hd]
    rw [millisPerHour_eq] at hd
    omega
  rw [grantedMillis_of_le hd, granted]
  rcases Nat.lt_or_ge millis (25 * millisPerHour) with hshort | hlong
  · rw [if_pos hshort]
    rw [millisPerHour_eq] at hd hshort ⊢
    omega
  · rw [if_neg (Nat.not_lt.2 hlong)]
    rw [millisPerHour_eq] at hd hlong
    omega

theorem of_eq_error_of_asked {failure : Failure} (h : asked key now = .error failure) :
    Expiry.of key now = .error failure := by
  rw [Expiry.of, h]
  rfl

theorem asked_of_span (hs : key.expiresAfter = some span) (hd : span.millis = .ok millis) :
    asked key now = match now.startOfHour.later? (grantedMillis millis * nanosPerMilli) with
      | some t => .ok t
      | none => .error (.keyExpiry key.name) := by
  rw [asked, hs]
  simp only [hd]
  rfl

/-- All points of the window are counted, long before the calendar ends. -/
theorem IsInWindow.seconds_le (hy : now.InYears 1678 2261) (hl : now.inLeapSecond = false)
    (h : IsInWindow now t) : t.seconds ≤ Instant.lastSecond := by
  have hyear : Instant.yearStart 2262 = 9214646400 := by decide
  have hlast : Instant.lastSecond = 8210266876799 := rfl
  have hnow := hy.2
  have hn : now.nanos < 1000000000 := Nat.not_le.1 (of_decide_eq_false hl)
  have ht := Instant.le_def.1 h.2
  rw [hyear] at hnow
  rw [Instant.ofNanos_eq, Instant.totalNanos_eq, nanosPerDay_eq] at ht
  dsimp only at ht
  rw [hlast]
  omega

theorem of_eq_of_span (hy : now.InYears 1678 2261) (hl : now.inLeapSecond = false)
    (hs : key.expiresAfter = some span) (hd : span.millis = .ok millis) :
    Expiry.of key now =
      if IsAllowed now millis then .ok (fromHour now (granted millis * nanosPerMilli))
      else .error (.keyExpiry key.name) := by
  have hasked := @asked_of_span key now span millis hs hd
  rw [Instant.later?, later_startOfHour hy hl] at hasked
  by_cases ha : IsAllowed now millis
  · have hwindow := (isInWindow_grantedMillis hl).2 ha
    rw [if_pos (hwindow.seconds_le hy hl)] at hasked
    rw [of_eq_of_asked hl hasked, if_pos ha, if_pos hwindow, grantedMillis_of_le ha.1]
  rw [if_neg ha]
  by_cases hcounted : (fromHour now (grantedMillis millis * nanosPerMilli)).seconds ≤
      Instant.lastSecond
  · rw [if_pos hcounted] at hasked
    rw [of_eq_of_asked hl hasked, if_neg fun h => ha ((isInWindow_grantedMillis hl).1 h)]
  · rw [if_neg hcounted] at hasked
    exact of_eq_error_of_asked hasked

theorem of_eq_of_unset (hy : now.InYears 1678 2261) (hl : now.inLeapSecond = false)
    (hs : key.expiresAfter = none) (ht : key.expiresAt = none) :
    Expiry.of key now = .ok (fromHour now (365 * nanosPerDay)) := by
  obtain ⟨hleast, hmost⟩ := ofHour_bounds hl
  have hasked : asked key now = .ok (fromHour now (365 * nanosPerDay)) := by
    rw [asked, hs, ht, ← later_startOfHour hy hl]
  have hwindow : IsInWindow now (fromHour now (365 * nanosPerDay)) := by
    rw [isInWindow_fromHour, nanosPerDay_eq]
    omega
  rw [of_eq_of_asked hl hasked, if_pos hwindow]

theorem asked_of_time {text : String} (hs : key.expiresAfter = none)
    (ht : key.expiresAt = some text) : asked key now =
      (Rfc3339.parse text).mapError fun fault =>
        .misconfigured (.expiryTime key.name text fault) := by
  rw [asked, hs, ht]

/-- Whole hours are not too many just if they make at most 365 days. -/
theorem isAllowed_hours (hl : now.inLeapSecond = false) (hours : Nat) :
    IsAllowed now (hours * millisPerHour) ↔ 24 ≤ hours ∧ hours ≤ 8760 := by
  obtain ⟨hleast, hmost⟩ := ofHour_bounds hl
  simp only [IsAllowed, millisPerHour_eq, nanosPerMilli_eq, nanosPerDay_eq]
  omega

/-- When a key expires that is made outside of leap seconds. A span counts from the start of the
hour and may be from 24 hours to 365 days and what of the hour is over; a point in time has to lie
between one day and 365 days from now; and a key that asks for neither gets 365 days. What lies
outside is refused as that, however long the span is. -/
theorem expiry_decided (hy : now.InYears 1678 2261) (hl : now.inLeapSecond = false) :
    (∀ span, key.expiresAfter = some span →
      (∀ millis, span.millis = .ok millis → Expiry.of key now =
        if IsAllowed now millis then .ok (fromHour now (granted millis * nanosPerMilli))
        else .error (.keyExpiry key.name)) ∧
      (∀ hours, span.millis = .ok (hours * millisPerHour) →
        ((∃ t, Expiry.of key now = .ok t) ↔ 24 ≤ hours ∧ hours ≤ 8760)) ∧
      ∀ failure, span.millis = .error failure →
        Expiry.of key now = .error failure ∧ ∃ text, failure = .duration text) ∧
    (key.expiresAfter = none → ∀ text, key.expiresAt = some text →
      (∀ t, Rfc3339.parse text = .ok t → Expiry.of key now =
        if IsInWindow now t then .ok t else .error (.keyExpiry key.name)) ∧
      ∀ fault, Rfc3339.parse text = .error fault →
        Expiry.of key now = .error (.misconfigured (.expiryTime key.name text fault))) ∧
    (key.expiresAfter = none → key.expiresAt = none →
      Expiry.of key now = .ok (fromHour now (365 * nanosPerDay))) := by
  refine ⟨fun span hs => ⟨fun millis hd => of_eq_of_span hy hl hs hd, fun hours hd => ?_,
    fun failure hd => ?_⟩, fun hs text ht => ⟨fun t hp => ?_, fun fault hp => ?_⟩,
    of_eq_of_unset hy hl⟩
  · rw [of_eq_of_span hy hl hs hd, ← isAllowed_hours hl hours]
    split
    · next ha => exact iff_of_true ⟨_, rfl⟩ ha
    · next ha => exact iff_of_false nofun ha
  · have hasked : asked key now = .error failure := by
      rw [asked, hs]
      simp only [hd]
      rfl
    exact ⟨of_eq_error_of_asked hasked, Duration.eq_duration_of_millis_eq_error hd⟩
  · apply of_eq_of_asked hl
    rw [asked_of_time hs ht, hp]
    rfl
  · apply of_eq_error_of_asked
    rw [asked_of_time hs ht, hp]
    rfl

def afternoon : Instant := ⟨1707575832, 0⟩

def lasting (span : Duration) : ApiKey := { ApiKey.named "k" with expiresAfter := some span }

def lastingUntil (time : String) : ApiKey := { ApiKey.named "k" with expiresAt := some time }

theorem expiry_decided_afternoon : afternoon.InYears 1678 2261 ∧ afternoon.inLeapSecond = false ∧
    Expiry.of (lasting (.text "1d")) afternoon = .ok ⟨1707663600, 0⟩ ∧
    Expiry.of (lasting (.hours 8761)) afternoon = .error (.keyExpiry "k") ∧
    Expiry.of (lastingUntil "2024-03-01T00:00:00Z") afternoon = .ok ⟨1709251200, 0⟩ ∧
    Expiry.of (.named "k") afternoon = .ok ⟨1739109600, 0⟩ := by
  have hy : afternoon.InYears 1678 2261 := by decide
  have hspan : Duration.millis (.text "1d") = .ok 86400000 := by rfl
  have hhours : Duration.millis (.hours 8761) = .ok 31539600000 := by rfl
  have htime : Rfc3339.parse "2024-03-01T00:00:00Z" = .ok ⟨1709251200, 0⟩ := by decide +kernel
  have hday := ((@expiry_decided (lasting (.text "1d")) afternoon hy rfl).1 _ rfl).1 _ hspan
  have hlong := ((@expiry_decided (lasting (.hours 8761)) afternoon hy rfl).1 _ rfl).1 _ hhours
  have huntil := ((@expiry_decided (lastingUntil "2024-03-01T00:00:00Z") afternoon hy rfl).2.1
    rfl _ rfl).1 _ htime
  have hunset := (@expiry_decided (.named "k") afternoon hy rfl).2.2 rfl rfl
  exact ⟨hy, rfl, hday.trans (if_pos (by decide)), hlong.trans (if_neg (by decide)),
    huntil.trans (if_pos (by decide)), hunset⟩

/-- Half of the leap second at the end of 2016. -/
def halfLeapSecond : Instant := ⟨1483228799, 1500000000⟩

/-- A key gets nothing for a span that cannot be read, although it asks for no point in time, and
one that is made in a leap second gets 365 days from the end of the hour. -/
theorem expiry_unreadable : afternoon.InYears 1678 2261 ∧
    (lasting (.text "soon")).expiresAt = none ∧
    Duration.millis (.text "soon") = .error (.duration "soon") ∧
    Expiry.of (lasting (.text "soon")) afternoon = .error (.duration "soon") ∧
    Expiry.of (lasting (.text "soon")) afternoon ≠ .ok (fromHour afternoon (365 * nanosPerDay)) ∧
    halfLeapSecond.InYears 1678 2261 ∧
    Expiry.of (.named "k") halfLeapSecond = .ok ⟨1514764799, 0⟩ ∧
    Expiry.of (.named "k") halfLeapSecond ≠ .ok (fromHour halfLeapSecond (365 * nanosPerDay)) := by
  have hy : afternoon.InYears 1678 2261 := by decide
  have hy' : halfLeapSecond.InYears 1678 2261 := by decide
  have hsoon : Duration.millis (.text "soon") = .error (.duration "soon") := by rfl
  have hof : Expiry.of (lasting (.text "soon")) afternoon = .error (.duration "soon") := by rfl
  have hleap : Expiry.of (.named "k") halfLeapSecond = .ok ⟨1514764799, 0⟩ := by rfl
  have hhour : fromHour halfLeapSecond (365 * nanosPerDay) = ⟨1514761200, 0⟩ := by rfl
  rw [hof, hleap, hhour]
  exact ⟨hy, rfl, hsoon, rfl, nofun, hy', rfl, by decide⟩

end Expiry

end ApiStack
