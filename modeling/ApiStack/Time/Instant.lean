namespace ApiStack

/-- A point in time, since the beginning of 1970, Universal Time. A leap second is the second before
it with a thousand million nanoseconds or more. -/
structure Instant where
  seconds : Int
  nanos : Nat
  deriving DecidableEq, Inhabited

namespace Instant

def nanosPerSecond : Nat := Nat.pow 10 9

/-- The point lies within a leap second. -/
def inLeapSecond (t : Instant) : Bool := nanosPerSecond ≤ t.nanos

def before (s t : Instant) : Bool :=
  s.seconds < t.seconds || (s.seconds = t.seconds && s.nanos < t.nanos)

/-- The point after a span, in nanoseconds and not negative. A span of at least a second leaves a
leap second as if it were the second before it. -/
def later (t : Instant) (span : Nat) : Instant :=
  let seconds := span / nanosPerSecond
  let nanos := span % nanosPerSecond
  if t.inLeapSecond && seconds = 0 && t.nanos + nanos < 2 * nanosPerSecond then
    ⟨t.seconds, t.nanos + nanos⟩
  else
    let start := if t.inLeapSecond then t.nanos - nanosPerSecond else t.nanos
    let total := start + nanos
    ⟨t.seconds + seconds + Int.ofNat (total / nanosPerSecond), total % nanosPerSecond⟩

/-- The last second that is counted, at the end of the year 262142. -/
def lastSecond : Int := 8210266876799

/-- The point after a span, if its second is counted. -/
def later? (t : Instant) (span : Nat) : Option Instant :=
  let s := t.later span
  if s.seconds ≤ lastSecond then some s else none

/-- The point before which a span lies, in nanoseconds and not negative. A span of at least a second
leaves a leap second as if it were the second after it. -/
def earlier (t : Instant) (span : Nat) : Instant :=
  let seconds := span / nanosPerSecond
  let nanos := span % nanosPerSecond
  if t.inLeapSecond && seconds = 0 then ⟨t.seconds, t.nanos - nanos⟩
  else
    let (start, from') := if t.inLeapSecond then (t.nanos - nanosPerSecond, t.seconds + 1)
      else (t.nanos, t.seconds)
    if nanos ≤ start then ⟨from' - seconds, start - nanos⟩
    else ⟨from' - seconds - 1, start + nanosPerSecond - nanos⟩

def nanosPerHour : Nat := 3600 * nanosPerSecond

def totalNanos (t : Instant) : Int := t.seconds * nanosPerSecond + t.nanos

/-- The start of the hour, for points whose nanoseconds fit 64 bits; others stay. -/
def startOfHour (t : Instant) : Instant :=
  let total := t.totalNanos
  if total < -Int.ofNat (Nat.pow 2 63) || Int.ofNat (Nat.pow 2 63) ≤ total then t
  else t.earlier (total % nanosPerHour).toNat

/-- The nearest second, counted in thousandths; a half goes away from zero. -/
def nearestSecond (t : Instant) : Int :=
  let millis := t.seconds * 1000 + Int.ofNat (t.nanos / Nat.pow 10 6)
  if 0 ≤ millis then (millis + 500) / 1000 else -((-millis + 500) / 1000)

end Instant

end ApiStack
