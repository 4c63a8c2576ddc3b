import ApiStack.Config.Authored
import ApiStack.Time.Rfc3339

namespace ApiStack.Expiry

def millisPerHour : Nat := 3600000

def nanosPerMilli : Nat := Nat.pow 10 6

def nanosPerDay : Nat := 24 * Instant.nanosPerHour

/-- The span that a key gets for the one it asks for, in milliseconds. It counts from the start of
the hour, so a day is taken as an hour more: what is left of it is then still a day. -/
def grantedMillis (millis : Nat) : Nat :=
  if 24 * millisPerHour ≤ millis && millis < 25 * millisPerHour then 25 * millisPerHour else millis

/-- When a key asks to expire, if it is made at some time. A span counts before a point in time, and
without either a key expires after 365 days. -/
def asked (key : Config.ApiKey) (now : Instant) : Except Failure Instant :=
  match key.expiresAfter, key.expiresAt with
  | some span, _ => do
    match now.startOfHour.later? (grantedMillis (← span.millis) * nanosPerMilli) with
    | some t => return t
    | none => throw (.keyExpiry key.name)
  | none, some time =>
    (Rfc3339.parse time).mapError fun fault =>
      .misconfigured (.expiryTime key.name time fault)
  | none, none => .ok (now.startOfHour.later (365 * nanosPerDay))

/-- When a key expires that is made at some time. It is valid for a day at least and for 365 days at
most. -/
def of (key : Config.ApiKey) (now : Instant) : Except Failure Instant := do
  let t ← asked key now
  if t.before (now.later nanosPerDay) || (now.later (365 * nanosPerDay)).before t then
    throw (.keyExpiry key.name)
  else return t

end ApiStack.Expiry
