import ApiStack.Text.ByteSize
import ApiStack.Time.Instant

namespace ApiStack.Rfc3339

/-- Why a text is no date and time. -/
inductive TimeFault where
  | tooShort
  | invalid
  | outOfRange
  | tooLong
  deriving DecidableEq

def TimeFault.message : TimeFault → String
  | .tooShort => "premature end of input"
  | .invalid => "input contains invalid characters"
  | .outOfRange => "input is out of range"
  | .tooLong => "trailing input"

def digitsValue (digits : List Char) : Nat :=
  digits.foldl (fun n c => 10 * n + (c.toNat - '0'.toNat)) 0

def number (count : Nat) (cs : List Char) : Except TimeFault (Nat × List Char) :=
  let digits := (cs.take count).takeWhile Char.isDigit
  if Text.byteSize cs < count then .error .tooShort
  else if digits.length < count then .error .invalid
  else .ok (digitsValue digits, cs.drop count)

def oneOf (allowed : List Char) : List Char → Except TimeFault (List Char)
  | [] => .error .tooShort
  | c :: rest => if allowed.contains c then .ok rest else .error .invalid

/-- The fraction of a second in nanoseconds; digits from the tenth on do not count. -/
def fraction (cs : List Char) : Except TimeFault (Nat × List Char) :=
  let digits := (cs.takeWhile Char.isDigit).take 9
  if cs.isEmpty then .error .tooShort
  else if digits.isEmpty then .error .invalid
  else .ok (digitsValue digits * Nat.pow 10 (9 - digits.length), cs.dropWhile Char.isDigit)

def optionalFraction : List Char → Except TimeFault (Nat × List Char)
  | '.' :: rest => fraction rest
  | cs => .ok (0, cs)

def offsetMinutes (cs : List Char) : Except TimeFault (Nat × List Char) :=
  if Text.byteSize cs < 2 then .error .tooShort else
    match cs with
    | a :: b :: rest =>
      if !(a.isDigit && b.isDigit) then .error .invalid
      else if '6' ≤ a then .error .outOfRange
      else .ok (digitsValue [a, b], rest)
    | _ => .error .invalid

/-- Hours and minutes of an offset, in minutes. -/
def offsetSpan (cs : List Char) : Except TimeFault (Nat × List Char) := do
  let (hours, rest) ← number 2 cs
  let rest ← oneOf [':'] rest
  let (minutes, rest) ← offsetMinutes rest
  return (60 * hours + minutes, rest)

/-- The offset from Universal Time, in minutes. -/
def offset : List Char → Except TimeFault (Int × List Char)
  | [] => .error .tooShort
  | c :: rest =>
    if c = 'Z' || c = 'z' then .ok (0, rest)
    else if c = '+' then (offsetSpan rest).map fun (n, rest) => (Int.ofNat n, rest)
    else if c = '-' || c.toNat = 0x2212 then
      (offsetSpan rest).map fun (n, rest) => (-Int.ofNat n, rest)
    else .error .invalid

def isLeapYear (year : Nat) : Bool := year % 4 = 0 && (year % 100 ≠ 0 || year % 400 = 0)

def monthLengths (year : Nat) : List Nat :=
  [31, if isLeapYear year then 29 else 28, 31, 30, 31, 30, 31, 31, 30, 31, 30, 31]

/-- The days from the beginning of 1970 to a date. -/
def dayNumber (year month day : Nat) : Int :=
  let leapDays (y : Nat) : Nat := (y + 3) / 4 - (y + 99) / 100 + (y + 399) / 400
  Int.ofNat (365 * year + leapDays year) - Int.ofNat (365 * 1970 + leapDays 1970)
    + Int.ofNat (((monthLengths year).take (month - 1)).foldl (· + ·) 0 + (day - 1))

/-- The bytes of a date and a time without a fraction. -/
def shortest : Nat := 19

def isDate (year month day : Nat) : Bool :=
  1 ≤ month && 1 ≤ day && day ≤ (monthLengths year)[month - 1]?.getD 0

/-- There is such a time of day; a minute may have a leap second more. -/
def isTime (hour minute second : Nat) : Bool := hour < 24 && minute < 60 && second ≤ 60

/-- The greatest offset, in minutes. -/
def greatestOffset : Nat := 23 * 60 + 59

def parse (text : String) : Except TimeFault Instant := do
  let cs := text.toList
  if Text.byteSize cs < shortest then throw .tooShort
  let (year, cs) ← number 4 cs
  let cs ← oneOf ['-'] cs
  let (month, cs) ← number 2 cs
  let cs ← oneOf ['-'] cs
  let (day, cs) ← number 2 cs
  if !isDate year month day then throw .outOfRange
  let cs ← oneOf ['T', 't', ' '] cs
  let (hour, cs) ← number 2 cs
  let cs ← oneOf [':'] cs
  let (minute, cs) ← number 2 cs
  let cs ← oneOf [':'] cs
  let (second, cs) ← number 2 cs
  let (nanos, cs) ← optionalFraction cs
  if !isTime hour minute second then throw .outOfRange
  let (shift, cs) ← offset cs
  if !cs.isEmpty then throw .tooLong
  if greatestOffset < shift.natAbs then throw .outOfRange
  let local' := dayNumber year month day * 86400 + Int.ofNat (hour * 3600 + minute * 60)
  let seconds := local' + Int.ofNat (min second 59) - shift * 60
  -- a leap second prolongs the second before it
  return ⟨seconds, if second = 60 then nanos + Instant.nanosPerSecond else nanos⟩

end ApiStack.Rfc3339
