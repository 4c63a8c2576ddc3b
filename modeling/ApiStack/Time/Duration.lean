import ApiStack.Failure
import ApiStack.Text.DecimalDigit

namespace ApiStack

inductive Duration where
  | hours (n : Nat)
  | text (s : String)
  deriving DecidableEq, Inhabited

namespace Duration

inductive TimeUnit where
  | year
  | quarter
  | month
  | week
  | day
  | hour
  | minute
  | second
  | milli
  deriving DecidableEq

def TimeUnit.letters : TimeUnit → String
  | .year => "y"
  | .quarter => "q"
  | .month => "M"
  | .week => "w"
  | .day => "d"
  | .hour => "h"
  | .minute => "m"
  | .second => "s"
  | .milli => "ms"

def units : List TimeUnit :=
  [.year, .quarter, .month, .week, .day, .hour, .minute, .second, .milli]

/-- The unit for what stands behind a number. A number alone counts hours. -/
def unitOf? (letters : List Char) : Option TimeUnit :=
  if letters.isEmpty then some .hour else units.find? fun u => u.letters.toList = letters

/-- The digits and the unit of a text, if it has this form. Digits of any script are admitted. -/
def split? (text : String) : Option (List Char × TimeUnit) :=
  let digits := text.toList.takeWhile Text.isDecimalDigit
  if digits.isEmpty then none
  else (unitOf? (text.toList.dropWhile Text.isDecimalDigit)).map fun u => (digits, u)

def isWellFormed (text : String) : Bool := (split? text).isSome

/-- The value of ASCII digits that fit 64 bits. -/
def amount? (digits : List Char) : Option Nat :=
  if digits.all Char.isDigit then
    let n := Rfc3339.digitsValue digits
    if n < Nat.pow 2 64 then some n else none
  else none

/-- The greatest number in a signed word of 64 bits. -/
def greatest : Nat := Nat.pow 2 63 - 1

/-- A product that fits a signed word. -/
def product? (m n : Nat) : Option Nat := if m * n ≤ greatest then some (m * n) else none

/-- Seconds in milliseconds. There are as many at most as have milliseconds in a signed word. -/
def ofSeconds? (n : Nat) : Option Nat := if n ≤ greatest / 1000 then some (n * 1000) else none

def ofDays? (n : Nat) : Option Nat := product? n 86400 >>= ofSeconds?

/-- An amount of a unit in milliseconds. The amount is turned into days and these into seconds, each
of which has to fit a signed word. -/
def inMillis? (n : Nat) : TimeUnit → Option Nat
  | .year => product? n 365 >>= ofDays?
  | .quarter => product? n 91 >>= ofDays?
  | .month => product? n 30 >>= ofDays?
  | .week => product? n 7 >>= ofDays?
  | .day => product? n 1 >>= ofDays?
  | .hour => product? n 3600 >>= ofSeconds?
  | .minute => product? n 60 >>= ofSeconds?
  | .second => ofSeconds? n
  | .milli => some n

/-- An amount of a unit in milliseconds, if the amount fits a signed word. -/
def ofUnit (n : Nat) (unit : TimeUnit) : Except Failure Nat :=
  match if n ≤ greatest then inMillis? n unit else none with
  | some millis => .ok millis
  | none => .error (.duration (toString n ++ unit.letters))

def millis : Duration → Except Failure Nat
  | .hours n => ofUnit n .hour
  | .text s =>
    match split? s with
    | none => .error (.duration s)
    | some (digits, unit) =>
      match amount? digits with
      | none => .error (.duration s)
      | some n => ofUnit n unit

end Duration

end ApiStack
