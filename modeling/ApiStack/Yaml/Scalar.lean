import ApiStack.Decimal.Literal
import ApiStack.Json.Reader

namespace ApiStack.Yaml

/-- The value of a scalar. An integer is wide if it does not fit 64 bits but 128. -/
inductive Scalar where
  | null
  | bool (b : Bool)
  | unsigned (n : Nat)
  | signed (n : Int)
  | wide (n : Int)
  | float (x : Binary64)
  | text (s : String)
  deriving DecidableEq

namespace Scalar

def isNullWord (s : String) : Bool := s = "null" || s = "Null" || s = "NULL" || s = "~"

def bool? (s : String) : Option Bool :=
  if s = "true" || s = "True" || s = "TRUE" then some true
  else if s = "false" || s = "False" || s = "FALSE" then some false
  else none

def digitsIn? (base : Nat) (digits : List Char) : Option Nat :=
  let digit? (c : Char) : Option Nat := (Json.hexDigit? c).filter (· < base)
  if digits.isEmpty then none
  else digits.foldl (fun n c => do return base * (← n) + (← digit? c)) (some 0)

/-- Decimal digits behind a superfluous zero. -/
def hasSpareZero (cs : List Char) : Bool :=
  match (Decimal.sign cs).2 with
  | '0' :: c :: rest => (c :: rest).all Char.isDigit
  | _ => false

/-- The magnitude of an integer without its sign, in base sixteen, eight, two or ten. -/
def magnitude? : List Char → Option Nat
  | '0' :: 'x' :: digits => digitsIn? 16 digits
  | '0' :: 'o' :: digits => digitsIn? 8 digits
  | '0' :: 'b' :: digits => digitsIn? 2 digits
  | digits => digitsIn? 10 digits

/-- An integer: whether it has a minus, and its magnitude. -/
def integer? (cs : List Char) : Option (Bool × Nat) :=
  if hasSpareZero cs then none
  else
    let (negative, digits) := Decimal.sign cs
    (magnitude? digits).map fun n => (negative, n)

/-- An integer that is not written with a minus and fits 64 bits. -/
def unsigned? (s : String) : Option Nat :=
  match integer? s.toList with
  | some (false, n) => if n < Nat.pow 2 64 then some n else none
  | _ => none

/-- An integer that fits 128 bits. -/
def ofInteger? (s : String) : Option Scalar :=
  match integer? s.toList with
  | some (false, n) =>
    if n < Nat.pow 2 64 then some (.unsigned n)
    else if n < Nat.pow 2 128 then some (.wide n) else none
  | some (true, n) =>
    if n ≤ Nat.pow 2 63 then some (.signed (-Int.ofNat n))
    else if n ≤ Nat.pow 2 127 then some (.wide (-Int.ofNat n)) else none
  | none => none

/-- A double; decimal literals have to be finite. -/
def float? (s : String) : Option Binary64 :=
  if s = ".inf" || s = ".Inf" || s = ".INF" || s = "+.inf" || s = "+.Inf" || s = "+.INF" then
    some (.infinity false)
  else if s = "-.inf" || s = "-.Inf" || s = "-.INF" then some (.infinity true)
  else if s = ".nan" || s = ".NaN" || s = ".NAN" then some .undefined
  else (Decimal.read? s).filter Binary64.isFinite

/-- What a plain scalar without a tag stands for. -/
def ofPlain (s : String) : Scalar :=
  if s = "" || isNullWord s then .null
  else
    match bool? s with
    | some b => .bool b
    | none =>
      match ofInteger? s with
      | some n => n
      | none =>
        if hasSpareZero s.toList then .text s
        else
          match float? s with
          | some x => .float x
          | none => .text s

end Scalar

end ApiStack.Yaml
