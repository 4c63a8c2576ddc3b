import ApiStack.Decimal.Binary64

namespace ApiStack

/-- A decimal number `digits * 10 ^ exponent`. -/
structure Decimal where
  digits : Nat
  exponent : Int
  deriving DecidableEq, Inhabited

namespace Decimal

def digitText (d : Decimal) : List Char := Nat.toDigits 10 d.digits

/-- The place of the point, counted from the front of the digits. -/
def pointPlace (d : Decimal) : Int := Int.ofNat d.digitText.length + d.exponent

/-- The same number without final zeros among its digits. -/
def dropZeros (fuel : Nat) (d : Decimal) : Decimal :=
  match fuel with
  | 0 => d
  | fuel + 1 =>
    if d.digits ≠ 0 && d.digits % 10 = 0 then dropZeros fuel ⟨d.digits / 10, d.exponent + 1⟩ else d

/-- The greatest `k` with `10 ^ k ≤ num / den`. -/
def logTen (num den : Nat) : Int :=
  if den ≤ num then Int.ofNat (Nat.toDigits 10 (num / den)).length - 1
  else -Int.ofNat (Nat.toDigits 10 ((den - 1) / num)).length

/-- Four times the significand, with the ends of the interval that rounds to it, in quarters of the
last place. -/
def roundingInterval (m : Nat) (q : Int) : Nat × Nat × Nat :=
  -- below a power of two the doubles lie twice as close
  let lower := if m = Nat.pow 2 52 && q ≠ -1074 then 4 * m - 1 else 4 * m - 2
  (lower, 4 * m, 4 * m + 2)

/-- The decimal nearest to the double on the grid of multiples of `10 ^ step`, if one of the two
around it rounds back to the double. -/
def onGrid? (m : Nat) (q step : Int) : Option Decimal :=
  let (unitNum, unitDen) := Binary64.powerOfTwo (q - 2)
  let (stepNum, stepDen) := Binary64.powerOfTen step
  let (lower, value, upper) := roundingInterval m q
  let scaled (quarters : Nat) : Nat := quarters * unitNum * stepDen
  let width := stepNum * unitDen
  let below := scaled value / width
  let inside (d : Nat) : Bool :=
    if m % 2 = 0 then scaled lower ≤ d * width && d * width ≤ scaled upper
    else scaled lower < d * width && d * width < scaled upper
  let distanceBelow := scaled value - below * width
  let distanceAbove := (below + 1) * width - scaled value
  match inside below, inside (below + 1) with
  | true, true =>
    if distanceBelow < distanceAbove || (distanceBelow = distanceAbove && below % 2 = 0)
    then some ⟨below, step⟩ else some ⟨below + 1, step⟩
  | true, false => some ⟨below, step⟩
  | false, true => some ⟨below + 1, step⟩
  | false, false => none

/-- The shortest decimal that reads back as the magnitude of a finite double. -/
def shortest (x : Binary64) : Decimal :=
  let (m, q) := x.significand
  if m = 0 then ⟨0, 0⟩ else
    let top := logTen x.ratio.1 x.ratio.2
    let found := (List.range 17).findSome? fun n => onGrid? m q (top - Int.ofNat n)
    dropZeros 20 (found.getD ⟨0, 0⟩)

/-- The digits with a point among or beside them, and at least one digit on either side. -/
def positional (d : Decimal) : List Char :=
  let ds := d.digitText
  let place := d.pointPlace
  if 0 ≤ d.exponent then ds ++ List.replicate d.exponent.toNat '0' ++ ['.', '0']
  else if 0 < place then ds.take place.toNat ++ '.' :: ds.drop place.toNat
  else '0' :: '.' :: List.replicate (-place).toNat '0' ++ ds

/-- One digit before the point and an exponent behind the digits. -/
def scientific (plusSign : Bool) (d : Decimal) : List Char :=
  let power := d.pointPlace - 1
  let sign := if power < 0 then ['-'] else if plusSign then ['+'] else []
  let digits := match d.digitText with
    | [] => []
    | [c] => [c]
    | c :: rest => c :: '.' :: rest
  digits ++ 'e' :: sign ++ Nat.toDigits 10 power.natAbs

/-- Positional from `10 ^ -5` up to below `10 ^ 16`, else with an exponent. -/
def compact (plusSign : Bool) (d : Decimal) : List Char :=
  if d.digits = 0 then ['0', '.', '0']
  else if -5 < d.pointPlace && d.pointPlace ≤ 16 then d.positional
  else d.scientific plusSign

end Decimal

def Binary64.render (layout : Decimal → List Char) (x : Binary64) : String :=
  let text := layout (Decimal.shortest x)
  String.ofList (if x.isNegative then '-' :: text else text)

end ApiStack
