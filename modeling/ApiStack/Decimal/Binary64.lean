namespace ApiStack

/-- A double-precision number, given by its sign, exponent and fraction bits. -/
structure Binary64 where
  bits : UInt64
  deriving DecidableEq, Inhabited

namespace Binary64

def magnitudeBits (x : Binary64) : Nat := x.bits.toNat % Nat.pow 2 63

def isNegative (x : Binary64) : Bool := Nat.pow 2 63 ≤ x.bits.toNat

/-- The magnitude bits of infinity; larger ones are not numbers. -/
def infinityBits : Nat := 2047 * Nat.pow 2 52

/-- Neither infinite nor undefined. -/
def isFinite (x : Binary64) : Bool := x.magnitudeBits < infinityBits

def ofSignedBits (negative : Bool) (magnitude : Nat) : Binary64 :=
  ⟨UInt64.ofNat (if negative then Nat.pow 2 63 + magnitude else magnitude)⟩

def zero (negative : Bool) : Binary64 := ofSignedBits negative 0

def infinity (negative : Bool) : Binary64 := ofSignedBits negative infinityBits

def undefined : Binary64 := ofSignedBits false (infinityBits + Nat.pow 2 51)

def isNonzero (x : Binary64) : Bool := x.magnitudeBits ≠ 0

/-- The significand `m` and exponent `q` of a finite magnitude `m * 2 ^ q`. -/
def significand (x : Binary64) : Nat × Int :=
  let exponent := x.magnitudeBits / Nat.pow 2 52
  let fraction := x.magnitudeBits % Nat.pow 2 52
  if exponent = 0 then (fraction, -1074) else (Nat.pow 2 52 + fraction, Int.ofNat exponent - 1075)

def powerOfTwo (q : Int) : Nat × Nat :=
  if 0 ≤ q then (Nat.pow 2 q.toNat, 1) else (1, Nat.pow 2 (-q).toNat)

def powerOfTen (k : Int) : Nat × Nat :=
  if 0 ≤ k then (Nat.pow 10 k.toNat, 1) else (1, Nat.pow 10 (-k).toNat)

def ratio (x : Binary64) : Nat × Nat :=
  let (m, q) := x.significand
  let (num, den) := powerOfTwo q
  (m * num, den)

/-- The quotient rounded to the nearest natural, a half to the even neighbour. -/
def roundQuotient (num den : Nat) : Nat :=
  let whole := num / den
  let twice := 2 * (num % den)
  if twice < den then whole
  else if den < twice then whole + 1
  else if whole % 2 = 0 then whole else whole + 1

/-- The double nearest to `num / den`, a half to the even significand. -/
def ofRatio (negative : Bool) (num den : Nat) : Binary64 :=
  if num = 0 then zero negative else
    let scale (q : Int) : Nat × Nat :=
      let (n, d) := powerOfTwo q
      (num * d, den * n)
    let least : Int := max (Int.ofNat num.log2 - Int.ofNat den.log2 - 53) (-1074)
    let q := if Nat.pow 2 53 ≤ (scale least).1 / (scale least).2 then least + 1 else least
    let m := roundQuotient (scale q).1 (scale q).2
    ofSignedBits negative (min ((q + 1074).toNat * Nat.pow 2 52 + m) infinityBits)

def ofNat (n : Nat) : Binary64 := ofRatio false n 1

def mulMagnitude (x y : Binary64) : Binary64 :=
  ofRatio false (x.ratio.1 * y.ratio.1) (x.ratio.2 * y.ratio.2)

def divMagnitude (x y : Binary64) : Binary64 :=
  ofRatio false (x.ratio.1 * y.ratio.2) (x.ratio.2 * y.ratio.1)

def negate (x : Binary64) : Binary64 := ofSignedBits (!x.isNegative) x.magnitudeBits

/-- The double nearest to `digits * 10 ^ exponent`. Far outside the range of doubles the answer is
zero or infinity whatever the digits, and no power is computed. -/
def ofDecimal (negative : Bool) (digits : Nat) (exponent : Int) : Binary64 :=
  let size : Int := Int.ofNat (Nat.toDigits 10 digits).length + exponent
  if digits = 0 || size < -400 then zero negative
  else if 400 < size then infinity negative
  else
    let (num, den) := powerOfTen exponent
    ofRatio negative (digits * num) den

/-- Equality of numbers: the two zeros are equal. -/
def sameNumber (x y : Binary64) : Bool :=
  x.bits = y.bits || (x.magnitudeBits = 0 && y.magnitudeBits = 0)

end Binary64

end ApiStack
