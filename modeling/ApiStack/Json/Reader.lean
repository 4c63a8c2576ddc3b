import ApiStack.Json.Basic

namespace ApiStack.Json

/-- Why a number cannot be read; both causes hold the characters that were still unread. -/
inductive NumberError where
  | malformed (rest : List Char)
  | outOfRange (rest : List Char)

def greatestWord : Nat := Nat.pow 2 64 - 1

/-- Digits are taken into the significand while it fits 64 bits. -/
def takeDigits (significand count : Nat) : List Char → Nat × Nat × List Char
  | [] => (significand, count, [])
  | c :: rest =>
    if c.isDigit then
      let next := 10 * significand + (c.toNat - '0'.toNat)
      if greatestWord < next then (significand, count, c :: rest)
      else takeDigits next (count + 1) rest
    else (significand, count, c :: rest)

/-- The double `significand * 10 ^ exponent`, by one rounding of the significand and one of each
scaling by a power of at most `10 ^ 308`. -/
def scaleByTen (fuel : Nat) (x : Binary64) (exponent : Int) : Option Binary64 :=
  let power (k : Nat) : Binary64 := Binary64.ofDecimal false 1 (Int.ofNat k)
  if exponent.natAbs ≤ 308 then
    if 0 ≤ exponent then
      let y := x.mulMagnitude (power exponent.natAbs)
      if y.isFinite then some y else none
    else some (x.divMagnitude (power exponent.natAbs))
  else match fuel with
    | 0 => some x
    | fuel + 1 =>
      if !x.isNonzero then some x
      else if 0 ≤ exponent then none
      else scaleByTen fuel (x.divMagnitude (power 308)) (exponent + 308)

/-- A double from its parts, or the cause that it is too large. -/
def assemble (negative : Bool) (significand : Nat) (exponent : Int) (rest : List Char) :
    Except NumberError (Number × List Char) :=
  match scaleByTen 4 (Binary64.ofNat significand) exponent with
  | some x => .ok (.float (if negative then x.negate else x), rest)
  | none => .error (.outOfRange rest)

/-- Digits of an exponent are taken while it fits 32 bits; false if it grew too large. -/
def takeExponent (exponent : Nat) : List Char → Nat × Bool × List Char
  | [] => (exponent, true, [])
  | c :: rest =>
    if c.isDigit then
      let next := 10 * exponent + (c.toNat - '0'.toNat)
      if Nat.pow 2 31 - 1 < next then (exponent, false, rest) else takeExponent next rest
    else (exponent, true, c :: rest)

def readExponent (negative : Bool) (significand : Nat) (start : Int) (cs : List Char) :
    Except NumberError (Number × List Char) :=
  let (grows, digits) := match cs with
    | '+' :: rest => (true, rest)
    | '-' :: rest => (false, rest)
    | rest => (true, rest)
  match digits with
  | [] => .error (.malformed [])
  | c :: rest =>
    if !c.isDigit then .error (.malformed (c :: rest)) else
      match takeExponent 0 (c :: rest) with
      | (exponent, true, rest) =>
        assemble negative significand (if grows then start + exponent else start - exponent) rest
      | (_, false, rest) =>
        if grows && significand ≠ 0 then .error (.outOfRange rest)
        else .ok (.float (Binary64.zero negative), rest.dropWhile Char.isDigit)

/-- The exponent, if there is one, after all digits. -/
def readScale (negative : Bool) (significand : Nat) (exponent : Int) :
    List Char → Except NumberError (Number × List Char)
  | 'e' :: rest => readExponent negative significand exponent rest
  | 'E' :: rest => readExponent negative significand exponent rest
  | rest => assemble negative significand exponent rest

/-- The part behind the point: at least one digit. -/
def readFraction (negative : Bool) (significand : Nat) (exponent : Int) (cs : List Char) :
    Except NumberError (Number × List Char) :=
  match cs with
  | [] => .error (.malformed [])
  | c :: _ =>
    if !c.isDigit then .error (.malformed cs) else
      let (significand, count, rest) := takeDigits significand 0 cs
      readScale negative significand (exponent - count) (rest.dropWhile Char.isDigit)

def readUnsigned (negative : Bool) (cs : List Char) : Except NumberError (Number × List Char) :=
  match cs with
  | [] => .error (.malformed [])
  | c :: tail =>
    if !c.isDigit then .error (.malformed cs)
    else if c = '0' && (tail.head?.any Char.isDigit) then .error (.malformed tail)
    else
      let (significand, _, rest) := takeDigits 0 0 cs
      -- digits that the significand has no room for only count for the exponent
      let dropped := rest.takeWhile Char.isDigit
      match rest.dropWhile Char.isDigit with
      | '.' :: rest => readFraction negative significand (Int.ofNat dropped.length) rest
      | 'e' :: rest => readExponent negative significand (Int.ofNat dropped.length) rest
      | 'E' :: rest => readExponent negative significand (Int.ofNat dropped.length) rest
      | rest =>
        if !dropped.isEmpty then assemble negative significand (Int.ofNat dropped.length) rest
        else if !negative then .ok (.int (Int.ofNat significand), rest)
        else if significand = 0 || Nat.pow 2 63 < significand then
          .ok (.float (Binary64.ofNat significand).negate, rest)
        else .ok (.int (-Int.ofNat significand), rest)

def readNumber : List Char → Except NumberError (Number × List Char)
  | '-' :: rest => readUnsigned true rest
  | cs => readUnsigned false cs

/-- The blanks of JSON. -/
def isBlank (c : Char) : Bool := c = ' ' || c = '\n' || c = '\t' || c = '\r'

def skipBlanks (cs : List Char) : List Char := cs.dropWhile isBlank

def hexDigit? (c : Char) : Option Nat :=
  if c.isDigit then some (c.toNat - '0'.toNat)
  else if 'a' ≤ c && c ≤ 'f' then some (c.toNat - 'a'.toNat + 10)
  else if 'A' ≤ c && c ≤ 'F' then some (c.toNat - 'A'.toNat + 10)
  else none

def hexUnit? : List Char → Option (Nat × List Char)
  | a :: b :: c :: d :: rest => do
    let a ← hexDigit? a
    let b ← hexDigit? b
    let c ← hexDigit? c
    let d ← hexDigit? d
    some (((a * 16 + b) * 16 + c) * 16 + d, rest)
  | _ => none

/-- The character behind an escaped unit; a high surrogate needs a low one behind it. -/
def escapedUnit? (cs : List Char) : Option (Char × List Char) := do
  let (unit, rest) ← hexUnit? cs
  if 0xDC00 ≤ unit && unit ≤ 0xDFFF then none
  else if 0xD800 ≤ unit && unit ≤ 0xDBFF then
    match rest with
    | '\\' :: 'u' :: rest =>
      let (low, rest) ← hexUnit? rest
      if 0xDC00 ≤ low && low ≤ 0xDFFF then
        some (Char.ofNat (0x10000 + (unit - 0xD800) * 0x400 + (low - 0xDC00)), rest)
      else none
    | _ => none
  else some (Char.ofNat unit, rest)

/-- The characters that stand for themselves or a control character behind a backslash. -/
def escapedChar? : Char → Option Char
  | '"' => some '"'
  | '\\' => some '\\'
  | '/' => some '/'
  | 'b' => some '\x08'
  | 'f' => some '\x0c'
  | 'n' => some '\n'
  | 'r' => some '\r'
  | 't' => some '\t'
  | _ => none

def readString (fuel : Nat) (read : List Char) (cs : List Char) : Option (String × List Char) :=
  match fuel, cs with
  | 0, _ => none
  | _, [] => none
  | _, '"' :: rest => some (String.ofList read.reverse, rest)
  | fuel + 1, '\\' :: 'u' :: rest => do
    let (c, rest) ← escapedUnit? rest
    readString fuel (c :: read) rest
  | fuel + 1, '\\' :: c :: rest => do
    let c ← escapedChar? c
    readString fuel (c :: read) rest
  | fuel + 1, c :: rest => if c.toNat < 32 then none else readString fuel (c :: read) rest

mutual

def readValue (fuel : Nat) (cs : List Char) : Option (Json × List Char) :=
  match fuel with
  | 0 => none
  | fuel + 1 =>
    match skipBlanks cs with
    | 'n' :: 'u' :: 'l' :: 'l' :: rest => some (null, rest)
    | 't' :: 'r' :: 'u' :: 'e' :: rest => some (bool true, rest)
    | 'f' :: 'a' :: 'l' :: 's' :: 'e' :: rest => some (bool false, rest)
    | '"' :: rest => (readString (rest.length + 1) [] rest).map fun (s, rest) => (str s, rest)
    | '[' :: rest =>
      match skipBlanks rest with
      | ']' :: rest => some (arr [], rest)
      | rest => readItems fuel [] rest
    | '{' :: rest =>
      match skipBlanks rest with
      | '}' :: rest => some (obj [], rest)
      | rest => readEntries fuel [] rest
    | cs =>
      match readNumber cs with
      | .ok (n, rest) => some (num n, rest)
      | .error _ => none

/-- The items of an array from the next one on. -/
def readItems (fuel : Nat) (read : List Json) (cs : List Char) : Option (Json × List Char) :=
  match fuel with
  | 0 => none
  | fuel + 1 => do
    let (item, rest) ← readValue fuel cs
    match skipBlanks rest with
    | ',' :: rest => readItems fuel (item :: read) rest
    | ']' :: rest => some (arr (item :: read).reverse, rest)
    | _ => none

/-- The entries of an object from the next one on; all of them are kept. -/
def readEntries (fuel : Nat) (read : List (String × Json)) (cs : List Char) :
    Option (Json × List Char) :=
  match fuel with
  | 0 => none
  | fuel + 1 =>
    match skipBlanks cs with
    | '"' :: rest => do
      let (key, rest) ← readString (rest.length + 1) [] rest
      match skipBlanks rest with
      | ':' :: rest =>
        let (value, rest) ← readValue fuel rest
        match skipBlanks rest with
        | ',' :: rest => readEntries fuel ((key, value) :: read) rest
        | '}' :: rest => some (obj ((key, value) :: read).reverse, rest)
        | _ => none
      | _ => none
    | _ => none

end

mutual

/-- The value with each object key once: the last value given stands at the first place. -/
def lastWins : Json → Json
  | arr items => arr (lastWinsItems items)
  | obj entries => obj (lastWinsEntries entries []).reverse
  | j => j
termination_by structural j => j

/-- Every item with each object key once. -/
def lastWinsItems : List Json → List Json
  | [] => []
  | j :: rest => lastWins j :: lastWinsItems rest
termination_by structural items => items

/-- Entries moved one by one onto those before them, which stand in reverse. -/
def lastWinsEntries : List (String × Json) → List (String × Json) → List (String × Json)
  | [], done => done
  | (k, v) :: rest, done =>
    let v := lastWins v
    let done := if done.any (·.1 = k) then setEntry k v done else (k, v) :: done
    lastWinsEntries rest done
termination_by structural entries => entries

end

/-- The value that a whole text holds, with repeated keys kept. -/
def readRaw? (text : String) : Option Json :=
  let cs := text.toList
  match readValue (2 * cs.length + 2) cs with
  | some (j, rest) => if (skipBlanks rest).isEmpty then some j else none
  | none => none

def read? (text : String) : Option Json := (readRaw? text).map lastWins

end ApiStack.Json
