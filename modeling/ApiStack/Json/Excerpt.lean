import ApiStack.Json.Reader

namespace ApiStack.Json

/-- The text behind the string that ends with the next quote. -/
def passString : List Char → Option (List Char)
  | [] => none
  | '"' :: rest => some rest
  | '\\' :: 'u' :: a :: b :: c :: d :: rest =>
    if [a, b, c, d].all fun x => (hexDigit? x).isSome then passString rest else none
  | '\\' :: c :: rest => if (escapedChar? c).isSome then passString rest else none
  | c :: rest => if c.toNat < 32 then none else passString rest

/-- The text behind one digit or more. -/
def passDigits : List Char → Option (List Char)
  | [] => none
  | c :: rest => if c.isDigit then some (rest.dropWhile Char.isDigit) else none

def passExponent : List Char → Option (List Char)
  | [] => some []
  | c :: rest =>
    if c = 'e' || c = 'E' then
      match rest with
      | '+' :: digits => passDigits digits
      | '-' :: digits => passDigits digits
      | digits => passDigits digits
    else some (c :: rest)

/-- The text behind a fraction and an exponent, as far as there are any. -/
def passFraction : List Char → Option (List Char)
  | '.' :: rest => do passExponent (← passDigits rest)
  | rest => passExponent rest

/-- The text behind a number without a minus; it has no superfluous zero. -/
def passUnsigned : List Char → Option (List Char)
  | '0' :: rest => if rest.head?.any Char.isDigit then none else passFraction rest
  | rest => do passFraction (← passDigits rest)

def passNumber : List Char → Option (List Char)
  | '-' :: rest => passUnsigned rest
  | rest => passUnsigned rest

mutual

def passValue (fuel : Nat) (cs : List Char) : Option (List Char) :=
  match fuel with
  | 0 => none
  | fuel + 1 =>
    match skipBlanks cs with
    | 'n' :: 'u' :: 'l' :: 'l' :: rest => some rest
    | 't' :: 'r' :: 'u' :: 'e' :: rest => some rest
    | 'f' :: 'a' :: 'l' :: 's' :: 'e' :: rest => some rest
    | '"' :: rest => passString rest
    | '[' :: rest =>
      match skipBlanks rest with
      | ']' :: rest => some rest
      | rest => passItems fuel rest
    | '{' :: rest =>
      match skipBlanks rest with
      | '}' :: rest => some rest
      | rest => passEntries fuel rest
    | cs => passNumber cs

/-- The text behind the items of an array from the next one on. -/
def passItems (fuel : Nat) (cs : List Char) : Option (List Char) :=
  match fuel with
  | 0 => none
  | fuel + 1 => do
    let rest ← passValue fuel cs
    match skipBlanks rest with
    | ',' :: rest => passItems fuel rest
    | ']' :: rest => some rest
    | _ => none

def passEntries (fuel : Nat) (cs : List Char) : Option (List Char) :=
  match fuel with
  | 0 => none
  | fuel + 1 =>
    match skipBlanks cs with
    | '"' :: rest => do
      match skipBlanks (← passString rest) with
      | ':' :: rest =>
        match skipBlanks (← passValue fuel rest) with
        | ',' :: rest => passEntries fuel rest
        | '}' :: rest => some rest
        | _ => none
      | _ => none
    | _ => none

end

/-- The entries of an object from the next one on, as far as their keys are wanted. -/
def readWanted (keys : List String) (fuel : Nat) (read : List (String × Json)) (cs : List Char) :
    Option (Json × List Char) :=
  match fuel with
  | 0 => none
  | fuel + 1 =>
    match skipBlanks cs with
    | '"' :: rest => do
      let (key, rest) ← readString (rest.length + 1) [] rest
      match skipBlanks rest with
      | ':' :: rest =>
        let (read, rest) ← if keys.contains key then
            (readValue fuel rest).map fun (value, rest) => ((key, value) :: read, rest)
          else (passValue fuel rest).map fun rest => (read, rest)
        match skipBlanks rest with
        | ',' :: rest => readWanted keys fuel read rest
        | '}' :: rest => some (obj read.reverse, rest)
        | _ => none
      | _ => none
    | _ => none

/-- The value that a whole text holds; of an object only the entries of some keys, repeated ones
too. -/
def excerpt? (keys : List String) (text : String) : Option Json :=
  let cs := text.toList
  let fuel := 2 * cs.length + 2
  let value := match skipBlanks cs with
    | '{' :: rest =>
      match skipBlanks rest with
      | '}' :: rest => some (obj [], rest)
      | rest => readWanted keys fuel [] rest
    | rest => readValue fuel rest
  match value with
  | some (j, rest) => if (skipBlanks rest).isEmpty then some j else none
  | none => none

end ApiStack.Json
