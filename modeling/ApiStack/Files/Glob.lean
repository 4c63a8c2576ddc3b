import ApiStack.Files.Path

namespace ApiStack.Glob

inductive Cause where
  | tooManyStars
  | partOfName
  | badRange
  deriving DecidableEq

structure PatternFault where
  position : Nat
  cause : Cause
  deriving DecidableEq

def PatternFault.message (fault : PatternFault) : String :=
  let cause := match fault.cause with
    | .tooManyStars => "wildcards are either regular `*` or recursive `**`"
    | .partOfName => "recursive wildcards must form a single path component"
    | .badRange => "invalid range pattern"
  "Pattern syntax error near position " ++ toString fault.position ++ ": " ++ cause

structure CharRange where
  first : Char
  last : Char
  deriving DecidableEq

/-- One element of a pattern. Wildcards never stand for a dot that starts a part. -/
inductive Token where
  | char (c : Char)
  | anyChar
  | anyName
  | anyDirectories
  | within (ranges : List CharRange)
  | except (ranges : List CharRange)
  deriving DecidableEq

def charRanges : List Char → List CharRange
  | a :: '-' :: b :: rest => ⟨a, b⟩ :: charRanges rest
  | a :: rest => ⟨a, a⟩ :: charRanges rest
  | [] => []

/-- The text up to a closing bracket behind its first character, and what follows the bracket. -/
def untilBracket : List Char → Option (List Char × List Char)
  | [] => none
  | first :: rest =>
    let inner := rest.takeWhile (· ≠ ']')
    match rest.dropWhile (· ≠ ']') with
    | _ :: behind => some (first :: inner, behind)
    | [] => none

def bracketSet : List Char → Option (Token × List Char)
  | '!' :: rest =>
    (untilBracket rest).map fun (inner, behind) => (.except (charRanges inner), behind)
  | rest => (untilBracket rest).map fun (inner, behind) => (.within (charRanges inner), behind)

/-- The elements of a pattern from a position on, given the character before and those read so far
in reverse. -/
def tokensFrom (fuel position : Nat) (previous : Option Char) (read : List Token)
    (cs : List Char) : Except PatternFault (List Token) :=
  match fuel, cs with
  | 0, _ => .ok read.reverse
  | _, [] => .ok read.reverse
  | fuel + 1, '?' :: rest => tokensFrom fuel (position + 1) (some '?') (.anyChar :: read) rest
  | fuel + 1, '*' :: rest =>
    match rest with
    | '*' :: '*' :: _ => .error ⟨position + 2, .tooManyStars⟩
    | '*' :: rest =>
      if previous.any (· ≠ '/') then .error ⟨position - 1, .partOfName⟩ else
        -- one more in a row says nothing new, but it is kept behind the very first token
        let read := match read with
          | .anyDirectories :: _ :: _ => read
          | _ => .anyDirectories :: read
        match rest with
        | [] => .ok read.reverse
        | '/' :: rest => tokensFrom fuel (position + 3) (some '/') read rest
        | _ => .error ⟨position + 2, .partOfName⟩
    | rest => tokensFrom fuel (position + 1) (some '*') (.anyName :: read) rest
  | fuel + 1, '[' :: rest =>
    match bracketSet rest with
    | some (token, behind) =>
      let position := position + 1 + (rest.length - behind.length)
      tokensFrom fuel position (some ']') (token :: read) behind
    | none => .error ⟨position, .badRange⟩
  | fuel + 1, c :: rest => tokensFrom fuel (position + 1) (some c) (.char c :: read) rest

def tokens (pattern : String) : Except PatternFault (List Token) :=
  tokensFrom pattern.length 0 none [] pattern.toList

/-- The result of laying a pattern along a text. If the text ran out, no later start can match. -/
inductive Outcome where
  | fits
  | differs
  | ranOut
  deriving DecidableEq

def inSomeRange (ranges : List CharRange) (c : Char) : Bool :=
  ranges.any fun r => r.first ≤ c && c ≤ r.last

/-- A single-character element stands for a character. -/
def Token.stands (afterSlash : Bool) (c : Char) : Token → Bool
  | .char d => c = d
  | .anyChar => !(c = '/' || (afterSlash && c = '.'))
  | .within ranges => !(c = '/' || (afterSlash && c = '.')) && inSomeRange ranges c
  | .except ranges => !(c = '/' || (afterSlash && c = '.')) && !inSomeRange ranges c
  | .anyName => false
  | .anyDirectories => false

/-- A wildcard takes one character after the other, and the rest of the pattern is tried behind
each; behind whole directories only, if the wildcard stands for directories. -/
def sweep (directories : Bool) (rest : Bool → List Char → Outcome) (afterSlash : Bool) :
    List Char → Outcome
  | [] => rest afterSlash []
  | c :: cs =>
    if afterSlash && c = '.' then .differs
    else if directories && c ≠ '/' then sweep directories rest false cs
    else if !directories && c = '/' then .differs
    else
      match rest (c = '/') cs with
      | .differs => sweep directories rest (c = '/') cs
      | outcome => outcome

def fit : List Token → Bool → List Char → Outcome
  | [], _, [] => .fits
  | [], _, _ :: _ => .differs
  | .anyName :: rest, afterSlash, cs =>
    match fit rest afterSlash cs with
    | .differs => sweep false (fit rest) afterSlash cs
    | outcome => outcome
  | .anyDirectories :: rest, afterSlash, cs =>
    match fit rest afterSlash cs with
    | .differs => sweep true (fit rest) afterSlash cs
    | outcome => outcome
  | _ :: _, _, [] => .ranOut
  | token :: rest, afterSlash, c :: cs =>
    if token.stands afterSlash c then fit rest (c = '/') cs else .differs

def fits (pattern : List Token) (text : String) : Bool := fit pattern true text.toList = .fits

def literal? (pattern : List Token) : Option String :=
  let chars := pattern.map fun
    | .char c => some c
    | _ => none
  if chars.all Option.isSome then some (String.ofList (chars.filterMap id)) else none

end ApiStack.Glob
