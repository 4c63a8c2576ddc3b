import ApiStack.Json.Basic
import ApiStack.Yaml.Scalar
import ApiStack.Yaml.Token

namespace ApiStack.Yaml

inductive Form where
  | plain
  | single
  | double
  | literal
  deriving DecidableEq

/-- A character that is printed as it is; outside of literal texts line feeds are not. -/
def isPrintable (c : Char) : Bool :=
  isAllowed c && !isByteOrderMark c && c ≠ '\t' && c ≠ '\r' && c.toNat ≠ 0x85

def hasNeighbours (p q : Char → Bool) (cs : List Char) : Bool :=
  (cs.zip cs.tail).any fun (a, b) => p a && q b

def isIndicator (c : Char) : Bool :=
  [',', '[', ']', '\x7b', '\x7d', '#', '&', '*', '!', '|', '>', '\'', '"', '%', '@', '`'].contains c

/-- The text starts like something other than a plain text. -/
def startsSpecially (cs : List Char) : Bool :=
  cs.take 3 = ['-', '-', '-'] || cs.take 3 = ['.', '.', '.'] ||
    match cs with
    | [] => true
    | c :: rest => isIndicator c || ((c = '?' || c = '-') && rest.head?.all (· = ' '))

/-- The text has a colon before a space or its end, or a space before a number sign. -/
def splitsInside (cs : List Char) : Bool :=
  cs.getLast? = some ':' || hasNeighbours (· = ':') (· = ' ') cs
    || hasNeighbours (· = ' ') (· = '#') cs

/-- Read as a plain scalar, the text stands for something else, or looks as if it did. -/
def isAmbiguous (s : String) : Bool :=
  match Scalar.ofPlain s with
  | .text _ => Scalar.hasSpareZero s.toList
  | _ => true

def isPlain (cs : List Char) : Bool :=
  cs.all (fun c => isPrintable c && !isBreak c) && cs.head? ≠ some ' ' && cs.getLast? ≠ some ' '
    && !startsSpecially cs && !splitsInside cs

/-- The text can be printed in single quotes: no space is next to a break. -/
def isSingle (cs : List Char) : Bool :=
  cs.all isPrintable && !hasNeighbours isBreak (· = ' ') cs && !hasNeighbours (· = ' ') isBreak cs

/-- The text can be printed as lines of their own: no line ends with a space. -/
def isLiteral (cs : List Char) : Bool :=
  cs.all isPrintable && cs.getLast? ≠ some ' ' && !hasNeighbours (· = ' ') isBreak cs

/-- A text with line feeds is printed as lines, any other without quotes; quotes are for what cannot
be printed so, or would be read as something else. -/
def formOf (s : String) : Form :=
  let cs := s.toList
  if cs.contains '\n' then if isLiteral cs then .literal else .double
  else if isPlain cs && !isAmbiguous s then .plain
  else if isSingle cs then .single
  else .double

def hexDigits (width n : Nat) : List Char :=
  let digits := (Nat.toDigits 16 n).map Char.toUpper
  List.replicate (width - digits.length) '0' ++ digits

def escapeLetter? (c : Char) : Option Char :=
  match c.toNat with
  | 0x00 => some '0'
  | 0x07 => some 'a'
  | 0x08 => some 'b'
  | 0x09 => some 't'
  | 0x0A => some 'n'
  | 0x0B => some 'v'
  | 0x0C => some 'f'
  | 0x0D => some 'r'
  | 0x1B => some 'e'
  | 0x22 => some '"'
  | 0x5C => some '\\'
  | 0x85 => some 'N'
  | 0x2028 => some 'L'
  | 0x2029 => some 'P'
  | _ => none

def escape (c : Char) : List Char :=
  if isPrintable c && !isBreak c && c ≠ '"' && c ≠ '\\' then [c]
  else
    match escapeLetter? c with
    | some letter => ['\\', letter]
    | none =>
      if c.toNat ≤ 0xFF then '\\' :: 'x' :: hexDigits 2 c.toNat
      else if c.toNat ≤ 0xFFFF then '\\' :: 'u' :: hexDigits 4 c.toNat
      else '\\' :: 'U' :: hexDigits 8 c.toNat

/-- A text with an indentation before each character that stands behind a break, or first if the
text starts on a line of its own. -/
def indentLines (indentation : List Char) (fresh : Bool) : List Char → List Char
  | [] => []
  | c :: rest =>
    if isBreak c then c :: indentLines indentation true rest
    else (if fresh then indentation else []) ++ c :: indentLines indentation false rest

/-- What a literal says about its indentation: it is given if the text starts with a space or
break. -/
def indentHint (cs : List Char) : List Char :=
  if cs.head?.any fun c => c = ' ' || isBreak c then ['2'] else []

/-- What a literal says about its end: a minus if no break stands there, a plus if one stands there
alone or behind another. -/
def endHint (cs : List Char) : List Char :=
  match cs.reverse with
  | [] => ['-']
  | last :: before =>
    if !isBreak last then ['-']
    else if before.head?.all isBreak then ['+']
    else []

def spaces (indent : Nat) : List Char := List.replicate indent ' '

def printText (indent : Nat) (s : String) : List Char :=
  let cs := s.toList
  match formOf s with
  | .plain => cs ++ ['\n']
  | .single =>
    let doubled := cs.flatMap fun c => if c = '\'' then [c, c] else [c]
    '\'' :: indentLines (spaces indent) false (doubled ++ ['\'', '\n'])
  | .double => '"' :: cs.flatMap escape ++ ['"', '\n']
  | .literal =>
    '|' :: indentHint cs ++ endHint cs ++ '\n' :: indentLines (spaces indent) true cs
      ++ (if cs.getLast?.any isBreak then [] else ['\n'])

def isSimpleKey (key : String) : Bool :=
  !key.toList.any isBreak && key.utf8ByteSize ≤ 128

/-- Integers in full; doubles by their shortest decimal, with an exponent signed only by a minus. -/
def numberText : Json.Number → String
  | .int n => toString n
  | .float x => x.render (Decimal.compact false)

def printLeaf (indent : Nat) : Json → List Char
  | .null => "null\n".toList
  | .bool true => "true\n".toList
  | .bool false => "false\n".toList
  | .num n => (numberText n).toList ++ ['\n']
  | .str s => printText indent s
  | .arr _ => "[]\n".toList
  | .obj _ => "\x7b\x7d\n".toList

/-- What stands between a colon or mark and a container at an indentation. Behind a mark it starts
on the same line. -/
def opening (marked : Bool) (indent : Nat) : List Char :=
  if marked then [' '] else '\n' :: spaces indent

/-- The indentation of the items of a sequence in a container at an indentation. -/
def itemIndent (marked : Bool) (indent : Nat) : Nat := if marked then indent + 2 else indent

mutual

/-- A value in a container at an indentation: behind the colon of a simple key, or behind a mark of
one character. -/
def printValue (indent : Nat) (marked : Bool) : Json → List Char
  | .arr (item :: items) =>
    opening marked (itemIndent marked indent)
      ++ (spaces (itemIndent marked indent)).intercalate
        (itemTexts (itemIndent marked indent) (item :: items))
  | .obj (entry :: entries) =>
    opening marked (indent + 2)
      ++ (spaces (indent + 2)).intercalate (entryTexts (indent + 2) (entry :: entries))
  | leaf => ' ' :: printLeaf (indent + 2) leaf
termination_by structural j => j

def itemTexts (indent : Nat) : List Json → List (List Char)
  | [] => []
  | item :: items => ('-' :: printValue indent true item) :: itemTexts indent items
termination_by structural items => items

/-- The entries of a mapping at an indentation, each up to the end of its last line. A key that is
not simple stands behind a mark, and so does its value. -/
def entryTexts (indent : Nat) : List (String × Json) → List (List Char)
  | [] => []
  | (key, value) :: entries =>
    (if isSimpleKey key then
      (printText (indent + 2) key).dropLast ++ ':' :: printValue indent false value
    else
      '?' :: ' ' :: printText (indent + 2) key ++ spaces indent
        ++ ':' :: printValue indent true value) :: entryTexts indent entries
termination_by structural entries => entries

end

def print (j : Json) : String :=
  String.ofList <|
    match j with
    | .arr (item :: items) => (itemTexts 0 (item :: items)).flatten
    | .obj (entry :: entries) => (entryTexts 0 (entry :: entries)).flatten
    | leaf => printLeaf 2 leaf

end ApiStack.Yaml
