import ApiStack.Sdl.Document

namespace ApiStack.Sdl

/-- Why a text is no schema document: the place where reading it stopped, counted from one, the line
there with its line break, the character there, and the parts that must not or might stand there. -/
structure SyntaxFault where
  line : Nat
  column : Nat
  text : String
  next : Option Char
  unexpected : List String
  expected : List String
  deriving DecidableEq

namespace SyntaxFault

def enumerate (names : List String) : String :=
  match names.reverse with
  | [] => ""
  | [a] => a
  | [b, a] => a ++ " or " ++ b
  | last :: others => ", ".intercalate others.reverse ++ ", or " ++ last

def cause (f : SyntaxFault) : String :=
  if f.unexpected.isEmpty then
    if f.expected.isEmpty then "unknown parsing error" else "expected " ++ enumerate f.expected
  else
    "unexpected " ++ enumerate f.unexpected
      ++ (if f.expected.isEmpty then "" else "; expected " ++ enumerate f.expected)

/-- A character of a line that ends at the place itself, where line breaks are to be seen. -/
def visible (c : Char) : Char :=
  if c = '\n' then Char.ofNat 0x240A else if c = '\r' then Char.ofNat 0x240D else c

def isLineBreak (c : Char) : Bool := c = '\n' || c = '\r'

/-- The line as it is shown: without its line break, unless that is what reading stopped at. -/
def shownLine (f : SyntaxFault) : List Char :=
  if f.next.any isLineBreak then f.text.toList.map visible
  else f.text.toList.filter fun c => !isLineBreak c

/-- The marks under the line: blanks, or tabs under tabs, and then an arrow. -/
def underline (f : SyntaxFault) : String :=
  String.ofList ((f.shownLine.take (f.column - 1)).map fun c => if c = '\t' then c else ' ')
    ++ "^---"

/-- The wording of the fault: the place, the line with marks under it, and the cause. -/
def message (f : SyntaxFault) : String :=
  let number := toString f.line
  let margin := String.ofList (List.replicate number.length ' ')
  margin ++ "--> " ++ number ++ ":" ++ toString f.column
    ++ "\n" ++ margin ++ " |"
    ++ "\n" ++ number ++ " | " ++ String.ofList f.shownLine
    ++ "\n" ++ margin ++ " | " ++ f.underline
    ++ "\n" ++ margin ++ " |"
    ++ "\n" ++ margin ++ " = " ++ f.cause

end SyntaxFault

/-- A fault of one document or of several that are merged. -/
inductive Fault where
  | malformed (fault : SyntaxFault)
  | noQueryRoot
  | repeatedRoot (operation : Operation)
  | numberTooLarge (column : Nat)
  | secondSchema
  | repeatedType (name : String)
  | repeatedDirective (name : String)
  | repeatedField (type field : String)
  | repeatedEnumValue (type value : String)
  | extendsNothing (name : String)
  | unknownType (name : String)
  | unknownDirective (name : String)
  | kindConflict (type declared redefined : String)
  | typeConflict (type field declared redefined : String)
  deriving DecidableEq

def Fault.message : Fault → String
  | .malformed fault => fault.message
  | .noQueryRoot => "schema definition is missing query root"
  | .repeatedRoot operation => "multiple " ++ operation.word ++ " roots in schema definition"
  | .numberTooLarge column =>
    "invalid number: number out of range at line 1 column " ++ toString column
  | .secondSchema => "Must provide only one schema definition."
  | .repeatedType name => "There can be only one type named \"" ++ name ++ "\"."
  | .repeatedDirective name => "There can be only one directive named \"@" ++ name ++ "\"."
  | .repeatedField type field =>
    "Field \"" ++ type ++ "." ++ field ++ "\" can only be defined once."
  | .repeatedEnumValue type value =>
    "Enum value \"" ++ type ++ "." ++ value ++ "\" can only be defined once."
  | .extendsNothing name => "Cannot extend type \"" ++ name ++ "\" because it is not defined."
  | .unknownType name => "Unknown type \"" ++ name ++ "\"."
  | .unknownDirective name => "Unknown directive \"@" ++ name ++ "\"."
  | .kindConflict type declared redefined =>
    "Unable to merge GraphQL type \"" ++ type ++ "\": Definition kinds differ. Declared as "
      ++ declared ++ " and redefined as " ++ redefined
  | .typeConflict type field declared redefined =>
    "Unable to merge GraphQL type \"" ++ type ++ "\": Field \"" ++ field
      ++ "\" already defined with a different type. Declared as \"" ++ declared
      ++ "\" and redefined as \"" ++ redefined ++ "\""

end ApiStack.Sdl
