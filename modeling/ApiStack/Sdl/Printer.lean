import ApiStack.Sdl.Document
import ApiStack.Json.Printer

namespace ApiStack.Sdl

namespace Printer

def isControl (c : Char) : Bool := c.toNat < 32 || (127 ≤ c.toNat && c.toNat ≤ 159)

/-- A number with at least four digits. -/
def fourDigits (n : Nat) : List Char :=
  let digits := Nat.toDigits 10 n
  List.replicate (4 - digits.length) '0' ++ digits

def escapeInValue (c : Char) : List Char :=
  if c = '\r' then ['\\', 'r']
  else if c = '\n' then ['\\', 'n']
  else if c = '\t' then ['\\', 't']
  else if c = '"' then ['\\', '"']
  else if c = '\\' then ['\\', '\\']
  else if isControl c then '\\' :: 'u' :: fourDigits c.toNat
  else [c]

def quotedValue (s : String) : String :=
  String.ofList ('"' :: s.toList.flatMap escapeInValue ++ ['"'])

mutual

def value : Value → String
  | .null => "null"
  | .bool true => "true"
  | .bool false => "false"
  | .num n => n.render
  | .str s => quotedValue s
  | .enum name => name
  | .list items => "[" ++ ", ".intercalate (valueItems items) ++ "]"
  | .object fields => "\x7b" ++ ", ".intercalate (valueFields fields) ++ "\x7d"
termination_by structural v => v

def valueItems : List Value → List String
  | [] => []
  | v :: rest => value v :: valueItems rest
termination_by structural items => items

def valueFields : List (String × Value) → List String
  | [] => []
  | (name, v) :: rest => (name ++ ": " ++ value v) :: valueFields rest
termination_by structural fields => fields

end

def typeRef : TypeRef → String
  | .named name required => name ++ if required then "!" else ""
  | .list item required => "[" ++ typeRef item ++ "]" ++ if required then "!" else ""

def indent : String := "  "

def escapeInDescription (c : Char) : List Char :=
  if c = '"' then ['\\', '"']
  else if c = '\\' then ['\\', '\\']
  else if c = '\t' then ['\\', 't']
  else if c = '\r' then ['\\', 'r']
  else [c]

/-- A line without the carriage return at its end. -/
def dropReturn (line : List Char) : List Char :=
  if line.getLast? = some '\r' then line.dropLast else line

/-- The lines of a text: each ends with a line feed, perhaps behind a carriage return. -/
def textLines (text : List Char) : List (List Char) :=
  match text with
  | [] => []
  | _ =>
    let all := text.splitOn '\n'
    let all := if all.getLast? = some [] then all.dropLast.map dropReturn
      else all.dropLast.map dropReturn ++ [all.getLast?.getD []]
    all

def escapeTripleQuotes : List Char → List Char
  | '"' :: '"' :: '"' :: rest => '\\' :: '"' :: '"' :: '"' :: escapeTripleQuotes rest
  | c :: rest => c :: escapeTripleQuotes rest
  | [] => []

/-- A description on lines of its own: in block quotes if it has a line feed. -/
def description (level : String) : Option String → String
  | none => ""
  | some text =>
    if text.toList.contains '\n' then
      let body := (textLines text.toList).map fun line =>
        if line.isEmpty then "" else level ++ String.ofList (escapeTripleQuotes line)
      level ++ "\"\"\"\n" ++ "\n".intercalate body ++ "\n" ++ level ++ "\"\"\"\n"
    else level ++ "\"" ++ String.ofList (text.toList.flatMap escapeInDescription) ++ "\"\n"

def argument (a : String × Value) : String := a.1 ++ ": " ++ value a.2

def directive (d : Directive) : String :=
  if d.arguments.isEmpty then " @" ++ d.name
  else " @" ++ d.name ++ "(" ++ ", ".intercalate (d.arguments.map argument) ++ ")"

def directives (ds : List Directive) : String := String.join (ds.map directive)

def inputValue (v : InputValue) : String :=
  let default := match v.default with
    | none => ""
    | some d => " = " ++ value d
  v.name ++ ": " ++ typeRef v.type ++ default ++ directives v.directives

def inputLine (level : String) (v : InputValue) : String :=
  description level v.description ++ level ++ inputValue v

/-- Arguments in parentheses, on one line unless one has a description. -/
def arguments (level : String) (values : List InputValue) : String :=
  if values.isEmpty then ""
  else if values.all fun v => v.description.isNone then
    "(" ++ ", ".intercalate (values.map inputValue) ++ ")"
  else
    "(\n" ++ "\n".intercalate (values.map (inputLine (level ++ indent))) ++ "\n" ++ level ++ ")"

/-- Indented lines in braces, or nothing if there are none. -/
def block (lines : List String) : String :=
  if lines.isEmpty then "" else " \x7b\n" ++ "\n".intercalate lines ++ "\n\x7d"

def field (f : Field) : String :=
  description indent f.description ++ indent ++ f.name ++ arguments indent f.arguments ++ ": "
    ++ typeRef f.type ++ directives f.directives

def enumValue (v : EnumValue) : String :=
  description indent v.description ++ indent ++ v.name ++ directives v.directives

def interfaces (names : List String) : String :=
  if names.isEmpty then "" else " implements " ++ " & ".intercalate names

def extension (isExtension : Bool) : String := if isExtension then "extend " else ""

def typeDefinition (t : TypeDefinition) : String :=
  description "" t.description ++ extension t.isExtension ++
    match t.body with
    | .scalar => "scalar " ++ t.name ++ directives t.directives
    | .object names fields =>
      "type " ++ t.name ++ interfaces names ++ directives t.directives ++ block (fields.map field)
    | .interface names fields =>
      "interface " ++ t.name ++ interfaces names ++ directives t.directives
        ++ block (fields.map field)
    | .union members =>
      "union " ++ t.name ++ directives t.directives
        ++ if members.isEmpty then "" else " = " ++ " | ".intercalate members
    | .enumeration values =>
      "enum " ++ t.name ++ directives t.directives ++ block (values.map enumValue)
    | .input fields =>
      "input " ++ t.name ++ directives t.directives ++ block (fields.map (inputLine indent))

def root (schema : SchemaDefinition) (operation : Operation) : Option String :=
  (schema.root? operation).map fun name => indent ++ operation.word ++ ": " ++ name

def schemaDefinition (s : SchemaDefinition) : String :=
  extension s.isExtension ++ "schema" ++ directives s.directives
    ++ block ([Operation.query, .mutation, .subscription].filterMap (root s))

def directiveDefinition (d : DirectiveDefinition) : String :=
  description "" d.description ++ "directive @" ++ d.name ++ arguments "" d.arguments
    ++ " repeatable on " ++ " | ".intercalate d.locations

def definition : Definition → String
  | .schema s => schemaDefinition s
  | .type t => typeDefinition t
  | .directive d => directiveDefinition d

end Printer

def render (document : Document) : String :=
  "\n\n".intercalate (document.map Printer.definition)

end ApiStack.Sdl
