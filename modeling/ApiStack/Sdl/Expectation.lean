import ApiStack.Sdl.Parser
import ApiStack.Json.Reader

namespace ApiStack.Sdl.Expectation

inductive Rule where
  | endOfText
  | document
  | definition
  | schema
  | root
  | typeDefinition
  | scalarType
  | objectType
  | interfaces
  | interfaceType
  | fields
  | field
  | unionType
  | members
  | enumType
  | enumValues
  | enumValue
  | inputType
  | inputFields
  | extension
  | directiveDefinition
  | locations
  | location
  | arguments
  | inputValue
  | operation
  | default
  | typeRef
  | value
  | number
  | string
  | blockContent
  | stringContent
  | boolean
  | null
  | enumName
  | list
  | object
  | objectField
  | directives
  | directive
  | appliedArguments
  | argument
  | name
  deriving DecidableEq

namespace Rule

def label : Rule → String
  | endOfText => "EOI"
  | document => "service_document"
  | definition => "type_system_definition"
  | schema => "schema_definition"
  | root => "operation_type_definition"
  | typeDefinition => "type_definition"
  | scalarType => "scalar_type"
  | objectType => "object_type"
  | interfaces => "implements_interfaces"
  | interfaceType => "interface_type"
  | fields => "fields_definition"
  | field => "field_definition"
  | unionType => "union_type"
  | members => "union_member_types"
  | enumType => "enum_type"
  | enumValues => "enum_values"
  | enumValue => "enum_value_definition"
  | inputType => "input_object_type"
  | inputFields => "input_fields_definition"
  | extension => "extend"
  | directiveDefinition => "directive_definition"
  | locations => "directive_locations"
  | location => "directive_location"
  | arguments => "arguments_definition"
  | inputValue => "input_value_definition"
  | operation => "operation_type"
  | default => "default_value"
  | typeRef => "type_"
  | value => "const_value"
  | number => "number"
  | string => "string"
  | blockContent => "block_string_content"
  | stringContent => "string_content"
  | boolean => "boolean"
  | null => "null"
  | enumName => "enum_value"
  | list => "const_list"
  | object => "const_object"
  | objectField => "const_object_field"
  | directives => "const_directives"
  | directive => "const_directive"
  | appliedArguments => "const_arguments"
  | argument => "const_argument"
  | name => "name"

/-- The rules in the order in which messages name them. -/
def inOrder : List Rule := [
  endOfText, document, definition, schema, root, typeDefinition, scalarType, objectType, interfaces,
  interfaceType, fields, field, unionType, members, enumType, enumValues, enumValue, inputType,
  inputFields, extension, directiveDefinition, locations, location, arguments, inputValue,
  operation, default, typeRef, value, number, string, blockContent, stringContent, boolean, null,
  enumName, list, object, objectField, directives, directive, appliedArguments, argument, name]

end Rule

/-- How the parts of a rule stand beside each other: with ignored text between them, or right beside
each other, in which case rules inside are not noted if the rule is closed. -/
inductive Spacing where
  | loose
  | tight
  | closed
  deriving DecidableEq

/-- The spacing that a rule sets for its parts; others keep that of their surroundings. -/
def Rule.spacing? : Rule → Option Spacing
  | .typeRef => some .closed
  | .number => some .closed
  | .stringContent => some .closed
  | .blockContent => some .closed
  | .name => some .closed
  | .string => some .tight
  | .enumName => some .tight
  | _ => none

/-- A pattern of text. Of alternatives the first that fits is taken. -/
inductive Pattern where
  | text (cs : List Char)
  | char (p : Char → Bool)
  | ends
  | seq (a b : Pattern)
  | beside (a b : Pattern)
  | alt (a b : Pattern)
  | opt (a : Pattern)
  | more (a : Pattern)
  | absent (a : Pattern)
  | rule (r : Rule)

namespace Pattern

instance : Append Pattern := ⟨seq⟩

instance : OrElse Pattern := ⟨fun a b => alt a (b ())⟩

def word (s : String) : Pattern := text s.toList

def many (a : Pattern) : Pattern := opt (beside a (more a))

def some' (a : Pattern) : Pattern := a ++ many a

/-- Once or more with a separator, which may also stand first. -/
def separated (separator : String) (a : Pattern) : Pattern :=
  opt (word separator) ++ a ++ many (word separator ++ a)

/-- At least once between two marks. -/
def enclosed (start stop : String) (a : Pattern) : Pattern := word start ++ some' a ++ word stop

def oneOf : List String → Pattern
  | [] => absent (text [])
  | [s] => word s
  | s :: rest => word s <|> oneOf rest

def described : Pattern := opt (rule .string)

/-- A definition or an extension that starts with a keyword and a name. -/
def definedOrExtended (keyword : String) (definition extension : Pattern) : Pattern :=
  described ++ word keyword ++ rule .name ++ definition
  <|> rule .extension ++ word keyword ++ rule .name ++ extension

/-- Directives and a part, or directives alone. -/
def directivesAnd (part : Pattern) : Pattern :=
  opt (rule .directives) ++ part <|> rule .directives

end Pattern

open Pattern

def digit : Pattern := char Char.isDigit

def nameStart : Pattern := char fun c => c.isAlpha || c = '_'

def unicodeEscape : Pattern :=
  let hex := char fun c => (Json.hexDigit? c).isSome
  word "\\u"
    ++ absent (char (fun c => c = 'd' || c = 'D')
      ++ char fun c => ('8' ≤ c && c ≤ '9') || ('a' ≤ c && c ≤ 'f') || ('A' ≤ c && c ≤ 'F'))
    ++ hex ++ hex ++ hex ++ hex

def stringChar : Pattern :=
  char (fun c => !(c = '"' || c = '\\' || Parser.endsLine c))
  <|> word "\\" ++ char (fun c => (Json.escapedChar? c).isSome)
  <|> unicodeEscape

def threeQuotes : Pattern := text ['"', '"', '"']

def escapedQuotes : Pattern := text ['\\', '"', '"', '"']

def Rule.pattern : Rule → Pattern
  | endOfText => ends
  | document => text [] ++ some' (rule definition) ++ rule endOfText
  | definition => rule schema <|> rule typeDefinition <|> rule directiveDefinition
  | schema =>
    let roots := enclosed "\x7b" "\x7d" (rule root)
    word "schema" ++ opt (rule directives) ++ roots
    <|> rule .extension ++ word "schema" ++ directivesAnd roots
  | root => rule operation ++ word ":" ++ rule name
  | typeDefinition =>
    rule scalarType <|> rule objectType <|> rule interfaceType <|> rule unionType
    <|> rule enumType <|> rule inputType
  | scalarType => definedOrExtended "scalar" (opt (rule directives)) (rule directives)
  | objectType => definedOrExtended "type"
    (opt (rule interfaces) ++ opt (rule directives) ++ opt (rule fields))
    (opt (rule interfaces) ++ opt (rule directives) ++ rule fields
      <|> opt (rule interfaces) ++ rule directives <|> rule interfaces)
  | interfaces => word "implements" ++ separated "&" (rule name)
  | interfaceType => definedOrExtended "interface"
    (opt (rule interfaces) ++ opt (rule directives) ++ opt (rule fields))
    (opt (rule interfaces) ++ opt (rule directives) ++ rule fields
      <|> opt (rule interfaces) ++ rule directives)
  | fields => enclosed "\x7b" "\x7d" (rule field)
  | field => described ++ rule name ++ opt (rule arguments) ++ word ":" ++ rule typeRef
    ++ opt (rule directives)
  | unionType => definedOrExtended "union" (opt (rule directives) ++ opt (rule members))
    (directivesAnd (rule members))
  | members => word "=" ++ separated "|" (rule name)
  | enumType => definedOrExtended "enum" (opt (rule directives) ++ opt (rule enumValues))
    (directivesAnd (rule enumValues))
  | enumValues => enclosed "\x7b" "\x7d" (rule enumValue)
  | enumValue => described ++ rule enumName ++ opt (rule directives)
  | inputType => definedOrExtended "input" (opt (rule directives) ++ opt (rule inputFields))
    (directivesAnd (rule inputFields))
  | inputFields => enclosed "\x7b" "\x7d" (rule inputValue)
  | extension => word "extend"
  | directiveDefinition => described ++ word "directive" ++ word "@" ++ rule name
    ++ opt (rule arguments) ++ opt (word "repeatable") ++ word "on" ++ rule locations
  | locations => separated "|" (rule location)
  | location => oneOf ["QUERY", "MUTATION", "SUBSCRIPTION", "FIELD_DEFINITION", "FIELD",
    "FRAGMENT_DEFINITION", "FRAGMENT_SPREAD", "INLINE_FRAGMENT", "VARIABLE_DEFINITION", "SCHEMA",
    "SCALAR", "OBJECT", "ARGUMENT_DEFINITION", "INTERFACE", "UNION", "ENUM_VALUE", "ENUM",
    "INPUT_OBJECT", "INPUT_FIELD_DEFINITION"]
  | arguments => enclosed "(" ")" (rule inputValue)
  | inputValue => described ++ rule name ++ word ":" ++ rule typeRef ++ opt (rule default)
    ++ opt (rule directives)
  | operation => oneOf ["query", "mutation", "subscription"]
  | default => word "=" ++ rule value
  | typeRef => (rule name <|> word "[" ++ rule typeRef ++ word "]") ++ opt (word "!")
  | value => rule number <|> rule string <|> rule boolean <|> rule null <|> rule enumName
    <|> rule list <|> rule object
  | number => opt (word "-") ++ (word "0" <|> some' digit)
    ++ opt (word "." ++ some' digit)
    ++ opt (char (fun c => c = 'e' || c = 'E') ++ opt (char fun c => c = '+' || c = '-')
      ++ some' digit)
    ++ absent nameStart
  | string => threeQuotes ++ rule blockContent ++ threeQuotes
    <|> text ['"'] ++ rule stringContent ++ text ['"']
  | blockContent => many (absent (threeQuotes <|> escapedQuotes) ++ char (fun _ => true)
    <|> escapedQuotes)
  | stringContent => many stringChar
  | boolean => oneOf ["true", "false"]
  | null => word "null"
  | enumName => absent (rule boolean <|> rule null) ++ rule name
  | list => word "[" ++ many (rule value) ++ word "]"
  | object => word "\x7b" ++ many (rule objectField) ++ word "\x7d"
  | objectField => rule name ++ word ":" ++ rule value
  | directives => some' (rule directive)
  | directive => word "@" ++ rule name ++ opt (rule appliedArguments)
  | appliedArguments => enclosed "(" ")" (rule argument)
  | argument => rule name ++ word ":" ++ rule value
  | name => nameStart ++ many (char fun c => c.isAlphanum || c = '_')

/-- A place in a text, and the text from there on. -/
structure Spot where
  place : Nat
  rest : List Char

/-- The place behind ignored text. -/
def Spot.skipIgnored (inComment : Bool) (place : Nat) : List Char → Spot
  | [] => ⟨place, []⟩
  | c :: rest =>
    if inComment then skipIgnored (!Parser.endsLine c) (place + 1) rest
    else if Parser.isIgnored c then skipIgnored false (place + 1) rest
    else if c = '#' then skipIgnored true (place + 1) rest
    else ⟨place, c :: rest⟩

/-- The place behind ignored text, where it may stand. -/
def Spot.skip (s : Spot) (spacing : Spacing) : Spot :=
  if spacing = .loose then skipIgnored false s.place s.rest else s

/-- The farthest place where rules have failed, those that might stand there, and those that must
not. -/
structure Attempts where
  place : Nat
  expected : List Rule
  unexpected : List Rule

namespace Attempts

/-- How many rules are noted at a place. -/
def countAt (a : Attempts) (place : Nat) : Nat :=
  if a.place = place then a.expected.length + a.unexpected.length else 0

/-- Notes a rule that started at a place, given what was noted before it was tried. It replaces what
was noted at that place since, unless that is one rule only. -/
def note (a before : Attempts) (rule : Rule) (place : Nat) (negated : Bool) : Attempts :=
  if a.countAt place = before.countAt place + 1 then a
  else if place < a.place then a
  else
    let (expected, unexpected) := if a.place < place then ([], [])
      else if before.place = place then
        (a.expected.take before.expected.length, a.unexpected.take before.unexpected.length)
      else ([], [])
    if negated then ⟨place, expected, unexpected ++ [rule]⟩
    else ⟨place, expected ++ [rule], unexpected⟩

end Attempts

/-- Reads by a pattern. Where a pattern must not fit, the rules that do are noted. -/
def read (fuel : Nat) (spacing : Spacing) (negated : Bool) (pattern : Pattern) (s : Spot)
    (a : Attempts) : Option Spot × Attempts :=
  match fuel with
  | 0 => (none, a)
  | fuel + 1 =>
    match pattern with
    | .text cs =>
      if s.rest.take cs.length = cs then (some ⟨s.place + cs.length, s.rest.drop cs.length⟩, a)
      else (none, a)
    | .char p =>
      match s.rest with
      | c :: rest => if p c then (some ⟨s.place + 1, rest⟩, a) else (none, a)
      | [] => (none, a)
    | .ends => if s.rest.isEmpty then (some s, a) else (none, a)
    | .seq p q =>
      match read fuel spacing negated p s a with
      | (some s, a) => read fuel spacing negated q (s.skip spacing) a
      | failed => failed
    | .beside p q =>
      match read fuel spacing negated p s a with
      | (some s, a) => read fuel spacing negated q s a
      | failed => failed
    | .alt p q =>
      match read fuel spacing negated p s a with
      | (none, a) => read fuel spacing negated q s a
      | done => done
    | .opt p =>
      match read fuel spacing negated p s a with
      | (none, a) => (some s, a)
      | done => done
    | .more p =>
      match read fuel spacing negated p (s.skip spacing) a with
      | (none, a) => (some s, a)
      | (some s, a) => read fuel spacing negated (.more p) s a
    | .absent p =>
      match read fuel spacing (!negated) p s a with
      | (none, a) => (some s, a)
      | (some _, a) => (none, a)
    | .rule r =>
      let inside := r.spacing?.getD spacing
      let around := if inside = .tight then .tight else spacing
      let (result, after) := read fuel inside negated r.pattern s a
      if result.isSome = negated && around ≠ .closed then
        (result, after.note a r s.place negated)
      else (result, after)

def fuelFor (cs : List Char) : Nat := 40 * cs.length + 400

/-- The rules noted for a text, and the farthest place. -/
def attempts (cs : List Char) : Attempts :=
  (read (fuelFor cs) .loose false (.rule .document) ⟨0, cs⟩ ⟨0, [], []⟩).2

/-- A line and a column counted from one, behind some characters. A carriage return in front of a
line feed belongs to it, and alone it is a character like others. -/
def position (line column : Nat) : List Char → Nat × Nat
  | [] => (line, column)
  | ['\r'] => (line, column + 1)
  | '\r' :: '\n' :: rest => position (line + 1) 1 rest
  | '\n' :: rest => position (line + 1) 1 rest
  | _ :: rest => position line (column + 1) rest

def lineStart (before : List Char) : List Char :=
  (before.reverse.takeWhile (· ≠ '\n')).reverse

def lineEnd (behind : List Char) : List Char :=
  behind.takeWhile (· ≠ '\n') ++ (behind.dropWhile (· ≠ '\n')).take 1

def labels (rules : List Rule) : List String :=
  (Rule.inOrder.filter fun r => rules.contains r).map Rule.label

def syntaxFault (source : String) : SyntaxFault :=
  let cs := source.toList
  let a := attempts cs
  let before := cs.take a.place
  let behind := cs.drop a.place
  let (line, column) := position 1 1 before
  ⟨line, column, String.ofList (lineStart before ++ lineEnd behind), behind.head?,
    labels a.unexpected, labels a.expected⟩

end ApiStack.Sdl.Expectation
