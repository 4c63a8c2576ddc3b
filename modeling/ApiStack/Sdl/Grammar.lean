import ApiStack.Sdl.Expectation
import ApiStack.Sdl.Parser
import ApiStack.Json.Reader

namespace ApiStack.Sdl.Grammar

open Sdl.Parser

def startsName (c : Char) : Bool := c.isAlpha || c = '_'

def insideName (c : Char) : Bool := c.isAlphanum || c = '_'

/-- The name that starts right here. -/
def nameHere : Parser String := do
  let first ← charWhere startsName
  let others ← charsWhile insideName
  return String.ofList (first :: others)

def name : Parser String := do
  ignored
  nameHere

def typeRefHere : Nat → Parser TypeRef
  | 0 => failure
  | fuel + 1 =>
    (do
      let name ← nameHere
      let required ← present (literal ['!'])
      return .named name required)
    <|> (do
      literal ['[']
      let item ← typeRefHere fuel
      literal [']']
      let required ← present (literal ['!'])
      return .list item required)

def typeRef : Parser TypeRef := do
  ignored
  typeRefHere (← get).rest.length

/-- At least one digit. -/
def digits : Parser (List Char) := do
  let first ← charWhere Char.isDigit
  let others ← charsWhile Char.isDigit
  return first :: others

/-- The digits of a whole number: no zero in front of others. -/
def wholeDigits : Parser (List Char) :=
  (do literal ['0']; return ['0']) <|> digits

def fractionPart : Parser (List Char) := do
  literal ['.']
  return '.' :: (← digits)

def exponentPart : Parser (List Char) := do
  let mark ← charWhere fun c => c = 'e' || c = 'E'
  let sign ← optional? (charWhere fun c => c = '+' || c = '-')
  return mark :: sign.toList ++ (← digits)

/-- The text of a number. No name may touch it. -/
def numberText : Parser (List Char) := do
  let minus ← optional? (charWhere (· = '-'))
  let whole ← wholeDigits
  let fraction ← optional? fractionPart
  let exponent ← optional? exponentPart
  absent (charWhere startsName)
  return minus.toList ++ whole ++ fraction.getD [] ++ exponent.getD []

/-- A number. One that is too large is noted. -/
def number : Parser Value := do
  let text ← numberText
  match Json.readNumber text with
  | .ok (n, _) => return .num n
  | .error (.outOfRange rest) =>
    note (.numberTooLarge (text.length - rest.length))
    return .null
  | .error (.malformed _) => failure

def unicodeEscape : Parser Char := fun r =>
  match Json.hexUnit? r.rest with
  | some (unit, rest) =>
    if 0xD800 ≤ unit && unit ≤ 0xDFFF then none
    else some (Char.ofNat unit, { r with rest })
  | none => none

def stringChar : Parser Char :=
  (charWhere fun c => !(c = '"' || c = '\\' || endsLine c))
  <|> (do
    literal ['\\', 'u']
    unicodeEscape)
  <|> (do
    literal ['\\']
    let c ← charWhere fun c => (Json.escapedChar? c).isSome
    return (Json.escapedChar? c).getD c)

/-- The raw text of a block string up to its closing quotes. Escaped quotes stay escaped. -/
def blockText : List Char → Option (List Char × List Char)
  | '"' :: '"' :: '"' :: rest => some ([], rest)
  | '\\' :: '"' :: '"' :: '"' :: rest =>
    (blockText rest).map fun (text, rest) => ('\\' :: '"' :: '"' :: '"' :: text, rest)
  | c :: rest => (blockText rest).map fun (text, rest) => (c :: text, rest)
  | [] => none

/-- The lines of a text, ended by a line feed, a carriage return or both. -/
def lines : List Char → List (List Char)
  | [] => [[]]
  | '\r' :: '\n' :: rest => [] :: lines rest
  | c :: rest =>
    if endsLine c then [] :: lines rest
    else match lines rest with
      | line :: others => (c :: line) :: others
      | [] => [[c]]

def isIndent (c : Char) : Bool := c = '\t' || c = ' '

def isEmptyLine (line : List Char) : Bool := line.all isIndent

/-- The least indentation of the lines that have something in them. -/
def commonIndent (lines : List (List Char)) : Nat :=
  ((lines.filter fun line => !isEmptyLine line).map fun line =>
    (line.takeWhile isIndent).length).min?.getD 0

/-- A line without some indentation; a shorter line stays. -/
def dedent (indent : Nat) (line : List Char) : List Char :=
  if indent ≤ line.length then line.drop indent else line

/-- The meaning of a block string: the indentation that all lines but the first share is removed, as
are empty lines at both ends. -/
def blockValue (raw : List Char) : List Char :=
  let all := lines raw
  let indent := commonIndent (all.drop 1)
  let dedented := match all with
    | [] => []
    | first :: others => first :: others.map (dedent indent)
  let keep := (all.zip dedented).dropWhile fun (line, _) => isEmptyLine line
  let keep := (keep.reverse.dropWhile fun (line, _) => isEmptyLine line).reverse
  ['\n'].intercalate (keep.map Prod.snd)

/-- A block string that starts right here. -/
def blockString : Parser String := do
  literal ['"', '"', '"']
  fun r => (blockText r.rest).map fun (text, rest) =>
    (String.ofList (blockValue text), { r with rest })

/-- A string on one line that starts right here. -/
def lineString : Parser String := do
  literal ['"']
  let chars ← many stringChar
  literal ['"']
  return String.ofList chars

def string : Parser String := do
  ignored
  blockString <|> lineString

/-- The words that stand for values of their own. Other characters may follow them. -/
def wordValue : Parser Value :=
  (do literal "true".toList; return .bool true)
  <|> (do literal "false".toList; return .bool false)
  <|> (do literal "null".toList; return .null)

/-- A name for a value of an enumeration: no such word may start it. -/
def enumName : Parser String := do
  ignored
  absent wordValue
  nameHere

def value : Nat → Parser Value
  | 0 => failure
  | fuel + 1 => do
    ignored
    number
    <|> Value.str <$> string
    <|> wordValue
    <|> Value.enum <$> enumName
    <|> (do
      symbol "["
      let items ← many (value fuel)
      symbol "]"
      return .list items)
    <|> (do
      symbol "\x7b"
      let fields ← many (do
        let name ← name
        symbol ":"
        let value ← value fuel
        return (name, value))
      symbol "\x7d"
      return .object (fields.foldl (fun done (name, value) => setEntry name value done) []))

/-- A constant value, as deep as the text is long. -/
def anyValue : Parser Value := do
  value ((← get).rest.length + 1)

def argument : Parser (String × Value) := do
  let name ← name
  symbol ":"
  return (name, ← anyValue)

def directive : Parser Directive := do
  symbol "@"
  let name ← name
  let arguments ← optional? (do
    symbol "("
    let arguments ← some' argument
    symbol ")"
    return arguments)
  return ⟨name, arguments.getD []⟩

def someDirectives : Parser (List Directive) := some' directive

def directives : Parser (List Directive) := many directive

def inputValue : Parser InputValue := do
  let description ← optional? string
  let name ← name
  symbol ":"
  let type ← typeRef
  let default ← optional? (do
    symbol "="
    anyValue)
  return ⟨description, name, type, default, ← directives⟩

def arguments : Parser (List InputValue) := do
  let arguments ← optional? (do
    symbol "("
    let arguments ← some' inputValue
    symbol ")"
    return arguments)
  return arguments.getD []

def field : Parser Field := do
  let description ← optional? string
  let name ← name
  let arguments ← arguments
  symbol ":"
  let type ← typeRef
  return ⟨description, name, arguments, type, ← directives⟩

def enumValue : Parser EnumValue := do
  let description ← optional? string
  let name ← enumName
  return ⟨description, name, ← directives⟩

def braced (p : Parser α) : Parser (List α) := do
  symbol "\x7b"
  let results ← some' p
  symbol "\x7d"
  return results

def interfaces : Parser (List String) := do
  symbol "implements"
  separated "&" name

def members : Parser (List String) := do
  symbol "="
  separated "|" name

/-- Directives and a part behind them, or directives alone; one of the two has to be there. -/
def directivesAnd (p : Parser (List α)) : Parser (List Directive × List α) :=
  (do
    let directives ← directives
    return (directives, ← p))
  <|> (do return (← someDirectives, []))

/-- A definition that consists of directives and a part in this order, both optional. -/
def definitionOf (keyword : String) (p : Parser (List α)) (body : List α → TypeBody) :
    Parser TypeDefinition := do
  let description ← optional? string
  symbol keyword
  let name ← name
  let directives ← directives
  let part ← optional? p
  return ⟨false, description, name, directives, body (part.getD [])⟩

/-- An extension that consists of directives and a part in this order, not both missing. -/
def extensionOf (keyword : String) (p : Parser (List α)) (body : List α → TypeBody) :
    Parser TypeDefinition := do
  symbol "extend"
  symbol keyword
  let name ← name
  let (directives, part) ← directivesAnd p
  return ⟨true, none, name, directives, body part⟩

def scalarType : Parser TypeDefinition :=
  definitionOf "scalar" (failure : Parser (List Unit)) (fun _ => .scalar)
  <|> extensionOf "scalar" (failure : Parser (List Unit)) (fun _ => .scalar)

def fieldsDefinition (keyword : String) (body : List String → List Field → TypeBody) :
    Parser TypeDefinition := do
  let description ← optional? string
  symbol keyword
  let name ← name
  let interfaces ← optional? interfaces
  let directives ← directives
  let fields ← optional? (braced field)
  return ⟨false, description, name, directives, body (interfaces.getD []) (fields.getD [])⟩

def fieldsExtension (keyword : String) (body : List String → List Field → TypeBody) :
    Parser TypeDefinition := do
  symbol "extend"
  symbol keyword
  let name ← name
  let interfaces ← optional? interfaces
  let (directives, fields) ← directivesAnd (braced field)
  return ⟨true, none, name, directives, body (interfaces.getD []) fields⟩

/-- An extension of an object type by interfaces alone. -/
def interfacesExtension : Parser TypeDefinition := do
  symbol "extend"
  symbol "type"
  let name ← name
  let interfaces ← interfaces
  return ⟨true, none, name, [], .object interfaces []⟩

def typeDefinition : Parser TypeDefinition :=
  scalarType
  <|> fieldsDefinition "type" .object
  <|> fieldsExtension "type" .object
  <|> interfacesExtension
  <|> fieldsDefinition "interface" .interface
  <|> fieldsExtension "interface" .interface
  <|> definitionOf "union" members .union
  <|> extensionOf "union" members .union
  <|> definitionOf "enum" (braced enumValue) .enumeration
  <|> extensionOf "enum" (braced enumValue) .enumeration
  <|> definitionOf "input" (braced inputValue) .input
  <|> extensionOf "input" (braced inputValue) .input

def operation : Parser Operation :=
  (do symbol "query"; return .query)
  <|> (do symbol "mutation"; return .mutation)
  <|> (do symbol "subscription"; return .subscription)

def root : Parser (Operation × String) := do
  let operation ← operation
  symbol ":"
  return (operation, ← name)

/-- Sets root types one by one; a second one for the same kind of operation is noted. -/
def setRoots (schema : SchemaDefinition) : List (Operation × String) → Parser SchemaDefinition
  | [] => pure schema
  | (operation, name) :: rest => do
    if (schema.root? operation).isSome then note (.repeatedRoot operation)
    setRoots (schema.withRoot operation name) rest

/-- A definition of the schema. One without a root for queries is noted. -/
def schemaBody : Parser SchemaDefinition := do
  symbol "schema"
  let directives ← directives
  let roots ← braced root
  let schema ← setRoots ⟨false, directives, none, none, none⟩ roots
  if schema.query.isNone then note .noQueryRoot
  return schema

def schemaExtension : Parser SchemaDefinition := do
  symbol "extend"
  symbol "schema"
  let (directives, roots) ← directivesAnd (braced root)
  setRoots ⟨true, directives, none, none, none⟩ roots

/-- The places where directives may be applied; one comes before those that start it. -/
def locationNames : List String :=
  ["QUERY", "MUTATION", "SUBSCRIPTION", "FIELD_DEFINITION", "FIELD", "FRAGMENT_DEFINITION",
    "FRAGMENT_SPREAD", "INLINE_FRAGMENT", "VARIABLE_DEFINITION", "SCHEMA", "SCALAR", "OBJECT",
    "ARGUMENT_DEFINITION", "INTERFACE", "UNION", "ENUM_VALUE", "ENUM", "INPUT_OBJECT",
    "INPUT_FIELD_DEFINITION"]

def oneOf : List String → Parser String
  | [] => failure
  | word :: words => (do literal word.toList; return word) <|> oneOf words

def location : Parser String := do
  ignored
  oneOf locationNames

def directiveDefinition : Parser DirectiveDefinition := do
  let description ← optional? string
  symbol "directive"
  symbol "@"
  let name ← name
  let arguments ← arguments
  let _ ← optional? (symbol "repeatable")
  symbol "on"
  return ⟨description, name, arguments, ← separated "|" location⟩

def definition : Parser Definition :=
  Definition.schema <$> (schemaBody <|> schemaExtension)
  <|> Definition.type <$> typeDefinition
  <|> Definition.directive <$> directiveDefinition

/-- A whole document: at least one definition, and nothing else. -/
def document : Parser Document := do
  let definitions ← some' definition
  ignored
  if !(← get).rest.isEmpty then failure
  return definitions

end Grammar

def parse (source : String) : Except Fault Document :=
  match Grammar.document ⟨source.toList, none⟩ with
  | none => .error (.malformed (Expectation.syntaxFault source))
  | some (_, ⟨_, some fault⟩) => .error fault
  | some (document, ⟨_, none⟩) => .ok document

end ApiStack.Sdl
