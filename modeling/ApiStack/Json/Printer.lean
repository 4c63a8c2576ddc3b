import ApiStack.Json.Basic

namespace ApiStack.Json

def escape (c : Char) : List Char :=
  if c = '"' then ['\\', '"']
  else if c = '\\' then ['\\', '\\']
  else if c = '\n' then ['\\', 'n']
  else if c = '\r' then ['\\', 'r']
  else if c = '\t' then ['\\', 't']
  else if c = '\x08' then ['\\', 'b']
  else if c = '\x0c' then ['\\', 'f']
  else if c.toNat < 32 then
    ['\\', 'u', '0', '0', Nat.digitChar (c.toNat / 16), Nat.digitChar (c.toNat % 16)]
  else [c]

def quote (s : String) : String :=
  String.ofList ('"' :: s.toList.flatMap escape ++ ['"'])

/-- Integers in full; doubles by their shortest decimal, with a signed exponent. -/
def Number.render : Number → String
  | .int n => toString n
  | .float x => x.render (Decimal.compact true)

mutual

def render : Json → String
  | null => "null"
  | bool true => "true"
  | bool false => "false"
  | num n => n.render
  | str s => quote s
  | arr items => "[" ++ ",".intercalate (renderItems items) ++ "]"
  | obj entries => "\x7b" ++ ",".intercalate (renderEntries entries) ++ "\x7d"
termination_by structural j => j

def renderItems : List Json → List String
  | [] => []
  | j :: rest => render j :: renderItems rest
termination_by structural items => items

def renderEntries : List (String × Json) → List String
  | [] => []
  | (k, v) :: rest => (quote k ++ ":" ++ render v) :: renderEntries rest
termination_by structural entries => entries

end

def newLine (depth : Nat) : String :=
  String.ofList ('\n' :: List.replicate (2 * depth) ' ')

/-- The parts of a container, one a line, between its brackets. An empty one stays on its line. -/
def block (depth : Nat) (opening closing : String) (parts : List String) : String :=
  if parts.isEmpty then opening ++ closing
  else opening ++ newLine (depth + 1) ++ ("," ++ newLine (depth + 1)).intercalate parts
    ++ newLine depth ++ closing

mutual

/-- The indented text of a value that starts at a depth. -/
def indentedAt (depth : Nat) : Json → String
  | arr items => block depth "[" "]" (indentedItems (depth + 1) items)
  | obj entries => block depth "\x7b" "\x7d" (indentedEntries (depth + 1) entries)
  | null => "null"
  | bool true => "true"
  | bool false => "false"
  | num n => n.render
  | str s => quote s
termination_by structural j => j

def indentedItems (depth : Nat) : List Json → List String
  | [] => []
  | j :: rest => indentedAt depth j :: indentedItems depth rest
termination_by structural items => items

def indentedEntries (depth : Nat) : List (String × Json) → List String
  | [] => []
  | (k, v) :: rest => (quote k ++ ": " ++ indentedAt depth v) :: indentedEntries depth rest
termination_by structural entries => entries

end

def indented (j : Json) : String := indentedAt 0 j

end ApiStack.Json
