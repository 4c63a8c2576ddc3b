import ApiStack.Sdl.Fault

namespace ApiStack.Sdl

/-- The text still to be read, and the first fault of meaning so far. -/
structure Reading where
  rest : List Char
  fault : Option Fault

/-- A parser that may fail. -/
abbrev Parser := StateT Reading Option

namespace Parser

def endsLine (c : Char) : Bool := c = '\n' || c = '\r'

/-- Blanks, commas and the byte order mark stand for nothing. -/
def isIgnored (c : Char) : Bool :=
  c = ' ' || c = ',' || c = '\t' || c.toNat = 0xFEFF || endsLine c

def skipIgnored (inComment : Bool) : List Char → List Char
  | [] => []
  | c :: rest =>
    if inComment then skipIgnored (!endsLine c) rest
    else if isIgnored c then skipIgnored false rest
    else if c = '#' then skipIgnored true rest
    else c :: rest

def ignored : Parser Unit := modify fun r => { r with rest := skipIgnored false r.rest }

/-- Notes a fault of meaning, unless there is one already. -/
def note (fault : Fault) : Parser Unit :=
  modify fun r => { r with fault := r.fault.or (some fault) }

def charWhere (p : Char → Bool) : Parser Char := fun r =>
  match r.rest with
  | c :: rest => if p c then some (c, { r with rest }) else none
  | [] => none

def charsWhile (p : Char → Bool) : Parser (List Char) := fun r =>
  some (r.rest.takeWhile p, { r with rest := r.rest.dropWhile p })

/-- Given characters, at once. -/
def literal : List Char → Parser Unit
  | [] => pure ()
  | c :: cs => do
    let _ ← charWhere (· = c)
    literal cs

/-- A mark or keyword behind what is ignored. What follows a keyword may touch it. -/
def symbol (text : String) : Parser Unit := do
  ignored
  literal text.toList

def optional? (p : Parser α) : Parser (Option α) := fun r =>
  match p r with
  | some (a, r') => some (some a, r')
  | none => some (none, r)

def present (p : Parser α) : Parser Bool := Option.isSome <$> optional? p

/-- Succeeds, and takes nothing, if the parser fails. -/
def absent (p : Parser α) : Parser Unit := fun r =>
  match p r with
  | some _ => none
  | none => some ((), r)

/-- As many results as there are, at most `fuel`. -/
def manyUpTo (p : Parser α) : Nat → Parser (List α)
  | 0 => pure []
  | fuel + 1 => fun r =>
    match p r with
    | some (a, r') => (manyUpTo p fuel r').map fun (as, r'') => (a :: as, r'')
    | none => some ([], r)

/-- As many results as there are of a parser that takes something. -/
def many (p : Parser α) : Parser (List α) := fun r => manyUpTo p (r.rest.length + 1) r

def some' (p : Parser α) : Parser (List α) := do
  let a ← p
  let as ← many p
  return a :: as

/-- Results with a separator between them, which may also stand before the first. -/
def separated (separator : String) (p : Parser α) : Parser (List α) := do
  let _ ← optional? (symbol separator)
  let a ← p
  let as ← many (do symbol separator; p)
  return a :: as

end Parser

end ApiStack.Sdl
