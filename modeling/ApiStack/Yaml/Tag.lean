namespace ApiStack.Yaml

/-- The characters of a tag. Where an escape stands for no character there is none. -/
structure Tag where
  chars : List (Option Char)
  deriving DecidableEq, Inhabited

namespace Tag

def ofString (text : String) : Tag := ⟨text.toList.map some⟩

/-- The characters in front of the first zero character. -/
def untilZero (chars : List (Option Char)) : Tag :=
  ⟨chars.takeWhile (· ≠ some (Char.ofNat 0))⟩

/-- The characters of one tag and then those of another. -/
def append (t u : Tag) : Tag := ⟨t.chars ++ u.chars⟩

instance : Append Tag := ⟨append⟩

/-- The text of a tag, if it can be read. -/
def text? (t : Tag) : Option String := (t.chars.mapM id).map String.ofList

def standard (name : String) : Tag := ofString ("tag:yaml.org,2002:" ++ name)

/-- A tag of a document's own starts with an exclamation mark. -/
def isOwn (t : Tag) : Bool := t.chars.head? = some (some '!')

/-- The name of the variant that a tag of a document's own selects: what follows the mark, or the
mark if nothing does. -/
def variant? (t : Tag) : Option String :=
  match t.text?.map String.toList with
  | some ['!'] => some "!"
  | some ('!' :: name) => some (String.ofList name)
  | _ => none

/-- The character with the given value in an escape of some bytes, unless fewer bytes are enough for
it or no character has this value. -/
def charOfBytes (bytes value : Nat) : Option Char :=
  if h : value.isValidChar then
    let c := Char.ofNatAux value h
    if c.utf8Size = bytes then some c else none
  else none

end Tag

end ApiStack.Yaml
