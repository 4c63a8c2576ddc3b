import ApiStack.OrderedMap
import ApiStack.Resource.Intrinsic
import ApiStack.Text.WordChar

namespace ApiStack.Template

def isNameChar (c : Char) : Bool := Text.isWordChar c || c = '-'

/-- The name in a token at the front of a text, and what follows the token. -/
def tokenAt? : List Char → Option (List Char × List Char)
  | '$' :: '{' :: rest =>
    match rest.takeWhile isNameChar, rest.dropWhile isNameChar with
    | c :: name, '}' :: behind => some (c :: name, behind)
    | _, _ => none
  | _ => none

theorem length_of_tokenAt? {cs name behind : List Char} (h : tokenAt? cs = some (name, behind)) :
    behind.length < cs.length := by
  unfold tokenAt? at h
  split at h
  · next rest =>
    split at h
    · next hd =>
      simp only [Option.some.injEq, Prod.mk.injEq] at h
      obtain ⟨-, rfl⟩ := h
      have := (List.dropWhile_sublist isNameChar (l := rest)).length_le
      rw [hd] at this
      simp only [List.length_cons] at this ⊢
      omega
    · cases h
  · cases h

inductive Piece where
  | char (c : Char)
  | token (name : String)
  deriving DecidableEq

/-- A template as a list of tokens and the characters between them. -/
def pieces (cs : List Char) : List Piece :=
  match _h : tokenAt? cs with
  | some (name, behind) => .token (String.ofList name) :: pieces behind
  | none =>
    match cs with
    | [] => []
    | c :: rest => .char c :: pieces rest
termination_by cs.length
decreasing_by
  · exact length_of_tokenAt? _h
  · simp

def tokenText (name : String) : String := "$\x7b" ++ name ++ "\x7d"

/-- The pieces as literals and values in turns, the first and last of them literals. The characters
of the literal so far stand in reverse. -/
def segments (values : OrderedMap Json) (literal : List Char) : List Piece → List Json
  | [] => [.str (String.ofList literal.reverse)]
  | .char c :: rest => segments values (c :: literal) rest
  | .token name :: rest =>
    match values.get? name with
    | some value =>
      .str (String.ofList literal.reverse)
        :: Intrinsic.sub (tokenText name) (.obj [(name, value)]) :: segments values [] rest
    | none => segments values ((tokenText name).toList.reverse ++ literal) rest

def Piece.isDeclared (values : OrderedMap Json) : Piece → Bool
  | .token name => values.contains name
  | .char _ => false

/-- A template with values for its tokens: the text itself if none of them has a value. -/
def substitute (template : String) (values : OrderedMap Json) : Json :=
  let pieces := pieces template.toList
  if pieces.any (Piece.isDeclared values) then Intrinsic.join "" (segments values [] pieces)
  else .str template

/-- The values of an API, overridden by those of an entity. -/
def mergeValues (api entity : OrderedMap Json) : OrderedMap Json := api.insertAll entity.entries

end ApiStack.Template
