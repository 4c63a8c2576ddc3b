import ApiStack.Decode.Mismatch
import ApiStack.Failure
import ApiStack.Yaml.Token

namespace ApiStack.Decode

/-- A step from a collection to a part of it. -/
inductive Step where
  | item (index : Nat)
  | entry (key : String)
  | unnamed
  deriving DecidableEq

/-- Where a node stands in a document: the way to it, last step first, and the number of collections
around it. -/
structure Site where
  way : List Step
  depth : Nat

namespace Site

def root : Site := ⟨[], 0⟩

/-- The way as a text; the root is a point. -/
def pathOf : List Step → String
  | [] => "."
  | .item i :: rest => pathOf rest ++ "[" ++ toString i ++ "]"
  | .entry key :: rest => before rest ++ key
  | .unnamed :: rest => before rest ++ "?"
where
  /-- The way to a collection in front of one of its keys. -/
  before : List Step → String
    | [] => ""
    | step :: rest => pathOf (step :: rest) ++ "."

def path (s : Site) : String := pathOf s.way

def child (s : Site) (step : Step) : Site := { s with way := step :: s.way }

end Site

/-- The place of a fault, if it is settled. -/
inductive Place where
  | unsettled
  | unknown
  | at (path : String) (mark : Yaml.Mark)
  deriving DecidableEq

/-- A mismatch at a place. -/
structure Fault where
  cause : Mismatch
  place : Place
  deriving DecidableEq

/-- Values read, or the first fault. The state counts how often references may still be followed. -/
abbrev Reading := StateT Nat (Except Fault)

/-- A fault whose place is still to be settled. -/
def fail (cause : Mismatch) : Reading α := throw ⟨cause, .unsettled⟩

namespace Fault

/-- The fault at a place, unless its place is settled. -/
def settle (f : Fault) (site : Site) (mark : Yaml.Mark) : Fault :=
  match f.place with
  | .unsettled => { f with place := .at site.path mark }
  | _ => f

def markText (mark : Yaml.Mark) : String :=
  "line " ++ toString (mark.line + 1) ++ " column " ++ toString (mark.column + 1)

/-- The wording of a fault: its path, unless that is the root, its cause, and its line and column,
unless they are the very first. -/
def message (dialect : Dialect) (f : Fault) : String :=
  match f.place with
  | .at path mark =>
    (if path = "." then "" else path ++ ": ") ++ f.cause.message dialect
      ++ (if mark.line = 0 && mark.column = 0 then "" else " at " ++ markText mark)
  | _ => f.cause.message dialect

def toIssue (f : Fault) : Issue :=
  ⟨match f.place with
    | .at _ mark => markText mark
    | _ => "/", f.message .yaml⟩

end Fault

end ApiStack.Decode
