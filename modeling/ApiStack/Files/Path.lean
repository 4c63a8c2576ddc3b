namespace ApiStack

/-- A path, kept as it was written. -/
structure Path where
  text : String
  deriving DecidableEq, Inhabited

namespace Path

inductive Part where
  | root
  | here
  | parent
  | name (text : String)
  deriving DecidableEq, Inhabited

def segments (p : Path) : List String := (p.text.toList.splitOn '/').map String.ofList

def isAbsolute (p : Path) : Bool := p.text.toList.head? = some '/'

/-- The part that a segment behind the first one stands for, if any. -/
def Part.ofSegment? (segment : String) : Option Part :=
  if segment = "" || segment = "." then none
  else if segment = ".." then some .parent
  else some (.name segment)

/-- The parts of a path. Empty segments and inner dots stand for nothing; a first dot counts. -/
def parts (p : Path) : List Part :=
  let later := p.segments.filterMap Part.ofSegment?
  if p.isAbsolute then .root :: later
  else if p.segments.head? = some "." then .here :: later
  else later

def same (p q : Path) : Bool := p.parts = q.parts

/-- The path as seen from a directory. An absolute path stands for itself. -/
def under (directory p : Path) : Path :=
  if p.isAbsolute then p
  else if directory.text = "" then p
  else if directory.text.toList.getLast? = some '/' then ⟨directory.text ++ p.text⟩
  else ⟨directory.text ++ "/" ++ p.text⟩

def Part.rank : Part → Nat
  | .root => 0
  | .here => 1
  | .parent => 2
  | .name _ => 3

/-- Parts are ordered by kind, then by name. -/
def Part.before : Part → Part → Bool
  | .name a, .name b => a < b
  | a, b => a.rank < b.rank

/-- The order of paths, part by part; a path comes before those it leads. -/
def beforeParts : List Part → List Part → Bool
  | [], [] => false
  | [], _ :: _ => true
  | _ :: _, [] => false
  | a :: as, b :: bs => if a = b then beforeParts as bs else a.before b

def before (p q : Path) : Bool := beforeParts p.parts q.parts

/-- The text without its last segment, the slashes and dots before that, and the slash itself. -/
def dropLast (segments : List String) : List String :=
  (segments.reverse.dropWhile fun s => s = "" || s = ".").drop 1 |>.dropWhile
    (fun s => s = "" || s = ".") |>.reverse

/-- The directory that holds the last part of a path, if it has one besides the root. -/
def directory? (p : Path) : Option Path :=
  match p.parts with
  | [] => none
  | [.root] => none
  | [.here] => some ⟨""⟩
  | [_] => some ⟨""⟩
  | .root :: [_] => some ⟨"/"⟩
  | .here :: [_] => some ⟨"."⟩
  | _ => some ⟨"/".intercalate (dropLast p.segments)⟩

end Path

end ApiStack
