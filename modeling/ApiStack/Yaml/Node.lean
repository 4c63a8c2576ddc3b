import ApiStack.Yaml.Token

namespace ApiStack.Yaml

/-- A tree as it is written. -/
inductive Tree where
  | scalar (mark : Mark) (tag : Option Tag) (style : Style) (text : String)
  | seq (mark : Mark) (tag : Option Tag) (items : List Tree)
  | map (mark : Mark) (tag : Option Tag) (entries : List (Tree × Tree))
  | alias (mark : Mark) (anchor : Nat)
  deriving Inhabited

/-- A tree with the targets of its references. An empty document is void, and a target inside too
many others is out of reach. -/
inductive Node where
  | void (mark : Mark)
  | scalar (mark : Mark) (tag : Option Tag) (style : Style) (text : String)
  | seq (mark : Mark) (tag : Option Tag) (items : List Node)
  | map (mark : Mark) (tag : Option Tag) (entries : List (Node × Node))
  | alias (mark : Mark) (target : Unit → Node)
  | outOfReach
  deriving Inhabited

/-- A document as it is written: its tree, or the place where an empty text ends; the count of parts
it has; the trees that anchors stand for; and whether another document follows. -/
structure Document where
  root : Tree ⊕ Mark
  size : Nat
  anchored : List (Nat × Tree)
  isFollowed : Bool

namespace Tree

mutual

/-- A tree with targets for its references. -/
def expand (target : Nat → Node) : Tree → Node
  | .scalar mark tag style text => .scalar mark tag style text
  | .seq mark tag items => .seq mark tag (expandItems target items)
  | .map mark tag entries => .map mark tag (expandEntries target entries)
  | .alias mark anchor => .alias mark fun _ => target anchor
termination_by structural tree => tree

def expandItems (target : Nat → Node) : List Tree → List Node
  | [] => []
  | tree :: rest => expand target tree :: expandItems target rest
termination_by structural items => items

def expandEntries (target : Nat → Node) : List (Tree × Tree) → List (Node × Node)
  | [] => []
  | (key, value) :: rest =>
    (expand target key, expand target value) :: expandEntries target rest
termination_by structural entries => entries

end

/-- The node that a number stands for, with targets inside each other to some depth. -/
def target (anchored : List (Nat × Tree)) : Nat → Nat → Node
  | 0, _ => .outOfReach
  | depth + 1, anchor =>
    match anchored.lookup anchor with
    | some tree => tree.expand (target anchored depth)
    | none => .outOfReach

end Tree

namespace Document

/-- How deep targets are inside each other. Every level of it is at least one level of nested
collections. -/
def depth : Nat := 200

def node (d : Document) : Node :=
  match d.root with
  | .inl tree => tree.expand (Tree.target d.anchored depth)
  | .inr mark => .void mark

/-- How often references may be followed: a hundred times for each part of the document. -/
def steps (d : Document) : Nat := 100 * d.size

end Document

end ApiStack.Yaml
