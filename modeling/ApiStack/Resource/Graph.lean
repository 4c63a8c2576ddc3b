import ApiStack.Failure
import ApiStack.Json.Prune

namespace ApiStack

structure Resource where
  type : String
  deletionPolicy : Option String
  dependsOn : List String
  properties : Json
  deriving Inhabited

namespace Resource

/-- A resource with the given properties; null ones are not set. -/
def make (type : String) (properties : Json) : Resource :=
  ⟨type, none, [], properties.prune⟩

/-- The resource is made after another one. -/
def after (r : Resource) (id : String) : Resource := { r with dependsOn := r.dependsOn ++ [id] }

def withDeletionPolicy (r : Resource) (policy : String) : Resource :=
  { r with deletionPolicy := some policy }

def property? (r : Resource) (key : String) : Option Json := r.properties.get? key

def toJson (r : Resource) : Json :=
  .obj ([("Type", .str r.type)]
    ++ (r.deletionPolicy.map fun policy => ("DeletionPolicy", Json.str policy)).toList
    ++ (if r.dependsOn.isEmpty then [] else [("DependsOn", .strs r.dependsOn)])
    ++ [("Properties", r.properties)])

end Resource

/-- Resources by logical id, in the order in which they were added. -/
structure Graph where
  entries : List (String × Resource)
  deriving Inhabited

namespace Graph

def empty : Graph := ⟨[]⟩

def ids (g : Graph) : List String := g.entries.map Prod.fst

def size (g : Graph) : Nat := g.entries.length

def get? (g : Graph) (id : String) : Option Resource := g.entries.lookup id

def contains (g : Graph) (id : String) : Bool := g.ids.contains id

/-- The graph with one more resource at the end, unless the id is taken. -/
def insert (g : Graph) (id : String) (r : Resource) : Except Failure Graph :=
  if g.contains id then .error (.idCollision id) else .ok ⟨g.entries ++ [(id, r)]⟩

/-- Resources moved into a graph one by one, up to the first whose id is taken: the graph as far as
it came, and what stopped it. -/
def absorb (g : Graph) : List (String × Resource) → Graph × Option Failure
  | [] => (g, none)
  | (id, r) :: rest =>
    match g.insert id r with
    | .ok g => absorb g rest
    | .error failure => (g, some failure)

/-- The graph with the resources of another one behind its own. -/
def merge (g other : Graph) : Except Failure Graph :=
  match g.absorb other.entries with
  | (g, none) => .ok g
  | (_, some failure) => .error failure

def singleton (id : String) (r : Resource) : Graph := ⟨[(id, r)]⟩

def toJson (g : Graph) : Json := .obj (g.entries.map fun (id, r) => (id, r.toJson))

end Graph

end ApiStack
