import ApiStack.Files.Basic

namespace ApiStack

/-- Files by path, in order. There are no directories. -/
structure MemoryFiles where
  entries : List (Path × String)
  deriving DecidableEq, Inhabited

namespace MemoryFiles

def empty : MemoryFiles := ⟨[]⟩

/-- Entries with a file put in its place; a file with the same path is overwritten under the path
it was first given. -/
def put (path : Path) (content : String) : List (Path × String) → List (Path × String)
  | [] => [(path, content)]
  | (p, old) :: rest =>
    if p.same path then (p, content) :: rest
    else if path.before p then (path, content) :: (p, old) :: rest
    else (p, old) :: put path content rest

def insert (files : MemoryFiles) (path : Path) (content : String) : MemoryFiles :=
  ⟨put path content files.entries⟩

def find? (files : MemoryFiles) (path : Path) : Option String :=
  (files.entries.find? fun entry => entry.1.same path).map Prod.snd

/-- The paths that match a pattern, in order. -/
def glob (files : MemoryFiles) (pattern : String) : Except Glob.PatternFault (List Path) := do
  let tokens ← Glob.tokens pattern
  return (files.entries.map Prod.fst).filter fun path => Glob.fits tokens path.text

def fileSystem (files : MemoryFiles) : FileSystem where
  contains path := (files.find? path).isSome
  read path := match files.find? path with
    | some content => .ok content
    | none => .error .absent
  glob := files.glob

end MemoryFiles

end ApiStack
