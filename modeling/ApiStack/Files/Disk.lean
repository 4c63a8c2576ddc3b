import ApiStack.Files.Basic

namespace ApiStack

/-- What stands at a place of the tree. A file whose bytes are no text has no content to show. -/
inductive Disk.Node where
  | file (content : Option String)
  | directory
  deriving DecidableEq, Inhabited

/-- The working directory, and the files and directories, each by the names that lead to it from the
root. -/
structure Disk where
  base : List String
  nodes : List (List String × Disk.Node)
  deriving DecidableEq, Inhabited

namespace Disk

/-- A place of the tree, by the names that lead to it from the root. -/
abbrev Place := List String

/-- An empty working directory. -/
def empty (base : Place) : Disk := ⟨base, []⟩

def node? (disk : Disk) (place : Place) : Option Node :=
  if place.isPrefixOf disk.base then some .directory else disk.nodes.lookup place

/-- One step along a path; only a directory can be left, and the root has none above it. -/
def step (disk : Disk) (place : Place) (segment : String) : Except FileFault Place :=
  match disk.node? place with
  | none => .error .noSuchFile
  | some (.file _) => .error .notADirectory
  | some .directory =>
    if segment = "" || segment = "." then .ok place
    else if segment = ".." then .ok place.dropLast
    else if 255 < segment.utf8ByteSize then .error .nameTooLong
    else .ok (place ++ [segment])

/-- The place that segments lead to from a place. The last one need not exist. -/
def walk (disk : Disk) (place : Place) : List String → Except FileFault Place
  | [] => .ok place
  | segment :: rest => do walk disk (← disk.step place segment) rest

/-- The place where a path starts, and its segments. -/
def origin (disk : Disk) (path : Path) : Except FileFault (Place × List String) :=
  if path.text.toList.contains (Char.ofNat 0) then .error .zeroInName
  else if path.text = "" then .error .noSuchFile
  else if 4096 ≤ path.text.utf8ByteSize then .error .nameTooLong
  else .ok (if path.isAbsolute then [] else disk.base, path.segments)

def find (disk : Disk) (path : Path) : Except FileFault (Place × Node) := do
  let (start, segments) ← disk.origin path
  let place ← disk.walk start segments
  match disk.node? place with
  | some node => return (place, node)
  | none => throw .noSuchFile

def contains (disk : Disk) (path : Path) : Bool :=
  match disk.find path with
  | .ok _ => true
  | .error _ => false

def isDirectory (disk : Disk) (path : Path) : Bool :=
  match disk.find path with
  | .ok (_, .directory) => true
  | _ => false

def isFile (disk : Disk) (path : Path) : Bool :=
  match disk.find path with
  | .ok (_, .file _) => true
  | _ => false

def read (disk : Disk) (path : Path) : Except FileFault String := do
  match (← disk.find path).2 with
  | .directory => throw .isADirectory
  | .file none => throw .notText
  | .file (some content) => return content

def setNode (disk : Disk) (place : Place) (node : Node) : Disk :=
  if disk.nodes.any (·.1 = place) then
    { disk with nodes := disk.nodes.map fun e => if e.1 = place then (place, node) else e }
  else { disk with nodes := disk.nodes ++ [(place, node)] }

/-- The place for a new last segment of a path, or the fault that keeps it from being made. -/
def placeFor (disk : Disk) (onDot : FileFault) (segments : List String) (start : Place) :
    Except FileFault Place := do
  match segments.getLast? with
  | none => throw onDot
  | some last =>
    let place ← disk.walk start segments.dropLast
    match disk.node? place with
    | none => throw .noSuchFile
    | some (.file _) => throw .notADirectory
    | some .directory =>
      if last = "." || last = ".." then throw onDot
      else if 255 < last.utf8ByteSize then throw .nameTooLong
      else return place ++ [last]

/-- The segments without empty ones at the end. -/
def trimSegments (segments : List String) : List String :=
  (segments.reverse.dropWhile (· = "")).reverse

def makeDirectory (disk : Disk) (path : Path) : Except FileFault Disk := do
  let (start, segments) ← disk.origin path
  let place ← disk.placeFor .alreadyExists (trimSegments segments) start
  if (disk.node? place).isSome then throw .alreadyExists
  else return disk.setNode place .directory

/-- One directory, new or already there. -/
def settleDirectory (disk : Disk) (path : Path) : Except FileFault Unit × Disk :=
  match disk.makeDirectory path with
  | .ok disk => (.ok (), disk)
  | .error fault => (if disk.isDirectory path then .ok () else .error fault, disk)

/-- A directory and those above it, as far as they are missing. If that fails, those made stay. -/
def makeDirectories (fuel : Nat) (disk : Disk) (path : Path) : Except FileFault Unit × Disk :=
  match fuel with
  | 0 => (.ok (), disk)
  | fuel + 1 =>
    if path.text = "" then (.ok (), disk) else
      match disk.makeDirectory path, path.directory? with
      | .error .noSuchFile, none => (.error .noSuchFile, disk)
      | .error .noSuchFile, some above =>
        match makeDirectories fuel disk above with
        | (.error fault, disk) => (.error fault, disk)
        | (.ok (), disk) => disk.settleDirectory path
      | _, _ => disk.settleDirectory path

/-- A directory and all those above it exist afterwards. -/
def ensureDirectory (disk : Disk) (path : Path) : Except FileFault Unit × Disk :=
  disk.makeDirectories (path.text.length + 1) path

/-- The place of a file that can be written; its directory has to exist. A path with a slash at its
end stands for a directory, whatever is there. -/
def fileAt (disk : Disk) (path : Path) : Except FileFault Place := do
  let (start, segments) ← disk.origin path
  if segments.getLast? = some "" then
    let _ ← disk.walk start ((trimSegments segments).dropLast ++ ["."])
    throw .isADirectory
  else
    let place ← disk.placeFor .isADirectory segments start
    if disk.node? place = some .directory then throw .isADirectory
    else return place

/-- A file with a content stands at a path afterwards. -/
def writeContent (disk : Disk) (path : Path) (content : Option String) : Except FileFault Disk := do
  return disk.setNode (← disk.fileAt path) (.file content)

def write (disk : Disk) (path : Path) (content : String) : Except FileFault Disk :=
  disk.writeContent path (some content)

/-- A file stands at a path afterwards; one that is there already is left as it is. -/
def touch (disk : Disk) (path : Path) : Except FileFault Disk := do
  let place ← disk.fileAt path
  return if (disk.node? place).isSome then disk else disk.setNode place (.file (some ""))

/-- A file is put at a path together with the directories above it, as far as that is possible. -/
def put (disk : Disk) (path : Path) (content : Option String) : Disk :=
  let disk := match path.directory? with
    | none => disk
    | some above => (disk.ensureDirectory above).2
  (disk.writeContent path content).toOption.getD disk

/-- A directory is put at a path, as far as that is possible. -/
def putDirectory (disk : Disk) (path : Path) : Disk := (disk.ensureDirectory path).2

/-- The names in a directory that do not start with a dot, in order. -/
def visibleNames (disk : Disk) (path : Path) : List String :=
  match disk.find path with
  | .ok (place, .directory) =>
    let above := if place.isPrefixOf disk.base then disk.base[place.length]?.toList else []
    let below := disk.nodes.filterMap fun (key, _) =>
      if key.dropLast = place && key ≠ [] then key.getLast? else none
    ((above ++ below).filter fun name => name.toList.head? ≠ some '.').mergeSort fun a b => !(b < a)
  | _ => []

/-- The path of a name in a directory; those in the working directory are named alone. -/
def entryPath (directory : Path) (name : String) : Path :=
  if directory.same ⟨"."⟩ then ⟨name⟩ else directory.under ⟨name⟩

def isDeep (pattern : List Glob.Token) : Bool := pattern.contains .anyDirectories

/-- The special names that a part of a pattern with wildcards and a leading dot matches. -/
def specialNames (pattern : List Glob.Token) : List String :=
  if pattern.head? = some (.char '.') then ["..", "."].filter (Glob.fits pattern) else []

mutual

/-- The paths below a directory that match the parts of a pattern. -/
def expand (fuel : Nat) (disk : Disk) (onlyDirectories : Bool) (path : Path) :
    List (List Glob.Token) → List Path
  | [] => []
  | pattern :: rest =>
    match fuel with
    | 0 => []
    | fuel + 1 =>
      let reach (next : Path) : List Path :=
        if rest.isEmpty then
          if onlyDirectories && !disk.isDirectory next then [] else [next]
        else expand fuel disk onlyDirectories next rest
      -- a name without wildcards is not searched for, so it may start with a dot
      match Glob.literal? pattern with
      | some name =>
        let next := entryPath path name
        if name = "." || name = ".." then
          if disk.isDirectory path then reach next else []
        else if disk.contains next then reach next else []
      | none =>
        if disk.isDirectory path then
          (specialNames pattern).flatMap (fun name => reach (path.under ⟨name⟩))
            ++ (disk.visibleNames path).flatMap
              (fun name =>
                visit fuel disk onlyDirectories (entryPath path name) name (pattern :: rest))
        else []

/-- The matches at an entry of a directory and below it. -/
def visit (fuel : Nat) (disk : Disk) (onlyDirectories : Bool) (path : Path) (name : String)
    (patterns : List (List Glob.Token)) : List Path :=
  match fuel with
  | 0 => []
  | fuel + 1 =>
    let deep := patterns.head?.any isDeep
    let later := if deep then patterns.dropWhile isDeep else patterns
    let isDirectory := disk.isDirectory path
    let here := match later with
      | [] => if deep && isDirectory then [path] else []
      | pattern :: rest =>
        if !Glob.fits pattern name then []
        else if rest.isEmpty then if onlyDirectories && !isDirectory then [] else [path]
        else expand fuel disk onlyDirectories path rest
    let below := if deep && isDirectory then
        (disk.visibleNames path).flatMap fun name =>
          visit fuel disk onlyDirectories (entryPath path name) name
            ([Glob.Token.anyDirectories] :: later)
      else []
    here ++ below

end

/-- The parts of a pattern between slashes; a slash at the end adds none. -/
def patternParts (pattern : String) : List String :=
  let parts := (Path.mk pattern).segments
  if parts.getLast? = some "" then parts.dropLast else parts

/-- The files that match a pattern, directory by directory in the order of names. -/
def glob (disk : Disk) (pattern : String) : Except Glob.PatternFault (List Path) := do
  let _ ← Glob.tokens pattern
  let absolute := pattern.toList.head? = some '/'
  let relative := if absolute then String.ofList (pattern.toList.drop 1) else pattern
  let parts ← (patternParts relative).mapM Glob.tokens
  let start : Path := if absolute then ⟨"/"⟩ else ⟨"."⟩
  let fuel := 2 * (parts.length + 1) * (disk.nodes.length + disk.base.length + 2)
  let onlyDirectories := pattern.toList.getLast? = some '/'
  return (disk.expand fuel onlyDirectories start parts).filter disk.isFile

def fileSystem (disk : Disk) : FileSystem where
  contains := disk.contains
  read := disk.read
  glob := disk.glob

end Disk

end ApiStack
