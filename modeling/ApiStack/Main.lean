import ApiStack.CommandLine.Run
import Std.Time.DateTime.Timestamp

namespace ApiStack.CommandLine

def absoluteText (place : Disk.Place) : String := "/" ++ "/".intercalate place

/-- The place that a path leads to if every step before it is a directory. -/
def placeFrom (base : Disk.Place) (path : Path) : Disk.Place :=
  path.segments.foldl
    (fun place segment =>
      if segment = "" || segment = "." then place
      else if segment = ".." then place.dropLast
      else place ++ [segment])
    (if path.isAbsolute then [] else base)

/-- What stands at an entry of a directory, and below it. -/
partial def survey (above : Disk.Place) (entry : IO.FS.DirEntry) :
    IO (List (Disk.Place × Disk.Node)) := do
  let place := above ++ [entry.fileName]
  match (← entry.path.symlinkMetadata).type with
  | .dir =>
    let below ← (← entry.path.readDir).toList.mapM (survey place)
    return (place, .directory) :: below.flatten
  | _ =>
    if ← entry.path.isDir then return [(place, .directory)]
    else
      try return [(place, .file (String.fromUTF8? (← IO.FS.readBinFile entry.path)))]
      catch _ => return []

/-- A tree with the directory that a path leads to, and all below it, added as the machine has
them. -/
def look (disk : Disk) (path : Path) : IO Disk := do
  let place := placeFrom disk.base path
  try
    let entries ← (← IO.FS.realPath (absoluteText place)).readDir
    let below ← entries.toList.mapM (survey place)
    let disk := disk.putDirectory ⟨absoluteText place⟩
    return below.flatten.foldl (fun disk (place, node) => disk.setNode place node) disk
  catch _ => return disk

def settingsHome : IO (Option Path) := do
  match ← IO.getEnv "XDG_CONFIG_HOME", ← IO.getEnv "HOME" with
  | some home, other =>
    if (Path.mk home).isAbsolute then return some ⟨home⟩
    else return other.map fun home => (Path.mk home).under ⟨".config"⟩
  | none, other => return other.map fun home => (Path.mk home).under ⟨".config"⟩

/-- The directories that a run can see. -/
def sights (host : Host) (arguments : List String) (disk : Disk) : List Path :=
  match parse arguments with
  | .ok (.compile arguments) =>
    let settings := arguments.chosen.orSaved (savedSettings host disk)
    [settings.effectiveServicePath arguments.config, (arguments.config.directory?).getD ⟨"."⟩]
      ++ (arguments.output.bind Path.directory?).toList
  | _ => []

/-- The machine is brought from one state of the tree to another. -/
def carryOut (before after : Disk) : IO Unit := do
  for (place, node) in after.nodes do
    if before.node? place ≠ some node then
      match node with
      | .directory => IO.FS.createDirAll (absoluteText place)
      | .file (some content) => IO.FS.writeFile (absoluteText place) content
      | .file none => pure ()

/-- The program with some arguments; what it yields is its exit code. -/
def program (arguments : List String) : IO UInt32 := do
  let time ← Std.Time.Timestamp.now
  let host : Host :=
    ⟨← settingsHome, ⟨time.val.second.val, time.val.nano.val.toNat⟩⟩
  let empty := Disk.empty (placeFrom [] ⟨(← IO.currentDir).toString⟩)
  let here ← look empty ⟨"."⟩
  let disk ← match (host.settings?).bind Path.directory? with
    | some directory => look here directory
    | none => pure here
  let disk ← (sights host arguments disk).foldlM look disk
  let (outcome, after) := run host arguments disk
  carryOut disk after
  IO.print outcome.printed
  IO.eprint outcome.reported
  return outcome.exit.toUInt32

end ApiStack.CommandLine

def main (arguments : List String) : IO UInt32 := ApiStack.CommandLine.program arguments
