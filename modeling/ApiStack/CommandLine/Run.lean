import ApiStack.CommandLine.Arguments
import ApiStack.CommandLine.Report
import ApiStack.Compile.Api
import ApiStack.Yaml.Printer

namespace ApiStack.CommandLine

/-- What a run is given by the machine: the directory for the settings of programs, if there is one,
and the time. -/
structure Host where
  settingsHome : Option Path
  now : Instant

namespace Host

def file? (host : Host) (name : String) : Option Path :=
  host.settingsHome.map fun home => (home.under ⟨"appsync-compiler"⟩).under ⟨name⟩

def settings? (host : Host) : Option Path := host.file? "settings.json"

def log (host : Host) : Path := (host.file? "appsync-compiler.log").getD ⟨"appsync-compiler.log"⟩

end Host

/-- A step of a run: it may change files, also if it fails. -/
abbrev Action := ExceptT Report (StateM Disk)

/-- A change of the files, and the context of its fault. -/
def change (context : String) (f : Disk → Except FileFault Disk) : Action Unit := do
  match f (← get) with
  | .ok disk => set disk
  | .error fault => throw ⟨context, [fault.message]⟩

/-- The log exists, unless nothing is logged. -/
def openLog (host : Host) (level : LogLevel) : Action Unit := do
  if level ≠ .off then
    let path := host.log
    match path.directory? with
    | none => pure ()
    | some directory => modify fun disk => (disk.ensureDirectory directory).2
    change ("Failed to open log file " ++ Text.quoted path.text) fun disk => disk.touch path

def savedSettings (host : Host) (disk : Disk) : Settings :=
  match host.settings? with
  | none => .unset
  | some path => .load disk path

def saveSettings (host : Host) (settings : Settings) : Action Unit := do
  match host.settings? with
  | none => pure ()
  | some path =>
    let (result, disk) := settings.save (← get) path
    set disk
    match result with
    | .ok () => pure ()
    | .error fault => throw ⟨"Failed to save settings", fault.causes⟩

/-- The settings in effect: what the run chooses, and what is saved where it chooses nothing. They
are saved if they are to be remembered. -/
def settle (host : Host) (arguments : Arguments) : Action Settings := do
  let settings := arguments.chosen.orSaved (savedSettings host (← get))
  if arguments.isRemembered then saveSettings host settings
  return settings

def render (format : Format) (stack : Compile.Stack) : String :=
  match format with
  | .json => stack.toJson.indented
  | .yaml => Yaml.print stack.toJson

def compile (host : Host) (config : Path) (settings : Settings) : Action String := do
  let disk ← get
  match disk.read config with
  | .error fault => throw ⟨"Failed to read " ++ config.text, [fault.message]⟩
  | .ok text =>
    let context : Compile.Context := {
      files := disk.fileSystem
      servicePath := settings.effectiveServicePath config
      logRetention := settings.logRetention
      now := host.now }
    match Compile.stackOf context text with
    | .error failure => throw ⟨"Failed to compile " ++ config.text, failure.causes⟩
    | .ok stack => return render settings.effectiveFormat stack

/-- A result is written to a file; the directories above it are made if they are missing. -/
def writeResult (path : Path) (text : String) : Action Unit := do
  let directory := path.directory?.getD ⟨""⟩
  let (result, disk) := (← get).ensureDirectory directory
  set disk
  match result with
  | .error fault => throw ⟨"Failed to create " ++ directory.text, [fault.message]⟩
  | .ok () => change ("Failed to write " ++ path.text) fun disk => disk.write path text

/-- Compiles a configuration; what is printed is the result, unless it goes to a file. -/
def execute (host : Host) (arguments : Arguments) : Action String := do
  openLog host arguments.logLevel
  let settings ← settle host arguments
  let text ← compile host arguments.config settings
  match arguments.output with
  | none => return text ++ "\n"
  | some path =>
    writeResult path text
    return ""

def usage : String := "\n".intercalate [
  "Compile AppSync GraphQL API configuration into CloudFormation resources",
  "",
  "Usage: appsync-compiler [OPTIONS] <CONFIG>",
  "",
  "Arguments:",
  "  <CONFIG>  API configuration file (YAML or JSON)",
  "",
  "Options:",
  "  -s, --service-path <SERVICE_PATH>",
  "          Directory schema, template and code paths are relative to",
  "  -o, --output <OUTPUT>",
  "          Write the result to a file instead of stdout",
  "  -f, --format <FORMAT>",
  "          Output format [possible values: json, yaml]",
  "      --log-retention-in-days <LOG_RETENTION_IN_DAYS>",
  "          Log group retention used when the logging block sets none",
  "      --log-level <LOG_LEVEL>",
  "          Log level for debugging [default: off]"
    ++ " [possible values: off, error, warn, info, debug, trace]",
  "      --save-defaults",
  "          Remember --format, --service-path and --log-retention-in-days",
  "  -h, --help",
  "          Print help",
  "  -V, --version",
  "          Print version",
  ""]

/-- What a run leaves behind besides files: its exit code, and what it printed and reported. -/
structure Outcome where
  exit : Nat
  printed : String
  reported : String
  deriving DecidableEq

/-- A run with some arguments: its outcome, and the files afterwards. -/
def run (host : Host) (arguments : List String) (disk : Disk) : Outcome × Disk :=
  match parse arguments with
  | .error fault => (⟨2, "", "error: " ++ fault.message ++ "\n"⟩, disk)
  | .ok .help => (⟨0, usage, ""⟩, disk)
  | .ok .version => (⟨0, "appsync-compiler 0.2.1\n", ""⟩, disk)
  | .ok (.compile arguments) =>
    match (execute host arguments).run disk with
    | (.ok text, disk) => (⟨0, text, ""⟩, disk)
    | (.error report, disk) => (⟨1, "", report.render⟩, disk)

end ApiStack.CommandLine
