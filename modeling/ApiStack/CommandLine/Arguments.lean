import ApiStack.Decimal.Literal
import ApiStack.Settings

namespace ApiStack.CommandLine

inductive LogLevel where
  | off
  | error
  | warn
  | info
  | debug
  | trace
  deriving DecidableEq, Inhabited

def LogLevel.name : LogLevel → String
  | .off => "off"
  | .error => "error"
  | .warn => "warn"
  | .info => "info"
  | .debug => "debug"
  | .trace => "trace"

def LogLevel.all : List LogLevel := [.off, .error, .warn, .info, .debug, .trace]

/-- What a run is told: the configuration, its choice of settings, where the result goes, how much
is logged, and whether the choice is to be remembered. -/
structure Arguments where
  config : Path
  chosen : Settings
  output : Option Path
  logLevel : LogLevel
  isRemembered : Bool
  deriving DecidableEq

inductive Request where
  | compile (arguments : Arguments)
  | help
  | version
  deriving DecidableEq

/-- An option that takes a value. -/
inductive Valued where
  | servicePath
  | output
  | format
  | logRetention
  | logLevel
  deriving DecidableEq

/-- An option that takes none. -/
inductive Bare where
  | saveDefaults
  | help
  | version
  deriving DecidableEq

inductive Switch where
  | valued (v : Valued)
  | bare (b : Bare)
  deriving DecidableEq

def Valued.name : Valued → String
  | .servicePath => "service-path"
  | .output => "output"
  | .format => "format"
  | .logRetention => "log-retention-in-days"
  | .logLevel => "log-level"

def Bare.name : Bare → String
  | .saveDefaults => "save-defaults"
  | .help => "help"
  | .version => "version"

def Switch.all : List Switch :=
  [Valued.servicePath, .output, .format, .logRetention, .logLevel].map .valued
    ++ [Bare.saveDefaults, .help, .version].map .bare

def Switch.name : Switch → String
  | .valued v => v.name
  | .bare b => b.name

def Switch.named? (name : String) : Option Switch := Switch.all.find? (·.name = name)

def Switch.ofLetter? : Char → Option Switch
  | 's' => some (.valued .servicePath)
  | 'o' => some (.valued .output)
  | 'f' => some (.valued .format)
  | 'h' => some (.bare .help)
  | 'V' => some (.bare .version)
  | _ => none

/-- Why arguments cannot be understood. -/
inductive UsageFault where
  | unexpected (argument : String)
  | repeated (name : String)
  | withoutValue (name : String)
  | unwantedValue (name value : String)
  | badValue (name value : String)
  | noConfiguration
  deriving DecidableEq

def UsageFault.message : UsageFault → String
  | .unexpected argument => "unexpected argument '" ++ argument ++ "' found"
  | .repeated name => "the argument '--" ++ name ++ "' cannot be used multiple times"
  | .withoutValue name => "a value is required for '--" ++ name ++ "' but none was supplied"
  | .unwantedValue name value =>
    "unexpected value '" ++ value ++ "' for '--" ++ name ++ "' found; no more were expected"
  | .badValue name value => "invalid value '" ++ value ++ "' for '--" ++ name ++ "'"
  | .noConfiguration => "no configuration file was provided"

/-- What has been given so far. -/
structure Given where
  config : Option Path
  chosen : Settings
  output : Option Path
  logLevel : Option LogLevel
  isRemembered : Bool

namespace Given

def nothing : Given := ⟨none, .unset, none, none, false⟩

/-- A number of days: digits behind an optional sign, of at most 32 bits. -/
def days? (text : String) : Option Nat :=
  let (negative, digits) := Decimal.sign text.toList
  let n := Decimal.digitsValue digits
  if digits.isEmpty || !digits.all Char.isDigit || Nat.pow 2 32 ≤ n || (negative && n ≠ 0) then none
  else some n

/-- A path that is not empty. -/
def path? (text : String) : Option Path := if text = "" then none else some ⟨text⟩

/-- An option that is still open is given a value. -/
def fill (option : Valued) (value : String) (known : Option α) (read : String → Option α) :
    Except UsageFault (Option α) :=
  match known, read value with
  | some _, _ => .error (.repeated option.name)
  | none, none => .error (.badValue option.name value)
  | none, some a => .ok (some a)

def set (g : Given) (option : Valued) (value : String) : Except UsageFault Given :=
  match option with
  | .servicePath => do
    let path ← fill option value g.chosen.servicePath path?
    return { g with chosen := { g.chosen with servicePath := path } }
  | .output => do
    return { g with output := ← fill option value g.output path? }
  | .format => do
    let format ← fill option value g.chosen.format fun s => Format.all.find? (·.name = s)
    return { g with chosen := { g.chosen with format := format } }
  | .logRetention => do
    let days ← fill option value g.chosen.logRetention days?
    return { g with chosen := { g.chosen with logRetention := days } }
  | .logLevel => do
    let level ← fill option value g.logLevel fun s => LogLevel.all.find? (·.name = s)
    return { g with logLevel := level }

def setConfig (g : Given) (argument : String) : Except UsageFault Given :=
  match g.config, path? argument with
  | some _, _ => .error (.unexpected argument)
  | none, none => .error .noConfiguration
  | none, some path => .ok { g with config := some path }

def finish (g : Given) : Except UsageFault Request :=
  match g.config with
  | none => .error .noConfiguration
  | some config =>
    .ok (.compile ⟨config, g.chosen, g.output, g.logLevel.getD .off, g.isRemembered⟩)

end Given

inductive Form where
  | plain
  | terminator
  | named (name : String) (value : Option String)
  | lettered (letter : Char) (value : Option String)
  deriving DecidableEq

/-- The form of an argument. A value stands behind an equals sign, or right behind a letter. -/
def formOf (argument : String) : Form :=
  match argument.toList with
  | ['-', '-'] => .terminator
  | '-' :: '-' :: cs =>
    let name := String.ofList (cs.takeWhile (· ≠ '='))
    match cs.dropWhile (· ≠ '=') with
    | _ :: value => .named name (some (String.ofList value))
    | [] => .named name none
  | '-' :: letter :: cs =>
    match cs with
    | [] => .lettered letter none
    | '=' :: value => .lettered letter (some (String.ofList value))
    | value => .lettered letter (some (String.ofList value))
  | _ => .plain

/-- The option of an argument and the value in it, unless it is no option; letters that take no
value hide what stands behind them. -/
def switchOf (argument : String) : Except UsageFault (Option (Switch × Option String)) :=
  match formOf argument with
  | .named name value =>
    match Switch.named? name, value with
    | none, _ => .error (.unexpected argument)
    | some (.bare b), some v => .error (.unwantedValue b.name v)
    | some switch, value => .ok (some (switch, value))
  | .lettered letter value =>
    match Switch.ofLetter? letter with
    | none => .error (.unexpected argument)
    | some switch => .ok (some (switch, value))
  | _ => .ok none

def parsePlain (g : Given) : List String → Except UsageFault Request
  | [] => g.finish
  | argument :: rest => do parsePlain (← g.setConfig argument) rest

def parseFrom (g : Given) : List String → Except UsageFault Request
  | [] => g.finish
  | argument :: rest =>
    if formOf argument = .terminator then parsePlain g rest
    else do
      match ← switchOf argument with
      | none => parseFrom (← g.setConfig argument) rest
      | some (.bare .help, _) => return .help
      | some (.bare .version, _) => return .version
      | some (.bare .saveDefaults, _) =>
        if g.isRemembered then throw (.repeated Bare.saveDefaults.name)
        else parseFrom { g with isRemembered := true } rest
      | some (.valued option, some value) => parseFrom (← g.set option value) rest
      | some (.valued option, none) =>
        match rest with
        | [] => throw (.withoutValue option.name)
        | value :: rest =>
          if formOf value = .plain then parseFrom (← g.set option value) rest
          else throw (.withoutValue option.name)

def parse (arguments : List String) : Except UsageFault Request := parseFrom .nothing arguments

end ApiStack.CommandLine
