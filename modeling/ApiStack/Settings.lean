import ApiStack.Decode.Record
import ApiStack.Decode.Variant
import ApiStack.Files.Disk
import ApiStack.Json.Excerpt
import ApiStack.Json.Printer
import ApiStack.Text.Quoted

namespace ApiStack

inductive Format where
  | json
  | yaml
  deriving DecidableEq, Inhabited

def Format.name : Format → String
  | .json => "json"
  | .yaml => "yaml"

def Format.all : List Format := [.json, .yaml]

/-- Choices for a run; each of them may be left open. -/
structure Settings where
  format : Option Format
  logRetention : Option Nat
  servicePath : Option Path
  deriving DecidableEq, Inhabited

/-- Why settings cannot be saved: a directory cannot be made, or the file not be written. -/
inductive Settings.SaveFault where
  | directory (path : Path) (fault : FileFault)
  | file (path : Path) (fault : FileFault)
  deriving DecidableEq

def Settings.SaveFault.causes : Settings.SaveFault → List String
  | directory path fault => ["Failed to create " ++ Text.quoted path.text, fault.message]
  | file path fault => ["Failed to write " ++ Text.quoted path.text, fault.message]

namespace Settings

def unset : Settings := ⟨none, none, none⟩

/-- What is chosen by the first settings, and by the second where the first leave it open. -/
def orSaved (chosen saved : Settings) : Settings where
  format := chosen.format <|> saved.format
  logRetention := chosen.logRetention <|> saved.logRetention
  servicePath := chosen.servicePath <|> saved.servicePath

def effectiveFormat (s : Settings) : Format := s.format.getD .json

/-- The directory in effect: if it is left open, the one that holds the configuration. -/
def effectiveServicePath (s : Settings) (config : Path) : Path :=
  s.servicePath.getD <|
    match config.directory? with
    | none => ⟨"."⟩
    | some ⟨""⟩ => ⟨"."⟩
    | some directory => directory

/-- Settings as a value; what is left open is null. -/
def toJson (s : Settings) : Json :=
  .obj [
    ("format", .ofOption (fun f => .str f.name) s.format),
    ("logRetentionInDays", .ofOption .nat s.logRetention),
    ("servicePath", .ofOption (fun p => .str p.text) s.servicePath)]

/-- How settings are written; what is missing is left open. -/
def record : Decode.Record Settings where
  name := "Settings"
  isStrict := false
  fields :=
    let choice {α : Type} (name : String) (read : Decode.Reader α) : Decode.Fields (Option α) :=
      .defaulting name (.option read) none
    mk <$> choice "format" (.variant (Format.all.map fun f => ([f.name], f)))
      <*> choice "logRetentionInDays" .word
      <*> choice "servicePath" fun s => Path.mk <$> Decode.Reader.string s

/-- The settings in a text, unless it holds none. -/
def read? (text : String) : Option Settings := do
  let j ← Json.excerpt? record.fields.names text
  (Decode.Reader.ofDatum record.reader (.ofJson j)).toOption

/-- The settings saved in a file. Without a file, or with one that cannot be read, everything is
left open. -/
def load (disk : Disk) (path : Path) : Settings :=
  match disk.read path with
  | .ok text => (read? text).getD unset
  | .error _ => unset

/-- Settings saved in a file, the directories above it made if they are missing. -/
def save (s : Settings) (disk : Disk) (path : Path) : Except SaveFault Unit × Disk :=
  let directory := path.directory?.getD ⟨""⟩
  match disk.ensureDirectory directory with
  | (.error fault, disk) => (.error (.directory directory fault), disk)
  | (.ok (), disk) =>
    match disk.write path s.toJson.indented with
    | .error fault => (.error (.file path fault), disk)
    | .ok disk => (.ok (), disk)

end Settings

end ApiStack
