import ApiStack.Compile.Functions
import ApiStack.Sdl.Merge
import ApiStack.Sdl.Printer
import ApiStack.Sdl.ServiceDeclarations
import ApiStack.Sdl.Validation

namespace ApiStack.Compile

open Config

/-- The files that match a pattern, of which there has to be one. -/
def matchingFiles (context : Context) (pattern : String) : Except Failure (List Path) := do
  let path := context.resolve pattern
  match context.files.glob path.text with
  | .error fault => throw (.misconfigured (.schemaPattern path.text fault))
  | .ok [] => throw (.missingFile .schema path)
  | .ok files => return files

def addFiles (files : List Path) : List Path → List Path
  | [] => files
  | path :: rest =>
    addFiles (if files.any path.same then files else files ++ [path]) rest

/-- The files of a schema, each once, in the order of the patterns. -/
def schemaFiles (context : Context) (api : Api) : Except Failure (List Path) :=
  api.schema.foldlM
    (fun files pattern => return addFiles files (← matchingFiles context pattern)) []

def schemaSources (context : Context) (api : Api) : Except Failure (List String) := do
  (← schemaFiles context api).mapM fun path =>
    (context.files.read path).mapError fun fault => .unreadable path fault

/-- The text that is checked: what the service declares, and then each source on lines of its
own. -/
def checkedText (sources : List String) : String :=
  Sdl.serviceDeclarations ++ String.join (sources.map fun source => "\n" ++ source)

/-- The text of a schema in whose sources some faults were found. -/
def textBehind : List Sdl.Fault → List String → Except Failure String
  | [], [source] => .ok source
  | [], sources => ((Sdl.merge sources).mapError Failure.schema).map Sdl.render
  | faults, _ => .error (.schema faults)

def schemaText (sources : List String) : Except Failure String :=
  textBehind (Sdl.validate (checkedText sources)) sources

def schema (context : Context) (api : Api) : Except Failure Graph := do
  let text ← schemaText (← schemaSources context api)
  return .singleton LogicalId.schema (.make "AWS::AppSync::GraphQLSchema"
    (.obj [("Definition", .str text), ("ApiId", apiId)]))

end ApiStack.Compile
