import ApiStack.Config.Api
import ApiStack.FunctionName
import ApiStack.Resource.Graph
import ApiStack.Resource.Intrinsic

namespace ApiStack.Compile

open Config

/-- What a compilation is given besides the configuration: the files, the directory that paths are
relative to, how long logs are kept unless the configuration says so, and the time. -/
structure Context where
  files : FileSystem
  servicePath : Path
  logRetention : Option Nat
  now : Instant

/-- A path as seen from the directory of the service. -/
def Context.resolve (context : Context) (path : String) : Path :=
  context.servicePath.under ⟨path⟩

/-- The definitions of embedded functions by name. -/
abbrev Functions := OrderedMap Json

/-- A part of a compilation: it may embed functions, and those it has embedded stay if it fails. -/
abbrev Build := ExceptT Failure (StateM Functions)

/-- Embeds a definition under a name, unless another one has that name. -/
def embed (name : String) (definition : Json) : Build Unit := do
  match (← get).get? name with
  | some known =>
    if !known.same definition then throw (.misconfigured (.functionTwice name))
  | none => modify fun functions => functions.insert name definition

def namedFunction (name : String) (aliasName : Option String) : Json :=
  Intrinsic.functionArn (LogicalId.function name) aliasName

/-- The global name of the function of some source; a definition is embedded under the given
name. -/
def functionArn (source : FunctionSource) (name : String) : Build Json := do
  match ← source.target with
  | .arn value => return value
  | .named name aliasName => return namedFunction name aliasName
  | .embedded definition =>
    embed name definition
    return namedFunction name none

def apiId : Json := Intrinsic.getAtt LogicalId.api "ApiId"

end ApiStack.Compile
