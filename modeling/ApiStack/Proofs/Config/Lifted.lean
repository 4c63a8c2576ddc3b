import ApiStack.Config.Lifting
import ApiStack.Proofs.OrderedMap

namespace ApiStack.Config

/-- The name that a data source is used by, if one that stands there gets the given name. -/
def DataSourceUse.nameOr (name : String) : DataSourceUse → String
  | .named used => used
  | .inline _ => name

def DataSourceUse.lifted (name : String) : DataSourceUse → List (String × AuthoredDataSource)
  | .named _ => []
  | .inline source => [(name, source)]

def DataSourceUse.withName (name : String) (used : DataSourceUse) : DataSourceUse :=
  .named (used.nameOr name)

namespace AuthoredFunction

def named (f : AuthoredFunction) (name : String) : PipelineFunction :=
  ⟨name, f.dataSource.nameOr name, f.description, f.handler, f.maxBatchSize, f.sync,
    f.substitutions⟩

/-- The pipeline function with its data source used by name. -/
def withName (name : String) (f : AuthoredFunction) : AuthoredFunction :=
  { f with dataSource := f.dataSource.withName name }

end AuthoredFunction

def FunctionInput.withName (name : String) : FunctionInput → FunctionInput
  | .dataSource used => .dataSource used
  | .settings f => .settings (f.withName name)

namespace FunctionUse

def names (base : String) (index : Nat) : List FunctionUse → List String
  | [] => []
  | .named name :: rest => name :: names base (index + 1) rest
  | .inline _ :: rest => liftedItemName base index :: names base (index + 1) rest

def lifted (base : String) (index : Nat) : List FunctionUse → List (String × AuthoredFunction)
  | [] => []
  | .named _ :: rest => lifted base (index + 1) rest
  | .inline f :: rest => (liftedItemName base index, f) :: lifted base (index + 1) rest

end FunctionUse

def liftedFrom (functions : List (String × AuthoredFunction)) :
    List (String × AuthoredDataSource) :=
  functions.flatMap fun (name, f) => f.dataSource.lifted name

namespace AuthoredResolver

/-- The name that what is lifted from a resolver is named after. -/
def base (key : String) (r : AuthoredResolver) : String :=
  match Entities.fieldOf? key r with
  | none => ""
  | some (type, field) => liftedName (type ++ field)

def liftedFunctions (key : String) (r : AuthoredResolver) : List (String × AuthoredFunction) :=
  match Entities.kindOf r with
  | .unit => []
  | .pipeline => FunctionUse.lifted (r.base key) 0 (r.functions.getD [])

def liftedDataSources (key : String) (r : AuthoredResolver) : List (String × AuthoredDataSource) :=
  match Entities.kindOf r with
  | .unit => r.dataSource.toList.flatMap (DataSourceUse.lifted (r.base key))
  | .pipeline => liftedFrom (r.liftedFunctions key)

/-- The resolver where the names stand for what is lifted from it. -/
def withNames (key : String) (r : AuthoredResolver) : AuthoredResolver :=
  match Entities.kindOf r with
  | .unit => { r with dataSource := r.dataSource.map (DataSourceUse.withName (r.base key)) }
  | .pipeline =>
    { r with functions := r.functions.map fun used =>
        (FunctionUse.names (r.base key) 0 used).map .named }

/-- What a resolver uses by name, if it says so. -/
def kind? (key : String) (r : AuthoredResolver) : Option ResolverKind :=
  match Entities.kindOf r with
  | .unit => r.dataSource.map fun used => .unit (used.nameOr (r.base key))
  | .pipeline => r.functions.map fun used => .pipeline (FunctionUse.names (r.base key) 0 used)

/-- The resolver in full, if its field is known and what it uses. -/
def toResolver? (key : String) (r : AuthoredResolver) : Option Resolver := do
  let (type, field) ← Entities.fieldOf? key r
  let kind ← r.kind? key
  return ⟨type, field, kind, r.handler, r.maxBatchSize, r.sync, r.substitutions, r.caching⟩

end AuthoredResolver

def ResolverInput.withNames (key : String) : ResolverInput → ResolverInput
  | .dataSource used => .dataSource used
  | .settings r => .settings (r.withNames key)

namespace Authored

def declaredFunctions (c : Authored) : List (String × AuthoredFunction) :=
  c.pipelineFunctions.merged.entries.map fun entry => (entry.1, entry.2.toFunction)

def declaredResolvers (c : Authored) : List (String × AuthoredResolver) :=
  c.resolvers.merged.entries.map fun entry => (entry.1, entry.2.toResolver)

/-- The pipeline functions that are lifted, in order. -/
def liftedFunctions (c : Authored) : List (String × AuthoredFunction) :=
  c.declaredResolvers.flatMap fun (key, r) => r.liftedFunctions key

/-- The data sources that are lifted, in order: those of declared pipeline functions, and then those
of resolvers and of the functions that are lifted from them. -/
def liftedDataSources (c : Authored) : List (String × AuthoredDataSource) :=
  liftedFrom c.declaredFunctions
    ++ c.declaredResolvers.flatMap fun (key, r) => r.liftedDataSources key

/-- All data sources, the lifted ones behind the declared ones. -/
def allDataSources (c : Authored) : List (String × AuthoredDataSource) :=
  c.dataSources.merged.entries ++ c.liftedDataSources

/-- All pipeline functions, the lifted ones behind the declared ones. -/
def allFunctions (c : Authored) : List (String × AuthoredFunction) :=
  c.declaredFunctions ++ c.liftedFunctions

/-- The configuration where names stand for what is lifted, which is declared behind the rest. -/
def withNames (c : Authored) : Authored :=
  { c with
    dataSources := .whole (c.dataSources.merged.insertAll c.liftedDataSources)
    pipelineFunctions := .whole
      ((c.pipelineFunctions.merged.mapValues FunctionInput.withName).insertAll
        (c.liftedFunctions.map fun (name, f) => (name, .settings (f.withName name))))
    resolvers := .whole (c.resolvers.merged.mapValues ResolverInput.withNames) }

end Authored

end ApiStack.Config
