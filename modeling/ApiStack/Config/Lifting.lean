import ApiStack.Config.Api
import ApiStack.Config.Issues

namespace ApiStack.Config

/-- The name for what is lifted from the use of an entity: its letters and underscores. -/
def liftedName (name : String) : String :=
  String.ofList (name.toList.filter fun c => c.isAlpha || c = '_')

/-- The name for the pipeline function that is lifted from a place in a list. -/
def liftedItemName (base : String) (index : Nat) : String := base ++ "_" ++ toString index

/-- The entities with names so far. -/
structure Entities where
  dataSources : OrderedMap DataSource
  pipelineFunctions : OrderedMap PipelineFunction
  resolvers : OrderedMap Resolver

namespace Entities

def none : Entities := ⟨.empty, .empty, .empty⟩

def addDataSource (es : Entities) (name : String) (source : AuthoredDataSource) :
    Except Failure Entities := do
  return { es with dataSources := es.dataSources.insert name (← DataSource.ofAuthored name source) }

/-- A data source lifted to a name that must not be taken. -/
def liftDataSource (es : Entities) (name : String) (source : AuthoredDataSource) :
    Except Failure Entities :=
  if es.dataSources.contains name then .error (.misconfigured (.inlineDataSource name))
  else es.addDataSource name source

/-- The name of a data source that is used; one that stands there is lifted to the given name. -/
def useDataSource (es : Entities) (name : String) :
    DataSourceUse → Except Failure (String × Entities)
  | .named used => .ok (used, es)
  | .inline source => (es.liftDataSource name source).map fun es => (name, es)

def addFunction (es : Entities) (name : String) (f : AuthoredFunction) :
    Except Failure Entities := do
  let (dataSource, es) ← es.useDataSource name f.dataSource
  let function : PipelineFunction :=
    ⟨name, dataSource, f.description, f.handler, f.maxBatchSize, f.sync, f.substitutions⟩
  return { es with pipelineFunctions := es.pipelineFunctions.insert name function }

def liftFunction (es : Entities) (name : String) (f : AuthoredFunction) :
    Except Failure Entities :=
  if es.pipelineFunctions.contains name then .error (.misconfigured (.inlineFunction name))
  else es.addFunction name f

/-- The names of pipeline functions that are used from an index on; those that stand there are
lifted. -/
def useFunctions (es : Entities) (base : String) (index : Nat) :
    List FunctionUse → Except Failure (List String × Entities)
  | [] => .ok ([], es)
  | .named name :: rest => do
    let (names, es) ← es.useFunctions base (index + 1) rest
    return (name :: names, es)
  | .inline f :: rest => do
    let name := liftedItemName base index
    let es ← es.liftFunction name f
    let (names, es) ← es.useFunctions base (index + 1) rest
    return (name :: names, es)

/-- The parts of a key in front of and behind its first point. -/
def splitKey? (key : String) : Option (String × String) :=
  match key.toList.dropWhile (· ≠ '.') with
  | '.' :: field => some (String.ofList (key.toList.takeWhile (· ≠ '.')), String.ofList field)
  | _ => .none

/-- The type and field that a resolver is for. What it says of itself counts before its key, and
neither may be empty. -/
def fieldOf? (key : String) (r : AuthoredResolver) : Option (String × String) := do
  let type ← r.type <|> (splitKey? key).map Prod.fst
  let field ← r.field <|> (splitKey? key).map Prod.snd
  if type = "" || field = "" then .none else some (type, field)

/-- The kind of a resolver: if it does not say so, it is a pipeline if it lists functions. -/
def kindOf (r : AuthoredResolver) : ResolverKindName :=
  r.kind.getD (if r.functions.isSome then .pipeline else .unit)

def useBackend (es : Entities) (path base : String) (r : AuthoredResolver) :
    Except Failure (ResolverKind × Entities) :=
  match kindOf r with
  | .unit =>
    match r.dataSource with
    | .none => .error (.misconfigured (.unitWithoutDataSource path))
    | some used => (es.useDataSource base used).map fun (name, es) => (.unit name, es)
  | .pipeline =>
    match r.functions with
    | .none => .error (.misconfigured (.pipelineWithoutFunctions path))
    | some used => (es.useFunctions base 0 used).map fun (names, es) => (.pipeline names, es)

def addResolver (es : Entities) (key : String) (r : AuthoredResolver) : Except Failure Entities :=
  match fieldOf? key r with
  | .none => .error (.misconfigured (.resolverKey key))
  | some (type, field) => do
    let (kind, es) ← es.useBackend (fieldPath type field) (liftedName (type ++ field)) r
    let resolver : Resolver :=
      ⟨type, field, kind, r.handler, r.maxBatchSize, r.sync, r.substitutions, r.caching⟩
    return { es with resolvers := es.resolvers.insert resolver.path resolver }

def addAll (add : Entities → String → α → Except Failure Entities) (es : Entities)
    (m : OrderedMap α) : Except Failure Entities :=
  m.entries.foldlM (fun es (name, a) => add es name a) es

end Entities

namespace Authored

def defaultSchema : String := "schema.graphql"

/-- The entities of a configuration: declared data sources, pipeline functions and resolvers, each
with what is lifted from it. -/
def entities (c : Authored) : Except Failure Entities := do
  let es ← Entities.addAll Entities.addDataSource .none c.dataSources.merged
  let es ← Entities.addAll (fun es name f => es.addFunction name f.toFunction) es
    c.pipelineFunctions.merged
  Entities.addAll (fun es key r => es.addResolver key r.toResolver) es c.resolvers.merged

def namedKeys (keys : List ApiKeyInput) : OrderedMap ApiKey :=
  .ofList (keys.map fun key => (key.toApiKey.name, key.toApiKey))

def normalize (c : Authored) : Except Failure Api := do
  let es ← c.entities
  return {
    name := c.name
    authentication := c.authentication
    additionalAuthentications := c.additionalAuthentications
    schema := c.schema.getD [defaultSchema]
    domain := c.domain
    xrayEnabled := c.xrayEnabled.getD false
    visibility := c.visibility
    introspection := c.introspection
    queryDepthLimit := c.queryDepthLimit
    resolverCountLimit := c.resolverCountLimit
    substitutions := c.substitutions
    environment := c.environment
    waf := c.waf
    tags := c.tags
    caching := c.caching
    apiKeys := namedKeys c.apiKeys
    logging := c.logging
    dataSources := es.dataSources
    resolvers := es.resolvers
    pipelineFunctions := es.pipelineFunctions
  }

end Authored

/-- The API that a text describes, without a check of its structure. -/
def Api.readUnchecked (text : String) : Except Failure Api := do
  (← Authored.read text).normalize

def Api.ofChars (cs : List Char) : Except Failure Api := do
  let config ← Authored.ofChars cs
  config.check
  config.normalize

def Api.read (text : String) : Except Failure Api := ofChars text.toList

end ApiStack.Config
