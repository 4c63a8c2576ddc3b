import ApiStack.Compile.Endpoint
import ApiStack.Compile.PipelineFunction

namespace ApiStack.Compile

open Config

/-- The entry for how answers are kept. What a resolver does not say is taken from the API. -/
def cachingEntry (api : Api) (caching : Option ResolverCaching) : List (String × Json) :=
  match caching with
  | none => []
  | some (.enabled false) => []
  | some (.enabled true) =>
    [("CachingConfig", .obj [("Ttl", .nat (api.cachingTtl.getD defaultTtl))])]
  | some (.custom ttl keys) =>
    [("CachingConfig", .obj [("CachingKeys", .ofOption .strs keys),
      ("Ttl", .nat ((ttl <|> api.cachingTtl).getD defaultTtl))])]

def functionId (api : Api) (owner name : String) : Except Failure Json :=
  if api.pipelineFunctions.contains name then
    .ok (Intrinsic.getAtt (LogicalId.pipelineFunction name) "FunctionId")
  else .error (.unknownPipelineFunction owner name)

def kindEntries (api : Api) (owner : String) : ResolverKind → Except Failure (List (String × Json))
  | .unit name =>
    if api.dataSources.contains name then
      .ok [("Kind", .str "UNIT"), ("DataSourceName", dataSourceName name)]
    else .error (.unknownDataSource owner name)
  | .pipeline names => do
    let ids ← names.mapM (functionId api owner)
    return [("Kind", .str "PIPELINE"), ("PipelineConfig", .obj [("Functions", .arr ids)])]

/-- The code of a resolver without any: a pipeline hands on its result. -/
def defaultCode : ResolverKind → Option String
  | .unit _ => none
  | .pipeline _ => some passingCode

def resolver (context : Context) (api : Api) (r : Resolver) : Build Graph := do
  let owner := "Resolver '" ++ r.path ++ "'"
  let handler ← handlerSettings context api owner r.handler r.substitutions (defaultCode r.kind)
  let sync ← syncEntry r.sync (FunctionName.resolverSync r.type r.field)
  let kind ← kindEntries api owner r.kind
  let resource := Resource.make "AWS::AppSync::Resolver" (.obj (
    [("ApiId", apiId), ("TypeName", .str r.type), ("FieldName", .str r.field)]
    ++ handler
    ++ cachingEntry api r.caching
    ++ sync
    ++ kind
    ++ [("MaxBatchSize", .ofOption .nat r.maxBatchSize)]))
  return .singleton (LogicalId.resolver r.type r.field) (resource.after LogicalId.schema)

end ApiStack.Compile
