import ApiStack.Proofs.Compile.CheckedText

namespace ApiStack

/-- Files where every path holds the same text. -/
def FileSystem.uniform (text : String) : FileSystem where
  contains _ := true
  read _ := .ok text
  glob pattern := .ok [⟨pattern⟩]

namespace Compile

open Config

/-- A compilation at the beginning of time where every path holds the same text. -/
def Context.uniform (text : String) : Context := ⟨.uniform text, ⟨""⟩, none, ⟨0, 0⟩⟩

theorem schemaSources_uniform {api : Api} {pattern : String} (h : api.schema = [pattern])
    (text : String) : schemaSources (.uniform text) api = .ok [text] := by
  unfold schemaSources schemaFiles
  rw [h]
  rfl

theorem schemaText_singleton {text : String} (hv : Sdl.validate (checkedText [text]) = []) :
    schemaText [text] = .ok text := by
  unfold schemaText
  rw [hv]
  rfl

theorem schema_of_text {context : Context} {api : Api} {texts : List String} {text : String}
    (hs : schemaSources context api = .ok texts) (ht : schemaText texts = .ok text) :
    schema context api = .ok (.singleton LogicalId.schema
      (.make "AWS::AppSync::GraphQLSchema"
        (.obj [("Definition", .str text), ("ApiId", apiId)]))) :=
  bind_eq_ok_iff.2 ⟨texts, hs, bind_eq_ok_iff.2 ⟨text, ht, rfl⟩⟩

def querySchema : String := "type Query { a: Int }"

theorem parse_querySchema : Sdl.parse querySchema = .ok [.type ⟨false, none, "Query", [],
    .object [] [⟨none, "a", [], .named "Int" false, []⟩]⟩] := by
  cbv

theorem validate_querySchema : Sdl.validate (checkedText [querySchema]) = [] := by
  refine validate_checkedText (mapM_eq_ok_iff.2 (.cons parse_querySchema .nil))
    (.cons ?_ areClosed_nil) ?_
  · decide +kernel
  · decide +kernel

def queryGraph : Graph :=
  .singleton LogicalId.schema (.make "AWS::AppSync::GraphQLSchema"
    (.obj [("Definition", .str querySchema), ("ApiId", apiId)]))

theorem schema_query {api : Api} {pattern : String} (h : api.schema = [pattern]) :
    schema (.uniform querySchema) api = .ok queryGraph :=
  schema_of_text (schemaSources_uniform h querySchema) (schemaText_singleton validate_querySchema)

/-- An API with a key, some entities, and no settings. -/
def apiWith (dataSources : List DataSource) (functions : List PipelineFunction)
    (resolvers : List Resolver) : Api where
  name := "api"
  authentication := .apiKey
  additionalAuthentications := []
  schema := ["schema.graphql"]
  domain := none
  xrayEnabled := false
  visibility := none
  introspection := none
  queryDepthLimit := none
  resolverCountLimit := none
  substitutions := .empty
  environment := .empty
  waf := none
  tags := .empty
  caching := none
  apiKeys := .empty
  logging := none
  dataSources := .ofList (dataSources.map fun d => (d.name, d))
  resolvers := .ofList (resolvers.map fun r => (r.path, r))
  pipelineFunctions := .ofList (functions.map fun f => (f.name, f))

end Compile

end ApiStack
