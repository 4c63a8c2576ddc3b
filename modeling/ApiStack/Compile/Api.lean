import ApiStack.Compile.ApiKey
import ApiStack.Compile.DataSource
import ApiStack.Compile.Domain
import ApiStack.Compile.Resolver
import ApiStack.Compile.Schema
import ApiStack.Compile.Waf
import ApiStack.Config.Lifting

namespace ApiStack.Compile

open Config

/-- What an API is compiled to: resources, and the definitions of embedded functions by name. -/
structure Stack where
  resources : Graph
  functions : Functions

def Stack.toJson (s : Stack) : Json :=
  .obj [("resources", s.resources.toJson), ("functions", .obj s.functions.entries)]

/-- The parts of an API in order. -/
def parts (context : Context) (api : Api) : List (Build Graph) :=
  [endpoint api,
    schema context api,
    return domain api,
    return logGroup context api,
    authorizerPermission api,
    return waf api,
    return cache api]
  ++ (if api.hasAuth .apiKey then
      api.apiKeys.values.map fun key => (apiKey context key : Build Graph)
    else [])
  ++ api.dataSources.values.map dataSource
  ++ api.pipelineFunctions.values.map (pipelineFunction context api)
  ++ api.resolvers.values.map (resolver context api)

/-- Parts compiled one by one onto a graph. -/
def assemble (g : Graph) : List (Build Graph) → Build Graph
  | [] => return g
  | part :: rest => do
    let g ← g.merge (← part)
    assemble g rest

def stack (context : Context) (api : Api) : Except Failure Stack :=
  match (assemble .empty (parts context api)).run .empty with
  | (.ok resources, functions) => .ok ⟨resources, functions⟩
  | (.error failure, _) => .error failure

def stackOf (context : Context) (text : String) : Except Failure Stack := do
  stack context (← Api.read text)

end ApiStack.Compile
