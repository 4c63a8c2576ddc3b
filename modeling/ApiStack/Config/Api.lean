import ApiStack.Config.Authored

namespace ApiStack.Config

structure PipelineFunction where
  name : String
  dataSource : String
  description : Option String
  handler : Handler
  maxBatchSize : Option Nat
  sync : Option Sync
  substitutions : OrderedMap Json

/-- What a resolver uses: one data source, or pipeline functions in order. -/
inductive ResolverKind where
  | unit (dataSource : String)
  | pipeline (functions : List String)
  deriving DecidableEq

structure Resolver where
  type : String
  field : String
  kind : ResolverKind
  handler : Handler
  maxBatchSize : Option Nat
  sync : Option Sync
  substitutions : OrderedMap Json
  caching : Option ResolverCaching

def fieldPath (type field : String) : String := type ++ "." ++ field

def Resolver.path (r : Resolver) : String := fieldPath r.type r.field

/-- An API. Resolvers are kept under the paths of their fields. -/
structure Api where
  name : String
  authentication : AuthProvider
  additionalAuthentications : List AuthProvider
  schema : List String
  domain : Option Domain
  xrayEnabled : Bool
  visibility : Option String
  introspection : Option Bool
  queryDepthLimit : Option Nat
  resolverCountLimit : Option Nat
  substitutions : OrderedMap Json
  environment : OrderedMap Json
  waf : Option Waf
  tags : OrderedMap String
  caching : Option Caching
  apiKeys : OrderedMap ApiKey
  logging : Option Logging
  dataSources : OrderedMap DataSource
  resolvers : OrderedMap Resolver
  pipelineFunctions : OrderedMap PipelineFunction

namespace Api

/-- The providers, the primary one first. -/
def providers (api : Api) : List AuthProvider :=
  api.authentication :: api.additionalAuthentications

def hasAuth (api : Api) (type : AuthType) : Bool := api.providers.any fun p => p.type = type

def cachingTtl (api : Api) : Option Nat := api.caching.bind Caching.ttl

end Api

end ApiStack.Config
