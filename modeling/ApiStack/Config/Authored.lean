import ApiStack.Config.Auth
import ApiStack.Config.DataSource
import ApiStack.Config.Waf
import ApiStack.Time.Duration
import ApiStack.Yaml.Grammar

namespace ApiStack.Config

open Decode Reader

/-- A map in one part or in several. -/
inductive Parts (α : Type) where
  | whole (m : OrderedMap α)
  | split (ms : List (OrderedMap α))

namespace Parts

/-- The parts as one map; of several values of a key the last one counts. -/
def merged : Parts α → OrderedMap α
  | whole m => m
  | split ms => ms.foldl (fun merged m => merged.insertAll m.entries) .empty

def reader (read : Reader α) : Reader (Parts α) :=
  firstOf "MapOrMaps" [fun s => (map read s).map whole, fun s => (list (map read) s).map split]

end Parts

def oneOrMany (read : Reader α) : Reader (List α) :=
  firstOf "OneOrMany" [fun s => (read s).map fun a => [a], list read]

structure Domain where
  name : String
  enabled : Option Bool
  certificateArn : Option Json
  hostedZoneId : Option Json
  hostedZoneName : Option String
  hasRecord : Option Bool
  isManaged : Option Bool
  isRetained : Option Bool

structure Logging where
  enabled : Option Bool
  level : String
  excludesVerbose : Option Bool
  retentionInDays : Option Nat
  roleArn : Option Json

structure Caching where
  enabled : Option Bool
  behavior : String
  restEncryption : Option Bool
  transitEncryption : Option Bool
  ttl : Option Nat
  instanceType : Option String

/-- How conflicts between versions are found and resolved. -/
structure Sync where
  detection : Option String
  handler : Option String
  function : FunctionSource

/-- Whether and how the answers of a resolver are kept. -/
inductive ResolverCaching where
  | enabled (b : Bool)
  | custom (ttl : Option Nat) (keys : Option (List String))

structure ApiKey where
  name : String
  description : Option String
  expiresAfter : Option Duration
  expiresAt : Option String
  id : Option String
  wafRules : List WafRule

def ApiKey.named (name : String) : ApiKey := ⟨name, none, none, none, none, []⟩

/-- A key as it is written: its name only, or its settings. -/
inductive ApiKeyInput where
  | bare (name : String)
  | settings (key : ApiKey)

def ApiKeyInput.toApiKey : ApiKeyInput → ApiKey
  | bare name => .named name
  | settings key => key

/-- A data source where it is used: by its name, or in full. -/
inductive DataSourceUse where
  | named (name : String)
  | inline (source : AuthoredDataSource)

/-- How requests to a backend and its answers are formed: by code, or by two templates. -/
structure Handler where
  code : Option String
  request : Option String
  response : Option String
  deriving DecidableEq

/-- A pipeline function in full. -/
structure AuthoredFunction where
  dataSource : DataSourceUse
  description : Option String
  handler : Handler
  maxBatchSize : Option Nat
  sync : Option Sync
  substitutions : OrderedMap Json

/-- A pipeline function as it is written: the name of its data source only, or in full. -/
inductive FunctionInput where
  | dataSource (name : String)
  | settings (f : AuthoredFunction)

def AuthoredFunction.plain (name : String) : AuthoredFunction :=
  ⟨.named name, none, ⟨none, none, none⟩, none, none, .empty⟩

def FunctionInput.toFunction : FunctionInput → AuthoredFunction
  | dataSource name => .plain name
  | settings f => f

/-- A pipeline function where it is used: by its name, or in full. -/
inductive FunctionUse where
  | named (name : String)
  | inline (f : AuthoredFunction)

inductive ResolverKindName where
  | unit
  | pipeline
  deriving DecidableEq

/-- A resolver in full. -/
structure AuthoredResolver where
  kind : Option ResolverKindName
  type : Option String
  field : Option String
  dataSource : Option DataSourceUse
  functions : Option (List FunctionUse)
  handler : Handler
  maxBatchSize : Option Nat
  sync : Option Sync
  substitutions : OrderedMap Json
  caching : Option ResolverCaching

/-- A resolver as it is written: the name of its data source only, or in full. -/
inductive ResolverInput where
  | dataSource (name : String)
  | settings (r : AuthoredResolver)

def AuthoredResolver.plain (name : String) : AuthoredResolver :=
  ⟨some .unit, none, none, some (.named name), none, ⟨none, none, none⟩, none, none, .empty, none⟩

def ResolverInput.toResolver : ResolverInput → AuthoredResolver
  | dataSource name => .plain name
  | settings r => r

/-- A configuration as it is written. -/
structure Authored where
  name : String
  authentication : AuthProvider
  additionalAuthentications : List AuthProvider
  schema : Option (List String)
  domain : Option Domain
  xrayEnabled : Option Bool
  visibility : Option String
  introspection : Option Bool
  queryDepthLimit : Option Nat
  resolverCountLimit : Option Nat
  substitutions : OrderedMap Json
  environment : OrderedMap Json
  waf : Option Waf
  tags : OrderedMap String
  caching : Option Caching
  apiKeys : List ApiKeyInput
  logging : Option Logging
  dataSources : Parts AuthoredDataSource
  resolvers : Parts ResolverInput
  pipelineFunctions : Parts FunctionInput

def Domain.record : Record Domain where
  name := "DomainConfig"
  isStrict := false
  fields := mk <$> .required "name" string
    <*> .optional "enabled" bool
    <*> .optional "certificateArn" json
    <*> .optional "hostedZoneId" json
    <*> .optional "hostedZoneName" string
    <*> .optional "route53" bool
    <*> .optional "useCloudFormation" bool
    <*> .optional "retain" bool

def Logging.record : Record Logging where
  name := "LoggingConfig"
  isStrict := false
  fields := mk <$> .optional "enabled" bool
    <*> .required "level" string
    <*> .optional "excludeVerboseContent" bool
    <*> .optional "retentionInDays" word
    <*> .optional "roleArn" json

def Caching.record : Record Caching where
  name := "CachingConfig"
  isStrict := false
  fields := mk <$> .optional "enabled" bool
    <*> .required "behavior" string
    <*> .optional "atRestEncryption" bool
    <*> .optional "transitEncryption" bool
    <*> .optional "ttl" word
    <*> .optional "type" string

/-- How the resolution of conflicts is written; its function is spread over it. -/
def Sync.record : Record Sync where
  name := "SyncConfig"
  isStrict := false
  fields := mk <$> .optional "conflictDetection" string
    <*> .optional "conflictHandler" string
    <*> FunctionSource.record.spread

def ResolverCaching.record : Record ResolverCaching where
  name := "variant ResolverCaching::Custom"
  isStrict := false
  fields := custom <$> .optional "ttl" word <*> .optional "keys" (list string)
  isPositional := false

def ResolverCaching.reader : Reader ResolverCaching :=
  firstOf "ResolverCaching" [fun s => (bool s).map enabled, ResolverCaching.record.reader]

def durationReader : Reader Duration :=
  firstOf "DurationInput" [fun s => (longWord s).map .hours, fun s => (string s).map .text]

def ApiKey.record : Record ApiKey where
  name := "ApiKeyConfig"
  isStrict := false
  fields := mk <$> .required "name" string
    <*> .optional "description" string
    <*> .optional "expiresAfter" durationReader
    <*> .optional "expiresAt" string
    <*> .optional "apiKeyId" string
    <*> .defaulting "wafRules" (list WafRule.reader) []

def ApiKeyInput.reader : Reader ApiKeyInput :=
  firstOf "ApiKeyInput"
    [fun s => (string s).map bare, fun s => (ApiKey.record.reader s).map settings]

def DataSourceUse.reader : Reader DataSourceUse :=
  firstOf "DataSourceRef"
    [fun s => (string s).map named, fun s => (AuthoredDataSource.record.reader s).map inline]

def Handler.fields : Fields Handler :=
  mk <$> .optional "code" string <*> .optional "request" string <*> .optional "response" string

def AuthoredFunction.record : Record AuthoredFunction where
  name := "PipelineFunctionConfigInput"
  isStrict := false
  fields := mk <$> .required "dataSource" DataSourceUse.reader
    <*> .optional "description" string
    <*> Handler.fields
    <*> .optional "maxBatchSize" word
    <*> .optional "sync" Sync.record.reader
    <*> .defaulting "substitutions" (map json) .empty

def FunctionInput.reader : Reader FunctionInput :=
  firstOf "PipelineFunctionInput"
    [fun s => (string s).map dataSource, fun s => (AuthoredFunction.record.reader s).map settings]

def FunctionUse.reader : Reader FunctionUse :=
  firstOf "FunctionRef"
    [fun s => (string s).map named, fun s => (AuthoredFunction.record.reader s).map inline]

def ResolverKindName.variants : Variants ResolverKindName :=
  [(["UNIT"], unit), (["PIPELINE"], pipeline)]

def AuthoredResolver.record : Record AuthoredResolver where
  name := "ResolverConfigInput"
  isStrict := false
  fields := mk <$> .optional "kind" (variant ResolverKindName.variants)
    <*> .optional "type" string
    <*> .optional "field" string
    <*> .optional "dataSource" DataSourceUse.reader
    <*> .optional "functions" (list FunctionUse.reader)
    <*> Handler.fields
    <*> .optional "maxBatchSize" word
    <*> .optional "sync" Sync.record.reader
    <*> .defaulting "substitutions" (map json) .empty
    <*> .optional "caching" ResolverCaching.reader

def ResolverInput.reader : Reader ResolverInput :=
  firstOf "ResolverInput"
    [fun s => (string s).map dataSource, fun s => (AuthoredResolver.record.reader s).map settings]

namespace Authored

def record : Record Authored where
  name := "RawApiConfig"
  isStrict := true
  fields := mk <$> .required "name" string
    <*> .required "authentication" AuthProvider.reader
    <*> .defaulting "additionalAuthentications" (list AuthProvider.reader) []
    <*> .optional "schema" (oneOrMany string)
    <*> .optional "domain" Domain.record.reader
    <*> .optional "xrayEnabled" bool
    <*> .optional "visibility" string
    <*> .optional "introspection" bool
    <*> .optional "queryDepthLimit" word
    <*> .optional "resolverCountLimit" word
    <*> .defaulting "substitutions" (map json) .empty
    <*> .defaulting "environment" (map json) .empty
    <*> .optional "waf" Waf.record.reader
    <*> .defaulting "tags" (map string) .empty
    <*> .optional "caching" Caching.record.reader
    <*> .defaulting "apiKeys" (list ApiKeyInput.reader) []
    <*> .optional "logging" Logging.record.reader
    <*> .defaulting "dataSources" (Parts.reader AuthoredDataSource.record.reader) (.whole .empty)
    <*> .defaulting "resolvers" (Parts.reader ResolverInput.reader) (.whole .empty)
    <*> .defaulting "pipelineFunctions" (Parts.reader FunctionInput.reader) (.whole .empty)

def ofChars (cs : List Char) : Except Failure Authored :=
  match Yaml.read? cs with
  | none => .error .malformed
  | some document =>
    match (record.reader (.node .root document.node)).run' document.steps with
    | .error f => .error (.invalid [f.toIssue])
    | .ok config =>
      if document.isFollowed then .error (.invalid [(Fault.mk .moreDocuments .unknown).toIssue])
      else .ok config

def read (text : String) : Except Failure Authored := ofChars text.toList

end Authored

end ApiStack.Config
