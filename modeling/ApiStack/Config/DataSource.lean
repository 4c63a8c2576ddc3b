import ApiStack.Config.Function
import ApiStack.Decode.Variant

namespace ApiStack.Config

open Decode Reader

inductive DataSourceType where
  | dynamoDb
  | lambda
  | http
  | openSearch
  | relationalDatabase
  | eventBridge
  | noBackend
  deriving DecidableEq

namespace DataSourceType

def name : DataSourceType → String
  | dynamoDb => "AMAZON_DYNAMODB"
  | lambda => "AWS_LAMBDA"
  | http => "HTTP"
  | openSearch => "AMAZON_OPENSEARCH_SERVICE"
  | relationalDatabase => "RELATIONAL_DATABASE"
  | eventBridge => "AMAZON_EVENTBRIDGE"
  | noBackend => "NONE"

/-- The kinds with their names, some of which may be shortened. -/
def variants : Variants DataSourceType := [
  ([dynamoDb.name, "DYNAMODB"], dynamoDb),
  ([lambda.name, "LAMBDA"], lambda),
  ([http.name], http),
  ([openSearch.name, "OPENSEARCH"], openSearch),
  ([relationalDatabase.name], relationalDatabase),
  ([eventBridge.name, "EVENTBRIDGE"], eventBridge),
  ([noBackend.name], noBackend)]

end DataSourceType

/-- The role of a data source: one that exists, or the statements of one to be made. -/
structure RoleSettings where
  arn : Option Json
  statements : Option (List Json)

def RoleSettings.none : RoleSettings := ⟨.none, .none⟩

/-- A table of changes beside a versioned table. -/
structure DeltaSync where
  baseTableTtl : Option Nat
  tableName : String
  tableTtl : Option Nat

structure DynamoDb where
  tableName : Json
  usesCallerCredentials : Bool
  region : Option Json
  isVersioned : Bool
  deltaSync : Option DeltaSync
  role : RoleSettings

structure LambdaBackend where
  function : FunctionSource
  role : RoleSettings

structure Signing where
  region : Option Json
  service : Option Json

/-- How an endpoint authorizes requests. -/
structure HttpAuthorization where
  type : String
  signing : Signing

structure Http where
  endpoint : Json
  authorization : Option HttpAuthorization
  role : RoleSettings

/-- A search domain, by its endpoint or by the logical id of a domain. -/
structure OpenSearch where
  endpoint : Option Json
  domain : Option String
  region : Option Json
  role : RoleSettings

structure RelationalDatabase where
  cluster : Json
  database : Option Json
  schema : Option Json
  secretStore : Json
  sourceType : Option String
  region : Option Json
  role : RoleSettings

structure EventBridge where
  eventBus : Json
  role : RoleSettings

/-- What is behind a data source. A source without a backend may still have role settings. -/
inductive Backend where
  | dynamoDb (b : DynamoDb)
  | lambda (b : LambdaBackend)
  | http (b : Http)
  | openSearch (b : OpenSearch)
  | relationalDatabase (b : RelationalDatabase)
  | eventBridge (b : EventBridge)
  | noBackend (role : RoleSettings)

namespace Backend

def type : Backend → DataSourceType
  | dynamoDb _ => .dynamoDb
  | lambda _ => .lambda
  | http _ => .http
  | openSearch _ => .openSearch
  | relationalDatabase _ => .relationalDatabase
  | eventBridge _ => .eventBridge
  | noBackend _ => .noBackend

def role : Backend → RoleSettings
  | dynamoDb b => b.role
  | lambda b => b.role
  | http b => b.role
  | openSearch b => b.role
  | relationalDatabase b => b.role
  | eventBridge b => b.role
  | noBackend role => role

end Backend

structure AuthoredDataSource where
  type : DataSourceType
  description : Option String
  settings : Option Json

structure DataSource where
  name : String
  description : Option String
  backend : Backend

def RoleSettings.record : Record RoleSettings where
  name := "RoleConfig"
  isStrict := false
  fields := mk <$> .optional "serviceRoleArn" json
    <*> .optional "iamRoleStatements" (list json)

def DeltaSync.record : Record DeltaSync where
  name := "DeltaSyncConfig"
  isStrict := false
  fields := mk <$> .optional "baseTableTTL" longWord
    <*> .required "deltaSyncTableName" string
    <*> .optional "deltaSyncTableTTL" longWord

def DynamoDb.record : Record DynamoDb where
  name := "DynamoDbConfig"
  isStrict := false
  fields := mk <$> .required "tableName" json
    <*> .defaulting "useCallerCredentials" bool false
    <*> .optional "region" json
    <*> .defaulting "versioned" bool false
    <*> .optional "deltaSyncConfig" DeltaSync.record.reader
    <*> RoleSettings.record.spread

def LambdaBackend.record : Record LambdaBackend where
  name := "LambdaDataSourceConfig"
  isStrict := false
  fields := mk <$> FunctionSource.record.spread <*> RoleSettings.record.spread

def Signing.record : Record Signing where
  name := "AwsIamConfig"
  isStrict := false
  fields := mk <$> .optional "signingRegion" json <*> .optional "signingServiceName" json

def HttpAuthorization.record : Record HttpAuthorization where
  name := "HttpAuthorizationConfig"
  isStrict := false
  fields := mk <$> .required "authorizationType" string
    <*> .defaulting "awsIamConfig" Signing.record.reader ⟨none, none⟩

def Http.record : Record Http where
  name := "HttpConfig"
  isStrict := false
  fields := mk <$> .required "endpoint" json
    <*> .optional "authorizationConfig" HttpAuthorization.record.reader
    <*> RoleSettings.record.spread

def OpenSearch.record : Record OpenSearch where
  name := "OpenSearchConfig"
  isStrict := false
  fields := mk <$> .optional "endpoint" json
    <*> .optional "domain" string
    <*> .optional "region" json
    <*> RoleSettings.record.spread

def RelationalDatabase.record : Record RelationalDatabase where
  name := "RelationalDatabaseConfig"
  isStrict := false
  fields := mk <$> .required "dbClusterIdentifier" json
    <*> .optional "databaseName" json
    <*> .optional "schema" json
    <*> .required "awsSecretStoreArn" json
    <*> .optional "relationalDatabaseSourceType" string
    <*> .optional "region" json
    <*> RoleSettings.record.spread

def EventBridge.record : Record EventBridge where
  name := "EventBridgeConfig"
  isStrict := false
  fields := mk <$> .required "eventBusArn" json <*> RoleSettings.record.spread

def AuthoredDataSource.record : Record AuthoredDataSource where
  name := "RawDataSource"
  isStrict := false
  fields := mk <$> .required "type" (variant DataSourceType.variants)
    <*> .optional "description" string
    <*> .optional "config" json

namespace DataSource

def settings (path : String) (read : Reader α) (value : Json) : Except Failure α :=
  (ofDatum read (.ofJson value)).mapError fun f => .invalid [⟨path, f.message .json⟩]

def required (path : String) (read : Reader α) (value : Option Json) : Except Failure α :=
  match value with
  | some value => settings path read value
  | none => .error (.invalid [⟨path, "is required"⟩])

def backendOf (path : String) (type : DataSourceType) (value : Option Json) :
    Except Failure Backend :=
  match type with
  | .dynamoDb => (required path DynamoDb.record.reader value).map .dynamoDb
  | .lambda => (required path LambdaBackend.record.reader value).map .lambda
  | .http => (required path Http.record.reader value).map .http
  | .openSearch => (required path OpenSearch.record.reader value).map .openSearch
  | .relationalDatabase =>
    (required path RelationalDatabase.record.reader value).map .relationalDatabase
  | .eventBridge => (required path EventBridge.record.reader value).map .eventBridge
  | .noBackend =>
    match value with
    | some value => (settings path RoleSettings.record.reader value).map .noBackend
    | none => .ok (.noBackend .none)

/-- A data source as it is written, with its name and the settings of its kind. -/
def ofAuthored (name : String) (source : AuthoredDataSource) : Except Failure DataSource := do
  let path := "/dataSources/" ++ name ++ "/config"
  return ⟨name, source.description, ← backendOf path source.type source.settings⟩

end DataSource

end ApiStack.Config
