import ApiStack.Compile.Functions
import ApiStack.Config.DomainName
import ApiStack.Resource.Policy
import ApiStack.Text.DecimalDigit
import ApiStack.Text.WordChar

namespace ApiStack.Compile

open Config

/-- The region in the labels of the endpoint of a search domain: two word characters, small letters
and a digit, with dashes between them. -/
def isRegion (label : List Char) : Bool :=
  match label with
  | a :: b :: '-' :: rest =>
    Text.isWordChar a && Text.isWordChar b && !(rest.takeWhile isSmallLetter).isEmpty
      && (match rest.dropWhile isSmallLetter with
        | ['-', digit] => Text.isDecimalDigit digit
        | _ => false)
  | _ => false

def isHostLabel (label : List Char) : Bool :=
  !label.isEmpty && label.all fun c => isSmallLetter c || c.isDigit || c = '-'

def endpointStart : String := "https://"

def searchHostEnd : List (List Char) :=
  ["es", "amazonaws", "com"].map String.toList

/-- The host and the region of the endpoint of a search domain. -/
def searchHost? (endpoint : String) : Option (String × String) :=
  let start := endpointStart.toList
  let host := endpoint.toList.drop start.length
  if endpoint.toList.take start.length = start then
    match labels host with
    | name :: region :: rest =>
      if isHostLabel name && isRegion region && rest = searchHostEnd then
        some (String.ofList host, String.ofList region)
      else none
    | _ => none
  else none

/-- The settings of a table. Changes are kept for a versioned table only. -/
def tableSettings (t : DynamoDb) : Json :=
  .obj ([("AwsRegion", Intrinsic.regionOr t.region), ("TableName", t.tableName),
    ("UseCallerCredentials", .bool t.usesCallerCredentials)]
    ++ match t.isVersioned, t.deltaSync with
      | true, some delta => [("Versioned", .bool true), ("DeltaSyncConfig", .obj [
        ("BaseTableTTL", .nat (delta.baseTableTtl.getD 43200)),
        ("DeltaSyncTableName", .str delta.tableName),
        ("DeltaSyncTableTTL", .nat (delta.tableTtl.getD 1440))])]
      | _, _ => [])

/-- The endpoint of a search domain, which is given either itself or by the domain. -/
def searchEndpoint (s : OpenSearch) : Except Failure Json :=
  match s.endpoint, s.domain with
  | some endpoint, none => .ok endpoint
  | none, some domain =>
    .ok (Intrinsic.join "" [.str endpointStart, Intrinsic.getAtt domain "DomainEndpoint"])
  | _, _ => .error (.misconfigured .endpointOrDomain)

def searchSettings (s : OpenSearch) : Except Failure Json := do
  return .obj [("AwsRegion", Intrinsic.regionOr s.region), ("Endpoint", ← searchEndpoint s)]

def clusterArn (d : RelationalDatabase) : Json :=
  Intrinsic.arn "rds" (Intrinsic.regionOr d.region) [.str "cluster", d.cluster]

def databaseSettings (d : RelationalDatabase) : Json :=
  .obj [
    ("RdsHttpEndpointConfig", .obj [
      ("AwsRegion", Intrinsic.regionOr d.region),
      ("DbClusterIdentifier", clusterArn d),
      ("DatabaseName", d.database.getD .null),
      ("Schema", d.schema.getD .null),
      ("AwsSecretStoreArn", d.secretStore)]),
    ("RelationalDatabaseSourceType", .str (d.sourceType.getD "RDS_HTTP_ENDPOINT"))]

def authorizationSettings (a : HttpAuthorization) : Json :=
  .obj [
    ("AuthorizationType", .str a.type),
    ("AwsIamConfig", .obj [
      ("SigningRegion", Intrinsic.regionOr a.signing.region),
      ("SigningServiceName", a.signing.service.getD .null)])]

def httpSettings (h : Http) : Json :=
  .obj (("Endpoint", h.endpoint)
    :: Json.entry "AuthorizationConfig" (h.authorization.map authorizationSettings))

def backendEntry (name : String) : Backend → Build (List (String × Json))
  | .lambda b => do
    let arn ← functionArn b.function (FunctionName.dataSource name)
    return [("LambdaConfig", .obj [("LambdaFunctionArn", arn)])]
  | .dynamoDb b => return [("DynamoDBConfig", tableSettings b)]
  | .openSearch b => return [("OpenSearchServiceConfig", ← searchSettings b)]
  | .relationalDatabase b => return [("RelationalDatabaseConfig", databaseSettings b)]
  | .http b => return [("HttpConfig", httpSettings b)]
  | .eventBridge b => return [("EventBridgeConfig", .obj [("EventBusArn", b.eventBus)])]
  | .noBackend _ => return []

/-- Something and all below it. -/
def withAllBelow (arn : Json) : List Json := [arn, Intrinsic.join ":" [arn, .str "*"]]

def searchArn (name : String) (s : OpenSearch) : Except Failure Json :=
  match s.endpoint, s.domain with
  | some (.str endpoint), _ =>
    match searchHost? endpoint with
    | none => .error (.misconfigured (.openSearchEndpoint endpoint))
    | some (host, region) =>
      .ok (Intrinsic.arn "es" (.str region) [.str ("domain/" ++ host ++ "/*")])
  | _, some domain => .ok (Intrinsic.join "/" [Intrinsic.getAtt domain "Arn", .str "*"])
  | _, none => .error (.misconfigured (.openSearchArn name))

def tableStatements (granted : DefaultActions) (t : DynamoDb) : List Json :=
  let tables := Intrinsic.arn "dynamodb" (Intrinsic.regionOr t.region) [.str "table"]
  [Policy.grant granted.actions [Intrinsic.join "/" [tables, t.tableName],
    Intrinsic.join "/" [tables, t.tableName, .str "*"]]]

def databaseStatements (granted : DefaultActions) (d : RelationalDatabase) : List Json :=
  [Policy.allow granted.actions (withAllBelow (clusterArn d)),
    Policy.allow granted.secretActions (withAllBelow d.secretStore)]

def neededStatements (name : String) (granted : DefaultActions) : Backend → Build (List Json)
  | .lambda b => do
    let arn ← functionArn b.function (FunctionName.dataSource name)
    return [Policy.grant granted.actions (withAllBelow arn)]
  | .dynamoDb b => return tableStatements granted b
  | .relationalDatabase b => return databaseStatements granted b
  | .openSearch b => return [Policy.grant granted.actions [← searchArn name b]]
  | .eventBridge b => return [Policy.grant granted.actions [b.eventBus]]
  | .http _ => return []
  | .noBackend _ => return []

/-- The statements that a data source needs, if its kind is granted any actions. -/
def defaultStatements (d : DataSource) : Build (List Json) := do
  match Policy.defaultActions? d.backend.type.name with
  | none => return []
  | some granted => neededStatements d.name granted d.backend

def isSigned : Backend → Bool
  | .http b => b.authorization.any fun a => a.type = "AWS_IAM"
  | _ => false

/-- The statements of the role that is made for a data source. Signed requests need statements that
are given. -/
def statements (d : DataSource) : Build (List Json) := do
  match d.backend.role.statements with
  | some given => return given
  | none =>
    if isSigned d.backend then throw (.misconfigured (.signatureWithoutStatements d.name))
    else defaultStatements d

def roleWith (name : String) (statements : List Json) : Resource :=
  .make "AWS::IAM::Role" (.obj [
    ("AssumeRolePolicyDocument", Policy.assumeRole),
    ("Policies", .arr [.obj [
      ("PolicyName", .str ("AppSync-Datasource-" ++ name)),
      ("PolicyDocument", Policy.document statements)]])])

/-- The role of a data source: what refers to it, if there is one, and the resource, if one is
made. -/
def role (d : DataSource) : Build (Option Json × Option Resource) := do
  match d.backend.role.arn with
  | some arn => return (some arn, none)
  | none =>
    let statements ← statements d
    if statements.isEmpty then return (none, none)
    else return (some (Intrinsic.getAtt (LogicalId.dataSourceRole d.name) "Arn"),
      some (roleWith d.name statements))

def dataSource (d : DataSource) : Build Graph := do
  let backend ← backendEntry d.name d.backend
  let (arn, role) ← role d
  let resource := Resource.make "AWS::AppSync::DataSource" (.obj (
    [("ApiId", apiId), ("Name", .str d.name), ("Description", .ofOption .str d.description),
      ("Type", .str d.backend.type.name)]
    ++ backend
    ++ Json.entry "ServiceRoleArn" arn))
  return ⟨(LogicalId.dataSource d.name, resource)
    :: (role.map fun r => (LogicalId.dataSourceRole d.name, r)).toList⟩

end ApiStack.Compile
