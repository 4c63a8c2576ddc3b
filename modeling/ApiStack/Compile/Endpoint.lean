import ApiStack.Compile.Functions
import ApiStack.Resource.Policy

namespace ApiStack.Compile

open Config

/-- Tags as keys and values; null if there are none. -/
def tags (tags : OrderedMap String) : Json :=
  if tags.isEmpty then .null
  else .arr (tags.entries.map fun (key, value) => .obj [("Key", .str key), ("Value", .str value)])

/-- The settings of a pool of users. What happens by default is said for the primary provider
only. -/
def userPool (isPrimary : Bool) (pool : UserPool) : Json :=
  .obj ([
    ("AwsRegion", pool.region.getD (.obj [("Fn::Sub", .str "$\x7bAWS::Region\x7d")])),
    ("UserPoolId", pool.userPoolId),
    ("AppIdClientRegex", pool.clientPattern.getD .null)]
    ++ if isPrimary then [("DefaultAction", .str (pool.defaultAction.getD "ALLOW"))] else [])

def tokenIssuer (issuer : TokenIssuer) : Json :=
  .obj [("Issuer", .str issuer.issuer), ("ClientId", .ofOption .str issuer.clientId),
    ("IatTTL", .ofOption .nat issuer.issuedTtl), ("AuthTTL", .ofOption .nat issuer.authTtl)]

def providerSettings (api : Api) (isPrimary : Bool) :
    AuthProvider → Build (List (String × Json))
  | .apiKey => return []
  | .iam => return []
  | .userPool pool => return [("UserPoolConfig", userPool isPrimary pool)]
  | .tokenIssuer issuer => return [("OpenIDConnectConfig", tokenIssuer issuer)]
  | .authorizer authorizer => do
    let arn ← functionArn authorizer.function (FunctionName.authorizer api.name)
    return [("LambdaAuthorizerConfig", .obj [
      ("AuthorizerUri", arn),
      ("IdentityValidationExpression", .ofOption .str authorizer.identityPattern),
      ("AuthorizerResultTtlInSeconds", .ofOption .nat authorizer.resultTtl)])]

def provider (api : Api) (isPrimary : Bool) (p : AuthProvider) : Build (List (String × Json)) :=
  return ("AuthenticationType", .str p.type.name) :: (← providerSettings api isPrimary p)

/-- Something is on unless it says that it is not. -/
def isOn (enabled : Option Bool) : Bool := enabled ≠ some false

def activeLogging (api : Api) : Option Logging := api.logging.filter fun l => isOn l.enabled

def logSettings (l : Logging) : Json :=
  .obj [("CloudWatchLogsRoleArn", l.roleArn.getD (Intrinsic.getAtt LogicalId.logGroupRole "Arn")),
    ("FieldLogLevel", .str l.level), ("ExcludeVerboseContent", .ofOption .bool l.excludesVerbose)]

def endpoint (api : Api) : Build Graph := do
  let primary ← provider api true api.authentication
  let additional ← api.additionalAuthentications.mapM (provider api false)
  return .singleton LogicalId.api (.make "AWS::AppSync::GraphQLApi" (.obj (
    [("Name", .str api.name), ("XrayEnabled", .bool api.xrayEnabled), ("Tags", tags api.tags)]
    ++ (if api.environment.isEmpty then []
      else [("EnvironmentVariables", .obj api.environment.entries)])
    ++ primary
    ++ (if additional.isEmpty then []
      else [("AdditionalAuthenticationProviders", .arr (additional.map .obj))])
    ++ Json.entry "LogConfig" ((activeLogging api).map logSettings)
    ++ Json.entry "Visibility" (api.visibility.map .str)
    ++ Json.entry "IntrospectionConfig"
      (api.introspection.map fun b => .str (if b then "ENABLED" else "DISABLED"))
    ++ Json.entry "QueryDepthLimit" (api.queryDepthLimit.map .nat)
    ++ Json.entry "ResolverCountLimit" (api.resolverCountLimit.map .nat))))

def logGroupName : Json := Intrinsic.join "/" [.str "/aws/appsync/apis", apiId]

def logPolicy : Resource :=
  .make "AWS::IAM::Policy" (.obj [
    ("PolicyName", .str LogicalId.logGroupPolicy),
    ("Roles", .arr [Intrinsic.ref LogicalId.logGroupRole]),
    ("PolicyDocument", Policy.document [Policy.allow
      ["logs:CreateLogGroup", "logs:CreateLogStream", "logs:PutLogEvents"]
      [Intrinsic.getAtt LogicalId.logGroup "Arn"]])])

def logRole : Resource :=
  .make "AWS::IAM::Role" (.obj [("AssumeRolePolicyDocument", Policy.assumeRole)])

/-- The log group, and the role that writes to it unless one is given. -/
def logGroup (context : Context) (api : Api) : Graph :=
  match activeLogging api with
  | none => .empty
  | some l =>
    let retention := l.retentionInDays <|> context.logRetention
    let group := Resource.make "AWS::Logs::LogGroup"
      (.obj [("LogGroupName", logGroupName), ("RetentionInDays", .ofOption .nat retention)])
    ⟨(LogicalId.logGroup, group)
      :: if l.roleArn.isSome then []
        else [(LogicalId.logGroupPolicy, logPolicy), (LogicalId.logGroupRole, logRole)]⟩

/-- The first authorizer among providers. -/
def authorizer? (providers : List AuthProvider) : Option Authorizer :=
  providers.findSome? fun p =>
    match p with
    | .authorizer a => some a
    | _ => none

/-- The permission to call the authorizer; one of the additional providers comes before the primary
one. -/
def authorizerPermission (api : Api) : Build Graph := do
  match authorizer? (api.additionalAuthentications ++ [api.authentication]) with
  | none => return .empty
  | some a =>
    let arn ← functionArn a.function (FunctionName.authorizer api.name)
    return .singleton LogicalId.authorizerPermission (.make "AWS::Lambda::Permission" (.obj [
      ("Action", .str "lambda:InvokeFunction"),
      ("FunctionName", arn),
      ("Principal", .str Policy.service),
      ("SourceArn", Intrinsic.ref LogicalId.api)]))

/-- How long answers are kept, in seconds, if nothing else is said. -/
def defaultTtl : Nat := 3600

def cache (api : Api) : Graph :=
  match api.caching.filter fun c => isOn c.enabled with
  | none => .empty
  | some c => .singleton LogicalId.caching (.make "AWS::AppSync::ApiCache" (.obj [
    ("ApiCachingBehavior", .str c.behavior),
    ("ApiId", apiId),
    ("AtRestEncryptionEnabled", .bool (c.restEncryption.getD false)),
    ("TransitEncryptionEnabled", .bool (c.transitEncryption.getD false)),
    ("Ttl", .nat (c.ttl.getD defaultTtl)),
    ("Type", .str (c.instanceType.getD "T2_SMALL"))]))

end ApiStack.Compile
