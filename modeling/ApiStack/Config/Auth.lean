import ApiStack.Config.Function
import ApiStack.Decode.Variant

namespace ApiStack.Config

open Decode Reader

structure UserPool where
  userPoolId : Json
  region : Option Json
  defaultAction : Option String
  clientPattern : Option Json

structure TokenIssuer where
  issuer : String
  clientId : Option String
  issuedTtl : Option Nat
  authTtl : Option Nat

/-- A function that decides about requests. -/
structure Authorizer where
  function : FunctionSource
  identityPattern : Option String
  resultTtl : Option Nat

/-- A way to authenticate requests. -/
inductive AuthProvider where
  | apiKey
  | iam
  | userPool (pool : UserPool)
  | tokenIssuer (issuer : TokenIssuer)
  | authorizer (authorizer : Authorizer)

inductive AuthType where
  | apiKey
  | iam
  | userPool
  | tokenIssuer
  | authorizer
  deriving DecidableEq

def AuthType.name : AuthType → String
  | .apiKey => "API_KEY"
  | .iam => "AWS_IAM"
  | .userPool => "AMAZON_COGNITO_USER_POOLS"
  | .tokenIssuer => "OPENID_CONNECT"
  | .authorizer => "AWS_LAMBDA"

def AuthType.variants : Variants AuthType :=
  [apiKey, iam, userPool, tokenIssuer, authorizer].map fun t => ([t.name], t)

def UserPool.record : Record UserPool where
  name := "CognitoAuthConfig"
  isStrict := false
  fields := mk <$> .required "userPoolId" json
    <*> .optional "awsRegion" json
    <*> .optional "defaultAction" string
    <*> .optional "appIdClientRegex" json

def TokenIssuer.record : Record TokenIssuer where
  name := "OidcAuthConfig"
  isStrict := false
  fields := mk <$> .required "issuer" string
    <*> .optional "clientId" string
    <*> .optional "iatTTL" longWord
    <*> .optional "authTTL" longWord

/-- How an authorizer is written; its function is spread over it. -/
def Authorizer.record : Record Authorizer where
  name := "LambdaAuthConfig"
  isStrict := false
  fields := mk <$> FunctionSource.record.spread
    <*> .optional "identityValidationExpression" string
    <*> .optional "authorizerResultTtlInSeconds" longWord

namespace AuthProvider

def type : AuthProvider → AuthType
  | apiKey => .apiKey
  | iam => .iam
  | userPool _ => .userPool
  | tokenIssuer _ => .tokenIssuer
  | authorizer _ => .authorizer

/-- A provider without settings; the other kinds need them. -/
def bare : AuthType → Reading AuthProvider
  | .apiKey => return apiKey
  | .iam => return iam
  | _ => fail (.missingField "config")

def withSettings : AuthType → Reader AuthProvider
  | .apiKey, s => (unit "unit variant AuthProvider::ApiKey" s).map fun _ => apiKey
  | .iam, s => (unit "unit variant AuthProvider::AwsIam" s).map fun _ => iam
  | .userPool, s => (UserPool.record.reader s).map userPool
  | .tokenIssuer, s => (TokenIssuer.record.reader s).map tokenIssuer
  | .authorizer, s => (Authorizer.record.reader s).map authorizer

def reader : Reader AuthProvider :=
  union "AuthProvider" "type" "config" (variant AuthType.variants) bare withSettings

end AuthProvider

end ApiStack.Config
