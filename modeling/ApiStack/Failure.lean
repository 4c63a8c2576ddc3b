import ApiStack.Files.Basic
import ApiStack.Sdl.Fault
import ApiStack.Time.Rfc3339

namespace ApiStack

/-- Something wrong at a place of a configuration. -/
structure Issue where
  path : String
  message : String
  deriving DecidableEq, Inhabited

def Issue.render (issue : Issue) : String := issue.path ++ ": " ++ issue.message

/-- An entity lacks something it needs, or combines what excludes each other. -/
inductive Misconfiguration where
  | noFunction
  | schemaPattern (pattern : String) (fault : Glob.PatternFault)
  | inlineDataSource (name : String)
  | inlineFunction (name : String)
  | resolverKey (key : String)
  | unitWithoutDataSource (path : String)
  | pipelineWithoutFunctions (path : String)
  | expiryTime (key time : String) (fault : Rfc3339.TimeFault)
  | signatureWithoutStatements (dataSource : String)
  | endpointOrDomain
  | openSearchEndpoint (endpoint : String)
  | openSearchArn (dataSource : String)
  | functionTwice (name : String)
  | codeAndTemplates (owner : String)
  deriving DecidableEq

def Misconfiguration.message : Misconfiguration → String
  | .noFunction =>
    "You must specify either `functionArn`, `functionName` or `function` for lambda definitions."
  | .schemaPattern pattern fault =>
    "Invalid schema pattern '" ++ pattern ++ "': " ++ fault.message
  | .inlineDataSource name =>
    "Inline DataSource '" ++ name ++ "' conflicts with a declared DataSource of the same name"
  | .inlineFunction name =>
    "Inline Pipeline function '" ++ name
      ++ "' conflicts with a declared Pipeline function of the same name"
  | .resolverKey key =>
    "Resolver '" ++ key ++ "' must be keyed as 'Type.field' or specify both `type` and `field`"
  | .unitWithoutDataSource path =>
    "Resolver '" ++ path ++ "' of kind UNIT must specify a dataSource"
  | .pipelineWithoutFunctions path =>
    "Resolver '" ++ path ++ "' of kind PIPELINE must specify functions"
  | .expiryTime key time fault =>
    "Api Key " ++ key ++ ": invalid expiresAt '" ++ time ++ "': " ++ fault.message
  | .signatureWithoutStatements dataSource =>
    dataSource
      ++ ": When using AWS_IAM signature, you must also specify the required iamRoleStatements"
  | .endpointOrDomain => "Specify either endpoint or domain"
  | .openSearchEndpoint endpoint => "Invalid AWS OpenSearch endpoint: '" ++ endpoint ++ "'"
  | .openSearchArn dataSource =>
    "Could not determine the Arn for dataSource '" ++ dataSource ++ "'"
  | .functionTwice name =>
    "Embedded function '" ++ name ++ "' is defined more than once with different definitions"
  | .codeAndTemplates owner =>
    owner ++ " cannot declare both code and request/response templates"

/-- A kind of file that a configuration refers to. -/
inductive FileKind where
  | schema
  | code
  | mappingTemplate
  deriving DecidableEq

def FileKind.words : FileKind → String
  | .schema => "Schema"
  | .code => "Code"
  | .mappingTemplate => "Mapping template"

/-- Why a configuration cannot be compiled. -/
inductive Failure where
  | malformed
  | invalid (issues : List Issue)
  | unknownDataSource (owner name : String)
  | unknownPipelineFunction (owner name : String)
  | misconfigured (cause : Misconfiguration)
  | schema (faults : List Sdl.Fault)
  | keyExpiry (name : String)
  | duration (text : String)
  | missingFile (kind : FileKind) (path : Path)
  | unreadable (path : Path) (fault : FileFault)
  | idCollision (id : String)
  deriving DecidableEq

def Failure.message : Failure → String
  | .malformed => "the configuration is not well-formed YAML"
  | .invalid issues => "\n".intercalate (issues.map Issue.render)
  | .unknownDataSource owner name => owner ++ " references unknown DataSource '" ++ name ++ "'"
  | .unknownPipelineFunction owner name =>
    owner ++ " references unknown Pipeline function '" ++ name ++ "'"
  | .misconfigured cause => cause.message
  | .schema faults => "\n".intercalate (faults.map Sdl.Fault.message)
  | .keyExpiry name =>
    "Api Key " ++ name ++ " must be valid for a minimum of 1 day and a maximum of 365 days."
  | .duration text => "Invalid duration '" ++ text ++ "'"
  | .missingFile kind path => kind.words ++ " file '" ++ path.text ++ "' does not exist"
  | .unreadable path fault => "Failed to read '" ++ path.text ++ "': " ++ fault.message
  | .idCollision id =>
    "Logical id '" ++ id
      ++ "' is generated more than once."
      ++ " Check for names that only differ by non-alphanumeric characters."

def Failure.causes : Failure → List String
  | .unreadable path fault => [(Failure.unreadable path fault).message, fault.message]
  | failure => [failure.message]

end ApiStack
