import ApiStack.Config.Authored
import ApiStack.Config.DomainName
import ApiStack.Text.Blank
import ApiStack.Time.Rfc3339

namespace ApiStack.Config

/-- An issue, if a condition does not hold. -/
def demand (holds : Bool) (path message : String) : List Issue :=
  if holds then [] else [⟨path, message⟩]

/-- A number has to lie between two bounds. -/
def within (least greatest : Nat) (path : String) (n : Nat) : List Issue :=
  if n < least then [⟨path, "must be >= " ++ toString least⟩]
  else if greatest < n then [⟨path, "must be <= " ++ toString greatest⟩]
  else []

def among (choices : List String) (path value : String) : List Issue :=
  demand (choices.contains value) path ("must be one of " ++ ", ".intercalate choices)

/-- A text has to be of a form, which is shown as a pattern. -/
def formed (pattern : String) (holds : Bool) (path : String) : List Issue :=
  demand holds path ("must match pattern \"" ++ pattern ++ "\"")

def ifGiven (value : Option α) (issues : α → List Issue) : List Issue :=
  match value with
  | some a => issues a
  | none => []

def atEach (issues : Nat → α → List Issue) (items : List α) : List Issue :=
  (items.mapIdx issues).flatten

def below (path key : String) : String := path ++ "/" ++ key

def itemPath (path : String) (index : Nat) : String := below path (toString index)

def domainPattern : String := "^([a-z][a-z0-9+-]*\\.)+[a-z][a-z0-9]*$"

def zonePattern : String := "^([a-z][a-z0-9+-]*\\.)+[a-z][a-z0-9]*\\.$"

def headerPattern : String := "^[a-zA-Z0-9-]+$"

def durationPattern : String := "^(\\d+)(y|q|M|w|d|h|m|s|ms)?$"

def visibilities : List String := ["GLOBAL", "PRIVATE"]

def logLevels : List String := ["ALL", "INFO", "DEBUG", "ERROR", "NONE"]

def cachingBehaviors : List String := ["FULL_REQUEST_CACHING", "PER_RESOLVER_CACHING"]

def userPoolActions : List String := ["ALLOW", "DENY"]

def wafActions : List String := ["Allow", "Block"]

def aggregateKeyTypes : List String := ["IP", "FORWARDED_IP"]

/-- The issues of a provider; only the primary one may say what happens by default. -/
def AuthProvider.issues (isPrimary : Bool) (path : String) : AuthProvider → List Issue
  | .userPool pool => ifGiven pool.defaultAction fun action =>
    let path := path ++ "/config/defaultAction"
    if isPrimary then among userPoolActions path action
    else [⟨path, "is only allowed on the primary authentication"⟩]
  | _ => []

def Domain.issues (path : String) (d : Domain) : List Issue :=
  formed domainPattern (isDomainName d.name) (below path "name")
    ++ ifGiven d.hostedZoneName (fun zone =>
      formed zonePattern (isZoneName zone) (below path "hostedZoneName"))
    ++ demand (d.isManaged = some false || d.certificateArn.isSome || d.hostedZoneId.isSome) path
      "when using CloudFormation, you must provide either certificateArn or hostedZoneId."

def Caching.issues (path : String) (c : Caching) : List Issue :=
  among cachingBehaviors (below path "behavior") c.behavior
    ++ ifGiven c.ttl (within 1 3600 (below path "ttl"))

def Throttle.issues (path : String) (t : Throttle) : List Issue :=
  ifGiven t.limit (fun n => demand (100 ≤ n) (below path "limit") "must be >= 100")
    ++ ifGiven t.aggregateKeyType (among aggregateKeyTypes (below path "aggregateKeyType"))
    ++ ifGiven (t.forwardedIp.bind ForwardedIp.headerName) (fun header =>
      formed headerPattern (isHeaderName header) (below path "forwardedIPConfig/headerName"))

def WafRule.issues (path : String) : WafRule → List Issue
  | .throttle input => input.toThrottle.issues (below path "throttle")
  | _ => []

def Waf.issues (path : String) (w : Waf) : List Issue :=
  ifGiven w.defaultAction (among wafActions (below path "defaultAction"))
    ++ atEach (fun i rule => rule.issues (itemPath (below path "rules") i)) w.rules

/-- The issues of when a key expires: a text has to be a number and perhaps a unit. -/
def expiryIssues (path : String) : Duration → List Issue
  | .text s => formed durationPattern (Duration.isWellFormed s) path
  | .hours _ => []

def ApiKey.issues (path : String) (key : ApiKey) : List Issue :=
  ifGiven key.expiresAfter (expiryIssues (below path "expiresAfter"))
    ++ ifGiven key.expiresAt (fun time =>
      demand (Rfc3339.parse time).isOk (below path "expiresAt") "must be a RFC 3339 date-time")
    ++ atEach (fun i rule => rule.issues (itemPath (below path "wafRules") i)) key.wafRules

/-- The issues of a key as it is written; a bare name has none. -/
def ApiKeyInput.issues (path : String) : ApiKeyInput → List Issue
  | .bare _ => []
  | .settings key => key.issues path

def batchIssues (path : String) (size : Option Nat) : List Issue :=
  ifGiven size (within 1 2000 (below path "maxBatchSize"))

/-- Code excludes templates. -/
def Handler.issues (path : String) (h : Handler) : List Issue :=
  demand (!(h.code.isSome && (h.request.isSome || h.response.isSome))) path
    "code cannot be combined with request or response templates"

def AuthoredFunction.issues (path : String) (f : AuthoredFunction) : List Issue :=
  batchIssues path f.maxBatchSize ++ f.handler.issues path

def FunctionInput.issues (path : String) : FunctionInput → List Issue
  | .dataSource _ => []
  | .settings f => f.issues path

def ResolverCaching.issues (path : String) : ResolverCaching → List Issue
  | .custom ttl _ => ifGiven ttl (within 1 3600 (below path "ttl"))
  | .enabled _ => []

/-- A name may not be empty. -/
def DataSourceUse.issues (path : String) : DataSourceUse → List Issue
  | .named name => demand (name ≠ "") path "must not be empty"
  | .inline _ => []

def FunctionUse.issues (path : String) : FunctionUse → List Issue
  | .named _ => []
  | .inline f => f.issues path

def AuthoredResolver.issues (path : String) (r : AuthoredResolver) : List Issue :=
  batchIssues path r.maxBatchSize
    ++ r.handler.issues path
    ++ ifGiven r.caching (ResolverCaching.issues (below path "caching"))
    ++ ifGiven r.dataSource (DataSourceUse.issues (below path "dataSource"))
    ++ atEach (fun i f => f.issues (itemPath (below path "functions") i)) (r.functions.getD [])

def ResolverInput.issues (path : String) : ResolverInput → List Issue
  | .dataSource _ => []
  | .settings r => r.issues path

def entryIssues (issues : String → α → List Issue) (path : String) (m : OrderedMap α) :
    List Issue :=
  m.entries.flatMap fun (name, a) => issues (below path name) a

namespace Authored

def issues (c : Authored) : List Issue :=
  demand (!Text.isBlankText c.name) "/name" "must not be empty"
    ++ c.authentication.issues true "/authentication"
    ++ atEach (fun i auth => auth.issues false (itemPath "/additionalAuthentications" i))
      c.additionalAuthentications
    ++ ifGiven c.visibility (among visibilities "/visibility")
    ++ ifGiven c.queryDepthLimit (within 1 75 "/queryDepthLimit")
    ++ ifGiven c.resolverCountLimit (within 1 1000 "/resolverCountLimit")
    ++ ifGiven c.domain (Domain.issues "/domain")
    ++ ifGiven c.logging (fun l => among logLevels "/logging/level" l.level)
    ++ ifGiven c.caching (Caching.issues "/caching")
    ++ ifGiven c.waf (Waf.issues "/waf")
    ++ atEach (fun i key => key.issues (itemPath "/apiKeys" i)) c.apiKeys
    ++ entryIssues FunctionInput.issues "/pipelineFunctions" c.pipelineFunctions.merged
    ++ entryIssues ResolverInput.issues "/resolvers" c.resolvers.merged

def check (c : Authored) : Except Failure Unit :=
  if c.issues.isEmpty then .ok () else .error (.invalid c.issues)

end Authored

end ApiStack.Config
