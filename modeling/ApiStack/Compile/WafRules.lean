import ApiStack.Config.Api
import ApiStack.FunctionName
import ApiStack.Resource.Graph
import ApiStack.Resource.Intrinsic

namespace ApiStack.Compile

open Config

def firstPriority : Nat := 100

/-- The priorities of rules; those without one are numbered from some number on. -/
def prioritiesFrom (next : Nat) : List (Option Nat) → List Nat
  | [] => []
  | some p :: rest => p :: prioritiesFrom next rest
  | none :: rest => next :: prioritiesFrom (next + 1) rest

def priorities (declared : List (Option Nat)) : List Nat := prioritiesFrom firstPriority declared

/-- A rule before it has its priority. -/
structure PlainRule where
  name : String
  priority : Option Nat
  action : Option Json
  overrideAction : Option Json
  statement : Option Json
  visibility : Json

def PlainRule.toJson (r : PlainRule) (priority : Nat) : Json :=
  .obj ([("Name", .str r.name), ("Priority", .nat priority)]
    ++ Json.entry "Action" r.action
    ++ Json.entry "OverrideAction" r.overrideAction
    ++ Json.entry "Statement" r.statement
    ++ [("VisibilityConfig", r.visibility)])

def bareAction (name : String) : Json := .obj [(name, .obj [])]

/-- What is shown in metrics, by the settings of a rule, those of its list, or else all; under the
name of the rule unless it says another. -/
def visibility (list : Option Visibility) (own : Option Visibility) (name : String) : Json :=
  let pick (get : Visibility → Option Bool) : Json :=
    .bool ((own.bind get <|> list.bind get).getD true)
  .obj [("CloudWatchMetricsEnabled", pick Visibility.metrics),
    ("MetricName", .str ((own.bind Visibility.name).getD name)),
    ("SampledRequestsEnabled", pick Visibility.samples)]

def throttleStatement (t : Throttle) : Json :=
  let keyType := t.aggregateKeyType.getD "IP"
  let forwarded (get : ForwardedIp → Option String) (otherwise : String) : Json :=
    .str ((t.forwardedIp.bind get).getD otherwise)
  .obj [("RateBasedStatement", .obj (
    [("AggregateKeyType", .str keyType), ("Limit", .nat (t.limit.getD 100))]
      ++ (if keyType = "FORWARDED_IP" then
          [("ForwardedIPConfig", .obj [
            ("HeaderName", forwarded ForwardedIp.headerName "X-Forwarded-For"),
            ("FallbackBehavior", forwarded ForwardedIp.fallbackBehavior "MATCH")])]
        else [])
      ++ Json.entry "ScopeDownStatement" t.scope))]

def throttleRule (list : Option Visibility) (owner : String) (t : Throttle) : PlainRule :=
  let name := t.name.getD (owner ++ "Throttle")
  { name
    priority := t.priority
    action := some (bareAction (t.action.getD "Block"))
    overrideAction := none
    statement := some (throttleStatement t)
    visibility := visibility list t.visibility name }

/-- The greatest body, in bytes, that is searched for words of an introspection. -/
def searchedBytes : Nat := 8192

def transformation (type : String) : Json :=
  .arr [.obj [("Priority", .nat 0), ("Type", .str type)]]

def body : Json := .obj [("Body", .obj [])]

/-- The statement that matches introspections: a body too large to be searched, or one with the word
for the schema in it. -/
def introspectionStatement : Json :=
  .obj [("OrStatement", .obj [("Statements", .arr [
    .obj [("SizeConstraintStatement", .obj [
      ("ComparisonOperator", .str "GT"),
      ("FieldToMatch", body),
      ("Size", .nat searchedBytes),
      ("TextTransformations", transformation "NONE")])],
    .obj [("ByteMatchStatement", .obj [
      ("FieldToMatch", body),
      ("PositionalConstraint", .str "CONTAINS"),
      ("SearchString", .str "__schema"),
      ("TextTransformations", transformation "COMPRESS_WHITE_SPACE")])]])])]

def introspectionRule (list : Option Visibility) (owner : String) (b : IntrospectionBan) :
    PlainRule :=
  let name := b.name.getD (owner ++ "DisableIntrospection")
  { name
    priority := b.priority
    action := some (bareAction "Block")
    overrideAction := none
    statement := some introspectionStatement
    visibility := visibility list b.visibility name }

/-- The rule with a statement of its own in a list. What overrides an action replaces it. -/
def customRule (list : Option Visibility) (r : CustomRule) : PlainRule :=
  { name := r.name
    priority := r.priority
    action := if r.overrideAction.isSome then none else some (bareAction (r.action.getD "Allow"))
    overrideAction := r.overrideAction
    statement := r.statement
    visibility := visibility list r.visibility r.name }

def plainRule (list : Option Visibility) (owner : String) : WafRule → PlainRule
  | .preset .throttle => throttleRule list owner .default
  | .preset .disableIntrospection => introspectionRule list owner .default
  | .throttle input => throttleRule list owner input.toThrottle
  | .disableIntrospection b => introspectionRule list owner b
  | .custom r => customRule list r

def allOf (statements : List Json) : Json :=
  .obj [("AndStatement", .obj [("Statements", .arr statements)])]

def keyHeader : String := "X-Api-Key"

def keyStatement (name : String) : Json :=
  .obj [("ByteMatchStatement", .obj [
    ("FieldToMatch", .obj [("SingleHeader", .obj [("Name", .str keyHeader)])]),
    ("PositionalConstraint", .str "EXACTLY"),
    ("SearchString", Intrinsic.getAtt (LogicalId.apiKey name) "ApiKey"),
    ("TextTransformations", transformation "NONE")])]

/-- Entries without the one under a key; the last entry takes its place. -/
def swapRemove (key : String) (entries : List (String × α)) : List (String × α) :=
  match entries.getLast? with
  | none => []
  | some last =>
    if last.1 = key then entries.dropLast
    else entries.dropLast.map fun entry => if entry.1 = key then last else entry

def narrowScope (narrow : Json) (settings : List (String × Json)) : List (String × Json) :=
  let key := "ScopeDownStatement"
  match settings.lookup key with
  | none => setEntry key narrow settings
  | some scope =>
    setEntry key (if scope.isNull then narrow else allOf [scope, narrow]) (swapRemove key settings)

def rateSettings? (statement : Json) : Option (List (String × Json)) :=
  (statement.get? "RateBasedStatement").bind Json.entries?

/-- A statement that also asks for an API key. A rate is only counted over requests with the key. -/
def scopeToKey (key : Json) (statement : Option Json) : Json :=
  match statement with
  | none => key
  | some statement =>
    match rateSettings? statement, statement with
    | some settings, .obj entries =>
      .obj (setEntry "RateBasedStatement" (.obj (narrowScope key settings)) entries)
    | _, _ => allOf [statement, key]

def keyRules (list : Option Visibility) (key : ApiKey) : List PlainRule :=
  key.wafRules.map fun rule =>
    let plain := plainRule list key.name rule
    { plain with statement := some (scopeToKey (keyStatement key.name) plain.statement) }

def plainRules (api : Api) (waf : Waf) : List PlainRule :=
  waf.rules.map (plainRule waf.visibility "")
    ++ if api.hasAuth .apiKey then api.apiKeys.values.flatMap (keyRules waf.visibility) else []

def wafRules (api : Api) (waf : Waf) : Json :=
  let rules := plainRules api waf
  .arr (rules.zipWith PlainRule.toJson (priorities (rules.map PlainRule.priority)))

end ApiStack.Compile
