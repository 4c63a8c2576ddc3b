import ApiStack.Decode.Record
import ApiStack.Decode.Variant

namespace ApiStack.Config

open Decode Reader

/-- What of a rule or list is shown in metrics. -/
structure Visibility where
  name : Option String
  metrics : Option Bool
  samples : Option Bool

/-- Which header holds the address of a forwarded request. -/
structure ForwardedIp where
  headerName : Option String
  fallbackBehavior : Option String

/-- A limit on the rate of requests. -/
structure Throttle where
  name : Option String
  action : Option String
  aggregateKeyType : Option String
  limit : Option Nat
  priority : Option Nat
  scope : Option Json
  forwardedIp : Option ForwardedIp
  visibility : Option Visibility

def Throttle.default : Throttle := ⟨none, none, none, none, none, none, none, none⟩

inductive ThrottleInput where
  | limit (n : Nat)
  | settings (t : Throttle)

def ThrottleInput.toThrottle : ThrottleInput → Throttle
  | limit n => { Throttle.default with limit := some n }
  | settings t => t

/-- A ban on requests for the schema. -/
structure IntrospectionBan where
  name : Option String
  priority : Option Nat
  visibility : Option Visibility

def IntrospectionBan.default : IntrospectionBan := ⟨none, none, none⟩

/-- A rule with a statement of its own. -/
structure CustomRule where
  name : String
  priority : Option Nat
  action : Option String
  overrideAction : Option Json
  statement : Option Json
  visibility : Option Visibility

/-- A rule that needs no settings. -/
inductive Preset where
  | throttle
  | disableIntrospection
  deriving DecidableEq

/-- A rule of a web access control list. -/
inductive WafRule where
  | preset (p : Preset)
  | throttle (t : ThrottleInput)
  | disableIntrospection (b : IntrospectionBan)
  | custom (r : CustomRule)

/-- A web access control list. -/
structure Waf where
  enabled : Option Bool
  arn : Option Json
  name : Option String
  description : Option String
  defaultAction : Option String
  visibility : Option Visibility
  rules : List WafRule

def Visibility.record : Record Visibility where
  name := "VisibilityConfig"
  isStrict := false
  fields := mk <$> .optional "name" string
    <*> .optional "cloudWatchMetricsEnabled" bool
    <*> .optional "sampledRequestsEnabled" bool

def ForwardedIp.record : Record ForwardedIp where
  name := "ForwardedIpConfig"
  isStrict := false
  fields := mk <$> .optional "headerName" string
    <*> .optional "fallbackBehavior" string

def Throttle.record : Record Throttle where
  name := "ThrottleConfig"
  isStrict := true
  fields := mk <$> .optional "name" string
    <*> .optional "action" string
    <*> .optional "aggregateKeyType" string
    <*> .optional "limit" longWord
    <*> .optional "priority" word
    <*> .optional "scopeDownStatement" json
    <*> .optional "forwardedIPConfig" ForwardedIp.record.reader
    <*> .optional "visibilityConfig" Visibility.record.reader

def ThrottleInput.reader : Reader ThrottleInput :=
  firstOf "ThrottleInput"
    [fun s => (longWord s).map limit, fun s => (Throttle.record.reader s).map settings]

def ThrottleInput.ruleRecord : Record ThrottleInput where
  name := "ThrottleRule"
  isStrict := true
  fields := .required "throttle" ThrottleInput.reader

def IntrospectionBan.record : Record IntrospectionBan where
  name := "DisableIntrospectionConfig"
  isStrict := true
  fields := mk <$> .optional "name" string
    <*> .optional "priority" word
    <*> .optional "visibilityConfig" Visibility.record.reader

def IntrospectionBan.ruleRecord : Record IntrospectionBan where
  name := "DisableIntrospectionRule"
  isStrict := true
  fields := .required "disableIntrospection" IntrospectionBan.record.reader

def CustomRule.record : Record CustomRule where
  name := "CustomWafRule"
  isStrict := false
  fields := mk <$> .required "name" string
    <*> .optional "priority" word
    <*> .optional "action" string
    <*> .optional "overrideAction" json
    <*> .optional "statement" json
    <*> .optional "visibilityConfig" Visibility.record.reader

def Preset.variants : Variants Preset :=
  [(["throttle"], .throttle), (["disableIntrospection"], .disableIntrospection)]

def WafRule.reader : Reader WafRule :=
  firstOf "WafRuleInput"
    [fun s => (variant Preset.variants s).map preset,
      fun s => (ThrottleInput.ruleRecord.reader s).map throttle,
      fun s => (IntrospectionBan.ruleRecord.reader s).map disableIntrospection,
      fun s => (CustomRule.record.reader s).map custom]

def Waf.record : Record Waf where
  name := "WafConfig"
  isStrict := false
  fields := mk <$> .optional "enabled" bool
    <*> .optional "arn" json
    <*> .optional "name" string
    <*> .optional "description" string
    <*> .optional "defaultAction" string
    <*> .optional "visibilityConfig" Visibility.record.reader
    <*> .defaulting "rules" (list WafRule.reader) []

end ApiStack.Config
