import ApiStack.Config.Api

namespace ApiStack.Config

/-- Something that a configuration supplies. -/
inductive Supply where
  | value (j : Json)
  | function (name : String)
  | domain (id : String)

def Supply.optional (j : Option Json) : List Supply := j.toList.map value

def Supply.map (m : OrderedMap Json) : List Supply := [value (.obj m.entries)]

def FunctionSource.supplies (f : FunctionSource) : List Supply :=
  Supply.optional f.arn ++ f.name.toList.map .function

def RoleSettings.supplies (r : RoleSettings) : List Supply :=
  Supply.optional r.arn ++ (r.statements.getD []).map .value

def HttpAuthorization.supplies (a : HttpAuthorization) : List Supply :=
  Supply.optional a.signing.region ++ Supply.optional a.signing.service

/-- The supplies of a backend besides its role settings. -/
def Backend.ownSupplies : Backend → List Supply
  | .dynamoDb b => .value b.tableName :: Supply.optional b.region
  | .lambda b => b.function.supplies
  | .http b => .value b.endpoint :: b.authorization.toList.flatMap HttpAuthorization.supplies
  | .openSearch b =>
    Supply.optional b.endpoint ++ Supply.optional b.region ++ b.domain.toList.map .domain
  | .relationalDatabase b =>
    .value b.cluster :: .value b.secretStore :: (Supply.optional b.database
      ++ Supply.optional b.schema ++ Supply.optional b.region)
  | .eventBridge b => [.value b.eventBus]
  | .noBackend _ => []

def DataSource.supplies (d : DataSource) : List Supply :=
  d.backend.ownSupplies ++ d.backend.role.supplies

def AuthProvider.supplies : AuthProvider → List Supply
  | .userPool pool =>
    .value pool.userPoolId :: (Supply.optional pool.region ++ Supply.optional pool.clientPattern)
  | .authorizer a => a.function.supplies
  | _ => []

def syncSupplies (s : Option Sync) : List Supply := s.toList.flatMap fun s => s.function.supplies

def PipelineFunction.supplies (f : PipelineFunction) : List Supply :=
  Supply.map f.substitutions ++ syncSupplies f.sync

def Resolver.supplies (r : Resolver) : List Supply :=
  Supply.map r.substitutions ++ syncSupplies r.sync

def WafRule.supplies : WafRule → List Supply
  | .preset _ => []
  | .throttle input => Supply.optional input.toThrottle.scope
  | .disableIntrospection _ => []
  | .custom r => Supply.optional r.overrideAction ++ Supply.optional r.statement

def Waf.supplies (w : Waf) : List Supply :=
  Supply.optional w.arn ++ w.rules.flatMap WafRule.supplies

def Domain.supplies (d : Domain) : List Supply :=
  Supply.optional d.certificateArn ++ Supply.optional d.hostedZoneId

def Api.supplies (api : Api) : List Supply :=
  Supply.map api.environment ++ Supply.map api.substitutions
    ++ api.providers.flatMap AuthProvider.supplies
    ++ api.domain.toList.flatMap Domain.supplies
    ++ api.logging.toList.flatMap (fun l => Supply.optional l.roleArn)
    ++ api.waf.toList.flatMap Waf.supplies
    ++ api.apiKeys.values.flatMap (fun key => key.wafRules.flatMap WafRule.supplies)
    ++ api.dataSources.values.flatMap DataSource.supplies
    ++ api.pipelineFunctions.values.flatMap PipelineFunction.supplies
    ++ api.resolvers.values.flatMap Resolver.supplies

end ApiStack.Config
