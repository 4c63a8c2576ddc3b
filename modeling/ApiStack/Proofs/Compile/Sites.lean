import ApiStack.Proofs.Compile.Parts
import ApiStack.Proofs.Compile.Registers
import ApiStack.Proofs.Json.Path

namespace ApiStack

open Config

/-- A place where a function may be embedded: its name if it is, where it comes from, and where in
which resource it is referred to. -/
structure Site where
  name : String
  source : FunctionSource
  id : String
  path : List Json.Step

namespace Site

/-- A definition is embedded at a site. -/
def Embeds (site : Site) (definition : Json) : Prop :=
  site.source.target = .ok (.embedded definition)

def definitions (sites : List Site) : Compile.Definitions :=
  sites.flatMap fun site => Compile.definitions site.source site.name

/-- A value refers to the function that is embedded at a site. -/
def IsShownIn (site : Site) (j : Json) : Prop :=
  ∀ d, site.Embeds d →
    j.at? site.path = some (Intrinsic.getAtt (LogicalId.function site.name) "Arn")

end Site

/-- Where the settings of a provider refer to an authorizer. -/
def authorizerPath : List Json.Step := [.key "LambdaAuthorizerConfig", .key "AuthorizerUri"]

/-- The sites of a provider; its settings are under a path. -/
def Config.AuthProvider.sites (api : Api) (path : List Json.Step) : AuthProvider → List Site
  | .authorizer a => [⟨FunctionName.authorizer api.name, a.function, LogicalId.api,
      path ++ authorizerPath⟩]
  | _ => []

def Config.Sync.hasFunction (s : Sync) : Prop :=
  s.detection.getD "VERSION" = "VERSION" ∧ s.handler.getD "OPTIMISTIC_CONCURRENCY" = "LAMBDA"

instance (s : Sync) : Decidable s.hasFunction := inferInstanceAs (Decidable (_ ∧ _))

/-- The sites of how a resource resolves conflicts. -/
def syncSites (s : Option Sync) (name id : String) : List Site :=
  match s with
  | none => []
  | some s =>
    if s.hasFunction then [⟨name, s.function, id, [.key "SyncConfig",
      .key "LambdaConflictHandlerConfig", .key "LambdaConflictHandlerArn"]⟩]
    else []

def Config.DataSource.sites (d : DataSource) : List Site :=
  match d.backend with
  | .lambda b => [⟨FunctionName.dataSource d.name, b.function, LogicalId.dataSource d.name,
      [.key "LambdaConfig", .key "LambdaFunctionArn"]⟩]
  | _ => []

/-- Where the policy of a role that is made refers to a function, and to all below it. -/
def rolePaths : List (List Json.Step) :=
  [[.index 0], [.index 1, .key "Fn::Join", .index 1, .index 0]].map fun path =>
    [.key "Policies", .index 0, .key "PolicyDocument", .key "Statement", .index 0, .key "Resource"]
      ++ path

/-- Where the role of a data source refers to its function. -/
def Config.DataSource.roleSites (d : DataSource) : List Site :=
  match d.backend with
  | .lambda ⟨source, ⟨none, none⟩⟩ => rolePaths.map fun path =>
      ⟨FunctionName.dataSource d.name, source, LogicalId.dataSourceRole d.name, path⟩
  | _ => []

def Config.PipelineFunction.sites (f : PipelineFunction) : List Site :=
  syncSites f.sync (FunctionName.pipelineFunctionSync f.name) (LogicalId.pipelineFunction f.name)

def Config.Resolver.sites (r : Resolver) : List Site :=
  syncSites r.sync (FunctionName.resolverSync r.type r.field) (LogicalId.resolver r.type r.field)

namespace Config.Api

def additionalSites (api : Api) : List Site :=
  api.additionalAuthentications.zipIdx.flatMap fun (p, i) =>
    p.sites api [.key "AdditionalAuthenticationProviders", .index i]

def endpointSites (api : Api) : List Site :=
  api.authentication.sites api [] ++ api.additionalSites

def sites (api : Api) : List Site :=
  api.endpointSites
    ++ api.dataSources.values.flatMap DataSource.sites
    ++ api.pipelineFunctions.values.flatMap PipelineFunction.sites
    ++ api.resolvers.values.flatMap Resolver.sites

/-- Where the permission to call the authorizer refers to it. -/
def permissionSites (api : Api) : List Site :=
  match Compile.authorizer? (api.additionalAuthentications ++ [api.authentication]) with
  | none => []
  | some a => [⟨FunctionName.authorizer api.name, a.function, LogicalId.authorizerPermission,
      [.key "FunctionName"]⟩]

/-- Where else the functions of the sites are referred to. -/
def furtherSites (api : Api) : List Site :=
  api.permissionSites ++ api.dataSources.values.flatMap DataSource.roleSites

end Config.Api

namespace Config.Api

variable {api : Api}

theorem mem_sites_of_endpoint : ∀ site ∈ api.endpointSites, site ∈ api.sites := by
  intro site hs
  simp [sites, hs]

theorem mem_sites_of_dataSource {d : DataSource} (h : d ∈ api.dataSources.values) :
    ∀ site ∈ d.sites, site ∈ api.sites := by
  intro site hs
  simp only [sites, List.mem_append, List.mem_flatMap]
  exact .inl (.inl (.inr ⟨d, h, hs⟩))

theorem mem_sites_of_function {f : PipelineFunction} (h : f ∈ api.pipelineFunctions.values) :
    ∀ site ∈ f.sites, site ∈ api.sites := by
  intro site hs
  simp only [sites, List.mem_append, List.mem_flatMap]
  exact .inl (.inr ⟨f, h, hs⟩)

theorem mem_sites_of_resolver {r : Resolver} (h : r ∈ api.resolvers.values) :
    ∀ site ∈ r.sites, site ∈ api.sites := by
  intro site hs
  simp only [sites, List.mem_append, List.mem_flatMap]
  exact .inr ⟨r, h, hs⟩

end Config.Api

namespace Site

theorem definitions_singleton (site : Site) :
    definitions [site] = Compile.definitions site.source site.name :=
  List.flatMap_singleton ..

theorem definitions_append (sites more : List Site) :
    definitions (sites ++ more) = definitions sites ++ definitions more :=
  List.flatMap_append

theorem mem_definitions_iff {sites : List Site} {d : String × Json} :
    d ∈ definitions sites ↔ ∃ site ∈ sites, site.name = d.1 ∧ site.Embeds d.2 := by
  simp only [definitions, List.mem_flatMap, Compile.mem_definitions_iff, eq_comm, Embeds]

end Site

namespace Compile

variable {may : Definitions}

theorem mem_sites_iff {api : Api} {path : List Json.Step} {p : AuthProvider} {site : Site} :
    site ∈ p.sites api path ↔ ∃ a, p = .authorizer a ∧
      site = ⟨FunctionName.authorizer api.name, a.function, LogicalId.api,
        path ++ authorizerPath⟩ := by
  cases p <;> simp [AuthProvider.sites]

def providerKeys : List String :=
  ["AuthenticationType", "UserPoolConfig", "OpenIDConnectConfig", "LambdaAuthorizerConfig"]

theorem provider_hasKeys {t : Targets} {api : Api} (isPrimary : Bool) (p : AuthProvider) :
    Settles t.function (provider api isPrimary p) fun entries =>
      ∀ e ∈ entries, e.1 ∈ providerKeys := by
  have hsettings : Settles t.function (providerSettings api isPrimary p) fun entries =>
      ∀ e ∈ entries, e.1 ∈ providerKeys := by
    cases p with
    | apiKey => exact .pure nofun
    | iam => exact .pure nofun
    | userPool pool => exact .pure (by simp [providerKeys])
    | tokenIssuer issuer => exact .pure (by simp [providerKeys])
    | authorizer a => exact (functionArn_settles _ _).map fun _ _ => by simp [providerKeys]
  apply hsettings.map
  intro entries he
  exact List.forall_mem_cons.2 ⟨by simp [providerKeys], he⟩

/-- The settings of a provider refer to the authorizer that is embedded in it. -/
def ShowsProvider (api : Api) (p : AuthProvider) (entries : List (String × Json)) : Prop :=
  ∀ a d, p = .authorizer a → a.function.target = .ok (.embedded d) →
    (Json.obj entries).at? authorizerPath =
      some (Intrinsic.getAtt (LogicalId.function (FunctionName.authorizer api.name)) "Arn")

theorem providerSettings_registers {api : Api} (isPrimary : Bool) {p : AuthProvider}
    {path : List Json.Step} (h : Site.definitions (p.sites api path) ⊆ may) :
    Registers may (Site.definitions (p.sites api path)) (providerSettings api isPrimary p)
      (ShowsProvider api p) := by
  cases p with
  | apiKey => exact .pure nofun
  | iam => exact .pure nofun
  | userPool pool => exact .pure nofun
  | tokenIssuer issuer => exact .pure nofun
  | authorizer a =>
    rw [AuthProvider.sites, Site.definitions_singleton] at h ⊢
    apply (functionArn_registers h).map
    rintro arn harn _ d ⟨⟩ hd
    rw [harn d hd]
    rfl

theorem provider_registers {api : Api} (isPrimary : Bool) {p : AuthProvider}
    {path : List Json.Step} (h : Site.definitions (p.sites api path) ⊆ may) :
    Registers may (Site.definitions (p.sites api path)) (provider api isPrimary p)
      (ShowsProvider api p) := by
  apply (providerSettings_registers isPrimary h).map
  intro entries hs a d ha hd
  rw [← List.append_nil entries, ← List.singleton_append]
  exact Json.at?_obj_append (by simp) (hs a d ha hd)

/-- The graph of a part refers to the functions that are embedded at some sites. -/
def Shows (sites : List Site) (g : Graph) : Prop :=
  ∀ site ∈ sites, ∃ r, (site.id, r) ∈ g.entries ∧ site.IsShownIn r.properties

theorem definitions_sites (api : Api) (path : List Json.Step) (p : AuthProvider) :
    Site.definitions (p.sites api path) = Site.definitions (p.sites api []) := by
  cases p <;> rfl

theorem definitions_additionalSites (api : Api) : Site.definitions api.additionalSites =
    api.additionalAuthentications.flatMap fun p => Site.definitions (p.sites api []) := by
  have h : Site.definitions api.additionalSites = api.additionalAuthentications.zipIdx.flatMap
      fun x => Site.definitions (x.1.sites api []) := by
    rw [Api.additionalSites, Site.definitions, List.flatMap_assoc]
    congr 1
    funext ⟨p, i⟩
    exact definitions_sites api _ p
  have hmap := List.flatMap_map Prod.fst (fun p => Site.definitions (p.sites api []))
    api.additionalAuthentications.zipIdx
  rw [List.zipIdx_map_fst] at hmap
  rw [h, hmap]

theorem mem_additionalSites {api : Api} {site : Site} (h : site ∈ api.additionalSites) :
    ∃ i a, api.additionalAuthentications[i]? = some (.authorizer a) ∧
      site = ⟨FunctionName.authorizer api.name, a.function, LogicalId.api,
        [.key "AdditionalAuthenticationProviders", .index i] ++ authorizerPath⟩ := by
  obtain ⟨⟨p, i⟩, hp, hs⟩ := List.mem_flatMap.1 h
  obtain ⟨a, rfl, rfl⟩ := mem_sites_iff.1 hs
  exact ⟨i, a, List.mk_mem_zipIdx_iff_getElem?.1 hp, rfl⟩

theorem at?_additional {api : Api} {additional : List (List (String × Json))}
    (h : List.Forall₂ (ShowsProvider api) api.additionalAuthentications additional)
    {i : Nat} {a : Authorizer} {d : Json}
    (ha : api.additionalAuthentications[i]? = some (.authorizer a))
    (hd : a.function.target = .ok (.embedded d)) :
    (Json.arr (additional.map .obj)).at? (.index i :: authorizerPath) =
      some (Intrinsic.getAtt (LogicalId.function (FunctionName.authorizer api.name)) "Arn") := by
  obtain ⟨entries, he, hs⟩ := exists_getElem?_of_forall₂ h ha
  have hi : Json.Step.from? (.index i) (.arr (additional.map .obj)) = some (.obj entries) := by
    simp [Json.Step.from?, Json.items?, he]
  rw [Json.at?, hi, Option.bind_some]
  exact hs a d rfl hd

/-- A reference to the function of a site stays when null entries are dropped. -/
theorem IsShownIn.prune {site : Site} {j : Json} (h : site.IsShownIn j) :
    site.IsShownIn j.prune := by
  intro d hd
  exact Json.at?_prune (h d hd) rfl

/-- A reference to the function of a site is still found among more entries. -/
theorem IsShownIn.append {site : Site} {name : String} {path : List Json.Step}
    {before entries behind : List (String × Json)} (h : site.IsShownIn (.obj entries))
    (hp : site.path = .key name :: path) (hb : ∀ e ∈ before, e.1 ≠ name) :
    site.IsShownIn (.obj (before ++ (entries ++ behind))) := by
  intro d hd
  have hs := h d hd
  rw [hp] at hs ⊢
  exact Json.at?_obj_append hb hs

theorem shows_singleton {sites : List Site} {id : String} {r : Resource} {j : Json}
    (hr : r.properties = j.prune) (h : ∀ site ∈ sites, site.id = id ∧ site.IsShownIn j) :
    Shows sites (.singleton id r) := by
  intro site hs
  obtain ⟨rfl, hj⟩ := h site hs
  refine ⟨r, List.mem_singleton_self _, ?_⟩
  rw [hr]
  exact IsShownIn.prune hj

/-- The endpoint embeds the functions of all providers and refers to them. -/
theorem endpoint_registers {api : Api} (h : Site.definitions api.endpointSites ⊆ may) :
    Registers may (Site.definitions api.endpointSites) (endpoint api)
      (Shows api.endpointSites) := by
  rw [Api.endpointSites, Site.definitions_append, List.append_subset] at h
  obtain ⟨hprimary, hadditional⟩ := h
  rw [Api.endpointSites, Site.definitions_append]
  let t : Targets := ⟨fun _ => True, fun _ => True, fun _ => True⟩
  apply ((provider_registers true hprimary).and_settles (provider_hasKeys (t := t) true _)).bind
  rintro primary ⟨hp, hkeys⟩
  rw [definitions_additionalSites] at hadditional ⊢
  have hmapM : Registers may _ _ _ := Registers.mapM fun p hp => provider_registers false
    fun d hd => hadditional (List.mem_flatMap.2 ⟨p, hp, hd⟩)
  apply hmapM.map
  intro additional ha
  -- An entry is found behind others just if none of them has its key.
  have hbefore : ∀ e ∈ [("Name", Json.str api.name), ("XrayEnabled", .bool api.xrayEnabled),
      ("Tags", tags api.tags)] ++ (if api.environment.isEmpty then []
        else [("EnvironmentVariables", .obj api.environment.entries)]),
      e.1 ≠ "LambdaAuthorizerConfig" ∧ e.1 ≠ "AdditionalAuthenticationProviders" := by
    split <;> simp
  apply shows_singleton rfl
  intro site hs
  rcases List.mem_append.1 hs with hs | hs
  · obtain ⟨a, ha, rfl⟩ := mem_sites_iff.1 hs
    refine ⟨rfl, fun d hd => ?_⟩
    simp only [List.append_assoc]
    rw [← List.append_assoc]
    refine Json.at?_obj_append ?_ (hp a d ha hd)
    exact fun e he => (hbefore e he).1
  · obtain ⟨i, a, hi, rfl⟩ := mem_additionalSites hs
    refine ⟨rfl, fun d hd => ?_⟩
    have hshown := at?_additional ha hi hd
    have hne : additional ≠ [] := by
      rintro rfl
      cases hshown
    simp only [List.isEmpty_iff, hne, if_false, List.append_assoc]
    rw [← List.append_assoc, ← List.append_assoc]
    refine Json.at?_obj_append ?_ hshown
    intro e he
    rcases List.mem_append.1 he with he | he
    · exact (hbefore e he).2
    · intro hk
      have hkey := hkeys e he
      simp [hk, providerKeys] at hkey

theorem mem_endpointSites_of_authorizer? {api : Api} {a : Authorizer}
    (h : authorizer? (api.additionalAuthentications ++ [api.authentication]) = some a) :
    definitions a.function (FunctionName.authorizer api.name) ⊆
      Site.definitions api.endpointSites := by
  rw [Api.endpointSites, Site.definitions_append, definitions_additionalSites]
  intro d hd
  rcases List.mem_append.1 (mem_of_authorizer? h) with hm | hm
  · refine List.mem_append_right _ (List.mem_flatMap.2 ⟨_, hm, ?_⟩)
    rwa [AuthProvider.sites, Site.definitions_singleton]
  · apply List.mem_append_left
    rwa [← List.mem_singleton.1 hm, AuthProvider.sites, Site.definitions_singleton]

/-- The permission to call the authorizer refers to it, and embeds no other function. -/
theorem authorizerPermission_registers {api : Api}
    (h : Site.definitions api.endpointSites ⊆ may) :
    Registers may [] (authorizerPermission api) (Shows api.permissionSites) := by
  unfold authorizerPermission Api.permissionSites
  cases ha : authorizer? (api.additionalAuthentications ++ [api.authentication]) with
  | none => exact .pure nofun
  | some a =>
    have harn := functionArn_registers
      (List.Subset.trans (mem_endpointSites_of_authorizer? ha) h)
    apply (harn.mono (List.nil_subset _) fun _ h => h).map
    intro arn harn
    apply shows_singleton rfl
    intro site hs
    cases List.mem_singleton.1 hs
    refine ⟨rfl, fun d hd => ?_⟩
    rw [harn d hd]
    rfl

theorem backendEntry_registers {d : DataSource} (h : Site.definitions d.sites ⊆ may) :
    Registers may (Site.definitions d.sites) (backendEntry d.name d.backend) fun entries =>
      ∀ site ∈ d.sites, site.IsShownIn (.obj entries) := by
  obtain ⟨name, description, backend⟩ := d
  cases backend with
  | lambda b =>
    simp only [DataSource.sites, Site.definitions_singleton] at h ⊢
    apply (functionArn_registers h).map
    intro arn harn site hs definition hd
    cases List.mem_singleton.1 hs
    rw [harn definition hd]
    rfl
  | openSearch b => exact (Registers.lift fun _ _ => trivial).map fun _ _ => nofun
  | dynamoDb b => exact .pure nofun
  | relationalDatabase b => exact .pure nofun
  | http b => exact .pure nofun
  | eventBridge b => exact .pure nofun
  | noBackend role => exact .pure nofun

theorem neededStatements_registers {d : DataSource} (granted : DefaultActions)
    (h : Site.definitions d.sites ⊆ may) :
    Registers may [] (neededStatements d.name granted d.backend) fun _ => True := by
  obtain ⟨name, description, backend⟩ := d
  cases backend with
  | lambda b =>
    simp only [DataSource.sites, Site.definitions_singleton] at h
    have harn := functionArn_registers h
    exact (harn.mono (List.nil_subset _) fun _ _ => trivial).map fun _ _ => trivial
  | openSearch b => exact (Registers.lift fun _ _ => trivial).map fun _ _ => trivial
  | dynamoDb b => exact .pure trivial
  | relationalDatabase b => exact .pure trivial
  | http b => exact .pure trivial
  | eventBridge b => exact .pure trivial
  | noBackend role => exact .pure trivial

theorem role_registers {d : DataSource} (h : Site.definitions d.sites ⊆ may) :
    Registers may [] (role d) fun _ => True := by
  have hstatements : Registers may [] (statements d) fun _ => True := by
    unfold statements
    split
    · exact .pure trivial
    · split
      · exact .throw _ _
      · unfold defaultStatements
        split
        · exact .pure trivial
        · exact neededStatements_registers _ h
  unfold role
  split
  · exact .pure trivial
  · apply hstatements.bind
    intro statements _
    split
    · exact .pure trivial
    · exact .pure trivial

theorem role_of_lambda (name : String) (description : Option String) (source : FunctionSource) :
    role ⟨name, description, .lambda ⟨source, ⟨none, none⟩⟩⟩ = (do
      let arn ← functionArn source (FunctionName.dataSource name)
      return (some (Intrinsic.getAtt (LogicalId.dataSourceRole name) "Arn"),
        some (roleWith name [Policy.grant ["lambda:invokeFunction"] (withAllBelow arn)]))) := by
  have hdefault : defaultStatements ⟨name, description, .lambda ⟨source, ⟨none, none⟩⟩⟩ = (do
      let arn ← functionArn source (FunctionName.dataSource name)
      return [Policy.grant ["lambda:invokeFunction"] (withAllBelow arn)]) := rfl
  simp [role, statements, Backend.role, isSigned, hdefault]

theorem role_shows {d : DataSource} (h : Site.definitions d.sites ⊆ may) :
    Registers may [] (role d) fun made =>
      ∀ site ∈ d.roleSites, ∃ r, made.2 = some r ∧ site.IsShownIn r.properties := by
  by_cases hd : d.roleSites = []
  · apply (role_registers h).mono (List.nil_subset _)
    intro made _
    rw [hd]
    exact nofun
  · obtain ⟨name, description, backend⟩ := d
    unfold DataSource.roleSites at hd ⊢
    split at hd
    · next source hb =>
      simp only at hb
      subst hb
      rw [role_of_lambda]
      simp only [DataSource.sites, Site.definitions_singleton] at h
      apply ((functionArn_registers h).mono (List.nil_subset _) fun _ h => h).map
      intro arn harn site hs
      refine ⟨_, rfl, IsShownIn.prune ?_⟩
      obtain ⟨path, hpath, rfl⟩ := List.mem_map.1 hs
      intro d hd
      rw [harn d hd]
      rcases List.mem_cons.1 hpath with rfl | hpath
      · rfl
      · cases List.mem_singleton.1 hpath
        rfl
    · exact absurd rfl hd

theorem site_of_mem_sites {d : DataSource} {site : Site} (h : site ∈ d.sites) :
    site.id = LogicalId.dataSource d.name ∧ ∃ path, site.path = .key "LambdaConfig" :: path := by
  obtain ⟨name, description, backend⟩ := d
  cases backend with
  | lambda b =>
    cases List.mem_singleton.1 h
    exact ⟨rfl, _, rfl⟩
  | _ => cases h

theorem id_of_mem_roleSites {d : DataSource} {site : Site} (h : site ∈ d.roleSites) :
    site.id = LogicalId.dataSourceRole d.name := by
  unfold DataSource.roleSites at h
  split at h
  · obtain ⟨path, -, rfl⟩ := List.mem_map.1 h
    rfl
  · cases h

theorem dataSource_registers {d : DataSource} (h : Site.definitions d.sites ⊆ may) :
    Registers may (Site.definitions d.sites) (dataSource d) (Shows (d.sites ++ d.roleSites)) := by
  unfold dataSource
  rw [← List.append_nil (Site.definitions d.sites)]
  apply (backendEntry_registers h).bind
  intro backend hb
  apply (role_shows h).map
  rintro ⟨arn, made⟩ hrole site hs
  rcases List.mem_append.1 hs with hs | hs
  · obtain ⟨hid, path, hpath⟩ := site_of_mem_sites hs
    rw [hid]
    refine ⟨_, List.mem_cons_self, IsShownIn.prune ?_⟩
    rw [List.append_assoc]
    exact IsShownIn.append (hb site hs) hpath (by simp)
  · obtain ⟨r, hr, hshown⟩ := hrole site hs
    cases hr
    rw [id_of_mem_roleSites hs]
    exact ⟨r, List.mem_cons_of_mem _ List.mem_cons_self, hshown⟩

theorem syncSettings_of_hasFunction {s : Sync} (h : s.hasFunction) (name : String) :
    syncSettings s name = (do
      let arn ← functionArn s.function name
      return .obj [("ConflictDetection", .str "VERSION"), ("ConflictHandler", .str "LAMBDA"),
        ("LambdaConflictHandlerConfig", .obj [("LambdaConflictHandlerArn", arn)])]) := by
  simp [syncSettings, h.1, h.2]

theorem syncSettings_of_not_hasFunction {s : Sync} (h : ¬s.hasFunction) (name : String) :
    ∃ j, syncSettings s name = pure j := by
  simp only [syncSettings]
  split
  · exact ⟨_, rfl⟩
  · next hdetection =>
    have hhandler : s.handler.getD "OPTIMISTIC_CONCURRENCY" ≠ "LAMBDA" :=
      fun hh => h ⟨not_not.1 hdetection, hh⟩
    rw [if_pos hhandler]
    exact ⟨_, rfl⟩

/-- How conflicts are resolved embeds a function if there is one, and refers to it. -/
theorem syncEntry_registers {s : Option Sync} {name id : String}
    (h : Site.definitions (syncSites s name id) ⊆ may) :
    Registers may (Site.definitions (syncSites s name id)) (syncEntry s name) fun entries =>
      ∀ site ∈ syncSites s name id, site.IsShownIn (.obj entries) := by
  cases s with
  | none => exact .pure fun _ hs => absurd hs List.not_mem_nil
  | some s =>
    by_cases hf : s.hasFunction
    · simp only [syncSites, if_pos hf, Site.definitions_singleton] at h ⊢
      simp only [syncEntry, syncSettings_of_hasFunction hf, bind_assoc, pure_bind]
      apply (functionArn_registers h).map
      intro arn harn site hs d hd
      cases List.mem_singleton.1 hs
      rw [harn d hd]
      rfl
    · obtain ⟨j, hj⟩ := syncSettings_of_not_hasFunction hf name
      simp only [syncSites, if_neg hf]
      rw [syncEntry, hj]
      exact .pure fun _ hs => absurd hs List.not_mem_nil

theorem site_of_mem_syncSites {s : Option Sync} {name id : String} {site : Site}
    (h : site ∈ syncSites s name id) :
    site.id = id ∧ ∃ path, site.path = .key "SyncConfig" :: path := by
  cases s with
  | none => cases h
  | some s =>
    simp only [syncSites] at h
    split at h
    · cases List.mem_singleton.1 h
      exact ⟨rfl, _, rfl⟩
    · cases h

/-- Entries for code and templates stand in front of no reference to a function. -/
theorem ne_syncConfig_of_handlerSettings {context : Context} {api : Api} {owner : String}
    {handler : Handler} {substitutions : OrderedMap Json} {defaultCode : Option String}
    {entries : List (String × Json)}
    (h : handlerSettings context api owner handler substitutions defaultCode = .ok entries) :
    ∀ e ∈ entries, e.1 ≠ "SyncConfig" := by
  intro e he hk
  have hkey := (isHandlerEntry_handlerSettings h e he).key
  simp [hk, handlerKeys] at hkey

/-- A pipeline function embeds the function that resolves conflicts and refers to it. -/
theorem pipelineFunction_registers {context : Context} {api : Api} {f : PipelineFunction}
    (h : Site.definitions f.sites ⊆ may) :
    Registers may (Site.definitions f.sites) (pipelineFunction context api f) (Shows f.sites) := by
  unfold pipelineFunction
  simp only
  split
  · exact .throw_bind _ _ _
  · apply Registers.lift_bind
    intro handler hh
    apply (syncEntry_registers h).map
    intro sync hsync
    apply shows_singleton rfl
    intro site hs
    obtain ⟨hid, path, hpath⟩ := site_of_mem_syncSites hs
    refine ⟨hid, ?_⟩
    rw [← List.append_nil sync]
    refine IsShownIn.append (hsync site hs) hpath ?_
    simp only [List.forall_mem_append]
    exact ⟨by simp, ne_syncConfig_of_handlerSettings hh⟩

/-- A resolver embeds the function that resolves conflicts and refers to it. -/
theorem resolver_registers {context : Context} {api : Api} {r : Resolver}
    (h : Site.definitions r.sites ⊆ may) :
    Registers may (Site.definitions r.sites) (resolver context api r) (Shows r.sites) := by
  unfold resolver
  apply Registers.lift_bind
  intro handler hh
  rw [← List.append_nil (Site.definitions r.sites)]
  apply (syncEntry_registers h).bind
  intro sync hsync
  apply (Registers.lift fun _ _ => trivial).map
  intro entries _
  apply shows_singleton rfl
  intro site hs
  obtain ⟨hid, path, hpath⟩ := site_of_mem_syncSites hs
  refine ⟨hid, ?_⟩
  rw [List.append_assoc, List.append_assoc]
  refine IsShownIn.append (hsync site hs) hpath ?_
  have hcaching : ∀ e ∈ cachingEntry api r.caching, e.1 ≠ "SyncConfig" := by
    unfold cachingEntry
    split <;> simp
  simp only [List.forall_mem_append]
  exact ⟨⟨by simp, ne_syncConfig_of_handlerSettings hh⟩, hcaching⟩

end Compile

end ApiStack
