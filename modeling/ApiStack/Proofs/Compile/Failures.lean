import ApiStack.Proofs.Compile.Limits
import ApiStack.Proofs.Compile.Sites
import ApiStack.Proofs.Time.Duration

namespace ApiStack

open Config

/-- A function may be embedded under a name at some site of an API. -/
def Config.Api.HasSite (api : Api) (source : FunctionSource) (name : String) : Prop :=
  ∃ site ∈ api.sites, site.source = source ∧ site.name = name

namespace Compile

/-- What makes the compilation of an API fail in some way. -/
inductive Arises (context : Context) (api : Api) : Failure → Prop
  | noFunction {source : FunctionSource} {name : String} (hs : api.HasSite source name)
      (ht : source.target = .error (.misconfigured .noFunction)) :
      Arises context api (.misconfigured .noFunction)
  | functionTwice {source : FunctionSource} {name : String} {definition : Json}
      (hs : api.HasSite source name) (hd : source.target = .ok (.embedded definition)) :
      Arises context api (.misconfigured (.functionTwice name))
  | endpointOrDomain {d : DataSource} {s : OpenSearch} (hd : d ∈ api.dataSources.values)
      (hs : d.backend = .openSearch s) (h : s.endpoint.isSome = s.domain.isSome) :
      Arises context api (.misconfigured .endpointOrDomain)
  | openSearchEndpoint {d : DataSource} {s : OpenSearch} {endpoint : String}
      (hd : d ∈ api.dataSources.values) (hs : d.backend = .openSearch s)
      (he : s.endpoint = some (.str endpoint)) (h : searchHost? endpoint = none) :
      Arises context api (.misconfigured (.openSearchEndpoint endpoint))
  | openSearchArn {d : DataSource} {s : OpenSearch} (hd : d ∈ api.dataSources.values)
      (hs : d.backend = .openSearch s) (h : s.domain = none) :
      Arises context api (.misconfigured (.openSearchArn d.name))
  | signatureWithoutStatements {d : DataSource} (hd : d ∈ api.dataSources.values)
      (hs : isSigned d.backend = true) (h : d.backend.role.statements = none) :
      Arises context api (.misconfigured (.signatureWithoutStatements d.name))
  | unknownDataSource {owner name : String} (h : api.dataSources.contains name = false) :
      Arises context api (.unknownDataSource owner name)
  | unknownPipelineFunction {owner name : String}
      (h : api.pipelineFunctions.contains name = false) :
      Arises context api (.unknownPipelineFunction owner name)
  | codeAndTemplates {owner : String} {handler : Handler} (hh : handler ∈ api.handlers)
      (h : ¬handler.IsSound) : Arises context api (.misconfigured (.codeAndTemplates owner))
  | duration {key : ApiKey} {span : Duration} {text : String} (ha : api.hasAuth .apiKey = true)
      (hk : key ∈ api.apiKeys.values) (hs : key.expiresAfter = some span)
      (h : span.millis = .error (.duration text)) : Arises context api (.duration text)
  | expiryTime {key : ApiKey} {time : String} {fault : Rfc3339.TimeFault}
      (hk : key ∈ api.apiKeys.values) (ht : key.expiresAt = some time)
      (h : Rfc3339.parse time = .error fault) :
      Arises context api (.misconfigured (.expiryTime key.name time fault))
  | keyExpiryTooLate {key : ApiKey} {span : Duration} {millis : Nat}
      (hk : key ∈ api.apiKeys.values) (hs : key.expiresAfter = some span)
      (hm : span.millis = .ok millis)
      (h : context.now.startOfHour.later? (Expiry.grantedMillis millis * Expiry.nanosPerMilli) =
        none) : Arises context api (.keyExpiry key.name)
  | keyExpiry {key : ApiKey} {t : Instant} (hk : key ∈ api.apiKeys.values)
      (ht : Expiry.asked key context.now = .ok t)
      (h : t.before (context.now.later Expiry.nanosPerDay) = true ∨
        (context.now.later (365 * Expiry.nanosPerDay)).before t = true) :
      Arises context api (.keyExpiry key.name)
  | schemaPattern {pattern : String} {fault : Glob.PatternFault} (hp : pattern ∈ api.schema)
      (h : context.files.glob (context.resolve pattern).text = .error fault) :
      Arises context api (.misconfigured (.schemaPattern (context.resolve pattern).text fault))
  | missingSchema {pattern : String} (hp : pattern ∈ api.schema)
      (h : context.files.glob (context.resolve pattern).text = .ok []) :
      Arises context api (.missingFile .schema (context.resolve pattern))
  | missingFile {kind : FileKind} {path : Path} (h : context.files.contains path = false) :
      Arises context api (.missingFile kind path)
  | unreadable {path : Path} {fault : FileFault} (h : context.files.read path = .error fault) :
      Arises context api (.unreadable path fault)
  | schema {sources : List String} {faults : List Sdl.Fault}
      (hs : schemaSources context api = .ok sources)
      (h : schemaText sources = .error (.schema faults)) :
      Arises context api (.schema faults)

/-- Where a part fails, the failure has some property. -/
def FailsOnly (P : Failure → Prop) (b : Build α) : Prop :=
  ∀ fs fs' failure, b.run fs = (.error failure, fs') → P failure

namespace FailsOnly

variable {P : Failure → Prop}

theorem pure (a : α) : FailsOnly P (Pure.pure a) := by
  intro fs fs' failure hr
  cases hr

theorem lift {r : Except Failure α} (h : ∀ failure, r = .error failure → P failure) :
    FailsOnly P (liftM r) := by
  intro fs fs' failure hr
  obtain ⟨hr', -⟩ := Prod.mk.inj (hr : (r, fs) = (.error failure, fs'))
  exact h failure hr'

theorem throw {failure : Failure} (h : P failure) : FailsOnly P (throw failure : Build α) := by
  intro fs fs' failure' hr
  cases hr
  exact h

theorem throw_bind {failure : Failure} (h : P failure) (f : α → Build β) :
    FailsOnly P (MonadExcept.throw failure >>= f) := by
  intro fs fs' failure' hr
  cases hr
  exact h

theorem embed {name : String} (h : P (.misconfigured (.functionTwice name))) (definition : Json) :
    FailsOnly P (embed name definition) := by
  intro fs fs' failure hr
  rw [run_embed] at hr
  split at hr
  · split at hr <;> cases hr
    exact h
  · cases hr

theorem bind {b : Build α} {f : α → Build β} (hb : FailsOnly P b)
    (hf : ∀ a, FailsOnly P (f a)) : FailsOnly P (b >>= f) := by
  intro fs fs' failure hr
  rcases run_bind_eq_error_iff.1 hr with hr | ⟨a, mid, -, hr⟩
  · exact hb _ _ _ hr
  · exact hf a _ _ _ hr

theorem lift_bind {r : Except Failure α} {f : α → Build β}
    (h : ∀ failure, r = .error failure → P failure) (hf : ∀ a, r = .ok a → FailsOnly P (f a)) :
    FailsOnly P (liftM r >>= f) := by
  intro fs fs' failure hr
  rcases run_bind_eq_error_iff.1 hr with hr | ⟨a, mid, ha, hr⟩
  · exact lift h _ _ _ hr
  · obtain ⟨ha', -⟩ := Prod.mk.inj (ha : (r, fs) = (.ok a, mid))
    exact hf a ha' _ _ _ hr

theorem map {b : Build α} (hb : FailsOnly P b) (f : α → β) :
    FailsOnly P (do return f (← b)) :=
  hb.bind fun a => pure (f a)

theorem mapM {l : List α} {f : α → Build β} (h : ∀ a ∈ l, FailsOnly P (f a)) :
    FailsOnly P (l.mapM f) := by
  induction l with
  | nil => exact pure _
  | cons a l ih =>
    rw [List.mapM_cons]
    apply (h a List.mem_cons_self).bind
    intro b
    exact (ih fun x hx => h x (List.mem_cons_of_mem _ hx)).map _

theorem backendEntry {name : String} {backend : Backend}
    (hlambda : ∀ b, backend = .lambda b →
      FailsOnly P (functionArn b.function (FunctionName.dataSource name)))
    (hsearch : ∀ s, backend = .openSearch s →
      ∀ failure, searchSettings s = .error failure → P failure) :
    FailsOnly P (backendEntry name backend) := by
  cases backend with
  | lambda b => exact (hlambda b rfl).map _
  | openSearch s => exact (lift (hsearch s rfl)).map _
  | dynamoDb b => exact pure _
  | relationalDatabase b => exact pure _
  | http b => exact pure _
  | eventBridge b => exact pure _
  | noBackend role => exact pure _

theorem neededStatements {name : String} {granted : DefaultActions} {backend : Backend}
    (hlambda : ∀ b, backend = .lambda b →
      FailsOnly P (functionArn b.function (FunctionName.dataSource name)))
    (hsearch : ∀ s, backend = .openSearch s →
      ∀ failure, searchArn name s = .error failure → P failure) :
    FailsOnly P (neededStatements name granted backend) := by
  cases backend with
  | lambda b => exact (hlambda b rfl).map _
  | openSearch s => exact (lift (hsearch s rfl)).map _
  | dynamoDb b => exact pure _
  | relationalDatabase b => exact pure _
  | http b => exact pure _
  | eventBridge b => exact pure _
  | noBackend role => exact pure _

end FailsOnly

variable {context : Context} {api : Api}

theorem target_eq_error {source : FunctionSource} {failure : Failure}
    (h : source.target = .error failure) : failure = .misconfigured .noFunction := by
  unfold FunctionSource.target at h
  split at h <;> cases h
  rfl

theorem functionArn_arises {source : FunctionSource} {name : String}
    (hs : api.HasSite source name) :
    FailsOnly (Arises context api) (functionArn source name) := by
  unfold functionArn
  apply FailsOnly.lift_bind
  · intro failure h
    cases target_eq_error h
    exact .noFunction hs h
  · intro target ht
    cases target with
    | arn value => exact .pure _
    | named used aliasName => exact .pure _
    | embedded definition => exact (FailsOnly.embed (.functionTwice hs ht) _).map _

theorem hasSite_of_authorizer {a : Authorizer}
    (h : .authorizer a ∈ api.additionalAuthentications ++ [api.authentication]) :
    api.HasSite a.function (FunctionName.authorizer api.name) := by
  have hendpoint : ∃ site ∈ api.endpointSites, site.source = a.function ∧
      site.name = FunctionName.authorizer api.name := by
    rcases List.mem_append.1 h with h | h
    · obtain ⟨i, hi⟩ := List.mem_iff_getElem?.1 h
      have hm := List.mk_mem_zipIdx_iff_getElem?.2 hi
      exact ⟨_, List.mem_append_right _ (List.mem_flatMap.2 ⟨_, hm, mem_sites_iff.2 ⟨a, rfl, rfl⟩⟩),
        rfl, rfl⟩
    · have hp := (List.mem_singleton.1 h).symm
      exact ⟨_, List.mem_append_left _ (mem_sites_iff.2 ⟨a, hp, rfl⟩), rfl, rfl⟩
  obtain ⟨site, hs, he⟩ := hendpoint
  exact ⟨site, Api.mem_sites_of_endpoint _ hs, he⟩

theorem provider_arises (isPrimary : Bool) {p : AuthProvider}
    (h : p ∈ api.additionalAuthentications ++ [api.authentication]) :
    FailsOnly (Arises context api) (provider api isPrimary p) := by
  have hsettings : FailsOnly (Arises context api) (providerSettings api isPrimary p) := by
    cases p with
    | apiKey => exact .pure _
    | iam => exact .pure _
    | userPool pool => exact .pure _
    | tokenIssuer issuer => exact .pure _
    | authorizer a => exact (functionArn_arises (hasSite_of_authorizer h)).map _
  exact hsettings.map _

theorem endpoint_arises : FailsOnly (Arises context api) (endpoint api) := by
  apply (provider_arises true (List.mem_append_right _ (List.mem_singleton_self _))).bind
  intro primary
  have hadditional : FailsOnly (Arises context api)
      (api.additionalAuthentications.mapM (provider api false)) :=
    .mapM fun p hp => provider_arises false (List.mem_append_left _ hp)
  exact hadditional.map _

theorem authorizerPermission_arises :
    FailsOnly (Arises context api) (authorizerPermission api) := by
  unfold authorizerPermission
  split
  · exact .pure _
  · next a ha =>
    exact (functionArn_arises (hasSite_of_authorizer (mem_of_authorizer? ha))).map _

theorem readFile_arises {kind : FileKind} {path : String} {failure : Failure}
    (h : readFile context kind path = .error failure) : Arises context api failure := by
  simp only [readFile] at h
  split at h
  · obtain ⟨fault, hr, rfl⟩ := mapError_eq_error_iff.1 h
    exact .unreadable hr
  · next hc =>
    cases h
    exact .missingFile (Bool.eq_false_iff.2 hc)

theorem resolveTemplate_arises {kind : FileKind} {path : String} {values : OrderedMap Json}
    {failure : Failure} (h : resolveTemplate context kind path values = .error failure) :
    Arises context api failure :=
  readFile_arises (map_eq_error_iff.1 h)

theorem templateSettings_arises {values : OrderedMap Json} {key : String} {path : Option String}
    {failure : Failure} (h : templateSettings context values key path = .error failure) :
    Arises context api failure := by
  cases path with
  | none => cases h
  | some path => exact resolveTemplate_arises (map_eq_error_iff.1 h)

theorem handlerSettings_arises {owner : String} {handler : Handler}
    {substitutions : OrderedMap Json} {defaultCode : Option String} {failure : Failure}
    (hh : handler ∈ api.handlers)
    (h : handlerSettings context api owner handler substitutions defaultCode = .error failure) :
    Arises context api failure := by
  simp only [handlerSettings] at h
  split at h
  · next code hcode =>
    split at h
    · next htemplates =>
      cases h
      apply Arises.codeAndTemplates hh
      intro hs
      obtain ⟨hrequest, hresponse⟩ := hs (by rw [hcode]; rfl)
      simp [hrequest, hresponse] at htemplates
    · rcases bind_eq_error_iff.1 h with h | ⟨_, -, h⟩
      · exact resolveTemplate_arises h
      · cases h
  · split at h
    · rcases bind_eq_error_iff.1 h with h | ⟨_, -, h⟩
      · exact templateSettings_arises h
      · rcases bind_eq_error_iff.1 h with h | ⟨_, -, h⟩
        · exact templateSettings_arises h
        · cases h
    · split at h <;> cases h

theorem syncEntry_arises {s : Option Sync} {name id : String}
    (h : ∀ site ∈ syncSites s name id, site ∈ api.sites) :
    FailsOnly (Arises context api) (syncEntry s name) := by
  cases s with
  | none => exact .pure _
  | some s =>
    by_cases hf : s.hasFunction
    · simp only [syncEntry, syncSettings_of_hasFunction hf, bind_assoc, pure_bind]
      simp only [syncSites, if_pos hf, List.mem_singleton, forall_eq] at h
      exact (functionArn_arises ⟨_, h, rfl, rfl⟩).map _
    · obtain ⟨j, hj⟩ := syncSettings_of_not_hasFunction hf name
      rw [syncEntry, hj]
      exact .pure _

theorem pipelineFunction_arises {f : PipelineFunction} (hf : f ∈ api.pipelineFunctions.values) :
    FailsOnly (Arises context api) (pipelineFunction context api f) := by
  unfold pipelineFunction
  simp only
  split
  · next hd => exact .throw_bind (.unknownDataSource (by simpa using hd)) _
  · apply FailsOnly.lift_bind
    · intro failure h
      exact handlerSettings_arises (List.mem_append_left _ (List.mem_map_of_mem hf)) h
    · intro handler _
      exact (syncEntry_arises (Api.mem_sites_of_function hf)).map _

theorem kindEntries_arises {owner : String} {kind : ResolverKind} {failure : Failure}
    (h : kindEntries api owner kind = .error failure) : Arises context api failure := by
  cases kind with
  | unit name =>
    simp only [kindEntries] at h
    split at h
    · cases h
    · next hc =>
      cases h
      exact .unknownDataSource (Bool.eq_false_iff.2 hc)
  | pipeline names =>
    rcases bind_eq_error_iff.1 h with h | ⟨_, -, h⟩
    · obtain ⟨name, -, h⟩ := exists_of_mapM_eq_error h
      unfold functionId at h
      split at h
      · cases h
      · next hc =>
        cases h
        exact .unknownPipelineFunction (Bool.eq_false_iff.2 hc)
    · cases h

theorem resolver_arises {r : Resolver} (hr : r ∈ api.resolvers.values) :
    FailsOnly (Arises context api) (resolver context api r) := by
  unfold resolver
  apply FailsOnly.lift_bind
  · intro failure h
    exact handlerSettings_arises (List.mem_append_right _ (List.mem_map_of_mem hr)) h
  · intro handler _
    apply (syncEntry_arises (Api.mem_sites_of_resolver hr)).bind
    intro sync
    exact (FailsOnly.lift fun failure h => kindEntries_arises h).map _

theorem searchEndpoint_arises {d : DataSource} {s : OpenSearch} {failure : Failure}
    (hd : d ∈ api.dataSources.values) (hs : d.backend = .openSearch s)
    (h : searchEndpoint s = .error failure) : Arises context api failure := by
  unfold searchEndpoint at h
  split at h
  · cases h
  · cases h
  · next hone hother =>
    cases h
    apply Arises.endpointOrDomain hd hs
    cases he : s.endpoint <;> cases hm : s.domain
    · rfl
    · exact (hother _ he hm).elim
    · exact (hone _ he hm).elim
    · rfl

theorem searchArn_arises {d : DataSource} {s : OpenSearch} {failure : Failure}
    (hd : d ∈ api.dataSources.values) (hs : d.backend = .openSearch s)
    (h : searchArn d.name s = .error failure) : Arises context api failure := by
  unfold searchArn at h
  split at h
  · next endpoint he =>
    split at h
    · next hn =>
      cases h
      exact .openSearchEndpoint hd hs he hn
    · cases h
  · cases h
  · next hdomain _ =>
    cases h
    exact .openSearchArn hd hs hdomain

theorem hasSite_of_lambda {d : DataSource} {b : LambdaBackend} (hd : d ∈ api.dataSources.values)
    (hb : d.backend = .lambda b) : api.HasSite b.function (FunctionName.dataSource d.name) := by
  have hm : (⟨FunctionName.dataSource d.name, b.function, LogicalId.dataSource d.name,
      [.key "LambdaConfig", .key "LambdaFunctionArn"]⟩ : Site) ∈ d.sites := by
    simp [DataSource.sites, hb]
  exact ⟨_, Api.mem_sites_of_dataSource hd _ hm, rfl, rfl⟩

theorem backendEntry_arises {d : DataSource} (hd : d ∈ api.dataSources.values) :
    FailsOnly (Arises context api) (backendEntry d.name d.backend) := by
  apply FailsOnly.backendEntry
  · intro b hb
    exact functionArn_arises (hasSite_of_lambda hd hb)
  · intro s hb failure h
    rcases bind_eq_error_iff.1 h with h | ⟨_, -, h⟩
    · exact searchEndpoint_arises hd hb h
    · cases h

theorem neededStatements_arises {d : DataSource} (granted : DefaultActions)
    (hd : d ∈ api.dataSources.values) :
    FailsOnly (Arises context api) (neededStatements d.name granted d.backend) := by
  apply FailsOnly.neededStatements
  · intro b hb
    exact functionArn_arises (hasSite_of_lambda hd hb)
  · intro s hb failure h
    exact searchArn_arises hd hb h

theorem statements_arises {d : DataSource} (hd : d ∈ api.dataSources.values) :
    FailsOnly (Arises context api) (statements d) := by
  unfold statements
  split
  · exact .pure _
  · next hs =>
    split
    · next hsigned => exact .throw (.signatureWithoutStatements hd hsigned hs)
    · unfold defaultStatements
      split
      · exact .pure _
      · exact neededStatements_arises _ hd

theorem dataSource_arises {d : DataSource} (hd : d ∈ api.dataSources.values) :
    FailsOnly (Arises context api) (dataSource d) := by
  have hrole : FailsOnly (Arises context api) (role d) := by
    unfold role
    split
    · exact .pure _
    · apply (statements_arises hd).bind
      intro statements
      split <;> exact .pure _
  unfold dataSource
  apply (backendEntry_arises hd).bind
  intro backend
  exact hrole.map _

theorem asked_arises {key : ApiKey} {failure : Failure} (ha : api.hasAuth .apiKey = true)
    (hk : key ∈ api.apiKeys.values) (h : Expiry.asked key context.now = .error failure) :
    Arises context api failure := by
  unfold Expiry.asked at h
  split at h
  · next span _ hs =>
    rcases bind_eq_error_iff.1 h with h | ⟨millis, hm, h⟩
    · obtain ⟨text, rfl⟩ := Duration.eq_duration_of_millis_eq_error h
      exact .duration ha hk hs h
    · split at h
      · cases h
      · next hlater =>
        cases h
        exact .keyExpiryTooLate hk hs hm hlater
  · next time hs ht =>
    obtain ⟨fault, hp, rfl⟩ := mapError_eq_error_iff.1 h
    exact .expiryTime hk ht hp
  · cases h

theorem apiKey_arises {key : ApiKey} {failure : Failure} (ha : api.hasAuth .apiKey = true)
    (hk : key ∈ api.apiKeys.values) (h : apiKey context key = .error failure) :
    Arises context api failure := by
  rcases bind_eq_error_iff.1 h with h | ⟨_, -, h⟩
  · rcases bind_eq_error_iff.1 h with h | ⟨t, ht, h⟩
    · exact asked_arises ha hk h
    · split at h
      · next hrange =>
        cases h
        exact .keyExpiry hk ht (by simpa using hrange)
      · cases h
  · cases h

theorem matchingFiles_arises {pattern : String} {failure : Failure} (hp : pattern ∈ api.schema)
    (h : matchingFiles context pattern = .error failure) : Arises context api failure := by
  simp only [matchingFiles] at h
  split at h
  · next fault hf =>
    cases h
    exact .schemaPattern hp hf
  · next hf =>
    cases h
    exact .missingSchema hp hf
  · cases h

theorem schemaSources_arises {failure : Failure}
    (h : schemaSources context api = .error failure) : Arises context api failure := by
  rcases bind_eq_error_iff.1 h with h | ⟨files, -, h⟩
  · obtain ⟨pattern, hp, files, h⟩ := exists_of_foldlM_eq_error h
    rcases bind_eq_error_iff.1 h with h | ⟨_, -, h⟩
    · exact matchingFiles_arises hp h
    · cases h
  · obtain ⟨path, -, h⟩ := exists_of_mapM_eq_error h
    obtain ⟨fault, hr, rfl⟩ := mapError_eq_error_iff.1 h
    exact .unreadable hr

theorem schemaText_eq_error {sources : List String} {failure : Failure}
    (h : schemaText sources = .error failure) : ∃ faults, failure = .schema faults := by
  unfold schemaText textBehind at h
  split at h
  · cases h
  · obtain ⟨faults, -, rfl⟩ := mapError_eq_error_iff.1 (map_eq_error_iff.1 h)
    exact ⟨faults, rfl⟩
  · cases h
    exact ⟨_, rfl⟩

theorem schema_arises {failure : Failure} (h : schema context api = .error failure) :
    Arises context api failure := by
  rcases bind_eq_error_iff.1 h with h | ⟨sources, hs, h⟩
  · exact schemaSources_arises h
  · rcases bind_eq_error_iff.1 h with h | ⟨_, -, h⟩
    · obtain ⟨faults, rfl⟩ := schemaText_eq_error h
      exact .schema hs h
    · cases h

/-- Every failure of a part has a cause. -/
theorem parts_arise (context : Context) (api : Api) :
    ∀ p ∈ parts context api, FailsOnly (Arises context api) p := by
  apply forall_mem_parts
  · exact endpoint_arises
  · exact .lift fun _ h => schema_arises h
  · exact .pure _
  · exact .pure _
  · exact authorizerPermission_arises
  · exact .pure _
  · exact .pure _
  · intro ha key hk
    exact .lift fun _ h => apiKey_arises ha hk h
  · intro d hd
    exact dataSource_arises hd
  · intro f hf
    exact pipelineFunction_arises hf
  · intro r hr
    exact resolver_arises hr

/-- Where there is no stack, there is a cause, or an id is generated more than once. -/
theorem arises_of_stack {failure : Failure} (h : stack context api = .error failure) :
    Arises context api failure ∨ ∃ id, failure = .idCollision id := by
  rcases cases_of_stack_eq_error h with ⟨p, hp, mid, mid', hr⟩ | ⟨_, _, _, _, _, _, _, hid⟩
  · exact .inl (parts_arise context api p hp _ _ _ hr)
  · exact .inr hid

theorem sound_of_read {text : String} (h : Api.read text = .ok api) :
    (∀ handler ∈ api.handlers, handler.IsSound) ∧ ∀ key ∈ api.apiKeys.values, key.IsSound := by
  obtain ⟨c, -, h⟩ := bind_eq_ok_iff.1 h
  obtain ⟨⟨⟩, hc, hn⟩ := bind_eq_ok_iff.1 h
  have hs := c.check_eq_ok_iff.1 hc
  exact ⟨hs.handlers hn, (hs.isLimited hn).apiKeys⟩

/-- Once a text is read, its compilation never fails for what its structure was checked for: it is
not refused as ill-formed or with issues, no handler has both code and templates, and the time at
which a key expires can be read. -/
theorem stack_ne_of_read {text : String} (h : Api.read text = .ok api) (context : Context) :
    stack context api ≠ .error .malformed ∧
    (∀ issues, stack context api ≠ .error (.invalid issues)) ∧
    (∀ owner, stack context api ≠ .error (.misconfigured (.codeAndTemplates owner))) ∧
    ∀ key time fault, stack context api ≠ .error (.misconfigured (.expiryTime key time fault)) := by
  obtain ⟨hhandlers, hkeys⟩ := sound_of_read h
  refine ⟨?_, ?_, ?_, ?_⟩
  · intro hs
    rcases arises_of_stack hs with hc | ⟨_, hc⟩ <;> cases hc
  · intro issues hs
    rcases arises_of_stack hs with hc | ⟨_, hc⟩ <;> cases hc
  · intro owner hs
    rcases arises_of_stack hs with hc | ⟨_, hc⟩ <;> cases hc
    next hh hn => exact hn (hhandlers _ hh)
  · intro key time fault hs
    rcases arises_of_stack hs with hc | ⟨_, hc⟩ <;> cases hc
    next hk ht hp =>
      have hok := (hkeys _ hk).expiresAt _ ht
      rw [hp] at hok
      cases hok

/-- A text with resolvers in a list of maps, a pipeline function that is lifted, and a key. -/
def splitText : String :=
  "name: api\nauthentication:\n  type: API_KEY\napiKeys:\n- name: app\n" ++
  "  expiresAt: 2030-01-01T00:00:00Z\nresolvers:\n- Query.a:\n    functions:\n" ++
  "    - dataSource: none\n      code: a.js\n"

theorem isOk_splitText : (Api.read splitText).isOk = true := by
  have hchars : splitText.toList = _ := toList_append_eq
    (toList_append_eq String.toList_ofList String.toList_ofList) String.toList_ofList
  rw [Api.read_of_toList hchars]
  decide +kernel

theorem stack_ne_splitText : ∃ api, Api.read splitText = .ok api ∧
    stack (.uniform querySchema) api ≠ .error .malformed ∧
    (∀ issues, stack (.uniform querySchema) api ≠ .error (.invalid issues)) ∧
    (∀ owner, stack (.uniform querySchema) api ≠
      .error (.misconfigured (.codeAndTemplates owner))) ∧
    ∀ key time fault, stack (.uniform querySchema) api ≠
      .error (.misconfigured (.expiryTime key time fault)) := by
  obtain ⟨api, h⟩ := exists_of_isOk isOk_splitText
  exact ⟨api, h, stack_ne_of_read h _⟩

end Compile

end ApiStack
