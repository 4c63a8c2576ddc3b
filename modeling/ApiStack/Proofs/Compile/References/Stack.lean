import ApiStack.Proofs.Compile.Parts
import ApiStack.Proofs.Config.Lifting

namespace ApiStack

open Config Compile

namespace Compile

/-- What the references in a stack may refer to. A function is deployed elsewhere under a name that
the API gives, or embedded. -/
def Stack.targets (s : Stack) (api : Api) : Targets where
  resource id := id ∈ s.resources.ids
  domain id := .domain id ∈ api.supplies
  function name := .function name ∈ api.supplies ∨ name ∈ s.functions.keys

/-- There is a data source with this very name under the id made from the name. -/
def Stack.HasDataSource (s : Stack) (name : String) : Prop :=
  ∃ r, s.resources.get? (LogicalId.dataSource name) = some r ∧
    r.IsNamed "AWS::AppSync::DataSource" name

/-- There is a pipeline function with this very name under the id made from the name. -/
def Stack.HasFunction (s : Stack) (name : String) : Prop :=
  ∃ r, s.resources.get? (LogicalId.pipelineFunction name) = some r ∧
    r.IsNamed "AWS::AppSync::FunctionConfiguration" name

/-- There is what a resolver uses. -/
def Stack.HasUsed (s : Stack) : ResolverKind → Prop
  | .unit name => s.HasDataSource name
  | .pipeline names => ∀ name ∈ names, s.HasFunction name

/-- Resources that other parts refer to are there. -/
structure Provides (t : Targets) (context : Context) (api : Api) : Prop where
  endpoint : t.resource LogicalId.api
  schema : t.resource LogicalId.schema
  logGroup : ∀ id ∈ (logGroup context api).ids, t.resource id
  apiKey : api.hasAuth .apiKey = true →
    ∀ key ∈ api.apiKeys.values, t.resource (LogicalId.apiKey key.name)
  dataSource : ∀ name ∈ api.dataSources.keys, t.resource (LogicalId.dataSource name)
  pipelineFunction :
    ∀ name ∈ api.pipelineFunctions.keys, t.resource (LogicalId.pipelineFunction name)

theorem covers_targets {s : Stack} {api : Api} (h : ∀ v, .value v ∈ api.supplies → v.IsPlain) :
    (s.targets api).Covers api.supplies := by
  intro x hx
  cases x with
  | value v => exact Targets.holds_of_isPlain (h v hx)
  | function name => exact .inl hx
  | domain id => exact hx

/-- Where what the parts refer to is there, all references in a part resolve. -/
theorem parts_resolved {t : Targets} {context : Context} {api : Api} (hc : api.Covered t)
    (hp : Provides t context api) : ∀ p ∈ parts context api, Settles t.function p fun g =>
      (∀ id ∈ g.ids, t.resource id) → g.Resolved t := by
  apply forall_mem_parts
  · exact (endpoint_settles context api).mono fun _ hg _ => hg.2 hc hp.logGroup
  · exact (schema_settles context api).mono fun _ hg _ => hg.2 hp.endpoint
  · exact .pure fun hown => resolved_domain hc hp.endpoint hown
  · exact .pure fun hown => resolved_logGroup hp.endpoint hown
  · exact (authorizerPermission_settles api).mono fun _ hg _ => hg hc hp.endpoint
  · exact .pure fun hown => resolved_waf hc hp.endpoint hp.apiKey hown
  · exact .pure fun _ => resolved_cache hp.endpoint
  · intro _ key _
    exact (apiKey_settles context key).mono fun _ hg _ => hg.2 hp.endpoint
  · intro d hd
    exact (dataSource_settles d).mono fun _ hg hown => hg.2 (hc.dataSource d hd) hp.endpoint hown
  · intro f hf
    apply (pipelineFunction_settles context api f).mono
    intro g hg _
    exact hg.2.2 hc (hc.pipelineFunction f hf) hp.endpoint hp.dataSource
  · intro r hr
    apply (resolver_settles context api r).mono
    intro g hg _
    exact hg.2.2 hc (hc.resolver r hr) hp.endpoint hp.schema hp.dataSource hp.pipelineFunction

theorem mem_ids_of_mem {g : Graph} {id : String} {r : Resource} (h : (id, r) ∈ g.entries) :
    id ∈ g.ids :=
  List.mem_map.2 ⟨_, h, rfl⟩

theorem mem_ids_of_subset {g g' : Graph} (h : ∀ e ∈ g.entries, e ∈ g'.entries) {id : String}
    (hid : id ∈ g.ids) : id ∈ g'.ids := by
  obtain ⟨⟨id, r⟩, hm, rfl⟩ := List.mem_map.1 hid
  exact mem_ids_of_mem (h _ hm)

section

variable {context : Context} {api : Api} {s : Stack}

theorem mem_ids_of_part {p : Build Graph} {id : String} (h : stack context api = .ok s)
    (hp : p ∈ parts context api) (hid : Settles (fun _ => True) p fun g => id ∈ g.ids) :
    id ∈ s.resources.ids := by
  obtain ⟨g, hg, hsub⟩ := exists_graph_of_part h hp hid
  exact mem_ids_of_subset hsub hg

theorem hasDataSource_of_stack (h : stack context api = .ok s) {d : DataSource}
    (hd : d ∈ api.dataSources.values) : s.HasDataSource d.name := by
  have hp : dataSource d ∈ parts context api := by
    simp only [parts, List.mem_append]
    exact .inl (.inl (.inr (List.mem_map_of_mem hd)))
  obtain ⟨g, ⟨⟨r, hr, hn⟩, -⟩, hsub⟩ :=
    exists_graph_of_part h hp (dataSource_settles (t := .any) d)
  exact ⟨r, get?_of_stack h (hsub _ hr), hn⟩

theorem function_of_stack (h : stack context api = .ok s) {f : PipelineFunction}
    (hf : f ∈ api.pipelineFunctions.values) :
    f.dataSource ∈ api.dataSources.keys ∧
    ∃ r, s.resources.get? (LogicalId.pipelineFunction f.name) = some r ∧
      r.IsNamed "AWS::AppSync::FunctionConfiguration" f.name ∧
      r.property? "DataSourceName" = some (dataSourceName f.dataSource) := by
  have hp : pipelineFunction context api f ∈ parts context api := by
    simp only [parts, List.mem_append]
    exact .inl (.inr (List.mem_map_of_mem hf))
  obtain ⟨g, ⟨hd, ⟨r, hr, hn, hs⟩, -⟩, hsub⟩ :=
    exists_graph_of_part h hp (pipelineFunction_settles (t := .any) context api f)
  exact ⟨hd, r, get?_of_stack h (hsub _ hr), hn, hs⟩

theorem resolver_of_stack (h : stack context api = .ok s) {r : Resolver}
    (hr : r ∈ api.resolvers.values) :
    UsesKnown api r.kind ∧
    ∃ res, s.resources.get? (LogicalId.resolver r.type r.field) = some res ∧
      ShowsUse res r.kind := by
  have hp : resolver context api r ∈ parts context api := by
    simp only [parts, List.mem_append]
    exact .inr (List.mem_map_of_mem hr)
  obtain ⟨g, ⟨hk, ⟨res, hm, hs⟩, -⟩, hsub⟩ :=
    exists_graph_of_part h hp (resolver_settles (t := .any) context api r)
  exact ⟨hk, res, get?_of_stack h (hsub _ hm), hs⟩

theorem hasDataSource_of_key (h : stack context api = .ok s) (hk : api.IsKeyed) {name : String}
    (hn : name ∈ api.dataSources.keys) : s.HasDataSource name := by
  obtain ⟨e, he, rfl⟩ := List.mem_map.1 hn
  rw [← hk.dataSource e he]
  exact hasDataSource_of_stack h (List.mem_map_of_mem he)

theorem hasFunction_of_key (h : stack context api = .ok s) (hk : api.IsKeyed) {name : String}
    (hn : name ∈ api.pipelineFunctions.keys) : s.HasFunction name := by
  obtain ⟨e, he, rfl⟩ := List.mem_map.1 hn
  rw [← hk.pipelineFunction e he]
  obtain ⟨-, r, hr, hnamed, -⟩ := function_of_stack h (List.mem_map_of_mem he)
  exact ⟨r, hr, hnamed⟩

theorem hasUsed_of_known (h : stack context api = .ok s) (hk : api.IsKeyed) {kind : ResolverKind}
    (hu : UsesKnown api kind) : s.HasUsed kind := by
  cases kind with
  | unit name => exact hasDataSource_of_key h hk hu
  | pipeline names => exact fun name hn => hasFunction_of_key h hk (hu name hn)

theorem mem_ids_of_get? {g : Graph} {id : String} {r : Resource} (h : g.get? id = some r) :
    id ∈ g.ids :=
  mem_ids_of_mem (mem_of_lookup h)

theorem provides_of_stack (h : stack context api = .ok s) (hk : api.IsKeyed) :
    Provides (s.targets api) context api where
  endpoint := by
    apply mem_ids_of_part h (p := Compile.endpoint api) (by simp [parts])
    exact (endpoint_settles (t := .any) context api).mono fun _ hg => hg.1
  schema := by
    apply mem_ids_of_part h (p := Compile.schema context api) (by simp [parts])
    exact (schema_settles (t := .any) context api).mono fun _ hg => hg.1
  logGroup id hid :=
    mem_ids_of_part h (p := pure (logGroup context api)) (by simp [parts]) (.pure hid)
  apiKey ha key hkey := by
    apply mem_ids_of_part h (p := Compile.apiKey context key)
    · simp only [parts, ha, if_true, List.mem_append]
      exact .inl (.inl (.inl (.inr (List.mem_map_of_mem hkey))))
    · exact (apiKey_settles (t := .any) context key).mono fun _ hg => hg.1
  dataSource name hn := by
    obtain ⟨r, hr, -⟩ := hasDataSource_of_key h hk hn
    exact mem_ids_of_get? hr
  pipelineFunction name hn := by
    obtain ⟨r, hr, -⟩ := hasFunction_of_key h hk hn
    exact mem_ids_of_get? hr

/-- No reference in a stack dangles, if entities are kept under their names and the values that the
API supplies have no references of their own. What a pipeline function or resolver uses is what was
made for the entity of that very name. -/
theorem resolved_of_stack (h : stack context api = .ok s) (hk : api.IsKeyed)
    (hp : ∀ v, .value v ∈ api.supplies → v.IsPlain) :
    s.resources.Resolved (s.targets api) ∧
    (∀ f ∈ api.pipelineFunctions.values, ∃ r,
      s.resources.get? (LogicalId.pipelineFunction f.name) = some r ∧
        r.property? "DataSourceName" = some (dataSourceName f.dataSource) ∧
        s.HasDataSource f.dataSource) ∧
    ∀ r ∈ api.resolvers.values, ∃ res,
      s.resources.get? (LogicalId.resolver r.type r.field) = some res ∧
        ShowsUse res r.kind ∧ s.HasUsed r.kind := by
  have hprovides := provides_of_stack h hk
  have hc := Api.covered_iff.2 (covers_targets (s := s) hp)
  refine ⟨?_, ?_, ?_⟩
  · intro e he
    obtain ⟨p, hpart, g, hg, hge, hsub⟩ :=
      exists_part_of_entry h (s.targets api).function (fun _ hn => .inr hn) he
    have hr := (parts_resolved hc hprovides p hpart).of_gives hg
    exact hr (fun _ hid => mem_ids_of_subset hsub hid) e hge
  · intro f hf
    obtain ⟨hd, r, hr, -, hs⟩ := function_of_stack h hf
    exact ⟨r, hr, hs, hasDataSource_of_key h hk hd⟩
  · intro r hr
    obtain ⟨hu, res, hres, hs⟩ := resolver_of_stack h hr
    exact ⟨res, hres, hs, hasUsed_of_known h hk hu⟩

end

theorem isKeyed_of_ofList {api : Api} {ds : List DataSource} {fs : List PipelineFunction}
    (hd : api.dataSources = .ofList (ds.map fun d => (d.name, d)))
    (hf : api.pipelineFunctions = .ofList (fs.map fun f => (f.name, f))) : api.IsKeyed where
  dataSource e he := by
    rw [hd] at he
    rcases OrderedMap.mem_entries_insertAll he with he | he
    · cases he
    · obtain ⟨d, -, rfl⟩ := List.mem_map.1 he
      rfl
  pipelineFunction e he := by
    rw [hf] at he
    rcases OrderedMap.mem_entries_insertAll he with he | he
    · cases he
    · obtain ⟨f, -, rfl⟩ := List.mem_map.1 he
      rfl

/-- An API whose parts refer to each other: a pipeline over an embedded function, a search domain, a
key with a rule, an authorizer that is deployed elsewhere, logs, and a domain name. -/
def referringApi : Api :=
  { apiWith
      [⟨"users", none, .lambda ⟨⟨none, none, none, some (.str "users.handler")⟩, .none⟩⟩,
        ⟨"search", none, .openSearch ⟨none, some "SearchDomain", none, .none⟩⟩]
      [⟨"load-user", "users", none, ⟨none, none, none⟩, none, none, .empty⟩]
      [⟨"Query", "a", .pipeline ["load-user"], ⟨none, none, none⟩, none, none, .empty, none⟩,
        ⟨"Query", "b", .unit "search", ⟨none, none, none⟩, none, none, .empty, none⟩] with
    additionalAuthentications := [.authorizer ⟨⟨some "authorize", none, none, none⟩, none, none⟩]
    domain := some ⟨"api.example.com", none, none, none, none, none, none, none⟩
    logging := some ⟨none, "ALL", none, none, none⟩
    apiKeys := .ofList [("key", { ApiKey.named "key" with wafRules := [.preset .throttle] })]
    waf := some ⟨none, none, none, none, none, none, []⟩ }

theorem idsOf?_referringApi :
    idsOf? (((parts (.uniform querySchema) referringApi).mapM id).run .empty) =
      some ["GraphQlApi", "GraphQlSchema", "GraphQlDomainName", "GraphQlDomainAssociation",
        "GraphQlDomainCertificate", "GraphQlDomainRoute53Record", "GraphQlApiLogGroup",
        "GraphQlApiLogGroupPolicy", "GraphQlApiLogGroupRole", "LambdaAuthorizerPermission",
        "GraphQlWaf", "GraphQlWafAssoc", "GraphQlApikey", "GraphQlDsusers", "GraphQlDsusersRole",
        "GraphQlDssearch", "GraphQlDssearchRole", "GraphQlFunctionConfigurationloaduser",
        "GraphQlResolverQuerya", "GraphQlResolverQueryb"] := by
  unfold parts
  rw [schema_query rfl]
  decide +kernel

theorem supplies_referringApi :
    referringApi.supplies = [.value (.obj []), .value (.obj []), .function "authorize",
      .domain "SearchDomain", .value (.obj []), .value (.obj []), .value (.obj [])] :=
  rfl

theorem resolved_referringApi : ∃ s, stack (.uniform querySchema) referringApi = .ok s ∧
    referringApi.IsKeyed ∧ (∀ v, .value v ∈ referringApi.supplies → v.IsPlain) ∧
    s.resources.Resolved (s.targets referringApi) ∧ s.HasUsed (.pipeline ["load-user"]) ∧
    s.HasUsed (.unit "search") := by
  obtain ⟨s, hs⟩ := exists_stack_of_idsOf? idsOf?_referringApi (by decide)
  have hk : referringApi.IsKeyed := isKeyed_of_ofList rfl rfl
  have hp : ∀ v, .value v ∈ referringApi.supplies → v.IsPlain := by
    intro v hv
    have he : v = .obj [] := by simpa [supplies_referringApi] using hv
    rw [he]
    trivial
  obtain ⟨hr, -, hresolver⟩ := resolved_of_stack hs hk hp
  obtain ⟨-, -, -, ha⟩ := hresolver _ List.mem_cons_self
  obtain ⟨-, -, -, hb⟩ := hresolver _ (List.mem_cons_of_mem _ List.mem_cons_self)
  exact ⟨s, hs, hk, hp, hr, ha, hb⟩

end Compile

end ApiStack
