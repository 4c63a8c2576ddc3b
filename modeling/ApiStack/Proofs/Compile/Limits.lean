import ApiStack.Proofs.Compile.RateLimits
import ApiStack.Proofs.Compile.Sites

namespace ApiStack

open Config

def Json.IsWithin (least greatest : Nat) (v : Json) : Prop :=
  ∃ n, v = .nat n ∧ least ≤ n ∧ n ≤ greatest

namespace Resource

/-- A property, if it is there, is a number within bounds. -/
def Bounds (r : Resource) (key : String) (least greatest : Nat) : Prop :=
  ∀ v, r.property? key = some v → v.IsWithin least greatest

structure IsLimitedEndpoint (r : Resource) : Prop where
  queryDepthLimit : r.Bounds "QueryDepthLimit" 1 75
  resolverCountLimit : r.Bounds "ResolverCountLimit" 1 1000

/-- The limits of a resolver. How long answers are kept is said wherever they are. -/
structure IsLimitedResolver (r : Resource) : Prop where
  maxBatchSize : r.Bounds "MaxBatchSize" 1 2000
  caching : ∀ caching, r.property? "CachingConfig" = some caching →
    ∃ ttl, caching.get? "Ttl" = some ttl ∧ ttl.IsWithin 1 3600

/-- The rules of a list are those of a web access control list and of API keys, in order, and the
throttles among them keep their limits. -/
def HasLimitedRules (api : Api) (r : Resource) : Prop :=
  ∃ w ∈ api.waf, ∃ items, r.property? "Rules" = some (.arr items) ∧
    List.Forall₂ (fun l item => l.rule.throttle?.isSome = true → item.HasLimitedRate)
      (Compile.listedRules api w) items

def KeepsLimits (api : Api) (r : Resource) : Prop :=
  match r.type with
  | "AWS::AppSync::GraphQLApi" => r.IsLimitedEndpoint
  | "AWS::AppSync::Resolver" => r.IsLimitedResolver
  | "AWS::AppSync::FunctionConfiguration" => r.Bounds "MaxBatchSize" 1 2000
  | "AWS::AppSync::ApiCache" => ∃ ttl, r.property? "Ttl" = some ttl ∧ ttl.IsWithin 1 3600
  | "AWS::WAFv2::WebACL" => r.HasLimitedRules api
  | _ => True

end Resource

def Graph.KeepsLimits (api : Api) (g : Graph) : Prop := ∀ e ∈ g.entries, e.2.KeepsLimits api

theorem Graph.keepsLimits_empty (api : Api) : Graph.empty.KeepsLimits api := by
  intro e he
  cases he

theorem Graph.keepsLimits_singleton {api : Api} {id : String} {r : Resource}
    (h : r.KeepsLimits api) : (singleton id r).KeepsLimits api := by
  intro e he
  cases List.mem_singleton.1 he
  exact h

namespace Json

/-- An entry, if it has some key, is not set or a number within bounds. -/
def KeepsWithin (key : String) (least greatest : Nat) (e : String × Json) : Prop :=
  e.1 = key → e.2.isNull = true ∨ e.2.IsWithin least greatest

variable {key : String} {least greatest : Nat}

theorem keepsWithin_of_ne {e : String × Json} (h : e.1 ≠ key) : KeepsWithin key least greatest e :=
  fun hk => absurd hk h

theorem keepsWithin_ofOption {o : Option Nat} (h : ∀ n ∈ o, least ≤ n ∧ n ≤ greatest) :
    KeepsWithin key least greatest (key, .ofOption .nat o) := by
  intro _
  cases o with
  | none => exact .inl rfl
  | some n => exact .inr ⟨n, rfl, h n rfl⟩

theorem keepsWithin_entry {o : Option Nat} (h : ∀ n ∈ o, least ≤ n ∧ n ≤ greatest) :
    ∀ e ∈ entry key (o.map .nat), KeepsWithin key least greatest e := by
  intro e he _
  obtain ⟨v, hv, rfl⟩ := Option.map_eq_some_iff.1 (Option.mem_toList.1 he)
  obtain ⟨n, hn, rfl⟩ := Option.map_eq_some_iff.1 hv
  exact .inr ⟨n, rfl, h n hn⟩

theorem key_of_mem_entry {key : String} {o : Option Json} {e : String × Json}
    (h : e ∈ entry key o) : e.1 = key := by
  obtain ⟨v, -, rfl⟩ := Option.map_eq_some_iff.1 (Option.mem_toList.1 h)
  rfl

end Json

theorem Resource.mem_of_property?_make {type key : String} {entries : List (String × Json)}
    {v : Json} (h : (make type (.obj entries)).property? key = some v) :
    ∃ w, (key, w) ∈ entries ∧ w.isNull = false ∧ v = w.prune :=
  Json.mem_pruneEntries (mem_of_lookup h)

theorem Resource.bounds_make {type key : String} {least greatest : Nat}
    {entries : List (String × Json)}
    (h : ∀ e ∈ entries, Json.KeepsWithin key least greatest e) :
    (make type (.obj entries)).Bounds key least greatest := by
  intro v hv
  obtain ⟨w, hw, hn, rfl⟩ := mem_of_property?_make hv
  rcases h _ hw rfl with hnull | ⟨n, rfl, hb⟩
  · cases hn.symm.trans hnull
  · exact ⟨n, rfl, hb⟩

namespace Compile

variable {t : Targets} {api : Api}

def endpointLimits : List String := ["QueryDepthLimit", "ResolverCountLimit"]

def KeepsEndpoint (e : String × Json) : Prop :=
  Json.KeepsWithin "QueryDepthLimit" 1 75 e ∧ Json.KeepsWithin "ResolverCountLimit" 1 1000 e

theorem keepsEndpoint_of_notMem {e : String × Json} (h : e.1 ∉ endpointLimits) :
    KeepsEndpoint e := by
  simp only [endpointLimits, List.mem_cons, List.not_mem_nil, or_false, not_or] at h
  exact ⟨Json.keepsWithin_of_ne h.1, Json.keepsWithin_of_ne h.2⟩

theorem keepsEndpoint_entry {key : String} (hk : key ∉ endpointLimits) (o : Option Json) :
    ∀ e ∈ Json.entry key o, KeepsEndpoint e := by
  intro e he
  rw [← Json.key_of_mem_entry he] at hk
  exact keepsEndpoint_of_notMem hk

theorem endpoint_limited (h : api.IsLimited) :
    Settles t.function (endpoint api) (Graph.KeepsLimits api) := by
  unfold endpoint
  apply (provider_hasKeys true api.authentication).bind
  intro primary
  have hadditional : Settles t.function (api.additionalAuthentications.mapM (provider api false))
      fun _ => True := (Settles.mapM fun p _ => provider_hasKeys false p).mono fun _ _ => trivial
  apply hadditional.map
  intro additional _ hprimary
  apply Graph.keepsLimits_singleton
  have hlimits {entries : List (String × Json)} (he : ∀ e ∈ entries, KeepsEndpoint e) :
      (Resource.make "AWS::AppSync::GraphQLApi" (.obj entries)).IsLimitedEndpoint :=
    ⟨Resource.bounds_make fun e hm => (he e hm).1, Resource.bounds_make fun e hm => (he e hm).2⟩
  apply hlimits
  simp only [List.forall_mem_append, and_assoc]
  refine ⟨?_, ?_, ?_, ?_, keepsEndpoint_entry (by decide) _, keepsEndpoint_entry (by decide) _,
    keepsEndpoint_entry (by decide) _, ?_, ?_⟩
  · simp [keepsEndpoint_of_notMem, endpointLimits]
  · split <;> simp [keepsEndpoint_of_notMem, endpointLimits]
  · have hkeys : ∀ key ∈ providerKeys, key ∉ endpointLimits := by decide
    exact fun e he => keepsEndpoint_of_notMem (hkeys e.1 (hprimary e he))
  · split <;> simp [keepsEndpoint_of_notMem, endpointLimits]
  · intro e he
    have hk := Json.key_of_mem_entry he
    exact ⟨Json.keepsWithin_entry h.queryDepthLimit e he, Json.keepsWithin_of_ne (by simp [hk])⟩
  · intro e he
    have hk := Json.key_of_mem_entry he
    exact ⟨Json.keepsWithin_of_ne (by simp [hk]), Json.keepsWithin_entry h.resolverCountLimit e he⟩

def resolverLimits : List String := ["MaxBatchSize", "CachingConfig"]

/-- An entry of a resolver or a pipeline function keeps its limits. -/
def KeepsResolver (e : String × Json) : Prop :=
  Json.KeepsWithin "MaxBatchSize" 1 2000 e ∧
    (e.1 = "CachingConfig" → ∃ ttl, e.2.prune.get? "Ttl" = some ttl ∧ ttl.IsWithin 1 3600)

theorem keepsResolver_of_notMem {e : String × Json} (h : e.1 ∉ resolverLimits) :
    KeepsResolver e := by
  simp only [resolverLimits, List.mem_cons, List.not_mem_nil, or_false, not_or] at h
  exact ⟨Json.keepsWithin_of_ne h.1, fun hk => absurd hk h.2⟩

theorem keepsResolver_batch {size : Option Nat} (h : IsSoundBatch size) :
    KeepsResolver ("MaxBatchSize", .ofOption .nat size) :=
  ⟨Json.keepsWithin_ofOption h, by simp⟩

theorem keepsResolver_handler {context : Context} {owner : String} {handler : Handler}
    {substitutions : OrderedMap Json} {defaultCode : Option String}
    {entries : List (String × Json)}
    (h : handlerSettings context api owner handler substitutions defaultCode = .ok entries) :
    ∀ e ∈ entries, KeepsResolver e := by
  have hkeys : ∀ key ∈ handlerKeys, key ∉ resolverLimits := by decide
  exact fun e he =>
    keepsResolver_of_notMem (hkeys e.1 (isHandlerEntry_handlerSettings h e he).key)

theorem keepsResolver_sync {entries : List (String × Json)}
    (h : ∀ e ∈ entries, e.1 = "SyncConfig") : ∀ e ∈ entries, KeepsResolver e := by
  intro e he
  apply keepsResolver_of_notMem
  rw [h e he]
  decide

theorem keepsResolver_use (kind : ResolverKind) : ∀ e ∈ useEntries kind, KeepsResolver e := by
  cases kind <;> simp [useEntries, keepsResolver_of_notMem, resolverLimits]

/-- A pipeline function keeps its limits, also one that was lifted from a resolver. -/
theorem pipelineFunction_limited (h : api.IsLimited) (context : Context) {f : PipelineFunction}
    (hf : f ∈ api.pipelineFunctions.values) :
    Settles t.function (pipelineFunction context api f) (Graph.KeepsLimits api) := by
  unfold pipelineFunction
  simp only
  split
  · exact .throw_bind _ _ _
  · apply (Settles.lift_eq _).bind
    intro handler
    apply (syncEntry_settles f.sync _).map
    intro sync hsync hhandler
    apply Graph.keepsLimits_singleton
    have hlimits {entries : List (String × Json)} (he : ∀ e ∈ entries, KeepsResolver e) :
        (Resource.make "AWS::AppSync::FunctionConfiguration" (.obj entries)).KeepsLimits api :=
      Resource.bounds_make fun e hm => (he e hm).1
    apply hlimits
    simp only [List.forall_mem_append]
    refine ⟨⟨?_, keepsResolver_handler hhandler⟩, keepsResolver_sync hsync.1⟩
    have hbatch := keepsResolver_batch (h.pipelineFunctions f hf)
    simp [hbatch, keepsResolver_of_notMem, resolverLimits]

theorem isWithin_ttl {ttl : Option Nat} (h : ∀ n ∈ ttl, 1 ≤ n ∧ n ≤ 3600) :
    (Json.nat (ttl.getD defaultTtl)).IsWithin 1 3600 := by
  refine ⟨ttl.getD defaultTtl, rfl, ?_⟩
  cases ttl with
  | none => decide
  | some n => exact h n rfl

theorem isSound_cachingTtl (h : api.IsLimited) : ∀ n ∈ api.cachingTtl, 1 ≤ n ∧ n ≤ 3600 := by
  intro n hn
  obtain ⟨c, hc, hn⟩ := Option.bind_eq_some_iff.1 hn
  exact (h.caching c hc).ttl n hn

/-- What a resolver says of the keeping of answers goes before what the API says. -/
theorem keepsResolver_caching (h : api.IsLimited) {caching : Option ResolverCaching}
    (hc : ∀ c ∈ caching, c.IsSound) : ∀ e ∈ cachingEntry api caching, KeepsResolver e := by
  have hkeeps {v ttl : Json} (hv : v.prune.get? "Ttl" = some ttl) (ht : ttl.IsWithin 1 3600) :
      KeepsResolver ("CachingConfig", v) :=
    ⟨Json.keepsWithin_of_ne (by simp), fun _ => ⟨ttl, hv, ht⟩⟩
  unfold cachingEntry
  split
  · exact nofun
  · exact nofun
  · intro e he
    cases List.mem_singleton.1 he
    exact hkeeps rfl (isWithin_ttl (isSound_cachingTtl h))
  · next ttl keys =>
    intro e he
    cases List.mem_singleton.1 he
    have hlookup (n : Nat) : (Json.obj [("CachingKeys", .ofOption .strs keys),
        ("Ttl", .nat n)]).prune.get? "Ttl" = some (.nat n) :=
      Json.lookup_pruneEntries (v := .nat n) rfl rfl
    refine hkeeps (hlookup _) (isWithin_ttl ?_)
    cases ttl with
    | none => exact isSound_cachingTtl h
    | some n => exact hc _ rfl

theorem isLimitedResolver_after (type id : String) {entries : List (String × Json)}
    (h : ∀ e ∈ entries, KeepsResolver e) :
    ((Resource.make type (.obj entries)).after id).IsLimitedResolver := by
  have hbatch : (Resource.make type (.obj entries)).Bounds "MaxBatchSize" 1 2000 :=
    Resource.bounds_make fun e he => (h e he).1
  refine ⟨hbatch, ?_⟩
  intro caching hc
  have hmade : (Resource.make type (.obj entries)).property? "CachingConfig" = some caching := hc
  obtain ⟨v, hv, -, rfl⟩ := Resource.mem_of_property?_make hmade
  exact (h _ hv).2 rfl

theorem resolver_limited (h : api.IsLimited) (context : Context) {r : Resolver}
    (hr : r ∈ api.resolvers.values) :
    Settles t.function (resolver context api r) (Graph.KeepsLimits api) := by
  obtain ⟨hbatch, hcaching⟩ := h.resolvers r hr
  unfold resolver
  apply (Settles.lift_eq _).bind
  intro handler
  apply (syncEntry_settles r.sync _).bind
  intro sync
  apply (Settles.lift_eq _).map
  intro entries hentries hsync hhandler
  obtain ⟨-, rfl⟩ := kindEntries_eq_ok hentries
  apply Graph.keepsLimits_singleton
  apply isLimitedResolver_after "AWS::AppSync::Resolver"
  simp only [List.forall_mem_append]
  refine ⟨⟨⟨⟨⟨?_, keepsResolver_handler hhandler⟩, keepsResolver_caching h hcaching⟩,
    keepsResolver_sync hsync.1⟩, keepsResolver_use r.kind⟩, ?_⟩
  · simp [keepsResolver_of_notMem, resolverLimits]
  · simp [keepsResolver_batch hbatch]

theorem cache_limited (h : api.IsLimited) : (cache api).KeepsLimits api := by
  unfold cache
  split
  · exact Graph.keepsLimits_empty api
  · next c hc =>
    obtain ⟨hc, -⟩ := Option.filter_eq_some_iff.1 hc
    apply Graph.keepsLimits_singleton
    exact ⟨_, rfl, isWithin_ttl (h.caching c hc).ttl⟩

theorem waf_limited (h : api.IsLimited) : (waf api).KeepsLimits api := by
  unfold waf
  split
  · exact Graph.keepsLimits_empty api
  · next w hw =>
    obtain ⟨hw, -⟩ := Option.filter_eq_some_iff.1 hw
    split
    · exact Graph.keepsLimits_singleton trivial
    · intro e he
      rcases List.mem_cons.1 he with rfl | he
      · obtain ⟨items, hi, hl⟩ := wafRules_limited h (h.waf w hw)
        refine ⟨w, hw, items, ?_, hl⟩
        rw [← hi]
        exact Resource.property?_make (v := wafRules api w) rfl rfl
      · cases List.mem_singleton.1 he
        trivial

theorem dataSource_limited (d : DataSource) :
    Settles t.function (dataSource d) (Graph.KeepsLimits api) := by
  have hrole : Settles t.function (role d) fun made => ∀ r ∈ made.2, r.KeepsLimits api := by
    unfold role
    split
    · exact .pure nofun
    · apply (statements_settles d).bind
      intro statements
      split
      · exact .pure fun _ => nofun
      · apply Settles.pure
        intro _ r hr
        cases hr
        trivial
  unfold dataSource
  apply (backendEntry_settles d.name d.backend).bind
  intro backend
  apply hrole.map
  rintro ⟨arn, made⟩ hmade _ e he
  rcases List.mem_cons.1 he with rfl | he
  · trivial
  · obtain ⟨r, hr, rfl⟩ := Option.map_eq_some_iff.1 (Option.mem_toList.1 he)
    exact hmade r hr

theorem domain_limited : (domain api).KeepsLimits api := by
  unfold domain
  split
  · exact Graph.keepsLimits_empty api
  · next d _ =>
    intro e he
    obtain ⟨⟨id, r⟩, hr, rfl⟩ := List.mem_map.1 he
    simp only [List.mem_append, List.mem_cons, List.not_mem_nil, or_false] at hr
    obtain ((hr | hr) | hr) | hr := hr
    · cases hr
      trivial
    · cases hr
      trivial
    · split at hr
      · cases hr
      · cases List.mem_singleton.1 hr
        trivial
    · split at hr
      · cases List.mem_singleton.1 hr
        trivial
      · cases hr

theorem logGroup_limited (context : Context) : (logGroup context api).KeepsLimits api := by
  unfold logGroup
  split
  · exact Graph.keepsLimits_empty api
  · intro e he
    rcases List.mem_cons.1 he with rfl | he
    · trivial
    · split at he
      · cases he
      · rcases List.mem_cons.1 he with rfl | he
        · trivial
        · cases List.mem_singleton.1 he
          trivial

theorem authorizerPermission_limited :
    Settles t.function (authorizerPermission api) (Graph.KeepsLimits api) := by
  unfold authorizerPermission
  split
  · exact .pure (Graph.keepsLimits_empty api)
  · exact (functionArn_settles _ _).map fun _ _ => Graph.keepsLimits_singleton trivial

theorem parts_limited (h : api.IsLimited) (context : Context) :
    ∀ p ∈ parts context api, Settles t.function p (Graph.KeepsLimits api) := by
  apply forall_mem_parts
  · exact endpoint_limited h
  · apply Settles.lift
    intro g hg
    obtain ⟨sources, -, hg⟩ := bind_eq_ok_iff.1 hg
    obtain ⟨text, -, hg⟩ := bind_eq_ok_iff.1 hg
    cases hg
    exact Graph.keepsLimits_singleton trivial
  · exact .pure domain_limited
  · exact .pure (logGroup_limited context)
  · exact authorizerPermission_limited
  · exact .pure (waf_limited h)
  · exact .pure (cache_limited h)
  · intro _ key _
    apply Settles.lift
    intro g hg
    obtain ⟨expiry, -, hg⟩ := bind_eq_ok_iff.1 hg
    cases hg
    exact Graph.keepsLimits_singleton trivial
  · intro d _
    exact dataSource_limited d
  · intro f hf
    exact pipelineFunction_limited h context hf
  · intro r hr
    exact resolver_limited h context hr

theorem limits_of_stack {context : Context} {s : Stack} (h : stack context api = .ok s)
    (hl : api.IsLimited) : s.resources.KeepsLimits api := by
  let t : Targets := ⟨fun _ => True, fun _ => True, fun _ => True⟩
  intro e he
  obtain ⟨p, hp, g, hg, hge, -⟩ := exists_part_of_entry h t.function (fun _ _ => trivial) he
  exact (parts_limited (t := t) hl context p hp).of_gives hg e hge

theorem isLimited_of_read {text : String} (h : Api.read text = .ok api) : api.IsLimited := by
  obtain ⟨c, -, h⟩ := bind_eq_ok_iff.1 h
  obtain ⟨⟨⟩, hc, hn⟩ := bind_eq_ok_iff.1 h
  exact (c.check_eq_ok_iff.1 hc).isLimited hn

/-- A stack that a text is compiled to keeps the limits that the text was checked for, in each of
its resources. -/
theorem limits_of_stackOf {context : Context} {text : String} {s : Stack}
    (h : stackOf context text = .ok s) :
    ∃ api, Api.read text = .ok api ∧ s.resources.KeepsLimits api := by
  obtain ⟨api, hr, hs⟩ := bind_eq_ok_iff.1 h
  exact ⟨api, hr, limits_of_stack hs (isLimited_of_read hr)⟩

/-- A text with a throttle, and with a pipeline function that is lifted from a resolver. -/
def limitedText : String :=
  "name: api\nauthentication:\n  type: AWS_IAM\nwaf:\n  rules:\n  - throttle\n" ++
  "dataSources:\n  none:\n    type: NONE\nresolvers:\n  Query.a:\n    functions:\n" ++
  "    - dataSource: none\n      maxBatchSize: 9\n"

theorem queryIds?_limitedText :
    (Api.read limitedText).toOption.map (fun api => (api.schema, queryIds? api)) =
      some (["schema.graphql"], some ["GraphQlApi", "GraphQlSchema", "GraphQlWaf",
        "GraphQlWafAssoc", "GraphQlDsnone", "GraphQlFunctionConfigurationQuerya0",
        "GraphQlResolverQuerya"]) := by
  have hchars : limitedText.toList = _ := toList_append_eq
    (toList_append_eq String.toList_ofList String.toList_ofList) String.toList_ofList
  rw [Api.read_of_toList hchars]
  decide +kernel

theorem exists_stackOf_limitedText :
    ∃ s, stackOf (.uniform querySchema) limitedText = .ok s := by
  obtain ⟨api, hr, he⟩ := exists_of_toOption_map queryIds?_limitedText
  obtain ⟨hschema, hids⟩ := Prod.mk.inj he
  obtain ⟨s, hs⟩ := exists_stack_of_queryIds? hschema hids (by decide)
  exact ⟨s, bind_eq_ok_iff.2 ⟨api, hr, hs⟩⟩

theorem limits_limitedText : ∃ s, stackOf (.uniform querySchema) limitedText = .ok s ∧
    ∃ api, Api.read limitedText = .ok api ∧ s.resources.KeepsLimits api := by
  obtain ⟨s, h⟩ := exists_stackOf_limitedText
  exact ⟨s, h, limits_of_stackOf h⟩

end Compile

end ApiStack
