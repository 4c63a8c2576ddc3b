import ApiStack.Proofs.Compile.Sites

namespace ApiStack.Compile

open Config

theorem Registers.nil_mono {may must : Definitions} {b : Build α} {P : α → Prop}
    (h : Registers may must b P) : Registers may [] b fun _ => True :=
  h.mono (List.nil_subset _) fun _ _ => trivial

/-- Of parts that are run one after another, each gives its result, and what it has to embed is
there at the end. -/
theorem Registers.of_mem_mapM {may must : Definitions} {l : List (Build α)} {as : List α}
    {fs fs' : Functions} {b : Build α} {P : α → Prop}
    (hl : ∀ b ∈ l, Registers may [] b fun _ => True)
    (hr : (l.mapM id).run fs = (.ok as, fs')) (hm : b ∈ l) (hb : Registers may must b P) :
    (∃ a ∈ as, P a) ∧ ∀ d ∈ must, ∃ k, fs'.get? d.1 = some k ∧ k.same d.2 = true := by
  induction l generalizing fs as with
  | nil => cases hm
  | cons c l ih =>
    rw [List.mapM_cons] at hr
    obtain ⟨a, mid, ha, hbehind⟩ := run_bind_eq_ok_iff.1 hr
    obtain ⟨as', mid', hrest, he⟩ := run_bind_eq_ok_iff.1 hbehind
    cases he
    have hl' : ∀ b ∈ l, Registers may [] b fun _ => True := fun b hb =>
      hl b (List.mem_cons_of_mem _ hb)
    rcases List.mem_cons.1 hm with rfl | hm
    · -- the parts behind it keep what it embeds
      obtain ⟨⟨ds, hd, hmust, -⟩, hP⟩ := hb _ _ _ ha
      obtain ⟨⟨es, hes, -, -⟩, -⟩ := Registers.mapM hl' _ _ _ hrest
      refine ⟨⟨a, List.mem_cons_self, hP⟩, ?_⟩
      intro d hd'
      obtain ⟨k, hk, hs⟩ := hd.holds (hmust hd')
      exact ⟨k, hes.keeps hk, hs⟩
    · obtain ⟨⟨a', ha', hP⟩, hmust⟩ := ih hl' hrest hm
      exact ⟨⟨a', List.mem_cons_of_mem _ ha', hP⟩, hmust⟩

def siteDefinitions (api : Api) : Definitions := Site.definitions api.sites

theorem definitions_subset {api : Api} {sites : List Site} (h : ∀ site ∈ sites, site ∈ api.sites) :
    Site.definitions sites ⊆ siteDefinitions api := by
  intro d hd
  obtain ⟨site, hs, hd⟩ := Site.mem_definitions_iff.1 hd
  exact Site.mem_definitions_iff.2 ⟨site, h site hs, hd⟩

theorem endpointSites_subset (api : Api) :
    Site.definitions api.endpointSites ⊆ siteDefinitions api :=
  definitions_subset Api.mem_sites_of_endpoint

theorem dataSourceSites_subset {api : Api} {d : DataSource} (h : d ∈ api.dataSources.values) :
    Site.definitions d.sites ⊆ siteDefinitions api :=
  definitions_subset (Api.mem_sites_of_dataSource h)

theorem functionSites_subset {api : Api} {f : PipelineFunction}
    (h : f ∈ api.pipelineFunctions.values) :
    Site.definitions f.sites ⊆ siteDefinitions api :=
  definitions_subset (Api.mem_sites_of_function h)

theorem resolverSites_subset {api : Api} {r : Resolver} (h : r ∈ api.resolvers.values) :
    Site.definitions r.sites ⊆ siteDefinitions api :=
  definitions_subset (Api.mem_sites_of_resolver h)

theorem parts_register (context : Context) (api : Api) :
    ∀ p ∈ parts context api, Registers (siteDefinitions api) [] p fun _ => True := by
  have hendpoint := endpointSites_subset api
  apply forall_mem_parts
  · exact (endpoint_registers hendpoint).nil_mono
  · exact .lift fun _ _ => trivial
  · exact .pure trivial
  · exact .pure trivial
  · exact (authorizerPermission_registers hendpoint).nil_mono
  · exact .pure trivial
  · exact .pure trivial
  · intro _ key _
    exact .lift fun _ _ => trivial
  · intro d hd
    exact (dataSource_registers (dataSourceSites_subset hd)).nil_mono
  · intro f hf
    exact (pipelineFunction_registers (functionSites_subset hf)).nil_mono
  · intro r hr
    exact (resolver_registers (resolverSites_subset hr)).nil_mono

theorem Shows.of_mem {sites : List Site} {site : Site} {g : Graph} (h : Shows sites g)
    (hs : site ∈ sites) : Shows [site] g := by
  intro other ho
  cases List.mem_singleton.1 ho
  exact h site hs

theorem definitions_of_mem {sites : List Site} {site : Site} (h : site ∈ sites) :
    Site.definitions [site] ⊆ Site.definitions sites := by
  rw [Site.definitions_singleton]
  exact fun d hd => List.mem_flatMap.2 ⟨site, h, hd⟩

theorem dataSource_mem_parts (context : Context) {api : Api} {d : DataSource}
    (h : d ∈ api.dataSources.values) : dataSource d ∈ parts context api := by
  simp only [parts, List.mem_append, List.mem_map]
  exact .inl (.inl (.inr ⟨d, h, rfl⟩))

/-- Every site belongs to a part, which embeds the function and refers to it. -/
theorem exists_part_of_site (context : Context) {api : Api} {site : Site} (h : site ∈ api.sites) :
    ∃ p ∈ parts context api,
      Registers (siteDefinitions api) (Site.definitions [site]) p (Shows [site]) := by
  simp only [Api.sites, List.mem_append, List.mem_flatMap] at h
  obtain ((h | ⟨d, hd, h⟩) | ⟨f, hf, h⟩) | ⟨r, hr, h⟩ := h
  · exact ⟨endpoint api, by simp [parts], (endpoint_registers (endpointSites_subset api)).mono
      (definitions_of_mem h) fun _ hg => hg.of_mem h⟩
  · refine ⟨dataSource d, dataSource_mem_parts context hd, ?_⟩
    apply (dataSource_registers (dataSourceSites_subset hd)).mono (definitions_of_mem h)
    exact fun _ hg => hg.of_mem (List.mem_append_left _ h)
  · refine ⟨pipelineFunction context api f, ?_, ?_⟩
    · simp only [parts, List.mem_append, List.mem_map]
      exact .inl (.inr ⟨f, hf, rfl⟩)
    · exact (pipelineFunction_registers (functionSites_subset hf)).mono
        (definitions_of_mem h) fun _ hg => hg.of_mem h
  · refine ⟨resolver context api r, ?_, ?_⟩
    · simp only [parts, List.mem_append, List.mem_map]
      exact .inr ⟨r, hr, rfl⟩
    · exact (resolver_registers (resolverSites_subset hr)).mono
        (definitions_of_mem h) fun _ hg => hg.of_mem h

/-- What else refers to a function belongs to a part, too. -/
theorem exists_part_of_furtherSite (context : Context) {api : Api} {site : Site}
    (h : site ∈ api.furtherSites) :
    ∃ p ∈ parts context api, Registers (siteDefinitions api) [] p (Shows [site]) := by
  rcases List.mem_append.1 h with h | h
  · refine ⟨authorizerPermission api, by simp [parts], ?_⟩
    exact (authorizerPermission_registers (endpointSites_subset api)).mono
      (List.nil_subset _) fun _ hg => hg.of_mem h
  · obtain ⟨d, hd, h⟩ := List.mem_flatMap.1 h
    refine ⟨dataSource d, dataSource_mem_parts context hd, ?_⟩
    apply (dataSource_registers (dataSourceSites_subset hd)).mono (List.nil_subset _)
    exact fun _ hg => hg.of_mem (List.mem_append_right _ h)

/-- What a stack has of the functions that are embedded in an API. -/
structure IsRegistry (api : Api) (s : Stack) : Prop where
  keys (name : String) :
    name ∈ s.functions.keys ↔ ∃ site ∈ api.sites, site.name = name ∧ ∃ d, site.Embeds d
  definition {site : Site} {d : Json} : site ∈ api.sites → site.Embeds d →
    ∃ k, s.functions.get? site.name = some k ∧ k.same d = true
  shown {site : Site} : site ∈ api.sites ++ api.furtherSites →
    ∃ r, s.resources.get? site.id = some r ∧ site.IsShownIn r.properties

theorem isRegistry_of_stack {context : Context} {api : Api} {s : Stack}
    (h : stack context api = .ok s) : IsRegistry api s := by
  obtain ⟨graphs, hr, -, he⟩ := entries_of_stack h
  have hparts := parts_register context api
  have hdefinition {site : Site} {d : Json} (hs : site ∈ api.sites) (hd : site.Embeds d) :
      ∃ k, s.functions.get? site.name = some k ∧ k.same d = true := by
    obtain ⟨p, hp, hreg⟩ := exists_part_of_site context hs
    exact (Registers.of_mem_mapM hparts hr hp hreg).2 (site.name, d)
      (Site.mem_definitions_iff.2 ⟨site, List.mem_cons_self, rfl, hd⟩)
  refine ⟨?_, hdefinition, ?_⟩
  · intro name
    rw [OrderedMap.mem_keys_iff]
    constructor
    · rintro ⟨k, hk⟩
      obtain ⟨⟨ds, hd, -, hmay⟩, -⟩ := Registers.mapM hparts _ _ _ hr
      obtain ⟨site, hs, hn, hd⟩ :=
        Site.mem_definitions_iff.1 (hmay ((hd.only hk).resolve_left nofun))
      exact ⟨site, hs, hn, k, hd⟩
    · rintro ⟨site, hs, rfl, d, hd⟩
      obtain ⟨k, hk, -⟩ := hdefinition hs hd
      exact ⟨k, hk⟩
  · intro site hs
    have hpart : ∃ p ∈ parts context api,
        Registers (siteDefinitions api) [] p (Shows [site]) := by
      rcases List.mem_append.1 hs with hs | hs
      · obtain ⟨p, hp, hreg⟩ := exists_part_of_site context hs
        exact ⟨p, hp, hreg.mono (List.nil_subset _) fun _ hg => hg⟩
      · exact exists_part_of_furtherSite context hs
    obtain ⟨p, hp, hreg⟩ := hpart
    obtain ⟨g, hg, hshows⟩ := (Registers.of_mem_mapM hparts hr hp hreg).1
    obtain ⟨r, hr, hshown⟩ := hshows site List.mem_cons_self
    refine ⟨r, get?_of_stack h ?_, hshown⟩
    rw [he]
    exact List.mem_flatMap.2 ⟨g, hg, hr⟩

/-- A stack has exactly the functions that are embedded at the sites of its API: each under the name
and with the definition of its site, where its logical id is referred to. There is no stack if two
definitions that differ are embedded under one name. -/
theorem functions_of_stack (context : Context) (api : Api) :
    (∀ s, stack context api = .ok s → IsRegistry api s) ∧
    ∀ a ∈ api.sites, ∀ b ∈ api.sites, ∀ d e, a.name = b.name → a.Embeds d → b.Embeds e →
      d.same e = false → ∃ failure, stack context api = .error failure := by
  refine ⟨fun s => isRegistry_of_stack, ?_⟩
  intro a ha b hb d e hn hd he hne
  cases h : stack context api with
  | error failure => exact ⟨failure, rfl⟩
  | ok s =>
    have hr := isRegistry_of_stack h
    obtain ⟨k, hk, hkd⟩ := hr.definition ha hd
    obtain ⟨k', hk', hke⟩ := hr.definition hb he
    rw [hn] at hk
    cases hk.symm.trans hk'
    rw [Json.same_trans (Json.same_symm hkd) hke] at hne
    cases hne

/-- An API that embeds a data source, a conflict handler, and two authorizers. -/
def embeddingApi (additional : String) : Api :=
  { apiWith [⟨"users", none, .lambda ⟨source "users.handler", .none⟩⟩] []
      [⟨"Query", "users", .unit "users", ⟨none, none, none⟩, none,
        some ⟨none, some "LAMBDA", source "sync.handler"⟩, .empty, none⟩] with
    authentication := .authorizer ⟨source "authorize.handler", none, none⟩
    additionalAuthentications := [.authorizer ⟨source additional, none, none⟩] }
where
  source (handler : String) : FunctionSource :=
    ⟨none, none, none, some (.obj [("handler", .str handler)])⟩

theorem queryIds?_embeddingApi : queryIds? (embeddingApi "authorize.handler") =
    some ["GraphQlApi", "GraphQlSchema", "LambdaAuthorizerPermission", "GraphQlDsusers",
      "GraphQlDsusersRole", "GraphQlResolverQueryusers"] := by
  decide +kernel

/-- Two authorizers with one definition are one function, and with two there is no stack. -/
theorem functions_embeddingApi :
    (∃ s, stack (.uniform querySchema) (embeddingApi "authorize.handler") = .ok s ∧
      IsRegistry (embeddingApi "authorize.handler") s ∧
      (embeddingApi "authorize.handler").sites.map Site.name =
        ["apiAuthorizer", "apiAuthorizer", "users", "Query_users_Sync"]) ∧
    ∃ failure, stack (.uniform querySchema) (embeddingApi "other.handler") = .error failure := by
  constructor
  · obtain ⟨s, hs⟩ := exists_stack_of_queryIds? rfl queryIds?_embeddingApi (by decide)
    exact ⟨s, hs, (functions_of_stack _ _).1 s hs, by decide⟩
  · exact (functions_of_stack _ (embeddingApi "other.handler")).2 _ (.head _) _
      (.tail _ (.head _)) _ _ rfl rfl rfl (by decide)

end ApiStack.Compile
