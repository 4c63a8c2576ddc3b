import ApiStack.Proofs.Config.Issues
import ApiStack.Proofs.Config.Lifting

namespace ApiStack.Config

structure Api.IsLimited (api : Api) : Prop where
  queryDepthLimit : ∀ n ∈ api.queryDepthLimit, 1 ≤ n ∧ n ≤ 75
  resolverCountLimit : ∀ n ∈ api.resolverCountLimit, 1 ≤ n ∧ n ≤ 1000
  caching : ∀ c ∈ api.caching, c.IsSound
  waf : ∀ w ∈ api.waf, w.IsSound
  apiKeys : ∀ key ∈ api.apiKeys.values, key.IsSound
  pipelineFunctions : ∀ f ∈ api.pipelineFunctions.values, IsSoundBatch f.maxBatchSize
  resolvers : ∀ r ∈ api.resolvers.values, IsSoundBatch r.maxBatchSize ∧ ∀ c ∈ r.caching, c.IsSound

def Api.handlers (api : Api) : List Handler :=
  api.pipelineFunctions.values.map PipelineFunction.handler
    ++ api.resolvers.values.map Resolver.handler

theorem mem_of_mem_lifted {base name : String} {index : Nat} {uses : List FunctionUse}
    {f : AuthoredFunction} (h : (name, f) ∈ FunctionUse.lifted base index uses) :
    .inline f ∈ uses := by
  induction uses generalizing index with
  | nil => cases h
  | cons used rest ih =>
    cases used with
    | named _ => exact List.mem_cons_of_mem _ (ih h)
    | inline g =>
      rcases List.mem_cons.1 h with he | h
      · cases he
        exact List.mem_cons_self
      · exact List.mem_cons_of_mem _ (ih h)

theorem mem_of_mem_liftedFunctions {key name : String} {r : AuthoredResolver}
    {f : AuthoredFunction} (h : (name, f) ∈ r.liftedFunctions key) :
    .inline f ∈ r.functions.getD [] := by
  unfold AuthoredResolver.liftedFunctions at h
  split at h
  · cases h
  · exact mem_of_mem_lifted h

structure AuthoredResolver.IsLimited (r : AuthoredResolver) : Prop where
  maxBatchSize : IsSoundBatch r.maxBatchSize
  caching : ∀ c ∈ r.caching, c.IsSound
  functions : ∀ used ∈ r.functions.getD [], used.IsSound

theorem ResolverInput.IsSound.isLimited {input : ResolverInput} (h : input.IsSound) :
    input.toResolver.IsLimited := by
  cases input with
  | dataSource name =>
    refine ⟨?_, ?_, ?_⟩ <;> simp [toResolver, AuthoredResolver.plain, IsSoundBatch]
  | settings r => exact ⟨h.maxBatchSize, h.caching, h.functions⟩

theorem ResolverInput.IsSound.handler {input : ResolverInput} (h : input.IsSound) :
    input.toResolver.handler.IsSound := by
  cases input with
  | dataSource name => exact nofun
  | settings r => exact AuthoredResolver.IsSound.handler h

namespace Authored

variable {c : Authored}

theorem IsSound.declaredResolvers (h : c.IsSound) : ∀ e ∈ c.declaredResolvers, e.2.IsLimited := by
  intro e he
  obtain ⟨entry, hm, rfl⟩ := List.mem_map.1 he
  exact (h.resolvers _ (List.mem_map_of_mem hm)).isLimited

theorem IsSound.declaredHandlers (h : c.IsSound) :
    ∀ e ∈ c.declaredResolvers, e.2.handler.IsSound := by
  intro e he
  obtain ⟨entry, hm, rfl⟩ := List.mem_map.1 he
  exact (h.resolvers _ (List.mem_map_of_mem hm)).handler

theorem IsSound.allFunctions (h : c.IsSound) : ∀ e ∈ c.allFunctions, e.2.IsSound := by
  intro e he
  rcases List.mem_append.1 he with he | he
  · obtain ⟨entry, hm, rfl⟩ := List.mem_map.1 he
    exact h.pipelineFunctions _ (List.mem_map_of_mem hm)
  · obtain ⟨⟨key, r⟩, hr, he⟩ := List.mem_flatMap.1 he
    exact (h.declaredResolvers _ hr).functions _ (mem_of_mem_liftedFunctions he)

theorem toResolver?_eq_some {key : String} {r : AuthoredResolver} {x : Resolver}
    (h : r.toResolver? key = some x) :
    x.maxBatchSize = r.maxBatchSize ∧ x.caching = r.caching ∧ x.handler = r.handler := by
  obtain ⟨place, -, h⟩ := Option.bind_eq_some_iff.1 h
  obtain ⟨kind, -, h⟩ := Option.bind_eq_some_iff.1 h
  cases h
  exact ⟨rfl, rfl, rfl⟩

variable {api : Api}

theorem exists_of_mem_pipelineFunctions (hn : c.normalize = .ok api) {f : PipelineFunction}
    (hf : f ∈ api.pipelineFunctions.values) : ∃ e ∈ c.allFunctions, e.2.named e.1 = f := by
  obtain ⟨es, hes, he⟩ := bind_eq_ok_iff.1 hn
  obtain ⟨rs, -, g⟩ := grows_entities hes
  cases he
  obtain ⟨e, he, rfl⟩ := List.mem_map.1 hf
  have hfs : es.pipelineFunctions.entries = _ := g.pipelineFunctions
  rw [hfs] at he
  obtain ⟨entry, hm, rfl⟩ := List.mem_map.1 he
  exact ⟨entry, hm, rfl⟩

theorem exists_of_mem_resolvers (hn : c.normalize = .ok api) {r : Resolver}
    (hr : r ∈ api.resolvers.values) :
    ∃ e ∈ c.declaredResolvers, e.2.toResolver? e.1 = some r := by
  obtain ⟨es, hes, he⟩ := bind_eq_ok_iff.1 hn
  obtain ⟨rs, hrs, g⟩ := grows_entities hes
  cases he
  obtain ⟨e, he, rfl⟩ := List.mem_map.1 hr
  rw [g.resolvers] at he
  rcases OrderedMap.mem_entries_insertAll he with he | he
  · cases he
  · obtain ⟨x, hx, rfl⟩ := List.mem_map.1 he
    obtain ⟨e, he, hx⟩ := exists_of_mem_right hrs hx
    exact ⟨e, he, hx⟩

theorem IsSound.namedKeys (h : c.IsSound) : ∀ key ∈ (namedKeys c.apiKeys).values, key.IsSound := by
  intro key hk
  obtain ⟨e, he, rfl⟩ := List.mem_map.1 hk
  rcases OrderedMap.mem_entries_insertAll he with he | he
  · cases he
  · obtain ⟨input, hi, rfl⟩ := List.mem_map.1 he
    exact h.apiKeys input hi

theorem IsSound.isLimited (h : c.IsSound) (hn : c.normalize = .ok api) : api.IsLimited := by
  have hfunctions : ∀ f ∈ api.pipelineFunctions.values, IsSoundBatch f.maxBatchSize := by
    intro f hf
    obtain ⟨e, he, rfl⟩ := exists_of_mem_pipelineFunctions hn hf
    exact (h.allFunctions e he).maxBatchSize
  have hresolvers : ∀ r ∈ api.resolvers.values,
      IsSoundBatch r.maxBatchSize ∧ ∀ c ∈ r.caching, c.IsSound := by
    intro r hr
    obtain ⟨e, he, hx⟩ := exists_of_mem_resolvers hn hr
    obtain ⟨hbatch, hcaching, -⟩ := toResolver?_eq_some hx
    have hl := h.declaredResolvers e he
    rw [hbatch, hcaching]
    exact ⟨hl.maxBatchSize, hl.caching⟩
  obtain ⟨es, -, he⟩ := bind_eq_ok_iff.1 hn
  cases he
  exact ⟨h.queryDepthLimit, h.resolverCountLimit, h.caching, h.waf, h.namedKeys, hfunctions,
    hresolvers⟩

/-- No handler of the API in full has both code and templates. -/
theorem IsSound.handlers (h : c.IsSound) (hn : c.normalize = .ok api) :
    ∀ handler ∈ api.handlers, handler.IsSound := by
  intro handler hh
  rcases List.mem_append.1 hh with hh | hh
  · obtain ⟨f, hf, rfl⟩ := List.mem_map.1 hh
    obtain ⟨e, he, rfl⟩ := exists_of_mem_pipelineFunctions hn hf
    exact (h.allFunctions e he).handler
  · obtain ⟨r, hr, rfl⟩ := List.mem_map.1 hh
    obtain ⟨e, he, hx⟩ := exists_of_mem_resolvers hn hr
    obtain ⟨-, -, hhandler⟩ := toResolver?_eq_some hx
    rw [hhandler]
    exact h.declaredHandlers e he

end Authored

end ApiStack.Config
