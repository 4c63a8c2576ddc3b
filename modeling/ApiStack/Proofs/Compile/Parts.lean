import ApiStack.Proofs.Compile.Assembly
import ApiStack.Proofs.Compile.References.DataSource
import ApiStack.Proofs.Compile.References.Resolver
import ApiStack.Proofs.Compile.References.Waf

namespace ApiStack.Compile

open Config

theorem forall_mem_parts {context : Context} {api : Api} {P : Build Graph → Prop}
    (hendpoint : P (endpoint api)) (hschema : P (liftM (schema context api)))
    (hdomain : P (pure (domain api))) (hlogGroup : P (pure (logGroup context api)))
    (hpermission : P (authorizerPermission api)) (hwaf : P (pure (waf api)))
    (hcache : P (pure (cache api)))
    (hapiKey : api.hasAuth .apiKey = true → ∀ key ∈ api.apiKeys.values,
      P (liftM (apiKey context key)))
    (hdataSource : ∀ d ∈ api.dataSources.values, P (dataSource d))
    (hfunction : ∀ f ∈ api.pipelineFunctions.values, P (pipelineFunction context api f))
    (hresolver : ∀ r ∈ api.resolvers.values, P (resolver context api r)) :
    ∀ p ∈ parts context api, P p := by
  have hkeys : ∀ p ∈ (if api.hasAuth .apiKey then
      api.apiKeys.values.map fun key => (apiKey context key : Build Graph) else []), P p := by
    split
    · next h => exact List.forall_mem_map.2 (hapiKey h)
    · intro p hp
      cases hp
  unfold parts
  simp only [List.forall_mem_append, List.forall_mem_cons, List.forall_mem_map]
  exact ⟨⟨⟨⟨⟨hendpoint, hschema, hdomain, hlogGroup, hpermission, hwaf, hcache, by simp⟩,
    hkeys⟩, hdataSource⟩, hfunction⟩, hresolver⟩

/-- Every part amounts to embedding definitions and then giving a result. -/
theorem parts_settle (known : String → Prop) (context : Context) (api : Api) :
    ∀ p ∈ parts context api, Settles known p fun _ => True := by
  let t : Targets := ⟨fun _ => True, fun _ => True, known⟩
  apply forall_mem_parts
  · exact (endpoint_settles (t := t) context api).mono fun _ _ => trivial
  · exact .lift fun _ _ => trivial
  · exact .pure trivial
  · exact .pure trivial
  · exact (authorizerPermission_settles (t := t) api).mono fun _ _ => trivial
  · exact .pure trivial
  · exact .pure trivial
  · intro _ key _
    exact .lift fun _ _ => trivial
  · intro d _
    exact (dataSource_settles (t := t) d).mono fun _ _ => trivial
  · intro f _
    exact (pipelineFunction_settles (t := t) context api f).mono fun _ _ => trivial
  · intro r _
    exact (resolver_settles (t := t) context api r).mono fun _ _ => trivial

/-- A stack consists of the graphs that the parts gave. -/
theorem gives_of_stack {context : Context} {api : Api} {s : Stack}
    (h : stack context api = .ok s) (known : String → Prop)
    (hk : ∀ name ∈ s.functions.keys, known name) :
    ∃ graphs, List.Forall₂ (Gives known) (parts context api) graphs ∧
      s.resources.entries = graphs.flatMap Graph.entries := by
  obtain ⟨graphs, hr, -, he⟩ := entries_of_stack h
  exact ⟨graphs, Gives.of_mapM (parts_settle known context api) hr hk, he⟩

theorem exists_graph_of_part {context : Context} {api : Api} {s : Stack} {p : Build Graph}
    {P : Graph → Prop} (h : stack context api = .ok s) (hp : p ∈ parts context api)
    (hP : Settles (fun _ => True) p P) :
    ∃ g, P g ∧ ∀ e ∈ g.entries, e ∈ s.resources.entries := by
  obtain ⟨graphs, hg, he⟩ := gives_of_stack h (fun _ => True) fun _ _ => trivial
  obtain ⟨g, hm, hpg⟩ := exists_of_mem_left hg hp
  refine ⟨g, hP.of_gives hpg, ?_⟩
  intro e hge
  rw [he]
  exact List.mem_flatMap.2 ⟨g, hm, hge⟩

theorem exists_part_of_entry {context : Context} {api : Api} {s : Stack}
    {e : String × Resource} (h : stack context api = .ok s) (known : String → Prop)
    (hk : ∀ name ∈ s.functions.keys, known name) (he : e ∈ s.resources.entries) :
    ∃ p ∈ parts context api, ∃ g, Gives known p g ∧ e ∈ g.entries ∧
      ∀ e ∈ g.entries, e ∈ s.resources.entries := by
  obtain ⟨graphs, hg, hs⟩ := gives_of_stack h known hk
  rw [hs] at he
  obtain ⟨g, hm, hge⟩ := List.mem_flatMap.1 he
  obtain ⟨p, hp, hpg⟩ := exists_of_mem_right hg hm
  refine ⟨p, hp, g, hpg, hge, ?_⟩
  intro e hge
  rw [hs]
  exact List.mem_flatMap.2 ⟨g, hm, hge⟩

theorem get?_of_stack {context : Context} {api : Api} {s : Stack} {id : String} {r : Resource}
    (h : stack context api = .ok s) (hr : (id, r) ∈ s.resources.entries) :
    s.resources.get? id = some r := by
  obtain ⟨graphs, -, hn, he⟩ := entries_of_stack h
  rw [← Graph.map_fst_flatMap_entries, ← he] at hn
  exact lookup_of_mem hn hr

end ApiStack.Compile
