import ApiStack.Compile.Api
import ApiStack.Proofs.Compile.Build
import ApiStack.Proofs.Compile.Schema
import ApiStack.Proofs.Resource.Graph

namespace ApiStack.Compile

open Config

/-- A graph is assembled if every part gives one and all their resources can be moved. -/
theorem run_assemble_eq_ok_iff {parts : List (Build Graph)} {g g' : Graph} {fs fs' : Functions} :
    (assemble g parts).run fs = (.ok g', fs') ↔
      ∃ graphs, (parts.mapM id).run fs = (.ok graphs, fs') ∧
        g.absorb (graphs.flatMap Graph.entries) = (g', none) := by
  induction parts generalizing g fs with
  | nil =>
    constructor
    · intro h
      cases h
      exact ⟨[], rfl, rfl⟩
    · rintro ⟨graphs, hr, hm⟩
      cases hr
      cases hm
      rfl
  | cons p parts ih =>
    rw [assemble, List.mapM_cons, run_bind_eq_ok_iff]
    constructor
    · rintro ⟨part, mid, hp, h⟩
      obtain ⟨g₁, mid₁, hm, h⟩ := run_bind_eq_ok_iff.1 h
      obtain ⟨hg, rfl⟩ := Prod.mk.inj (hm : (g.merge part, mid) = (.ok g₁, mid₁))
      obtain ⟨graphs, hr, ha⟩ := ih.1 h
      refine ⟨part :: graphs, ?_, ?_⟩
      · exact run_bind_eq_ok_iff.2 ⟨part, mid, hp, run_bind_eq_ok_iff.2 ⟨graphs, fs', hr, rfl⟩⟩
      · exact Graph.absorb_append_eq_none_iff.2 ⟨g₁, Graph.merge_eq_ok_iff.1 hg, ha⟩
    · rintro ⟨graphs', hr, ha⟩
      obtain ⟨part, mid, hp, hr⟩ := run_bind_eq_ok_iff.1 hr
      obtain ⟨graphs, mid', hr, he⟩ := run_bind_eq_ok_iff.1 hr
      cases he
      obtain ⟨g₁, hm, ha⟩ := Graph.absorb_append_eq_none_iff.1 ha
      refine ⟨part, mid, hp, run_bind_eq_ok_iff.2 ⟨g₁, mid, ?_, ih.2 ⟨graphs, hr, ha⟩⟩⟩
      exact run_lift (Graph.merge_eq_ok_iff.2 hm) mid

/-- Once every part gives a graph, what stops the move of their resources is what fails. -/
theorem run_assemble_of_taken {parts : List (Build Graph)} {graphs : List Graph}
    {g g' : Graph} {fs fs' : Functions} {failure : Failure}
    (hr : (parts.mapM id).run fs = (.ok graphs, fs'))
    (ha : g.absorb (graphs.flatMap Graph.entries) = (g', some failure)) :
    ∃ mid, (assemble g parts).run fs = (.error failure, mid) := by
  induction parts generalizing g fs graphs with
  | nil =>
    cases hr
    cases ha
  | cons p parts ih =>
    rw [List.mapM_cons] at hr
    obtain ⟨part, mid, hp, hr⟩ := run_bind_eq_ok_iff.1 hr
    obtain ⟨rest, mid', hr, he⟩ := run_bind_eq_ok_iff.1 hr
    cases he
    rw [id_eq] at hp
    rw [assemble, run_bind_of_ok hp]
    rw [List.flatMap_cons] at ha
    cases hm : g.merge part with
    | ok g₁ =>
      rw [Graph.absorb_append_of_none (Graph.merge_eq_ok_iff.1 hm)] at ha
      rw [run_bind_of_ok (run_lift rfl mid)]
      exact ih hr ha
    | error failure' =>
      obtain ⟨g₁, hs⟩ := Graph.merge_eq_error_iff.1 hm
      rw [Graph.absorb_append_of_some hs] at ha
      cases ha
      exact ⟨mid, run_bind_of_error (run_lift rfl mid)⟩

/-- An assembly fails because a part does, or because the parts in front of some place give an id
that is taken. -/
theorem run_assemble_eq_error {parts : List (Build Graph)} {g : Graph} {fs fs' : Functions}
    {failure : Failure} (h : (assemble g parts).run fs = (.error failure, fs')) :
    (∃ p ∈ parts, ∃ mid mid', p.run mid = (.error failure, mid')) ∨
    ∃ front behind graphs mid g', parts = front ++ behind ∧
      (front.mapM id).run fs = (.ok graphs, mid) ∧
      g.absorb (graphs.flatMap Graph.entries) = (g', some failure) := by
  induction parts generalizing g fs with
  | nil => cases h
  | cons p parts ih =>
    rw [assemble] at h
    rcases run_bind_eq_error_iff.1 h with h | ⟨part, mid, hp, h⟩
    · exact .inl ⟨p, List.mem_cons_self, fs, fs', h⟩
    have hfront : ([p].mapM id).run fs = (.ok [part], mid) := by
      rw [List.mapM_cons]
      exact run_bind_eq_ok_iff.2 ⟨part, mid, hp, rfl⟩
    rcases run_bind_eq_error_iff.1 h with hm | ⟨g₁, mid₁, hm, h⟩
    · -- the resources of this part cannot all be moved
      obtain ⟨hg, -⟩ := Prod.mk.inj (hm : (g.merge part, mid) = (.error failure, fs'))
      obtain ⟨g', ha⟩ := Graph.merge_eq_error_iff.1 hg
      refine .inr ⟨[p], parts, [part], mid, g', rfl, hfront, ?_⟩
      rwa [List.flatMap_singleton]
    obtain ⟨hg, rfl⟩ := Prod.mk.inj (hm : (g.merge part, mid) = (.ok g₁, mid₁))
    rcases ih h with ⟨q, hq, hr⟩ | ⟨front, behind, graphs, last, g', rfl, hr, ha⟩
    · exact .inl ⟨q, List.mem_cons_of_mem _ hq, hr⟩
    · refine .inr ⟨p :: front, behind, part :: graphs, last, g', rfl, ?_, ?_⟩
      · rw [List.mapM_cons]
        exact run_bind_eq_ok_iff.2 ⟨part, mid, hp, run_bind_eq_ok_iff.2 ⟨graphs, last, hr, rfl⟩⟩
      · rw [List.flatMap_cons, Graph.absorb_append_of_none (Graph.merge_eq_ok_iff.1 hg)]
        exact ha

theorem stack_eq_ok_iff {context : Context} {api : Api} {s : Stack} :
    stack context api = .ok s ↔ (assemble .empty (parts context api)).run .empty =
      (.ok s.resources, s.functions) := by
  unfold stack
  split
  · next g fs h =>
    rw [h]
    constructor
    · intro hs
      cases hs
      rfl
    · intro hs
      cases hs
      rfl
  · next failure fs h =>
    rw [h]
    constructor <;> intro hs <;> cases hs

theorem stack_eq_error {context : Context} {api : Api} {failure : Failure} {fs : Functions}
    (h : (assemble .empty (parts context api)).run .empty = (.error failure, fs)) :
    stack context api = .error failure := by
  unfold stack
  rw [h]

/-- Where there is no stack, a part fails, or the parts in front of some place have an id twice. -/
theorem cases_of_stack_eq_error {context : Context} {api : Api} {failure : Failure}
    (h : stack context api = .error failure) :
    (∃ p ∈ parts context api, ∃ mid mid', p.run mid = (.error failure, mid')) ∨
    ∃ front behind graphs mid, parts context api = front ++ behind ∧
      (front.mapM id).run .empty = (.ok graphs, mid) ∧
      ¬(graphs.flatMap Graph.ids).Nodup ∧ ∃ id, failure = .idCollision id := by
  unfold stack at h
  split at h
  · cases h
  · next fs hr =>
    cases h
    rcases run_assemble_eq_error hr with hp | ⟨front, behind, graphs, mid, g', he, hr, ha⟩
    · exact .inl hp
    · have hs := Graph.absorb_eq_some Graph.ids_nodup_empty ha
      rw [Graph.map_fst_flatMap_entries] at hs
      exact .inr ⟨front, behind, graphs, mid, he, hr, hs⟩

/-- A stack holds the resources of the parts in order, under different ids. -/
theorem entries_of_stack {context : Context} {api : Api} {s : Stack}
    (h : stack context api = .ok s) :
    ∃ graphs, ((parts context api).mapM id).run .empty = (.ok graphs, s.functions) ∧
      (graphs.flatMap Graph.ids).Nodup ∧ s.resources.entries = graphs.flatMap Graph.entries := by
  obtain ⟨graphs, hr, ha⟩ := run_assemble_eq_ok_iff.1 (stack_eq_ok_iff.1 h)
  obtain ⟨hn, he⟩ := (Graph.absorb_eq_none_iff Graph.ids_nodup_empty).1 ha
  rw [Graph.map_fst_flatMap_entries] at hn
  exact ⟨graphs, hr, hn, by rw [he]; rfl⟩

theorem stack_of_nodup {context : Context} {api : Api} {graphs : List Graph}
    {functions : Functions}
    (h : ((parts context api).mapM id).run .empty = (.ok graphs, functions))
    (hn : (graphs.flatMap Graph.ids).Nodup) :
    stack context api = .ok ⟨⟨graphs.flatMap Graph.entries⟩, functions⟩ := by
  rw [← Graph.map_fst_flatMap_entries] at hn
  exact stack_eq_ok_iff.2 (run_assemble_eq_ok_iff.2 ⟨graphs, h, Graph.absorb_of_nodup hn⟩)

/-- The first id that repeats one in front of it is what fails. -/
theorem stack_of_taken {context : Context} {api : Api} {graphs : List Graph}
    {functions : Functions} {before behind : List String} {taken : String}
    (h : ((parts context api).mapM id).run .empty = (.ok graphs, functions))
    (he : graphs.flatMap Graph.ids = before ++ taken :: behind) (hn : before.Nodup)
    (ht : taken ∈ before) : stack context api = .error (.idCollision taken) := by
  rw [← Graph.map_fst_flatMap_entries] at he
  obtain ⟨front, rest, hentries, rfl, hrest⟩ := List.map_eq_append_iff.1 he
  obtain ⟨⟨_, r⟩, back, rfl, rfl, -⟩ := List.map_eq_cons_iff.1 hrest
  have ha : Graph.empty.absorb (front ++ (_, r) :: back) = _ := Graph.absorb_of_taken hn ht
  rw [← hentries] at ha
  obtain ⟨fs, hr⟩ := run_assemble_of_taken h ha
  exact stack_eq_error hr

theorem stack_of_not_nodup {context : Context} {api : Api} {graphs : List Graph}
    {functions : Functions}
    (h : ((parts context api).mapM id).run .empty = (.ok graphs, functions))
    (hn : ¬(graphs.flatMap Graph.ids).Nodup) :
    ∃ before id behind, graphs.flatMap Graph.ids = before ++ id :: behind ∧ before.Nodup ∧
      id ∈ before ∧ stack context api = .error (.idCollision id) := by
  rw [← Graph.map_fst_flatMap_entries] at hn
  obtain ⟨before, id, r, behind, he, hb, hid⟩ :=
    Graph.exists_first_taken Graph.ids_nodup_empty hn
  have hids : graphs.flatMap Graph.ids =
      before.map Prod.fst ++ id :: behind.map Prod.fst := by
    rw [← Graph.map_fst_flatMap_entries, he, List.map_append, List.map_cons]
  exact ⟨_, id, _, hids, hb, hid, stack_of_taken h hids hb hid⟩

theorem mem_types_iff_hasAuth {api : Api} {type : AuthType} :
    type ∈ (api.authentication :: api.additionalAuthentications).map AuthProvider.type ↔
      api.hasAuth type = true := by
  simp only [Api.hasAuth, Api.providers, List.any_eq_true, decide_eq_true_eq, List.mem_map]

theorem mapM_keys {context : Context} {api : Api} : (if api.hasAuth .apiKey then
      api.apiKeys.values.map fun key => (apiKey context key : Build Graph) else []).mapM id =
    if AuthType.apiKey ∈
        (api.authentication :: api.additionalAuthentications).map AuthProvider.type then
      api.apiKeys.values.mapM fun key => (apiKey context key : Build Graph)
    else pure [] := by
  simp only [mem_types_iff_hasAuth]
  split
  · exact List.mapM_map
  · rfl

/-- Where the parts of an API give resources, in the order in which they are compiled, these one
behind the other are the stack if their ids are different. Otherwise there is none, for the first id
that repeats one in front of it. The domain, the log group, the firewall and the cache cannot fail,
so they are only given their places. -/
theorem stack_of_parts {context : Context} {api : Api} {endpoint' schema' permission : Graph}
    {keys sources steps resolvers : List Graph} {functions : Functions}
    (h : (do
        let endpoint' ← endpoint api
        let schema' ← schema context api
        let permission ← authorizerPermission api
        let keys ← (if AuthType.apiKey ∈
              (api.authentication :: api.additionalAuthentications).map AuthProvider.type then
            api.apiKeys.values.mapM fun key => (apiKey context key : Build Graph)
          else pure [])
        let sources ← api.dataSources.values.mapM dataSource
        let steps ← api.pipelineFunctions.values.mapM (pipelineFunction context api)
        let resolvers ← api.resolvers.values.mapM (resolver context api)
        return (endpoint', schema', permission, keys, sources, steps, resolvers) :
          Build _).run .empty =
      (.ok (endpoint', schema', permission, keys, sources, steps, resolvers), functions)) :
    let graphs := [endpoint', schema', domain api, logGroup context api, permission, waf api,
      cache api] ++ keys ++ sources ++ steps ++ resolvers
    ((∃ s, stack context api = .ok s) ↔ (graphs.flatMap Graph.ids).Nodup) ∧
    ((graphs.flatMap Graph.ids).Nodup →
      stack context api = .ok ⟨⟨graphs.flatMap Graph.entries⟩, functions⟩) ∧
    (¬(graphs.flatMap Graph.ids).Nodup → ∃ before id behind,
      graphs.flatMap Graph.ids = before ++ id :: behind ∧ before.Nodup ∧ id ∈ before ∧
        stack context api = .error (.idCollision id)) := by
  intro graphs
  have hr : ((parts context api).mapM id).run .empty = (.ok graphs, functions) := by
    have hlist := run_bind_of_ok (f := fun (endpoint', schema', permission, keys, sources, steps,
      resolvers) => return [endpoint', schema', domain api, logGroup context api, permission,
        waf api, cache api] ++ keys ++ sources ++ steps ++ resolvers) h
    simp only [bind_assoc, pure_bind] at hlist
    simp only [parts, List.mapM_append, mapM_keys, List.mapM_cons, List.mapM_map, Function.id_comp,
      id_eq, bind_assoc, pure_bind, List.cons_append, List.nil_append]
    exact hlist
  refine ⟨⟨?_, fun hn => ⟨_, stack_of_nodup hr hn⟩⟩, stack_of_nodup hr, stack_of_not_nodup hr⟩
  rintro ⟨s, hs⟩
  by_contra hn
  obtain ⟨_, _, _, _, _, _, he⟩ := stack_of_not_nodup hr hn
  cases hs.symm.trans he

def idsOf? : Except Failure (List Graph) × Functions → Option (List String)
  | (.ok graphs, _) => some (graphs.flatMap Graph.ids)
  | (.error _, _) => none

theorem idsOf?_eq_some {result : Except Failure (List Graph) × Functions} {ids : List String}
    (h : idsOf? result = some ids) :
    ∃ graphs functions, result = (.ok graphs, functions) ∧ graphs.flatMap Graph.ids = ids := by
  rcases result with ⟨_ | graphs, functions⟩
  · cases h
  · cases h
    exact ⟨graphs, functions, rfl, rfl⟩

theorem exists_stack_of_idsOf? {context : Context} {api : Api} {ids : List String}
    (h : idsOf? (((parts context api).mapM id).run .empty) = some ids) (hn : ids.Nodup) :
    ∃ s, stack context api = .ok s := by
  obtain ⟨graphs, functions, hr, rfl⟩ := idsOf?_eq_some h
  exact ⟨_, stack_of_nodup hr hn⟩

/-- The ids of the resources of an API if its schema is a single query. -/
def queryIdsIn? (context : Context) (api : Api) : Option (List String) :=
  idsOf? ((((parts context api).set 1 (pure queryGraph)).mapM id).run .empty)

theorem exists_stack_of_schema {context : Context} {api : Api} {ids : List String}
    (h : schema context api = .ok queryGraph) (hi : queryIdsIn? context api = some ids)
    (hn : ids.Nodup) : ∃ s, stack context api = .ok s := by
  have hp : (parts context api).set 1 (pure queryGraph) = parts context api := by
    unfold parts
    rw [h]
    rfl
  rw [queryIdsIn?, hp] at hi
  exact exists_stack_of_idsOf? hi hn

/-- The ids of the resources of an API where every path holds a single query. -/
def queryIds? (api : Api) : Option (List String) := queryIdsIn? (.uniform querySchema) api

theorem exists_stack_of_queryIds? {api : Api} {pattern : String} {ids : List String}
    (h : api.schema = [pattern]) (hi : queryIds? api = some ids) (hn : ids.Nodup) :
    ∃ s, stack (.uniform querySchema) api = .ok s :=
  exists_stack_of_schema (schema_query h) hi hn

/-- Two data sources whose names differ in characters that ids cannot have. -/
def clashingApi : Api :=
  apiWith [⟨"user-table", none, .noBackend .none⟩, ⟨"user_table", none, .noBackend .none⟩] [] []

theorem stack_clashingApi :
    stack (.uniform querySchema) clashingApi = .error (.idCollision "GraphQlDsusertable") := by
  have hparts := @stack_of_parts (.uniform querySchema) clashingApi
  rw [schema_query rfl] at hparts
  obtain ⟨-, -, herror⟩ := hparts rfl
  generalize hids : List.flatMap Graph.ids _ = ids at herror
  have hids' : ids = ["GraphQlApi", "GraphQlSchema", "GraphQlDsusertable",
      "GraphQlDsusertable"] := by
    rw [← hids]
    decide +kernel
  obtain ⟨before, id, behind, he, -, hid, hs⟩ := herror (by rw [hids']; decide)
  -- only one id stands there twice
  have htwice : 2 ≤ ids.count id := by
    rw [he, List.count_append, List.count_cons_self]
    have := List.count_pos_iff.2 hid
    omega
  have hmem : id ∈ ids := List.count_pos_iff.1 (by omega)
  rw [hids'] at htwice hmem
  simp only [List.mem_cons, List.not_mem_nil, or_false, or_self] at hmem
  rcases hmem with rfl | rfl | rfl
  · exact absurd htwice (by decide)
  · exact absurd htwice (by decide)
  · exact hs

end ApiStack.Compile
