import ApiStack.Proofs.Config.Lifted
import ApiStack.Proofs.Failure

namespace ApiStack.Config

/-- Data sources and pipeline functions are kept under their names, as in every API in full
(`Authored.isKeyed_normalize`). -/
structure Api.IsKeyed (api : Api) : Prop where
  dataSource : ∀ e ∈ api.dataSources.entries, e.2.name = e.1
  pipelineFunction : ∀ e ∈ api.pipelineFunctions.entries, e.2.name = e.1

/-- A data source is what is written under its name. -/
structure IsReadFrom (written : String × AuthoredDataSource) (d : String × DataSource) :
    Prop where
  name : written.1 = d.1
  source : DataSource.ofAuthored written.1 written.2 = .ok d.2

theorem map_fst_of_isReadFrom {sources : List (String × AuthoredDataSource)}
    {ds : List (String × DataSource)} (h : List.Forall₂ IsReadFrom sources ds) :
    ds.map Prod.fst = sources.map Prod.fst := by
  induction h with
  | nil => rfl
  | cons hr _ ih => rw [List.map_cons, List.map_cons, ih, hr.name]

/-- Entities grow by data sources, pipeline functions and resolvers. Data sources and functions are
new, but one resolver may take the place of another. -/
structure Entities.Grows (es : Entities) (sources : List (String × AuthoredDataSource))
    (functions : List (String × AuthoredFunction)) (resolvers : List Resolver)
    (es' : Entities) : Prop where
  dataSources : ∃ ds, List.Forall₂ IsReadFrom sources ds ∧
    es'.dataSources.entries = es.dataSources.entries ++ ds
  pipelineFunctions : es'.pipelineFunctions.entries = es.pipelineFunctions.entries
    ++ functions.map fun (name, f) => (name, f.named name)
  resolvers : es'.resolvers = es.resolvers.insertAll (resolvers.map fun r => (r.path, r))

namespace Entities

theorem Grows.nil (es : Entities) : es.Grows [] [] [] es where
  dataSources := ⟨[], .nil, (List.append_nil _).symm⟩
  pipelineFunctions := (List.append_nil _).symm
  resolvers := rfl

theorem Grows.trans {es mid es' : Entities} {sources sources' : List (String × AuthoredDataSource)}
    {functions functions' : List (String × AuthoredFunction)} {rs rs' : List Resolver}
    (h : es.Grows sources functions rs mid) (h' : mid.Grows sources' functions' rs' es') :
    es.Grows (sources ++ sources') (functions ++ functions') (rs ++ rs') es' where
  dataSources := by
    obtain ⟨ds, hd, he⟩ := h.dataSources
    obtain ⟨ds', hd', he'⟩ := h'.dataSources
    refine ⟨ds ++ ds', List.rel_append hd hd', ?_⟩
    rw [he', he, List.append_assoc]
  pipelineFunctions := by
    rw [h'.pipelineFunctions, h.pipelineFunctions, List.map_append, List.append_assoc]
  resolvers := by
    rw [h'.resolvers, h.resolvers, List.map_append]
    exact (List.foldl_append ..).symm

theorem grows_addDataSource {es es' : Entities} {name : String} {source : AuthoredDataSource}
    (hn : name ∉ es.dataSources.keys) (h : es.addDataSource name source = .ok es') :
    es.Grows [(name, source)] [] [] es' := by
  obtain ⟨d, hd, he⟩ := bind_eq_ok_iff.1 h
  cases he
  refine ⟨⟨[(name, d)], .cons ⟨rfl, hd⟩ .nil, ?_⟩, (List.append_nil _).symm, rfl⟩
  exact OrderedMap.entries_insert_of_notMem hn d

theorem grows_liftDataSource {es es' : Entities} {name : String} {source : AuthoredDataSource}
    (h : es.liftDataSource name source = .ok es') : es.Grows [(name, source)] [] [] es' := by
  unfold liftDataSource at h
  split at h
  · cases h
  · next hn => exact grows_addDataSource (fun hm => hn (OrderedMap.contains_iff.2 hm)) h

theorem grows_useDataSource {es es' : Entities} {name used : String} {u : DataSourceUse}
    (h : es.useDataSource name u = .ok (used, es')) :
    used = u.nameOr name ∧ es.Grows (u.lifted name) [] [] es' := by
  cases u with
  | named used =>
    cases h
    exact ⟨rfl, .nil es⟩
  | inline source =>
    obtain ⟨mid, hm, he⟩ := map_eq_ok_iff.1 h
    cases he
    exact ⟨rfl, grows_liftDataSource hm⟩

theorem grows_insertFunction {es : Entities} {name : String}
    (hn : name ∉ es.pipelineFunctions.keys) (f : AuthoredFunction) :
    es.Grows [] [(name, f)] []
      { es with pipelineFunctions := es.pipelineFunctions.insert name (f.named name) } :=
  ⟨⟨[], .nil, (List.append_nil _).symm⟩, OrderedMap.entries_insert_of_notMem hn _, rfl⟩

theorem grows_insertResolver (es : Entities) (r : Resolver) :
    es.Grows [] [] [r] { es with resolvers := es.resolvers.insert r.path r } :=
  ⟨⟨[], .nil, (List.append_nil _).symm⟩, (List.append_nil _).symm, rfl⟩

theorem grows_addFunction {es es' : Entities} {name : String} {f : AuthoredFunction}
    (hn : name ∉ es.pipelineFunctions.keys) (h : es.addFunction name f = .ok es') :
    es.Grows (f.dataSource.lifted name) [(name, f)] [] es' := by
  obtain ⟨⟨used, mid⟩, hu, h⟩ := bind_eq_ok_iff.1 h
  obtain ⟨rfl, hg⟩ := grows_useDataSource hu
  cases h
  have hm : mid.pipelineFunctions.entries = es.pipelineFunctions.entries :=
    hg.pipelineFunctions.trans (List.append_nil _)
  have hn' : name ∉ mid.pipelineFunctions.keys := by
    rw [OrderedMap.keys, hm]
    exact hn
  have h := hg.trans (grows_insertFunction hn' f)
  rwa [List.append_nil] at h

theorem grows_liftFunction {es es' : Entities} {name : String} {f : AuthoredFunction}
    (h : es.liftFunction name f = .ok es') :
    es.Grows (f.dataSource.lifted name) [(name, f)] [] es' := by
  unfold liftFunction at h
  split at h
  · cases h
  · next hn => exact grows_addFunction (fun hm => hn (OrderedMap.contains_iff.2 hm)) h

theorem grows_useFunctions {es es' : Entities} {base : String} {index : Nat}
    {uses : List FunctionUse} {names : List String}
    (h : es.useFunctions base index uses = .ok (names, es')) :
    names = FunctionUse.names base index uses ∧
      es.Grows (liftedFrom (FunctionUse.lifted base index uses))
        (FunctionUse.lifted base index uses) [] es' := by
  induction uses generalizing es index names with
  | nil =>
    cases h
    exact ⟨rfl, .nil _⟩
  | cons used rest ih =>
    cases used with
    | named name =>
      obtain ⟨⟨names', mid⟩, hr, he⟩ := bind_eq_ok_iff.1 h
      cases he
      obtain ⟨rfl, hg⟩ := ih hr
      exact ⟨rfl, hg⟩
    | inline f =>
      obtain ⟨mid, hl, h⟩ := bind_eq_ok_iff.1 h
      obtain ⟨⟨names', mid'⟩, hr, he⟩ := bind_eq_ok_iff.1 h
      cases he
      obtain ⟨rfl, hg⟩ := ih hr
      exact ⟨rfl, (grows_liftFunction hl).trans hg⟩

theorem grows_useBackend {es es' : Entities} {path key : String} {r : AuthoredResolver}
    {kind : ResolverKind} (h : es.useBackend path (r.base key) r = .ok (kind, es')) :
    r.kind? key = some kind ∧
      es.Grows (r.liftedDataSources key) (r.liftedFunctions key) [] es' := by
  unfold useBackend at h
  cases hk : kindOf r with
  | unit =>
    simp only [hk] at h
    cases hd : r.dataSource with
    | none =>
      simp only [hd] at h
      cases h
    | some used =>
      simp only [hd] at h
      obtain ⟨⟨name, mid⟩, hu, he⟩ := map_eq_ok_iff.1 h
      cases he
      obtain ⟨rfl, hg⟩ := grows_useDataSource hu
      refine ⟨by simp only [AuthoredResolver.kind?, hk, hd, Option.map_some], ?_⟩
      simp only [AuthoredResolver.liftedDataSources, AuthoredResolver.liftedFunctions, hk, hd,
        Option.toList_some, List.flatMap_singleton]
      exact hg
  | pipeline =>
    simp only [hk] at h
    cases hf : r.functions with
    | none =>
      simp only [hf] at h
      cases h
    | some uses =>
      simp only [hf] at h
      obtain ⟨⟨names, mid⟩, hu, he⟩ := map_eq_ok_iff.1 h
      cases he
      obtain ⟨rfl, hg⟩ := grows_useFunctions hu
      refine ⟨by simp only [AuthoredResolver.kind?, hk, hf, Option.map_some], ?_⟩
      simp only [AuthoredResolver.liftedDataSources, AuthoredResolver.liftedFunctions, hk, hf,
        Option.getD_some]
      exact hg

theorem grows_addResolver {es es' : Entities} {key : String} {r : AuthoredResolver}
    (h : es.addResolver key r = .ok es') :
    ∃ x, r.toResolver? key = some x ∧
      es.Grows (r.liftedDataSources key) (r.liftedFunctions key) [x] es' := by
  unfold addResolver at h
  cases hf : fieldOf? key r with
  | none =>
    simp only [hf] at h
    cases h
  | some place =>
    obtain ⟨type, field⟩ := place
    simp only [hf] at h
    obtain ⟨⟨kind, mid⟩, hu, h⟩ := bind_eq_ok_iff.1 h
    have hb : liftedName (type ++ field) = r.base key := by rw [AuthoredResolver.base, hf]
    rw [hb] at hu
    obtain ⟨hk, hg⟩ := grows_useBackend hu
    cases h
    refine ⟨⟨type, field, kind, r.handler, r.maxBatchSize, r.sync, r.substitutions, r.caching⟩,
      ?_, ?_⟩
    · rw [AuthoredResolver.toResolver?, hf, hk]
      rfl
    · have h := hg.trans (grows_insertResolver mid
        ⟨type, field, kind, r.handler, r.maxBatchSize, r.sync, r.substitutions, r.caching⟩)
      rwa [List.append_nil, List.append_nil] at h

theorem Grows.dataSources_keys {es es' : Entities}
    {sources : List (String × AuthoredDataSource)}
    {functions : List (String × AuthoredFunction)} {rs : List Resolver}
    (h : es.Grows sources functions rs es') :
    es'.dataSources.keys = es.dataSources.keys ++ sources.map Prod.fst := by
  obtain ⟨ds, hd, he⟩ := h.dataSources
  rw [OrderedMap.keys, he, List.map_append, map_fst_of_isReadFrom hd]
  rfl

theorem Grows.pipelineFunctions_keys {es es' : Entities}
    {sources : List (String × AuthoredDataSource)}
    {functions : List (String × AuthoredFunction)} {rs : List Resolver}
    (h : es.Grows sources functions rs es') :
    es'.pipelineFunctions.keys = es.pipelineFunctions.keys ++ functions.map Prod.fst := by
  rw [OrderedMap.keys, h.pipelineFunctions, List.map_append, List.map_map]
  rfl

theorem grows_foldlM_dataSource {es es' : Entities} {l : List (String × AuthoredDataSource)}
    (hn : (es.dataSources.keys ++ l.map Prod.fst).Nodup)
    (h : l.foldlM (fun es (name, source) => es.addDataSource name source) es = .ok es') :
    es.Grows l [] [] es' := by
  induction l generalizing es with
  | nil =>
    cases h
    exact .nil _
  | cons first rest ih =>
    obtain ⟨name, source⟩ := first
    obtain ⟨mid, ha, h⟩ := bind_eq_ok_iff.1 h
    have hnew : name ∉ es.dataSources.keys := notMem_of_nodup_append_cons hn
    have hg := grows_addDataSource hnew ha
    have hn' : (mid.dataSources.keys ++ rest.map Prod.fst).Nodup := by
      rw [hg.dataSources_keys, List.append_assoc]
      exact hn
    exact hg.trans (ih hn' h)

theorem grows_foldlM_function {es es' : Entities} {l : List (String × AuthoredFunction)}
    (hn : (es.pipelineFunctions.keys ++ l.map Prod.fst).Nodup)
    (h : l.foldlM (fun es (name, f) => es.addFunction name f) es = .ok es') :
    es.Grows (liftedFrom l) l [] es' := by
  induction l generalizing es with
  | nil =>
    cases h
    exact .nil _
  | cons first rest ih =>
    obtain ⟨name, f⟩ := first
    obtain ⟨mid, ha, h⟩ := bind_eq_ok_iff.1 h
    have hnew : name ∉ es.pipelineFunctions.keys := notMem_of_nodup_append_cons hn
    have hg := grows_addFunction hnew ha
    have hn' : (mid.pipelineFunctions.keys ++ rest.map Prod.fst).Nodup := by
      rw [hg.pipelineFunctions_keys, List.append_assoc]
      exact hn
    exact hg.trans (ih hn' h)

theorem grows_foldlM_resolver {es es' : Entities} {l : List (String × AuthoredResolver)}
    (h : l.foldlM (fun es (key, r) => es.addResolver key r) es = .ok es') :
    ∃ rs, List.Forall₂ (fun e x => e.2.toResolver? e.1 = some x) l rs ∧
      es.Grows (l.flatMap fun (key, r) => r.liftedDataSources key)
        (l.flatMap fun (key, r) => r.liftedFunctions key) rs es' := by
  induction l generalizing es with
  | nil =>
    cases h
    exact ⟨[], .nil, .nil _⟩
  | cons first rest ih =>
    obtain ⟨key, r⟩ := first
    obtain ⟨mid, ha, h⟩ := bind_eq_ok_iff.1 h
    obtain ⟨x, hx, hg⟩ := grows_addResolver ha
    obtain ⟨rs, hrs, hg'⟩ := ih h
    exact ⟨x :: rs, .cons hx hrs, hg.trans hg'⟩

theorem foldlM_dataSource {es : Entities} {l : List (String × AuthoredDataSource)}
    {ds : List (String × DataSource)} (h : List.Forall₂ IsReadFrom l ds) :
    l.foldlM (fun es (name, source) => es.addDataSource name source) es =
      .ok { es with dataSources := es.dataSources.insertAll ds } := by
  induction h generalizing es with
  | nil => rfl
  | @cons written d _ _ hr _ ih =>
    obtain ⟨name, source⟩ := written
    obtain ⟨name', d⟩ := d
    obtain ⟨rfl, hd⟩ := hr
    have ha : es.addDataSource name source =
        .ok { es with dataSources := es.dataSources.insert name d } :=
      bind_eq_ok_iff.2 ⟨d, hd, rfl⟩
    exact bind_eq_ok_iff.2 ⟨_, ha, ih⟩

theorem foldlM_function_withName (es : Entities) (l : List (String × AuthoredFunction)) :
    (l.map fun e => (e.1, e.2.withName e.1)).foldlM
        (fun es (name, f) => es.addFunction name f) es =
      .ok { es with pipelineFunctions :=
        es.pipelineFunctions.insertAll (l.map fun (name, f) => (name, f.named name)) } := by
  induction l generalizing es with
  | nil => rfl
  | cons e rest ih => exact ih _

theorem useFunctions_named (es : Entities) (base : String) (index : Nat) (names : List String) :
    es.useFunctions base index (names.map .named) = .ok (names, es) := by
  induction names generalizing index with
  | nil => rfl
  | cons name rest ih =>
    rw [List.map_cons, useFunctions, ih]
    rfl

theorem withNames_of_unit {r : AuthoredResolver} (h : kindOf r = .unit) (key : String) :
    r.withNames key =
      { r with dataSource := r.dataSource.map (DataSourceUse.withName (r.base key)) } := by
  rw [AuthoredResolver.withNames, h]

theorem withNames_of_pipeline {r : AuthoredResolver} (h : kindOf r = .pipeline) (key : String) :
    r.withNames key = { r with functions := r.functions.map fun used =>
      (FunctionUse.names (r.base key) 0 used).map .named } := by
  rw [AuthoredResolver.withNames, h]

theorem kindOf_withNames (key : String) (r : AuthoredResolver) :
    kindOf (r.withNames key) = kindOf r := by
  cases h : kindOf r with
  | unit =>
    rw [withNames_of_unit h]
    exact h
  | pipeline =>
    rw [withNames_of_pipeline h, ← h]
    simp only [kindOf, Option.isSome_map]

theorem useBackend_withNames (es : Entities) (path base : String) {key : String}
    {r : AuthoredResolver} {kind : ResolverKind} (h : r.kind? key = some kind) :
    es.useBackend path base (r.withNames key) = .ok (kind, es) := by
  unfold useBackend
  rw [kindOf_withNames]
  unfold AuthoredResolver.kind? at h
  cases hk : kindOf r with
  | unit =>
    simp only [hk] at h ⊢
    obtain ⟨used, hd, rfl⟩ := Option.map_eq_some_iff.1 h
    rw [withNames_of_unit hk, hd]
    rfl
  | pipeline =>
    simp only [hk] at h ⊢
    obtain ⟨uses, hf, rfl⟩ := Option.map_eq_some_iff.1 h
    rw [withNames_of_pipeline hk, hf]
    simp only [Option.map_some, useFunctions_named]
    rfl

theorem addResolver_withNames (es : Entities) {key : String} {r : AuthoredResolver} {x : Resolver}
    (h : r.toResolver? key = some x) : es.addResolver key (r.withNames key) =
      .ok { es with resolvers := es.resolvers.insert x.path x } := by
  obtain ⟨⟨type, field⟩, hf, h⟩ := Option.bind_eq_some_iff.1 h
  obtain ⟨kind, hk, h⟩ := Option.bind_eq_some_iff.1 h
  cases h
  have hf' : fieldOf? key (r.withNames key) = some (type, field) := by
    rw [← hf]
    cases h : kindOf r with
    | unit => rw [withNames_of_unit h]; rfl
    | pipeline => rw [withNames_of_pipeline h]; rfl
  unfold addResolver
  rw [hf']
  simp only [useBackend_withNames _ _ _ hk]
  cases h : kindOf r with
  | unit => rw [withNames_of_unit h]; rfl
  | pipeline => rw [withNames_of_pipeline h]; rfl

theorem foldlM_resolver_withNames {es : Entities} {l : List (String × AuthoredResolver)}
    {rs : List Resolver} (h : List.Forall₂ (fun e x => e.2.toResolver? e.1 = some x) l rs) :
    (l.map fun e => (e.1, e.2.withNames e.1)).foldlM
        (fun es (key, r) => es.addResolver key r) es =
      .ok { es with resolvers := es.resolvers.insertAll (rs.map fun r => (r.path, r)) } := by
  induction h generalizing es with
  | nil => rfl
  | cons hx _ ih => exact bind_eq_ok_iff.2 ⟨_, addResolver_withNames es hx, ih⟩

theorem Grows.nodup_dataSources {es : Entities} {sources : List (String × AuthoredDataSource)}
    {functions : List (String × AuthoredFunction)} {rs : List Resolver}
    (h : none.Grows sources functions rs es) : (sources.map Prod.fst).Nodup := by
  have hn : es.dataSources.keys.Nodup := es.dataSources.nodup
  rw [h.dataSources_keys] at hn
  exact hn

theorem Grows.nodup_functions {es : Entities} {sources : List (String × AuthoredDataSource)}
    {functions : List (String × AuthoredFunction)} {rs : List Resolver}
    (h : none.Grows sources functions rs es) : (functions.map Prod.fst).Nodup := by
  have hn : es.pipelineFunctions.keys.Nodup := es.pipelineFunctions.nodup
  rw [h.pipelineFunctions_keys] at hn
  exact hn

theorem Grows.eq_ofList {es : Entities} {sources : List (String × AuthoredDataSource)}
    {functions : List (String × AuthoredFunction)} {rs : List Resolver}
    {ds : List (String × DataSource)} (h : none.Grows sources functions rs es)
    (hd : es.dataSources.entries = ds) :
    es = ⟨.ofList ds, .ofList (functions.map fun (name, f) => (name, f.named name)),
      .ofList (rs.map fun r => (r.path, r))⟩ := by
  have hfs := h.pipelineFunctions
  have hrs := h.resolvers
  obtain ⟨dataSources, pipelineFunctions, resolvers⟩ := es
  subst hd hrs
  congr
  · apply OrderedMap.ext
    exact (OrderedMap.entries_ofList dataSources.nodup).symm
  · apply OrderedMap.ext
    have hn := pipelineFunctions.nodup
    rw [hfs] at hn ⊢
    exact (OrderedMap.entries_ofList hn).symm

end Entities

namespace Authored

theorem entities_eq (c : Authored) : c.entities = (do
    let es ← c.dataSources.merged.entries.foldlM
      (fun es (name, source) => es.addDataSource name source) .none
    let es ← c.declaredFunctions.foldlM (fun es (name, f) => es.addFunction name f) es
    c.declaredResolvers.foldlM (fun es (key, r) => es.addResolver key r) es) := by
  simp only [declaredFunctions, declaredResolvers, List.foldlM_map]
  rfl

theorem grows_entities {c : Authored} {es : Entities} (h : c.entities = .ok es) :
    ∃ rs, List.Forall₂ (fun e x => e.2.toResolver? e.1 = some x) c.declaredResolvers rs ∧
      Entities.none.Grows c.allDataSources c.allFunctions rs es := by
  rw [entities_eq] at h
  obtain ⟨es₁, h₁, h⟩ := bind_eq_ok_iff.1 h
  obtain ⟨es₂, h₂, h₃⟩ := bind_eq_ok_iff.1 h
  have hd : (Entities.none.dataSources.keys
      ++ c.dataSources.merged.entries.map Prod.fst).Nodup := c.dataSources.merged.nodup
  have g₁ := Entities.grows_foldlM_dataSource hd h₁
  have hk : es₁.pipelineFunctions.keys = [] := g₁.pipelineFunctions_keys
  have hf : (c.declaredFunctions.map Prod.fst).Nodup := by
    rw [declaredFunctions, List.map_map]
    exact c.pipelineFunctions.merged.nodup
  have g₂ := Entities.grows_foldlM_function (by rwa [hk, List.nil_append]) h₂
  obtain ⟨rs, hrs, g₃⟩ := Entities.grows_foldlM_resolver h₃
  refine ⟨rs, hrs, ?_⟩
  have g := (g₁.trans g₂).trans g₃
  rw [List.append_assoc] at g
  exact g

theorem toFunction_withName (name : String) (input : FunctionInput) :
    (input.withName name).toFunction = input.toFunction.withName name := by
  cases input <;> rfl

theorem toResolver_withNames (key : String) (input : ResolverInput) :
    (input.withNames key).toResolver = input.toResolver.withNames key := by
  cases input <;> rfl

theorem declaredResolvers_withNames (c : Authored) :
    c.withNames.declaredResolvers =
      c.declaredResolvers.map fun e => (e.1, e.2.withNames e.1) := by
  simp only [declaredResolvers, withNames, Parts.merged, OrderedMap.mapValues, List.map_map,
    Function.comp_def, toResolver_withNames]

theorem declaredFunctions_withNames {c : Authored} (h : (c.allFunctions.map Prod.fst).Nodup) :
    c.withNames.declaredFunctions = c.allFunctions.map fun e => (e.1, e.2.withName e.1) := by
  have he : c.withNames.pipelineFunctions.merged.entries =
      (c.pipelineFunctions.merged.mapValues FunctionInput.withName).entries
        ++ c.liftedFunctions.map fun e => (e.1, .settings (e.2.withName e.1)) := by
    apply OrderedMap.entries_insertAll
    rw [allFunctions, declaredFunctions, List.map_append, List.map_map] at h
    rw [OrderedMap.mapValues, List.map_append, List.map_map, List.map_map]
    exact h
  rw [declaredFunctions, he]
  simp only [OrderedMap.mapValues, allFunctions, declaredFunctions, List.map_append, List.map_map,
    Function.comp_def, toFunction_withName]
  rfl

theorem dataSources_withNames {c : Authored} (h : (c.allDataSources.map Prod.fst).Nodup) :
    c.withNames.dataSources.merged.entries = c.allDataSources :=
  OrderedMap.entries_insertAll h

/-- Names that stand for what is lifted, which is declared behind the rest, change nothing. -/
theorem entities_withNames {c : Authored} {es : Entities} (h : c.entities = .ok es) :
    c.withNames.entities = .ok es := by
  obtain ⟨rs, hrs, g⟩ := grows_entities h
  obtain ⟨ds, hd, he⟩ := g.dataSources
  rw [entities_eq, dataSources_withNames g.nodup_dataSources,
    declaredFunctions_withNames g.nodup_functions, declaredResolvers_withNames]
  refine bind_eq_ok_iff.2 ⟨_, Entities.foldlM_dataSource hd, ?_⟩
  refine bind_eq_ok_iff.2 ⟨_, Entities.foldlM_function_withName _ _, ?_⟩
  rw [Entities.foldlM_resolver_withNames hrs, g.eq_ofList he]
  rfl

theorem lifted_named (base : String) (index : Nat) (names : List String) :
    FunctionUse.lifted base index (names.map .named) = [] := by
  induction names generalizing index with
  | nil => rfl
  | cons name rest ih => exact ih (index + 1)

theorem liftedFunctions_resolver_withNames (key : String) (r : AuthoredResolver) :
    (r.withNames key).liftedFunctions key = [] := by
  rw [AuthoredResolver.liftedFunctions, Entities.kindOf_withNames]
  cases h : Entities.kindOf r with
  | unit => rfl
  | pipeline =>
    rw [Entities.withNames_of_pipeline h]
    cases r.functions with
    | none => rfl
    | some uses => exact lifted_named _ _ _

theorem liftedDataSources_resolver_withNames (key : String) (r : AuthoredResolver) :
    (r.withNames key).liftedDataSources key = [] := by
  rw [AuthoredResolver.liftedDataSources, Entities.kindOf_withNames]
  cases h : Entities.kindOf r with
  | unit =>
    rw [Entities.withNames_of_unit h]
    cases r.dataSource <;> rfl
  | pipeline =>
    simp only
    rw [liftedFunctions_resolver_withNames]
    rfl

theorem liftedFunctions_withNames (c : Authored) : c.withNames.liftedFunctions = [] := by
  rw [liftedFunctions, declaredResolvers_withNames, List.flatMap_map]
  exact List.flatMap_eq_nil_iff.2 fun e _ => liftedFunctions_resolver_withNames e.1 e.2

theorem liftedFrom_withName (l : List (String × AuthoredFunction)) :
    liftedFrom (l.map fun e => (e.1, e.2.withName e.1)) = [] := by
  rw [liftedFrom, List.flatMap_map]
  exact List.flatMap_eq_nil_iff.2 fun e _ => rfl

theorem liftedDataSources_withNames {c : Authored} (h : (c.allFunctions.map Prod.fst).Nodup) :
    c.withNames.liftedDataSources = [] := by
  rw [liftedDataSources, declaredFunctions_withNames h, liftedFrom_withName,
    declaredResolvers_withNames, List.flatMap_map]
  exact List.flatMap_eq_nil_iff.2 fun e _ => liftedDataSources_resolver_withNames e.1 e.2

theorem name_of_ofAuthored {name : String} {source : AuthoredDataSource} {d : DataSource}
    (h : DataSource.ofAuthored name source = .ok d) : d.name = name := by
  obtain ⟨backend, -, he⟩ := bind_eq_ok_iff.1 h
  cases he
  rfl

/-- The entities of an API in full are kept under their names. -/
theorem isKeyed_normalize {c : Authored} {api : Api} (h : c.normalize = .ok api) :
    api.IsKeyed := by
  obtain ⟨es, hes, he⟩ := bind_eq_ok_iff.1 h
  obtain ⟨rs, -, g⟩ := grows_entities hes
  obtain ⟨ds, hd, hds⟩ := g.dataSources
  have hfs : es.pipelineFunctions.entries = _ := g.pipelineFunctions
  cases he
  constructor
  · intro e hm
    rw [show es.dataSources.entries = ds from hds] at hm
    obtain ⟨written, -, hr⟩ := exists_of_mem_right hd hm
    rw [← hr.name]
    exact name_of_ofAuthored hr.source
  · intro e hm
    rw [hfs] at hm
    obtain ⟨f, -, rfl⟩ := List.mem_map.1 hm
    rfl

/-- Names may stand for what is lifted, if it is declared behind the rest: then nothing is lifted,
and the result is the same. In it every data source and pipeline function, declared or lifted, is
under its name in order. -/
theorem normalize_withNames {c : Authored} {api : Api} (h : c.normalize = .ok api) :
    c.withNames.liftedDataSources = [] ∧ c.withNames.liftedFunctions = [] ∧
    c.withNames.normalize = .ok api ∧
    List.Forall₂ IsReadFrom c.allDataSources api.dataSources.entries ∧
    api.pipelineFunctions.entries =
      c.allFunctions.map fun (name, f) => (name, f.named name) := by
  obtain ⟨es, hes, he⟩ := bind_eq_ok_iff.1 h
  obtain ⟨rs, -, g⟩ := grows_entities hes
  obtain ⟨ds, hd, hds⟩ := g.dataSources
  cases he
  refine ⟨liftedDataSources_withNames g.nodup_functions, liftedFunctions_withNames c,
    bind_eq_ok_iff.2 ⟨es, entities_withNames hes, rfl⟩, ?_, g.pipelineFunctions⟩
  rw [show es.dataSources.entries = ds from hds]
  exact hd

/-- A configuration with definitions where they are used: the data source of a declared pipeline
function and of a resolver, and a pipeline function with a data source of its own. -/
def nested : Authored where
  name := "api"
  authentication := .apiKey
  additionalAuthentications := []
  schema := none
  domain := none
  xrayEnabled := none
  visibility := none
  introspection := none
  queryDepthLimit := none
  resolverCountLimit := none
  substitutions := .empty
  environment := .empty
  waf := none
  tags := .empty
  caching := none
  apiKeys := []
  logging := none
  dataSources := .whole (.ofList [("users", nowhere)])
  pipelineFunctions := .whole (.ofList [("load", .settings (function (.inline nowhere)))])
  resolvers := .whole (.ofList [
    ("Query.a", .settings { AuthoredResolver.plain "" with dataSource := some (.inline nowhere) }),
    ("Query.b", .settings { AuthoredResolver.plain "" with
      kind := none
      functions := some [.named "load", .inline (function (.inline nowhere)),
        .inline (function (.named "users"))] })])
where
  nowhere : AuthoredDataSource := ⟨.noBackend, none, none⟩
  function (used : DataSourceUse) : AuthoredFunction :=
    { AuthoredFunction.plain "" with dataSource := used }

theorem isOk_nested : nested.normalize.isOk = true := by decide +kernel

theorem normalize_nested : ∃ api, nested.normalize = .ok api ∧
    nested.withNames.normalize = .ok api ∧
    api.dataSources.keys = ["users", "load", "Querya", "Queryb_1"] ∧
    api.pipelineFunctions.keys = ["load", "Queryb_1", "Queryb_2"] := by
  obtain ⟨api, h⟩ : ∃ api, nested.normalize = .ok api := by
    have h := isOk_nested
    cases hn : nested.normalize with
    | error failure =>
      rw [hn] at h
      cases h
    | ok api => exact ⟨api, rfl⟩
  obtain ⟨-, -, hw, hd, hf⟩ := normalize_withNames h
  refine ⟨api, h, hw, ?_, ?_⟩
  · rw [OrderedMap.keys, map_fst_of_isReadFrom hd]
    decide +kernel
  · rw [OrderedMap.keys, hf]
    decide +kernel

end Authored

section Text

variable {cs ds : List Char}

theorem toList_append_eq {a b : String} (ha : a.toList = cs) (hb : b.toList = ds) :
    (a ++ b).toList = cs ++ ds := by
  rw [String.toList_append, ha, hb]

/-- A text is read by its characters, which a proof can name without computing them. -/
theorem Api.read_of_toList {text : String} (h : text.toList = cs) : Api.read text = ofChars cs :=
  congrArg Api.ofChars h

end Text

end ApiStack.Config
