import ApiStack.Proofs.Config.Lifting
import Mathlib.Data.List.Duplicate

namespace ApiStack.Config

namespace Entities

/-- Why data sources, pipeline functions and resolvers cannot be added to entities: a data source
cannot be read, a name is there twice, or a resolver does not say what it is for or what it uses. -/
inductive Fault (es : Entities) (sources : List (String × AuthoredDataSource))
    (functions : List (String × AuthoredFunction)) (resolvers : List (String × AuthoredResolver)) :
    Failure → Prop
  | unreadable {written failure} (hm : written ∈ sources)
      (h : DataSource.ofAuthored written.1 written.2 = .error failure) :
      Fault es sources functions resolvers failure
  | dataSourceTwice {name}
      (h : List.Duplicate name (es.dataSources.keys ++ sources.map Prod.fst)) :
      Fault es sources functions resolvers (.misconfigured (.inlineDataSource name))
  | functionTwice {name}
      (h : List.Duplicate name (es.pipelineFunctions.keys ++ functions.map Prod.fst)) :
      Fault es sources functions resolvers (.misconfigured (.inlineFunction name))
  | resolverKey {e} (hm : e ∈ resolvers) (h : fieldOf? e.1 e.2 = .none) :
      Fault es sources functions resolvers (.misconfigured (.resolverKey e.1))
  | unitWithoutDataSource {e path} (hm : e ∈ resolvers) (h : e.2.kind? e.1 = .none) :
      Fault es sources functions resolvers (.misconfigured (.unitWithoutDataSource path))
  | pipelineWithoutFunctions {e path} (hm : e ∈ resolvers) (h : e.2.kind? e.1 = .none) :
      Fault es sources functions resolvers (.misconfigured (.pipelineWithoutFunctions path))

variable {es mid : Entities} {failure : Failure}
  {sources sources' : List (String × AuthoredDataSource)}
  {functions functions' : List (String × AuthoredFunction)}
  {resolvers resolvers' : List (String × AuthoredResolver)}

theorem Fault.mono (h : es.Fault sources functions resolvers failure)
    (hs : sources.Sublist sources') (hf : functions.Sublist functions')
    (hr : resolvers.Sublist resolvers') : es.Fault sources' functions' resolvers' failure := by
  cases h with
  | unreadable hm h => exact .unreadable (hs.subset hm) h
  | dataSourceTwice h => exact .dataSourceTwice (h.mono_sublist ((hs.map _).append_left _))
  | functionTwice h => exact .functionTwice (h.mono_sublist ((hf.map _).append_left _))
  | resolverKey hm h => exact .resolverKey (hr.subset hm) h
  | unitWithoutDataSource hm h => exact .unitWithoutDataSource (hr.subset hm) h
  | pipelineWithoutFunctions hm h => exact .pipelineWithoutFunctions (hr.subset hm) h

/-- A fault after something was added is a fault of all that is added. -/
theorem Fault.after {rs : List Resolver} (resolvers : List (String × AuthoredResolver))
    (hg : es.Grows sources functions rs mid)
    (h : mid.Fault sources' functions' resolvers' failure) :
    es.Fault (sources ++ sources') (functions ++ functions') (resolvers ++ resolvers') failure := by
  cases h with
  | unreadable hm h => exact .unreadable (List.mem_append_right _ hm) h
  | dataSourceTwice h =>
    rw [hg.dataSources_keys, List.append_assoc, ← List.map_append] at h
    exact .dataSourceTwice h
  | functionTwice h =>
    rw [hg.pipelineFunctions_keys, List.append_assoc, ← List.map_append] at h
    exact .functionTwice h
  | resolverKey hm h => exact .resolverKey (List.mem_append_right _ hm) h
  | unitWithoutDataSource hm h => exact .unitWithoutDataSource (List.mem_append_right _ hm) h
  | pipelineWithoutFunctions hm h => exact .pipelineWithoutFunctions (List.mem_append_right _ hm) h

theorem duplicate_of_contains {m : OrderedMap α} {name : String} (h : m.contains name = true) :
    List.Duplicate name (m.keys ++ [name]) := by
  have hm := OrderedMap.contains_iff.1 h
  rw [List.duplicate_iff_two_le_count, List.count_append, List.count_singleton_self]
  have hpos := List.count_pos_iff.2 hm
  omega

theorem fault_addDataSource {name : String} {source : AuthoredDataSource}
    (h : es.addDataSource name source = .error failure) :
    es.Fault [(name, source)] [] [] failure := by
  rcases bind_eq_error_iff.1 h with h | ⟨d, -, h⟩
  · exact .unreadable List.mem_cons_self h
  · cases h

theorem fault_liftDataSource {name : String} {source : AuthoredDataSource}
    (h : es.liftDataSource name source = .error failure) :
    es.Fault [(name, source)] [] [] failure := by
  unfold liftDataSource at h
  split at h
  · next hc =>
    cases h
    exact .dataSourceTwice (duplicate_of_contains hc)
  · exact fault_addDataSource h

theorem fault_useDataSource {name : String} {used : DataSourceUse}
    (h : es.useDataSource name used = .error failure) :
    es.Fault (used.lifted name) [] [] failure := by
  cases used with
  | named used => cases h
  | inline source => exact fault_liftDataSource (map_eq_error_iff.1 h)

theorem fault_addFunction {name : String} {f : AuthoredFunction}
    (h : es.addFunction name f = .error failure) :
    es.Fault (f.dataSource.lifted name) [(name, f)] [] failure := by
  rcases bind_eq_error_iff.1 h with h | ⟨_, -, h⟩
  · exact (fault_useDataSource h).mono (.refl _) (List.nil_sublist _) (.refl _)
  · cases h

theorem fault_liftFunction {name : String} {f : AuthoredFunction}
    (h : es.liftFunction name f = .error failure) :
    es.Fault (f.dataSource.lifted name) [(name, f)] [] failure := by
  unfold liftFunction at h
  split at h
  · next hc =>
    cases h
    exact .functionTwice (duplicate_of_contains hc)
  · exact fault_addFunction h

theorem fault_useFunctions {base : String} {index : Nat} {uses : List FunctionUse}
    (h : es.useFunctions base index uses = .error failure) :
    es.Fault (liftedFrom (FunctionUse.lifted base index uses))
      (FunctionUse.lifted base index uses) [] failure := by
  induction uses generalizing es index with
  | nil => cases h
  | cons used rest ih =>
    cases used with
    | named name =>
      rcases bind_eq_error_iff.1 h with h | ⟨_, -, h⟩
      · exact ih h
      · cases h
    | inline f =>
      rcases bind_eq_error_iff.1 h with h | ⟨mid, hl, h⟩
      · exact (fault_liftFunction h).mono (List.sublist_append_left _ _)
          (List.sublist_append_left _ _) (.refl _)
      · rcases bind_eq_error_iff.1 h with h | ⟨_, -, h⟩
        · exact (ih h).after [] (grows_liftFunction hl)
        · cases h

theorem fault_useBackend {path key : String} {r : AuthoredResolver}
    (h : es.useBackend path (r.base key) r = .error failure) :
    es.Fault (r.liftedDataSources key) (r.liftedFunctions key) [(key, r)] failure := by
  unfold useBackend at h
  cases hk : kindOf r with
  | unit =>
    simp only [hk] at h
    cases hd : r.dataSource with
    | none =>
      simp only [hd] at h
      cases h
      refine .unitWithoutDataSource List.mem_cons_self ?_
      simp only [AuthoredResolver.kind?, hk, hd, Option.map_none]
    | some used =>
      simp only [hd] at h
      have hfault := fault_useDataSource (map_eq_error_iff.1 h)
      refine hfault.mono ?_ (List.nil_sublist _) (List.nil_sublist _)
      simp only [AuthoredResolver.liftedDataSources, hk, hd, Option.toList_some,
        List.flatMap_singleton]
      exact .refl _
  | pipeline =>
    simp only [hk] at h
    cases hf : r.functions with
    | none =>
      simp only [hf] at h
      cases h
      refine .pipelineWithoutFunctions List.mem_cons_self ?_
      simp only [AuthoredResolver.kind?, hk, hf, Option.map_none]
    | some uses =>
      simp only [hf] at h
      have hfault := fault_useFunctions (map_eq_error_iff.1 h)
      simp only [AuthoredResolver.liftedDataSources, AuthoredResolver.liftedFunctions, hk, hf,
        Option.getD_some]
      exact hfault.mono (.refl _) (.refl _) (List.nil_sublist _)

theorem fault_addResolver {key : String} {r : AuthoredResolver}
    (h : es.addResolver key r = .error failure) :
    es.Fault (r.liftedDataSources key) (r.liftedFunctions key) [(key, r)] failure := by
  unfold addResolver at h
  cases hf : fieldOf? key r with
  | none =>
    simp only [hf] at h
    cases h
    exact .resolverKey (e := (key, r)) List.mem_cons_self hf
  | some place =>
    simp only [hf] at h
    have hb : liftedName (place.1 ++ place.2) = r.base key := by rw [AuthoredResolver.base, hf]
    rw [hb] at h
    rcases bind_eq_error_iff.1 h with h | ⟨_, -, h⟩
    · exact fault_useBackend h
    · cases h

theorem fault_foldlM_dataSource {l : List (String × AuthoredDataSource)}
    (hn : (es.dataSources.keys ++ l.map Prod.fst).Nodup)
    (h : l.foldlM (fun es (name, source) => es.addDataSource name source) es = .error failure) :
    es.Fault l [] [] failure := by
  induction l generalizing es with
  | nil => cases h
  | cons first rest ih =>
    obtain ⟨name, source⟩ := first
    rcases bind_eq_error_iff.1 h with h | ⟨mid, ha, h⟩
    · exact (fault_addDataSource h).mono (List.sublist_append_left _ rest) (.refl _) (.refl _)
    · have hg := grows_addDataSource (notMem_of_nodup_append_cons hn) ha
      have hn' : (mid.dataSources.keys ++ rest.map Prod.fst).Nodup := by
        rw [hg.dataSources_keys, List.append_assoc]
        exact hn
      exact (ih hn' h).after [] hg

theorem fault_foldlM_function {l : List (String × AuthoredFunction)}
    (hn : (es.pipelineFunctions.keys ++ l.map Prod.fst).Nodup)
    (h : l.foldlM (fun es (name, f) => es.addFunction name f) es = .error failure) :
    es.Fault (liftedFrom l) l [] failure := by
  induction l generalizing es with
  | nil => cases h
  | cons first rest ih =>
    obtain ⟨name, f⟩ := first
    rcases bind_eq_error_iff.1 h with h | ⟨mid, ha, h⟩
    · exact (fault_addFunction h).mono (List.sublist_append_left _ _)
        (List.sublist_append_left _ rest) (.refl _)
    · have hg := grows_addFunction (notMem_of_nodup_append_cons hn) ha
      have hn' : (mid.pipelineFunctions.keys ++ rest.map Prod.fst).Nodup := by
        rw [hg.pipelineFunctions_keys, List.append_assoc]
        exact hn
      exact (ih hn' h).after [] hg

theorem fault_foldlM_resolver {l : List (String × AuthoredResolver)}
    (h : l.foldlM (fun es (key, r) => es.addResolver key r) es = .error failure) :
    es.Fault (l.flatMap fun (key, r) => r.liftedDataSources key)
      (l.flatMap fun (key, r) => r.liftedFunctions key) l failure := by
  induction l generalizing es with
  | nil => cases h
  | cons first rest ih =>
    obtain ⟨key, r⟩ := first
    rcases bind_eq_error_iff.1 h with h | ⟨mid, ha, h⟩
    · exact (fault_addResolver h).mono (List.sublist_append_left _ _)
        (List.sublist_append_left _ _) (List.sublist_append_left _ rest)
    · obtain ⟨_, -, hg⟩ := grows_addResolver ha
      exact (ih h).after [(key, r)] hg

end Entities

namespace Authored

/-- What makes a configuration fail to be put in full. -/
theorem fault_of_entities {c : Authored} {failure : Failure} (h : c.entities = .error failure) :
    Entities.none.Fault c.allDataSources c.allFunctions c.declaredResolvers failure := by
  have hd : (Entities.none.dataSources.keys
      ++ c.dataSources.merged.entries.map Prod.fst).Nodup := c.dataSources.merged.nodup
  have hf : (c.declaredFunctions.map Prod.fst).Nodup := by
    rw [declaredFunctions, List.map_map]
    exact c.pipelineFunctions.merged.nodup
  rw [entities_eq] at h
  rcases bind_eq_error_iff.1 h with h | ⟨es₁, h₁, h⟩
  · exact (Entities.fault_foldlM_dataSource hd h).mono (List.sublist_append_left _ _)
      (List.nil_sublist _) (List.nil_sublist _)
  · have g₁ := Entities.grows_foldlM_dataSource hd h₁
    have hk : es₁.pipelineFunctions.keys = [] := g₁.pipelineFunctions_keys
    have hf' : (es₁.pipelineFunctions.keys ++ c.declaredFunctions.map Prod.fst).Nodup := by
      rwa [hk, List.nil_append]
    rcases bind_eq_error_iff.1 h with h | ⟨es₂, h₂, h⟩
    · have hfault := (Entities.fault_foldlM_function hf' h).after [] g₁
      refine hfault.mono ?_ (List.sublist_append_left _ _) (List.nil_sublist _)
      exact (List.sublist_append_left _ _).append_left _
    · have g₂ := Entities.grows_foldlM_function hf' h₂
      have hfault := (Entities.fault_foldlM_resolver h).after [] (g₁.trans g₂)
      rw [List.append_assoc] at hfault
      exact hfault

end Authored

/-- A definition that is lifted gets a name that is taken. -/
inductive IsConflict (name : String) : Failure → Prop
  | dataSource : IsConflict name (.misconfigured (.inlineDataSource name))
  | pipelineFunction : IsConflict name (.misconfigured (.inlineFunction name))

/-- Every data source can be read, and every resolver says what it is for and what it uses. -/
structure Authored.IsComplete (c : Authored) : Prop where
  dataSources : ∀ e ∈ c.allDataSources, ∃ d, DataSource.ofAuthored e.1 e.2 = .ok d
  resolvers : ∀ e ∈ c.declaredResolvers, ∃ r, e.2.toResolver? e.1 = some r

section Failures

variable {c : Authored} {failure : Failure} {name : String}

theorem fault_of_normalize (h : c.normalize = .error failure) :
    Entities.none.Fault c.allDataSources c.allFunctions c.declaredResolvers failure := by
  rcases bind_eq_error_iff.1 h with h | ⟨_, -, h⟩
  · exact Authored.fault_of_entities h
  · cases h

theorem exists_issues_of_required {path : String} {read : Decode.Reader α} (value : Option Json)
    (h : DataSource.required path read value = .error failure) :
    ∃ issues, failure = .invalid issues := by
  cases value with
  | none =>
    cases h
    exact ⟨_, rfl⟩
  | some value =>
    obtain ⟨fault, -, rfl⟩ := mapError_eq_error_iff.1 h
    exact ⟨_, rfl⟩

theorem exists_issues_of_ofAuthored {source : AuthoredDataSource}
    (h : DataSource.ofAuthored name source = .error failure) :
    ∃ issues, failure = .invalid issues := by
  rcases bind_eq_error_iff.1 h with h | ⟨_, -, h⟩
  · unfold DataSource.backendOf at h
    split at h
    case h_7 =>
      split at h
      · exact exists_issues_of_required (some _) (map_eq_error_iff.1 h)
      · cases h
    all_goals exact exists_issues_of_required _ (map_eq_error_iff.1 h)
  · cases h

theorem duplicate_of_isConflict (h : c.normalize = .error failure) (hf : IsConflict name failure) :
    List.Duplicate name (c.allDataSources.map Prod.fst) ∨
      List.Duplicate name (c.allFunctions.map Prod.fst) := by
  cases fault_of_normalize h with
  | unreadable _ hread =>
    obtain ⟨issues, rfl⟩ := exists_issues_of_ofAuthored hread
    cases hf
  | dataSourceTwice htwice =>
    cases hf
    exact .inl htwice
  | functionTwice htwice =>
    cases hf
    exact .inr htwice
  | resolverKey _ _ => cases hf
  | unitWithoutDataSource _ _ => cases hf
  | pipelineWithoutFunctions _ _ => cases hf

theorem exists_kind_of_isComplete (hc : c.IsComplete) {e : String × AuthoredResolver}
    (hm : e ∈ c.declaredResolvers) :
    (∃ place, Entities.fieldOf? e.1 e.2 = some place) ∧ ∃ kind, e.2.kind? e.1 = some kind := by
  obtain ⟨r, hr⟩ := hc.resolvers e hm
  obtain ⟨place, hp, hr⟩ := Option.bind_eq_some_iff.1 hr
  obtain ⟨kind, hk, -⟩ := Option.bind_eq_some_iff.1 hr
  exact ⟨⟨place, hp⟩, kind, hk⟩

theorem exists_conflict_of_isComplete (hc : c.IsComplete) (h : c.normalize = .error failure) :
    ∃ name, IsConflict name failure := by
  cases fault_of_normalize h with
  | unreadable hm hread =>
    obtain ⟨d, hd⟩ := hc.dataSources _ hm
    cases hd.symm.trans hread
  | dataSourceTwice _ => exact ⟨_, .dataSource⟩
  | functionTwice _ => exact ⟨_, .pipelineFunction⟩
  | resolverKey hm hnone =>
    obtain ⟨⟨place, hp⟩, -⟩ := exists_kind_of_isComplete hc hm
    cases hp.symm.trans hnone
  | unitWithoutDataSource hm hnone =>
    obtain ⟨-, kind, hk⟩ := exists_kind_of_isComplete hc hm
    cases hk.symm.trans hnone
  | pipelineWithoutFunctions hm hnone =>
    obtain ⟨-, kind, hk⟩ := exists_kind_of_isComplete hc hm
    cases hk.symm.trans hnone

theorem nodup_of_normalize {api : Api} (h : c.normalize = .ok api) :
    (c.allDataSources.map Prod.fst).Nodup := by
  obtain ⟨es, hes, -⟩ := bind_eq_ok_iff.1 h
  obtain ⟨rs, -, g⟩ := Authored.grows_entities hes
  exact g.nodup_dataSources

end Failures

end ApiStack.Config
