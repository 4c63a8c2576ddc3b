import ApiStack.Compile.Resolver
import ApiStack.Proofs.Compile.References.Endpoint
import ApiStack.Proofs.Failure

namespace ApiStack.Compile

open Config Json

variable {t : Targets}

theorem holds_segments {values : OrderedMap Json} (h : EveryEntryOf t.Resolves values.entries)
    (literal : List Char) (pieces : List Template.Piece) :
    EveryEntryIn t.Resolves (Template.segments values literal pieces) := by
  induction pieces generalizing literal with
  | nil => simp [Template.segments]
  | cons p rest ih =>
    cases p with
    | char c => exact ih (c :: literal)
    | token name =>
      rw [Template.segments]
      split
      · next value hv =>
        have hm := everyEntryOf_iff.1 h _ (mem_of_lookup hv)
        simp only [everyEntryIn_cons]
        exact ⟨everyEntry_str _, by simp [Intrinsic.sub, hm], ih []⟩
      · exact ih _

theorem holds_substitute {values : OrderedMap Json} (h : EveryEntryOf t.Resolves values.entries)
    (template : String) : (Template.substitute template values).EveryEntry t.Resolves := by
  unfold Template.substitute
  simp only
  split
  · exact Targets.holds_join "" (holds_segments h [] _)
  · exact everyEntry_str template

theorem holds_mergeValues {api entity : OrderedMap Json}
    (ha : EveryEntryOf t.Resolves api.entries) (he : EveryEntryOf t.Resolves entity.entries) :
    EveryEntryOf t.Resolves (Template.mergeValues api entity).entries := by
  rw [everyEntryOf_iff] at ha he ⊢
  intro e hm
  rcases OrderedMap.mem_entries_insertAll hm with hm | hm
  · exact ha e hm
  · exact he e hm

def handlerKeys : List String :=
  ["Code", "Runtime", "RequestMappingTemplate", "ResponseMappingTemplate"]

/-- An entry for code or a template, where variables have the given values. -/
structure IsHandlerEntry (values : OrderedMap Json) (e : String × Json) : Prop where
  key : e.1 ∈ handlerKeys
  value : e.2 = runtime ∨ (∃ text, e.2 = .str text) ∨ ∃ text, e.2 = Template.substitute text values

theorem isHandlerEntry_codeSettings {values : OrderedMap Json} {code : Json}
    (h : (∃ text, code = .str text) ∨ ∃ text, code = Template.substitute text values) :
    ∀ e ∈ codeSettings code, IsHandlerEntry values e := by
  intro e he
  rcases List.mem_cons.1 he with rfl | he
  · exact ⟨by simp [handlerKeys], .inr h⟩
  · cases List.mem_singleton.1 he
    exact ⟨by simp [handlerKeys], .inl rfl⟩

theorem isHandlerEntry_templateSettings {context : Context} {values : OrderedMap Json}
    {key : String} {path : Option String} {entries : List (String × Json)}
    (hk : key ∈ handlerKeys) (h : templateSettings context values key path = .ok entries) :
    ∀ e ∈ entries, IsHandlerEntry values e := by
  cases path with
  | none =>
    cases h
    intro e he
    cases he
  | some path =>
    obtain ⟨j, hj, rfl⟩ := map_eq_ok_iff.1 h
    obtain ⟨text, -, rfl⟩ := map_eq_ok_iff.1 hj
    intro e he
    cases List.mem_singleton.1 he
    exact ⟨hk, .inr (.inr ⟨text, rfl⟩)⟩

theorem isHandlerEntry_handlerSettings {context : Context} {api : Api} {owner : String}
    {handler : Handler} {substitutions : OrderedMap Json} {defaultCode : Option String}
    {entries : List (String × Json)}
    (h : handlerSettings context api owner handler substitutions defaultCode = .ok entries) :
    ∀ e ∈ entries, IsHandlerEntry (Template.mergeValues api.substitutions substitutions) e := by
  unfold handlerSettings at h
  simp only at h
  split at h
  · next code hcode =>
    split at h
    · cases h
    · obtain ⟨j, hj, he⟩ := bind_eq_ok_iff.1 h
      cases he
      obtain ⟨text, -, rfl⟩ := map_eq_ok_iff.1 hj
      exact isHandlerEntry_codeSettings (.inr ⟨text, rfl⟩)
  · split at h
    · obtain ⟨request, hreq, h⟩ := bind_eq_ok_iff.1 h
      obtain ⟨response, hres, h⟩ := bind_eq_ok_iff.1 h
      cases h
      intro e he
      rcases List.mem_append.1 he with he | he
      · exact isHandlerEntry_templateSettings (by simp [handlerKeys]) hreq e he
      · exact isHandlerEntry_templateSettings (by simp [handlerKeys]) hres e he
    · split at h
      · cases h
        exact isHandlerEntry_codeSettings (.inl ⟨_, rfl⟩)
      · cases h
        intro e he
        cases he

theorem holds_handler {api entity : OrderedMap Json} {entries : List (String × Json)}
    (h : ∀ e ∈ entries, IsHandlerEntry (Template.mergeValues api entity) e)
    (ha : (Json.obj api.entries).EveryEntry t.Resolves)
    (he : (Json.obj entity.entries).EveryEntry t.Resolves) :
    EveryEntryOf t.Resolves entries := by
  rw [everyEntry_obj] at ha he
  rw [everyEntryOf_iff]
  rintro ⟨key, value⟩ hm
  obtain ⟨hk, hv⟩ := h _ hm
  constructor
  · apply Targets.resolves_of_ne
    · rintro rfl
      simp [handlerKeys] at hk
    · rintro rfl
      simp [handlerKeys] at hk
  · rcases hv with rfl | ⟨text, rfl⟩ | ⟨text, rfl⟩
    · simp [runtime]
    · exact everyEntry_str text
    · exact holds_substitute (holds_mergeValues ha he) text

theorem syncSettings_settles (s : Sync) (functionName : String) :
    Settles t.function (syncSettings s functionName) fun j =>
      t.Covers s.function.supplies → j.EveryEntry t.Resolves := by
  unfold syncSettings
  simp only
  split
  · exact .pure fun _ => by simp
  · split
    · exact .pure fun _ => by simp
    · apply (functionArn_settles s.function functionName).map
      intro arn harn h
      simp [harn h]

theorem syncEntry_settles (s : Option Sync) (functionName : String) :
    Settles t.function (syncEntry s functionName) fun entries =>
      (∀ e ∈ entries, e.1 = "SyncConfig") ∧
      (t.Covers (syncSupplies s) → EveryEntryOf t.Resolves entries) := by
  cases s with
  | none => exact .pure ⟨by simp, fun _ => everyEntryOf_nil⟩
  | some s =>
    apply (syncSettings_settles s functionName).map
    intro j hj
    refine ⟨by simp, ?_⟩
    intro h
    have hs := hj (Targets.covers_flatMap.1 h s (by simp))
    simp [hs]

def functionIdOf (name : String) : Json :=
  Intrinsic.getAtt (LogicalId.pipelineFunction name) "FunctionId"

/-- The names that a resolver uses are those of entities. -/
def UsesKnown (api : Api) : ResolverKind → Prop
  | .unit name => name ∈ api.dataSources.keys
  | .pipeline names => ∀ name ∈ names, name ∈ api.pipelineFunctions.keys

/-- A resource shows what a resolver uses: one data source, or pipeline functions in order. -/
def ShowsUse (r : Resource) : ResolverKind → Prop
  | .unit name => r.property? "DataSourceName" = some (dataSourceName name)
  | .pipeline names =>
    r.property? "PipelineConfig" = some (.obj [("Functions", .arr (names.map functionIdOf))])

/-- The entries for what a resolver uses, whether it is there or not. -/
def useEntries : ResolverKind → List (String × Json)
  | .unit name => [("Kind", .str "UNIT"), ("DataSourceName", dataSourceName name)]
  | .pipeline names =>
    [("Kind", .str "PIPELINE"),
      ("PipelineConfig", .obj [("Functions", .arr (names.map functionIdOf))])]

theorem functionId_eq_ok_iff {api : Api} {owner name : String} {j : Json} :
    functionId api owner name = .ok j ↔
      name ∈ api.pipelineFunctions.keys ∧ j = functionIdOf name := by
  unfold functionId
  split
  · next h =>
    constructor
    · intro hj
      cases hj
      exact ⟨OrderedMap.contains_iff.1 h, rfl⟩
    · rintro ⟨-, rfl⟩
      rfl
  · next h =>
    constructor
    · intro hj
      cases hj
    · rintro ⟨hm, -⟩
      exact absurd (OrderedMap.contains_iff.2 hm) h

theorem mapM_functionId {api : Api} {owner : String} {names : List String} {ids : List Json}
    (h : List.Forall₂ (fun name j => functionId api owner name = .ok j) names ids) :
    (∀ name ∈ names, name ∈ api.pipelineFunctions.keys) ∧ ids = names.map functionIdOf := by
  induction h with
  | nil => simp
  | cons hj _ ih =>
    obtain ⟨hm, rfl⟩ := functionId_eq_ok_iff.1 hj
    obtain ⟨hn, rfl⟩ := ih
    exact ⟨List.forall_mem_cons.2 ⟨hm, hn⟩, rfl⟩

theorem kindEntries_eq_ok {api : Api} {owner : String} {kind : ResolverKind}
    {entries : List (String × Json)} (h : kindEntries api owner kind = .ok entries) :
    UsesKnown api kind ∧ entries = useEntries kind := by
  cases kind with
  | unit name =>
    unfold kindEntries at h
    simp only at h
    split at h
    · next hn =>
      cases h
      exact ⟨OrderedMap.contains_iff.1 hn, rfl⟩
    · cases h
  | pipeline names =>
    obtain ⟨ids, hids, h⟩ := bind_eq_ok_iff.1 h
    cases h
    obtain ⟨hn, rfl⟩ := mapM_functionId (mapM_eq_ok_iff.1 hids)
    exact ⟨hn, rfl⟩

theorem holds_dataSourceName {name : String} (h : t.resource (LogicalId.dataSource name)) :
    (dataSourceName name).EveryEntry t.Resolves :=
  Targets.holds_getAtt (.inl h) "Name"

theorem holds_useEntries {kind : ResolverKind} {api : Api} (h : UsesKnown api kind)
    (hd : ∀ name ∈ api.dataSources.keys, t.resource (LogicalId.dataSource name))
    (hf : ∀ name ∈ api.pipelineFunctions.keys, t.resource (LogicalId.pipelineFunction name)) :
    EveryEntryOf t.Resolves (useEntries kind) := by
  cases kind with
  | unit name => simp [useEntries, holds_dataSourceName (hd name h)]
  | pipeline names =>
    have hids : EveryEntryIn t.Resolves (names.map functionIdOf) := by
      rw [everyEntryIn_iff]
      intro j hj
      obtain ⟨name, hn, rfl⟩ := List.mem_map.1 hj
      exact Targets.holds_getAtt (.inl (hf name (h name hn))) "FunctionId"
    simp [useEntries, hids]

theorem prune_functions (names : List String) :
    (Json.obj [("Functions", .arr (names.map functionIdOf))]).prune =
      .obj [("Functions", .arr (names.map functionIdOf))] := by
  have h : pruneItems (names.map functionIdOf) = names.map functionIdOf := by
    induction names with
    | nil => rfl
    | cons name rest ih =>
      rw [List.map_cons, pruneItems, ih]
      rfl
  simp [Json.prune, pruneEntries, Json.isNull, h]

/-- What is used is shown, wherever its entries stand, unless others have their keys. -/
theorem showsUse_make (type : String) {kind : ResolverKind} {before : List (String × Json)}
    (h : ∀ e ∈ before, e.1 ≠ "DataSourceName" ∧ e.1 ≠ "PipelineConfig")
    (behind : List (String × Json)) :
    ShowsUse (.make type (.obj (before ++ useEntries kind ++ behind))) kind := by
  have hlookup (key : String) (hk : ∀ e ∈ before, e.1 ≠ key) :
      (before ++ useEntries kind ++ behind).lookup key =
        ((useEntries kind).lookup key).or (behind.lookup key) := by
    rw [List.append_assoc, List.lookup_append, List.lookup_append, lookup_eq_none_of_ne hk,
      Option.none_or]
  cases kind with
  | unit name =>
    exact Resource.property?_make (v := dataSourceName name)
      (hlookup "DataSourceName" fun e he => (h e he).1) rfl
  | pipeline names =>
    refine (Resource.property?_make (hlookup "PipelineConfig" fun e he => (h e he).2) rfl).trans ?_
    rw [prune_functions]

theorem pipelineFunction_settles (context : Context) (api : Api) (f : PipelineFunction) :
    Settles t.function (pipelineFunction context api f) fun g =>
      f.dataSource ∈ api.dataSources.keys ∧
      (∃ r, (LogicalId.pipelineFunction f.name, r) ∈ g.entries ∧
        r.IsNamed "AWS::AppSync::FunctionConfiguration" f.name ∧
        r.property? "DataSourceName" = some (dataSourceName f.dataSource)) ∧
      (api.Covered t → t.Covers f.supplies → t.resource LogicalId.api →
        (∀ name ∈ api.dataSources.keys, t.resource (LogicalId.dataSource name)) →
        g.Resolved t) := by
  unfold pipelineFunction
  simp only
  split
  · exact .throw_bind _ _ _
  · next hd =>
    have hd' : f.dataSource ∈ api.dataSources.keys := OrderedMap.contains_iff.1 (by simpa using hd)
    apply (Settles.lift_eq _).bind
    intro handler
    apply (syncEntry_settles f.sync _).map
    intro sync hsync hhandler
    have hh := isHandlerEntry_handlerSettings hhandler
    refine ⟨hd', ⟨_, List.mem_singleton_self _, ⟨rfl, ?_⟩, ?_⟩, ?_⟩
    · exact Resource.property?_make (v := .str f.name) rfl rfl
    · exact Resource.property?_make (v := dataSourceName f.dataSource) rfl rfl
    · intro hc hf hapi hds
      obtain ⟨hsub, hfunction⟩ := Targets.covers_append.1 hf
      have hhold := holds_handler hh hc.substitutions (Targets.covers_map.1 hsub)
      have hshold := hsync.2 hfunction
      have huse := holds_dataSourceName (hds f.dataSource hd')
      apply Graph.resolved_singleton
      apply Resource.resolved_make
      simp [holds_apiId hapi, huse, hhold, hshold, everyEntry_ofOption]

theorem resolver_settles (context : Context) (api : Api) (r : Resolver) :
    Settles t.function (resolver context api r) fun g =>
      UsesKnown api r.kind ∧
      (∃ res, (LogicalId.resolver r.type r.field, res) ∈ g.entries ∧ ShowsUse res r.kind) ∧
      (api.Covered t → t.Covers r.supplies → t.resource LogicalId.api →
        t.resource LogicalId.schema →
        (∀ name ∈ api.dataSources.keys, t.resource (LogicalId.dataSource name)) →
        (∀ name ∈ api.pipelineFunctions.keys, t.resource (LogicalId.pipelineFunction name)) →
        g.Resolved t) := by
  unfold resolver
  apply (Settles.lift_eq _).bind
  intro handler
  apply (syncEntry_settles r.sync _).bind
  intro sync
  apply (Settles.lift_eq _).map
  intro entries hentries hsync hhandler
  obtain ⟨hknown, rfl⟩ := kindEntries_eq_ok hentries
  have hh := isHandlerEntry_handlerSettings hhandler
  refine ⟨hknown, ⟨_, List.mem_singleton_self _, ?_⟩, ?_⟩
  · refine showsUse_make "AWS::AppSync::Resolver" ?_ _
    simp only [List.forall_mem_append]
    refine ⟨⟨⟨by simp, ?_⟩, ?_⟩, ?_⟩
    · intro e he
      have hk := (hh e he).key
      constructor <;> intro h <;> simp [h, handlerKeys] at hk
    · unfold cachingEntry
      split <;> simp
    · intro e he
      rw [hsync.1 e he]
      decide
  · intro hc hr hapi hschema hd hf
    obtain ⟨hsub, hfunction⟩ := Targets.covers_append.1 hr
    have hhold := holds_handler hh hc.substitutions (Targets.covers_map.1 hsub)
    have hshold := hsync.2 hfunction
    have huse := holds_useEntries hknown hd hf
    apply Graph.resolved_singleton
    refine Resource.Resolved.after ?_ hschema
    apply Resource.resolved_make
    have hcaching : EveryEntryOf t.Resolves (cachingEntry api r.caching) := by
      unfold cachingEntry
      split <;> simp [everyEntry_ofOption]
    simp [holds_apiId hapi, hhold, hcaching, hshold, huse, everyEntry_ofOption]

end ApiStack.Compile
