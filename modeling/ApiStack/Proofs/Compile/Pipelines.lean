import ApiStack.Proofs.Compile.References.Stack
import ApiStack.Proofs.Config.Resolvers

namespace ApiStack

open Config Compile

namespace Config

def FunctionUse.nameAt (base : String) (index : Nat) : FunctionUse → String
  | .named name => name
  | .inline _ => liftedItemName base index

namespace FunctionUse

theorem length_names (base : String) (index : Nat) (uses : List FunctionUse) :
    (names base index uses).length = uses.length := by
  induction uses generalizing index with
  | nil => rfl
  | cons used rest ih => cases used <;> simp [names, ih]

theorem getElem?_names (base : String) (index : Nat) {i : Nat} {uses : List FunctionUse}
    {used : FunctionUse} (h : uses[i]? = some used) :
    (names base index uses)[i]? = some (used.nameAt base (index + i)) := by
  induction uses generalizing index i with
  | nil => cases h
  | cons first rest ih =>
    cases i with
    | zero =>
      cases h
      cases used <;> rfl
    | succ i =>
      have hi := ih (index + 1) h
      rw [Nat.add_right_comm] at hi
      cases first <;> exact hi

theorem mem_lifted (base : String) (index : Nat) {i : Nat} {uses : List FunctionUse}
    {f : AuthoredFunction} (h : uses[i]? = some (.inline f)) :
    (liftedItemName base (index + i), f) ∈ lifted base index uses := by
  induction uses generalizing index i with
  | nil => cases h
  | cons first rest ih =>
    cases i with
    | zero =>
      cases h
      exact List.mem_cons_self
    | succ i =>
      have hi := ih (index + 1) h
      rw [Nat.add_right_comm] at hi
      cases first with
      | named _ => exact hi
      | inline _ => exact List.mem_cons_of_mem _ hi

end FunctionUse

theorem mem_liftedFrom {functions : List (String × AuthoredFunction)} {name : String}
    {f : AuthoredFunction} {source : AuthoredDataSource} (h : (name, f) ∈ functions)
    (hs : f.dataSource = .inline source) : (name, source) ∈ liftedFrom functions := by
  refine List.mem_flatMap.2 ⟨(name, f), h, ?_⟩
  show (name, source) ∈ f.dataSource.lifted name
  rw [hs]
  exact List.mem_singleton_self _

namespace Authored

variable {c : Authored} {api : Api} {key : String} {r : AuthoredResolver}

theorem pipelineFunction_of_lifted (hn : c.normalize = .ok api)
    (hr : (key, r) ∈ c.declaredResolvers) {name : String} {f : AuthoredFunction}
    (hf : (name, f) ∈ r.liftedFunctions key) : f.named name ∈ api.pipelineFunctions.values := by
  obtain ⟨-, -, -, -, hfs⟩ := normalize_withNames hn
  rw [OrderedMap.values, hfs, List.map_map]
  exact List.mem_map.2
    ⟨(name, f), List.mem_append_right _ (List.mem_flatMap.2 ⟨_, hr, hf⟩), rfl⟩

theorem dataSource_of_lifted (hn : c.normalize = .ok api)
    (hr : (key, r) ∈ c.declaredResolvers) {name : String} {source : AuthoredDataSource}
    (hs : (name, source) ∈ r.liftedDataSources key) :
    ∃ d ∈ api.dataSources.values, DataSource.ofAuthored name source = .ok d := by
  obtain ⟨-, -, -, hds, -⟩ := normalize_withNames hn
  have hm : (name, source) ∈ c.allDataSources :=
    List.mem_append_right _ (List.mem_append_right _ (List.mem_flatMap.2 ⟨_, hr, hs⟩))
  obtain ⟨⟨name', d⟩, hd, hread⟩ := exists_of_mem_left hds hm
  exact ⟨d, List.mem_map.2 ⟨_, hd, rfl⟩, hread.source⟩

/-- A resolver is kept if it is the last one that is declared for its field. -/
def Keeps (c : Authored) (key : String) (r : AuthoredResolver) : Prop :=
  ∃ path, c.declaredResolvers.reverse.find? (fun e => e.2.path? e.1 = some path) = some (key, r)

theorem mem_declaredResolvers_of_keeps (hk : c.Keeps key r) : (key, r) ∈ c.declaredResolvers := by
  obtain ⟨path, hl⟩ := hk
  exact List.mem_reverse.1 (List.mem_of_find?_eq_some hl)

theorem resolver_of_keeps (hn : c.normalize = .ok api) (hk : c.Keeps key r) :
    ∃ x ∈ api.resolvers.values, r.toResolver? key = some x := by
  have hm := mem_declaredResolvers_of_keeps hk
  obtain ⟨path, hl⟩ := hk
  obtain ⟨hget, -⟩ := resolvers_of_normalize hn
  obtain ⟨es, hes, -⟩ := bind_eq_ok_iff.1 hn
  obtain ⟨rs, hrs, -⟩ := grows_entities hes
  obtain ⟨x, -, hx⟩ := exists_of_mem_left hrs hm
  refine ⟨x, ?_, hx⟩
  have hx' : api.resolvers.get? path = some x := by
    rw [hget, lastResolver?, hl]
    exact hx
  exact List.mem_map.2 ⟨_, mem_of_lookup hx', rfl⟩

end Authored

end Config

namespace Json

theorem lookup_pruneEntries_eq (entries : List (String × Json)) (key : String) :
    (pruneEntries entries).lookup key =
      ((entries.filter fun e => !e.2.isNull).lookup key).map prune := by
  induction entries with
  | nil => rfl
  | cons e rest ih =>
    obtain ⟨k, v⟩ := e
    rw [pruneEntries, List.filter_cons]
    cases hv : v.isNull with
    | true => simpa [hv] using ih
    | false =>
      simp only [Bool.not_false, if_true, Bool.false_eq_true, if_false, List.lookup_cons, ih]
      split <;> rfl

end Json

theorem Resource.property?_make_eq (type : String) (entries : List (String × Json))
    (key : String) : (make type (.obj entries)).property? key =
      ((entries.filter fun e => !e.2.isNull).lookup key).map Json.prune :=
  Json.lookup_pruneEntries_eq entries key

namespace Compile

/-- What is shown is the text of a file with values for its variables, if a file is given. -/
def ShowsFile (context : Context) (values : OrderedMap Json) (kind : FileKind) :
    Option String → Option Json → Prop
  | none, shown => shown = none
  | some path, shown =>
    ∃ j, resolveTemplate context kind path values = .ok j ∧ shown = some j.prune

/-- A resource shows a pipeline function under some name as it was written. -/
structure ShowsFunction (context : Context) (api : Api) (name : String) (f : AuthoredFunction)
    (res : Resource) : Prop where
  named : res.IsNamed "AWS::AppSync::FunctionConfiguration" name
  dataSource :
    res.property? "DataSourceName" = some (dataSourceName (f.dataSource.nameOr name))
  description : res.property? "Description" = f.description.map .str
  maxBatchSize : res.property? "MaxBatchSize" = f.maxBatchSize.map .nat
  code : ShowsFile context (Template.mergeValues api.substitutions f.substitutions) .code
    f.handler.code (res.property? "Code")
  request : ShowsFile context (Template.mergeValues api.substitutions f.substitutions)
    .mappingTemplate f.handler.request (res.property? "RequestMappingTemplate")
  response : ShowsFile context (Template.mergeValues api.substitutions f.substitutions)
    .mappingTemplate f.handler.response (res.property? "ResponseMappingTemplate")

section Handler

variable {context : Context} {api : Api} {owner : String} {h : Handler}
  {substitutions : OrderedMap Json} {entries : List (String × Json)}

theorem isNull_substitute (text : String) (values : OrderedMap Json) :
    (Template.substitute text values).isNull = false := by
  unfold Template.substitute
  simp only
  split <;> rfl

theorem isNull_of_handlerSettings
    (hs : handlerSettings context api owner h substitutions none = .ok entries) :
    entries.filter (fun e => !e.2.isNull) = entries := by
  refine List.filter_eq_self.2 fun e he => ?_
  rcases (isHandlerEntry_handlerSettings hs e he).value with hv | ⟨text, hv⟩ | ⟨text, hv⟩ <;>
    rw [hv]
  · rfl
  · rfl
  · rw [isNull_substitute]
    rfl

theorem showsFile_templateSettings {values : OrderedMap Json} {key : String}
    {path : Option String} (ht : templateSettings context values key path = .ok entries)
    (rest : List (String × Json)) (hr : rest.lookup key = none) :
    ShowsFile context values .mappingTemplate path
      (((entries ++ rest).lookup key).map Json.prune) := by
  cases path with
  | none =>
    cases ht
    rw [List.nil_append, hr]
    rfl
  | some path =>
    obtain ⟨j, hj, rfl⟩ := map_eq_ok_iff.1 ht
    exact ⟨j, hj, by simp⟩

theorem lookup_templateSettings_of_ne {values : OrderedMap Json} {key other : String}
    {path : Option String} (ht : templateSettings context values key path = .ok entries)
    (hne : other ≠ key) (rest : List (String × Json)) :
    (entries ++ rest).lookup other = rest.lookup other := by
  cases path with
  | none =>
    cases ht
    rfl
  | some path =>
    obtain ⟨j, -, rfl⟩ := map_eq_ok_iff.1 ht
    simp [List.lookup_cons, beq_false_of_ne hne]

theorem showsFile_handlerSettings
    (hs : handlerSettings context api owner h substitutions none = .ok entries) :
    ShowsFile context (Template.mergeValues api.substitutions substitutions) .code h.code
      ((entries.lookup "Code").map Json.prune) ∧
    ShowsFile context (Template.mergeValues api.substitutions substitutions) .mappingTemplate
      h.request ((entries.lookup "RequestMappingTemplate").map Json.prune) ∧
    ShowsFile context (Template.mergeValues api.substitutions substitutions) .mappingTemplate
      h.response ((entries.lookup "ResponseMappingTemplate").map Json.prune) := by
  unfold handlerSettings at hs
  simp only at hs
  split at hs
  · next code hcode =>
    split at hs
    · cases hs
    · next ht =>
      obtain ⟨hreq, hres⟩ : h.request = none ∧ h.response = none := by simpa using ht
      obtain ⟨j, hj, he⟩ := bind_eq_ok_iff.1 hs
      cases he
      rw [hcode, hreq, hres]
      exact ⟨⟨j, hj, rfl⟩, rfl, rfl⟩
  · next hcode =>
    rw [hcode]
    split at hs
    · obtain ⟨request, hreq, hs⟩ := bind_eq_ok_iff.1 hs
      obtain ⟨response, hres, hs⟩ := bind_eq_ok_iff.1 hs
      cases hs
      have hnone (key : String) (hk : key ≠ "ResponseMappingTemplate") :
          response.lookup key = none := by
        have hl := lookup_templateSettings_of_ne hres hk []
        rwa [List.append_nil] at hl
      refine ⟨?_, showsFile_templateSettings hreq response (hnone _ (by decide)), ?_⟩
      · rw [lookup_templateSettings_of_ne hreq (by decide), hnone _ (by decide)]
        rfl
      · rw [lookup_templateSettings_of_ne hreq (by decide)]
        have hl := showsFile_templateSettings hres [] rfl
        rwa [List.append_nil] at hl
    · next ht =>
      obtain ⟨hreq, hres⟩ : h.request = none ∧ h.response = none := by simpa using ht
      cases hs
      rw [hreq, hres]
      exact ⟨rfl, rfl, rfl⟩

variable {type key : String} {base sync : List (String × Json)}

theorem property?_handler
    (hs : handlerSettings context api owner h substitutions none = .ok entries)
    (hsync : ∀ e ∈ sync, e.1 = "SyncConfig") (hk : key ≠ "SyncConfig") :
    (Resource.make type (.obj (base ++ entries ++ sync))).property? key =
      (((base.filter fun e => !e.2.isNull).lookup key).or (entries.lookup key)).map
        Json.prune := by
  have hnone : (sync.filter fun e => !e.2.isNull).lookup key = none := by
    apply lookup_eq_none_of_ne
    intro e he
    rw [hsync e (List.mem_filter.1 he).1]
    exact hk.symm
  rw [Resource.property?_make_eq, List.filter_append, List.filter_append,
    isNull_of_handlerSettings hs, List.lookup_append, List.lookup_append, hnone, Option.or_none]

theorem property?_of_mem_handlerKeys
    (hs : handlerSettings context api owner h substitutions none = .ok entries)
    (hsync : ∀ e ∈ sync, e.1 = "SyncConfig") (hk : key ∈ handlerKeys)
    (hb : ∀ e ∈ base, e.1 ∉ handlerKeys) :
    (Resource.make type (.obj (base ++ entries ++ sync))).property? key =
      (entries.lookup key).map Json.prune := by
  have hnone : (base.filter fun e => !e.2.isNull).lookup key = none := by
    apply lookup_eq_none_of_ne
    rintro e he rfl
    exact hb e (List.mem_filter.1 he).1 hk
  have hne : key ≠ "SyncConfig" := by
    rintro rfl
    exact absurd hk (by decide)
  rw [property?_handler hs hsync hne, hnone, Option.none_or]

theorem property?_of_notMem_handlerKeys
    (hs : handlerSettings context api owner h substitutions none = .ok entries)
    (hsync : ∀ e ∈ sync, e.1 = "SyncConfig") (hk : key ∉ handlerKeys) (hne : key ≠ "SyncConfig") :
    (Resource.make type (.obj (base ++ entries ++ sync))).property? key =
      ((base.filter fun e => !e.2.isNull).lookup key).map Json.prune := by
  have hnone : entries.lookup key = none := by
    apply lookup_eq_none_of_ne
    rintro e he rfl
    exact hk (isHandlerEntry_handlerSettings hs e he).key
  rw [property?_handler hs hsync hne, hnone, Option.or_none]

end Handler

theorem pipelineFunction_shows (known : String → Prop) (context : Context) (api : Api)
    (name : String) (f : AuthoredFunction) :
    Settles known (pipelineFunction context api (f.named name)) fun g =>
      ∃ res, (LogicalId.pipelineFunction name, res) ∈ g.entries ∧
        ShowsFunction context api name f res := by
  unfold pipelineFunction
  simp only
  split
  · exact .throw_bind _ _ _
  · apply (Settles.lift_eq _).bind
    intro handler
    apply (syncEntry_settles (t := ⟨known, known, known⟩) f.sync _).map
    intro sync hsync hhandler
    obtain ⟨hcode, hrequest, hresponse⟩ := showsFile_handlerSettings hhandler
    refine ⟨_, List.mem_singleton_self _, ⟨rfl, ?_⟩, ?_, ?_, ?_, ?_, ?_, ?_⟩
    · exact Resource.property?_make (v := .str name) rfl rfl
    · exact Resource.property?_make (v := dataSourceName (f.dataSource.nameOr name)) rfl rfl
    · rw [property?_of_notMem_handlerKeys hhandler hsync.1 (by decide) (by decide)]
      show _ = f.description.map Json.str
      simp only [AuthoredFunction.named]
      cases f.description <;> cases f.maxBatchSize <;> rfl
    · rw [property?_of_notMem_handlerKeys hhandler hsync.1 (by decide) (by decide)]
      simp only [AuthoredFunction.named]
      cases f.description <;> cases f.maxBatchSize <;> rfl
    · rw [property?_of_mem_handlerKeys hhandler hsync.1 (by decide) (by simp [handlerKeys])]
      exact hcode
    · rw [property?_of_mem_handlerKeys hhandler hsync.1 (by decide) (by simp [handlerKeys])]
      exact hrequest
    · rw [property?_of_mem_handlerKeys hhandler hsync.1 (by decide) (by simp [handlerKeys])]
      exact hresponse

/-- The graph that a part gave is in a stack. -/
def Stack.Holds (s : Stack) (part : Build Graph) : Prop :=
  ∃ g, Gives (· ∈ s.functions.keys) part g ∧ ∀ e ∈ g.entries, e ∈ s.resources.entries

/-- There is the data source that is used; one that stands there is there under a name. -/
def Stack.HoldsUsed (s : Stack) (name : String) : DataSourceUse → Prop
  | .named used => s.HasDataSource used
  | .inline source =>
    ∃ d, DataSource.ofAuthored name source = .ok d ∧ s.HasDataSource name ∧ s.Holds (dataSource d)

/-- An entry in the list of a pipeline is for the function that is used. One that stands there is
there under a name, as it was written. -/
def Stack.ShowsStep (s : Stack) (context : Context) (api : Api) (name : String) (entry : Json) :
    FunctionUse → Prop
  | .named used => entry = functionIdOf used ∧ s.HasFunction used
  | .inline f => entry = functionIdOf name ∧ s.HoldsUsed name f.dataSource ∧
    ∃ res, s.resources.get? (LogicalId.pipelineFunction name) = some res ∧
      ShowsFunction context api name f res

section Stack

variable {c : Authored} {context : Context} {api : Api} {s : Stack} {key : String}
  {r : AuthoredResolver}

theorem holds_of_part {p : Build Graph} (h : stack context api = .ok s)
    (hp : p ∈ parts context api) : s.Holds p := by
  obtain ⟨graphs, hg, he⟩ := gives_of_stack h (· ∈ s.functions.keys) fun _ hn => hn
  obtain ⟨g, hm, hpg⟩ := exists_of_mem_left hg hp
  refine ⟨g, hpg, fun e hge => ?_⟩
  rw [he]
  exact List.mem_flatMap.2 ⟨g, hm, hge⟩

theorem holds_dataSource (h : stack context api = .ok s) {d : DataSource}
    (hd : d ∈ api.dataSources.values) : s.Holds (dataSource d) := by
  apply holds_of_part h
  simp only [parts, List.mem_append]
  exact .inl (.inl (.inr (List.mem_map_of_mem hd)))

theorem showsFunction_of_lifted (hn : c.normalize = .ok api) (hs : stack context api = .ok s)
    (hr : (key, r) ∈ c.declaredResolvers) {name : String} {f : AuthoredFunction}
    (hf : (name, f) ∈ r.liftedFunctions key) :
    ∃ res, s.resources.get? (LogicalId.pipelineFunction name) = some res ∧
      ShowsFunction context api name f res := by
  have hp : pipelineFunction context api (f.named name) ∈ parts context api := by
    simp only [parts, List.mem_append]
    exact .inl (.inr (List.mem_map_of_mem (Authored.pipelineFunction_of_lifted hn hr hf)))
  obtain ⟨g, ⟨res, hm, hshows⟩, hsub⟩ :=
    exists_graph_of_part hs hp (pipelineFunction_shows (fun _ => True) context api name f)
  exact ⟨res, get?_of_stack hs (hsub _ hm), hshows⟩

theorem holdsUsed_of_lifted (hn : c.normalize = .ok api) (hs : stack context api = .ok s)
    (hr : (key, r) ∈ c.declaredResolvers) {name : String} {f : AuthoredFunction}
    (hk : Entities.kindOf r = .pipeline) (hf : (name, f) ∈ r.liftedFunctions key) :
    s.HoldsUsed name f.dataSource := by
  cases hd : f.dataSource with
  | named used =>
    obtain ⟨hknown, -⟩ :=
      function_of_stack hs (Authored.pipelineFunction_of_lifted hn hr hf)
    have hu : (f.named name).dataSource = used := by
      show f.dataSource.nameOr name = used
      rw [hd]
      rfl
    rw [hu] at hknown
    exact hasDataSource_of_key hs (Authored.isKeyed_normalize hn) hknown
  | inline source =>
    have hl : (name, source) ∈ r.liftedDataSources key := by
      rw [AuthoredResolver.liftedDataSources, hk]
      exact mem_liftedFrom hf hd
    obtain ⟨d, hm, ho⟩ := Authored.dataSource_of_lifted hn hr hl
    have hname := hasDataSource_of_stack hs hm
    rw [Authored.name_of_ofAuthored ho] at hname
    exact ⟨d, ho, hname, holds_dataSource hs hm⟩

/-- The functions of a pipeline are listed in the order in which they are used, as often as they are
used. One that stands in the list is there as it was written, under the name of its place. -/
theorem pipeline_of_stack {uses : List FunctionUse} (hn : c.normalize = .ok api)
    (hs : stack context api = .ok s) (hr : c.Keeps key r)
    (hk : Entities.kindOf r = .pipeline) (hf : r.functions = some uses) :
    ∃ type field res entries, Entities.fieldOf? key r = some (type, field) ∧
      s.resources.get? (LogicalId.resolver type field) = some res ∧
      res.property? "PipelineConfig" = some (.obj [("Functions", .arr entries)]) ∧
      entries.length = uses.length ∧
      ∀ i used, uses[i]? = some used → ∃ entry, entries[i]? = some entry ∧
        s.ShowsStep context api (liftedItemName (liftedName (type ++ field)) i) entry used := by
  have hm := Authored.mem_declaredResolvers_of_keeps hr
  obtain ⟨x, hx, hread⟩ := Authored.resolver_of_keeps hn hr
  obtain ⟨⟨type, field⟩, hfield, hread⟩ := Option.bind_eq_some_iff.1 hread
  obtain ⟨kind, hkind, hread⟩ := Option.bind_eq_some_iff.1 hread
  cases hread
  have hb : r.base key = liftedName (type ++ field) := by
    rw [AuthoredResolver.base, hfield]
  rw [AuthoredResolver.kind?, hk, hf, hb] at hkind
  cases hkind
  obtain ⟨hknown, res, hres, hshows⟩ := resolver_of_stack hs hx
  refine ⟨type, field, res, _, hfield, hres, hshows, ?_, ?_⟩
  · rw [List.length_map, FunctionUse.length_names]
  · intro i used hi
    have hname := FunctionUse.getElem?_names (liftedName (type ++ field)) 0 hi
    rw [Nat.zero_add] at hname
    refine ⟨_, by rw [List.getElem?_map, hname, Option.map_some], ?_⟩
    cases used with
    | named name =>
      have hmem := List.mem_of_getElem? hname
      exact ⟨rfl, hasFunction_of_key hs (Authored.isKeyed_normalize hn) (hknown name hmem)⟩
    | inline f =>
      have hl : (liftedItemName (liftedName (type ++ field)) i, f) ∈ r.liftedFunctions key := by
        rw [AuthoredResolver.liftedFunctions, hk, hf, hb]
        have hlifted := FunctionUse.mem_lifted (liftedName (type ++ field)) 0 hi
        rwa [Nat.zero_add] at hlifted
      exact ⟨rfl, holdsUsed_of_lifted hn hs hm hk hl, showsFunction_of_lifted hn hs hm hl⟩

end Stack

end Compile

namespace Config.Authored

/-- A pipeline with a declared function before and between two that stand there, of which the first
has a data source of its own. -/
def pipelined : Authored :=
  { nested with
    pipelineFunctions := .whole (.ofList [("load", .dataSource "users")])
    resolvers := .whole (.ofList [("Query.b", .settings resolver)]) }
where
  uses : List FunctionUse :=
    [.named "load", .inline { AuthoredFunction.plain "" with
        dataSource := .inline nested.nowhere
        description := some "prices"
        handler := ⟨some "prices.js", none, none⟩
        maxBatchSize := some 9 },
      .named "load", .inline (.plain "users")]
  resolver : AuthoredResolver :=
    { AuthoredResolver.plain "" with kind := none, functions := some uses }

theorem queryIds?_pipelined :
    (pipelined.normalize.map fun api => (api.schema, Compile.queryIds? api)) =
      .ok (["schema.graphql"], some ["GraphQlApi", "GraphQlSchema", "GraphQlDsusers",
        "GraphQlDsQueryb1", "GraphQlFunctionConfigurationload",
        "GraphQlFunctionConfigurationQueryb1", "GraphQlFunctionConfigurationQueryb3",
        "GraphQlResolverQueryb"]) := by
  decide +kernel

end Config.Authored

namespace Compile

/-- The declared function is listed twice, and the two others under different names. -/
theorem pipeline_pipelined : ∃ api s, Authored.pipelined.normalize = .ok api ∧
    stack (.uniform querySchema) api = .ok s ∧
    ∃ type field res entries, Entities.fieldOf? "Query.b" Authored.pipelined.resolver =
        some (type, field) ∧
      s.resources.get? (LogicalId.resolver type field) = some res ∧
      res.property? "PipelineConfig" = some (.obj [("Functions", .arr entries)]) ∧
      entries.length = 4 ∧
      ∀ i used, Authored.pipelined.uses[i]? = some used → ∃ entry, entries[i]? = some entry ∧
        s.ShowsStep (.uniform querySchema) api (liftedItemName (liftedName (type ++ field)) i)
          entry used := by
  obtain ⟨api, hn, he⟩ := map_eq_ok_iff.1 Authored.queryIds?_pipelined
  obtain ⟨hschema, hids⟩ := Prod.mk.inj he
  obtain ⟨s, hs⟩ := exists_stack_of_queryIds? hschema hids (by decide)
  have hkeeps : Authored.pipelined.Keeps "Query.b" Authored.pipelined.resolver :=
    ⟨"Query.b", rfl⟩
  exact ⟨api, s, hn, hs, pipeline_of_stack hn hs hkeeps rfl rfl⟩

end Compile

end ApiStack
