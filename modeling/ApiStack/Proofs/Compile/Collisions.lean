import ApiStack.Proofs.Compile.Origins

namespace ApiStack

open Config

namespace LogicalId

/-- All letters and digits. -/
def IsPlain (name : String) : Prop := ∀ c ∈ name.toList, isIdChar c = true

instance (name : String) : Decidable (IsPlain name) :=
  decidable_of_iff (name.toList.all isIdChar = true) List.all_eq_true

theorem IsPlain.append {a b : String} (ha : IsPlain a) (hb : IsPlain b) : IsPlain (a ++ b) := by
  intro c hc
  rw [String.toList_append, List.mem_append] at hc
  exact hc.elim (ha c) (hb c)

theorem sanitize_of_isPlain {name : String} (h : IsPlain name) : sanitize name = name := by
  rw [sanitize, List.filter_eq_self.2 h, String.ofList_toList]

def fixedIds : List String :=
  [api, schema, domainName, domainAssociation, domainCertificate, domainRecord, logGroup,
    logGroupPolicy, logGroupRole, authorizerPermission, waf, wafAssociation, caching]

end LogicalId

namespace Compile

namespace Origin

def IsPlain : Origin → Prop
  | fixed id => id ∈ LogicalId.fixedIds
  | apiKey name => LogicalId.IsPlain name
  | dataSource name => LogicalId.IsPlain name
  | role source => LogicalId.IsPlain source
  | pipelineFunction name => LogicalId.IsPlain name
  | resolver type field => LogicalId.IsPlain type ∧ LogicalId.IsPlain field

/-- The id with nothing left out. -/
def plainId : Origin → String
  | fixed id => id
  | apiKey name => "GraphQlApi" ++ name
  | dataSource name => "GraphQlDs" ++ name
  | role source => "GraphQlDs" ++ source ++ "Role"
  | pipelineFunction name => "GraphQlFunctionConfiguration" ++ name
  | resolver type field => "GraphQlResolver" ++ type ++ field

theorem IsPlain.id_eq {a : Origin} (h : a.IsPlain) : a.id = a.plainId := by
  cases a with
  | fixed id => rfl
  | apiKey name => exact LogicalId.sanitize_of_isPlain (.append (by decide) h)
  | dataSource name => exact LogicalId.sanitize_of_isPlain (.append (by decide) h)
  | role name =>
    exact LogicalId.sanitize_of_isPlain (.append (.append (by decide) h) (by decide))
  | pipelineFunction name => exact LogicalId.sanitize_of_isPlain (.append (by decide) h)
  | resolver type field =>
    exact LogicalId.sanitize_of_isPlain (.append (.append (by decide) h.1) h.2)

/-- The two letters that show in an id what it is made for. -/
def letters (id : String) : List Char := (id.toList.drop 7).take 2

def mark : Origin → List Char
  | fixed id => letters id
  | apiKey _ => ['A', 'p']
  | dataSource _ => ['D', 's']
  | role _ => ['D', 's']
  | pipelineFunction _ => ['F', 'u']
  | resolver _ _ => ['R', 'e']

theorem letters_append {stem : String} (h : 9 ≤ stem.toList.length) (rest : String) :
    letters (stem ++ rest) = letters stem := by
  rw [letters, letters, String.toList_append, List.drop_append_of_le_length (by omega),
    List.take_append_of_le_length (by rw [List.length_drop]; omega)]

theorem letters_plainId (a : Origin) : letters a.plainId = a.mark := by
  have hkey : letters "GraphQlApi" = ['A', 'p'] := by decide
  have hsource : letters "GraphQlDs" = ['D', 's'] := by decide
  have hfunction : letters "GraphQlFunctionConfiguration" = ['F', 'u'] := by decide
  have hresolver : letters "GraphQlResolver" = ['R', 'e'] := by decide
  cases a with
  | fixed id => rfl
  | apiKey name => exact (letters_append (by decide) name).trans hkey
  | dataSource name => exact (letters_append (by decide) name).trans hsource
  | role name =>
    change letters ("GraphQlDs" ++ name ++ "Role") = _
    rw [String.append_assoc]
    exact (letters_append (by decide) _).trans hsource
  | pipelineFunction name => exact (letters_append (by decide) name).trans hfunction
  | resolver type field =>
    change letters ("GraphQlResolver" ++ type ++ field) = _
    rw [String.append_assoc]
    exact (letters_append (by decide) _).trans hresolver

/-- The letters of something fixed are none of an entity, but perhaps those of a key. -/
theorem letters_fixed {id : String} (h : id ∈ LogicalId.fixedIds) :
    letters id ∉ [['D', 's'], ['F', 'u'], ['R', 'e']] := by
  have hall : ∀ id ∈ LogicalId.fixedIds, letters id ∉ [['D', 's'], ['F', 'u'], ['R', 'e']] := by
    decide
  exact hall id h

/-- The names of keys whose ids are taken by something fixed. -/
def reservedNames : List String := ["", "LogGroup", "LogGroupPolicy", "LogGroupRole"]

theorem mem_reservedNames {name : String} (h : "GraphQlApi" ++ name ∈ LogicalId.fixedIds) :
    name ∈ reservedNames := by
  have hall : ∀ id ∈ LogicalId.fixedIds, id.toList.take 10 = "GraphQlApi".toList →
      String.ofList (id.toList.drop 10) ∈ reservedNames := by
    decide
  have hname := hall _ h
  have hlength : "GraphQlApi".toList.length = 10 := by decide
  rw [String.toList_append, ← hlength, List.take_left, List.drop_left, String.ofList_toList]
    at hname
  exact hname rfl

/-- Two origins that have the same id with nothing left out of it. -/
inductive Confusable : Origin → Origin → Prop
  | apiKey {name : String} (h : name ∈ reservedNames) :
      Confusable (fixed ("GraphQlApi" ++ name)) (apiKey name)
  | role {name : String} : Confusable (dataSource (name ++ "Role")) (role name)
  | resolver {type field type' field' : String} (h : type ++ field = type' ++ field') :
      Confusable (resolver type field) (resolver type' field')

theorem Confusable.plainId_eq {a b : Origin} (h : a.Confusable b) : a.plainId = b.plainId := by
  cases h with
  | apiKey h => rfl
  | role => exact String.append_assoc.symm
  | @resolver type field type' field' h =>
    change "GraphQlResolver" ++ type ++ field = "GraphQlResolver" ++ type' ++ field'
    rw [String.append_assoc, String.append_assoc, h]

theorem confusable_of_fixed {id : String} {b : Origin} (hid : id ∈ LogicalId.fixedIds)
    (h : id = b.plainId) : fixed id = b ∨ (fixed id).Confusable b := by
  have hm : letters id = b.mark := by rw [h, letters_plainId]
  have hletters := letters_fixed hid
  cases b with
  | fixed id' => exact .inl (congrArg fixed h)
  | apiKey name =>
    subst h
    exact .inr (.apiKey (mem_reservedNames hid))
  | dataSource name => exact absurd hm (fun hm => hletters (by simp [hm, mark]))
  | role name => exact absurd hm (fun hm => hletters (by simp [hm, mark]))
  | pipelineFunction name => exact absurd hm (fun hm => hletters (by simp [hm, mark]))
  | resolver type field => exact absurd hm (fun hm => hletters (by simp [hm, mark]))

theorem confusable_of_plainId_eq {a b : Origin} (ha : a.IsPlain) (hb : b.IsPlain)
    (h : a.plainId = b.plainId) : a = b ∨ a.Confusable b ∨ b.Confusable a := by
  have hm : a.mark = b.mark := by rw [← letters_plainId, h, letters_plainId]
  -- The mark in an id tells kinds apart, except a data source from a role and all from what is fixed.
  cases a with
  | fixed id => exact (confusable_of_fixed ha h).imp_right .inl
  | apiKey name =>
    cases b with
    | fixed id => exact (confusable_of_fixed hb h.symm).imp Eq.symm .inr
    | apiKey name' => exact .inl (congrArg apiKey ((String.append_right_inj _).1 h))
    | _ => simp [mark] at hm
  | dataSource name =>
    cases b with
    | fixed id => exact (confusable_of_fixed hb h.symm).imp Eq.symm .inr
    | dataSource name' => exact .inl (congrArg dataSource ((String.append_right_inj _).1 h))
    | role name' =>
      have hname : name = name' ++ "Role" :=
        (String.append_right_inj _).1 (h.trans String.append_assoc)
      exact .inr (.inl (hname ▸ .role))
    | _ => simp [mark] at hm
  | role name =>
    cases b with
    | fixed id => exact (confusable_of_fixed hb h.symm).imp Eq.symm .inr
    | dataSource name' =>
      have hname : name' = name ++ "Role" :=
        (String.append_right_inj _).1 (h.symm.trans String.append_assoc)
      exact .inr (.inr (hname ▸ .role))
    | role name' =>
      have hname := (String.append_right_inj _).1 ((String.append_left_inj _).1 h)
      exact .inl (congrArg role hname)
    | _ => simp [mark] at hm
  | pipelineFunction name =>
    cases b with
    | fixed id => exact (confusable_of_fixed hb h.symm).imp Eq.symm .inr
    | pipelineFunction name' =>
      exact .inl (congrArg pipelineFunction ((String.append_right_inj _).1 h))
    | _ => simp [mark] at hm
  | resolver type field =>
    cases b with
    | fixed id => exact (confusable_of_fixed hb h.symm).imp Eq.symm .inr
    | resolver type' field' =>
      have hnames : type ++ field = type' ++ field' :=
        (String.append_right_inj _).1 (String.append_assoc.symm.trans (h.trans String.append_assoc))
      exact .inr (.inl (.resolver hnames))
    | _ => simp [mark] at hm

theorem IsPlain.id_eq_iff {a b : Origin} (ha : a.IsPlain) (hb : b.IsPlain) (hne : a ≠ b) :
    a.id = b.id ↔ a.Confusable b ∨ b.Confusable a := by
  rw [ha.id_eq, hb.id_eq]
  constructor
  · intro h
    exact (confusable_of_plainId_eq ha hb h).resolve_left hne
  · rintro (h | h)
    · exact h.plainId_eq
    · exact h.plainId_eq.symm

end Origin

/-- All names are letters and digits, and the names of a kind are different. -/
structure HasPlainNames (api : Api) : Prop where
  apiKeys : ∀ key ∈ api.apiKeys.values, LogicalId.IsPlain key.name
  dataSources : ∀ d ∈ api.dataSources.values, LogicalId.IsPlain d.name
  pipelineFunctions : ∀ f ∈ api.pipelineFunctions.values, LogicalId.IsPlain f.name
  resolvers : ∀ r ∈ api.resolvers.values, LogicalId.IsPlain r.type ∧ LogicalId.IsPlain r.field
  nodup_apiKeys : (api.apiKeys.values.map ApiKey.name).Nodup
  nodup_dataSources : (api.dataSources.values.map DataSource.name).Nodup
  nodup_pipelineFunctions : (api.pipelineFunctions.values.map PipelineFunction.name).Nodup
  nodup_resolvers : (api.resolvers.values.map fun r => (r.type, r.field)).Nodup

/-- Two things that resources are made for have the same id with nothing left out of it. -/
def Clash (api : Api) : Prop :=
  ∃ a ∈ origins api, ∃ b ∈ origins api, a ≠ b ∧ a.Confusable b

variable {context : Context} {api : Api}

theorem ids_domain (api : Api) : (domain api).ids.Sublist [LogicalId.domainName,
    LogicalId.domainAssociation, LogicalId.domainCertificate, LogicalId.domainRecord] := by
  unfold domain
  split
  · exact List.nil_sublist _
  · next d _ =>
    simp only [Graph.ids, List.map_map]
    cases d.certificateArn.isSome <;> cases isOn d.hasRecord <;> simp

theorem ids_waf (api : Api) : (waf api).ids.Sublist [LogicalId.waf, LogicalId.wafAssociation] := by
  unfold waf
  split
  · exact List.nil_sublist _
  · split <;> simp only [Graph.ids, Graph.singleton, List.map_cons, List.map_nil] <;> decide

theorem fixedParts_sublist : (fixedParts api).flatten.Sublist LogicalId.fixedIds := by
  have hlog : (logIds api).Sublist
      [LogicalId.logGroup, LogicalId.logGroupPolicy, LogicalId.logGroupRole] := by
    unfold logIds
    split
    · exact List.nil_sublist _
    · split <;> simp
  have hpermission : (permissionIds api).Sublist [LogicalId.authorizerPermission] := by
    unfold permissionIds
    split <;> simp
  have hcache : (cache api).ids.Sublist [LogicalId.caching] := by
    unfold cache
    split
    · exact List.nil_sublist _
    · exact List.Sublist.refl _
  have hsettings := hlog.append (hpermission.append ((ids_waf api).append hcache))
  have hall := (List.Sublist.refl [LogicalId.api, LogicalId.schema]).append
    ((ids_domain api).append hsettings)
  simpa [fixedParts, LogicalId.fixedIds] using hall

/-- What keys are made for, where requests may carry them. -/
def keyOrigins (api : Api) : List Origin :=
  if api.hasAuth .apiKey then api.apiKeys.values.map fun key => .apiKey key.name else []

theorem origins_eq (api : Api) : origins api = (fixedParts api).flatten.map .fixed
    ++ keyOrigins api
    ++ api.dataSources.values.flatMap sourceOrigins
    ++ api.pipelineFunctions.values.map (fun f => .pipelineFunction f.name)
    ++ api.resolvers.values.map (fun r => .resolver r.type r.field) := by
  have hsingle {α : Type} (f : α → Origin) (l : List α) :
      (l.map fun a => [f a]).flatten = l.map f := by
    rw [← List.flatMap_def, List.map_eq_flatMap]
  have hkeys : (if api.hasAuth .apiKey then
      api.apiKeys.values.map fun key => [Origin.apiKey key.name] else []).flatten =
        keyOrigins api := by
    unfold keyOrigins
    split
    · exact hsingle _ _
    · rfl
  unfold origins partOrigins
  simp only [List.flatten_append, hsingle, hkeys, List.map_flatten, List.flatMap_def]

theorem eq_of_mem_keyOrigins {a : Origin} (h : a ∈ keyOrigins api) :
    ∃ key ∈ api.apiKeys.values, a = .apiKey key.name := by
  unfold keyOrigins at h
  split at h
  · obtain ⟨key, hk, rfl⟩ := List.mem_map.1 h
    exact ⟨key, hk, rfl⟩
  · cases h

theorem eq_of_mem_sourceOrigins {a : Origin} {d : DataSource} (h : a ∈ sourceOrigins d) :
    a = .dataSource d.name ∨ a = .role d.name := by
  unfold sourceOrigins at h
  split at h
  · simpa using h
  · exact .inl (List.mem_singleton.1 h)

theorem HasPlainNames.isPlain (h : HasPlainNames api) : ∀ a ∈ origins api, a.IsPlain := by
  intro a ha
  simp only [origins_eq, List.mem_append, List.mem_map, List.mem_flatMap] at ha
  rcases ha with (((⟨id, hid, rfl⟩ | ha) | ⟨d, hd, ha⟩) | ⟨f, hf, rfl⟩) | ⟨r, hr, rfl⟩
  · exact fixedParts_sublist.subset hid
  · obtain ⟨key, hk, rfl⟩ := eq_of_mem_keyOrigins ha
    exact h.apiKeys key hk
  · rcases eq_of_mem_sourceOrigins ha with rfl | rfl
    · exact h.dataSources d hd
    · exact h.dataSources d hd
  · exact h.pipelineFunctions f hf
  · exact h.resolvers r hr

/-- The place of a kind in the order of origins. -/
def Origin.rank : Origin → Nat
  | fixed _ => 0
  | apiKey _ => 1
  | dataSource _ => 2
  | role _ => 2
  | pipelineFunction _ => 3
  | resolver _ _ => 4

theorem nodup_append_of_rank {l m : List Origin} {k : Nat}
    (hl : l.Nodup ∧ ∀ a ∈ l, a.rank < k) (hm : m.Nodup) (hr : ∀ a ∈ m, a.rank = k) :
    (l ++ m).Nodup ∧ ∀ a ∈ l ++ m, a.rank < k + 1 := by
  constructor
  · refine List.nodup_append.2 ⟨hl.1, hm, ?_⟩
    rintro a ha b hb rfl
    have hlt := hl.2 a ha
    rw [hr a hb] at hlt
    exact Nat.lt_irrefl k hlt
  · intro a ha
    rcases List.mem_append.1 ha with ha | ha
    · exact Nat.lt_succ_of_lt (hl.2 a ha)
    · rw [hr a ha]
      exact Nat.lt_succ_self k

theorem nodup_map_of_names {α β : Type} {l : List α} {f : α → β} {g : β → Origin}
    (h : (l.map f).Nodup) (hg : Function.Injective g) : (l.map fun a => g (f a)).Nodup := by
  have hm := h.map hg
  rwa [List.map_map] at hm

theorem nodup_sourceOrigins {ds : List DataSource} (h : (ds.map DataSource.name).Nodup) :
    (ds.flatMap sourceOrigins).Nodup := by
  refine List.nodup_flatMap.2 ⟨?_, (List.pairwise_map.1 h).imp ?_⟩
  · intro d _
    unfold sourceOrigins
    split <;> simp
  · intro d e hne a hd he
    rcases eq_of_mem_sourceOrigins hd with rfl | rfl
    · rcases eq_of_mem_sourceOrigins he with he | he
      · exact hne (Origin.dataSource.inj he)
      · cases he
    · rcases eq_of_mem_sourceOrigins he with he | he
      · cases he
      · exact hne (Origin.role.inj he)

/-- Names that are different within their kind make for different origins. -/
theorem HasPlainNames.nodup_origins (h : HasPlainNames api) : (origins api).Nodup := by
  have hfixed : ((fixedParts api).flatten.map Origin.fixed).Nodup := by
    have hids : LogicalId.fixedIds.Nodup := by decide
    exact (hids.sublist fixedParts_sublist).map fun _ _ he => Origin.fixed.inj he
  have hkeys : (keyOrigins api).Nodup := by
    unfold keyOrigins
    split
    · exact nodup_map_of_names h.nodup_apiKeys fun _ _ he => Origin.apiKey.inj he
    · exact List.nodup_nil
  have hfunctions := nodup_map_of_names (g := .pipelineFunction) h.nodup_pipelineFunctions
    fun _ _ he => Origin.pipelineFunction.inj he
  have hresolvers := nodup_map_of_names (g := fun x => .resolver x.1 x.2) h.nodup_resolvers
    fun _ _ he => Prod.ext (Origin.resolver.inj he).1 (Origin.resolver.inj he).2
  rw [origins_eq]
  refine (nodup_append_of_rank (k := 4) (nodup_append_of_rank (nodup_append_of_rank
    (nodup_append_of_rank ⟨hfixed, ?_⟩ hkeys ?_) (nodup_sourceOrigins h.nodup_dataSources) ?_)
    hfunctions ?_) hresolvers ?_).1
  · intro a ha
    obtain ⟨id, -, rfl⟩ := List.mem_map.1 ha
    exact Nat.one_pos
  · intro a ha
    obtain ⟨key, -, rfl⟩ := eq_of_mem_keyOrigins ha
    rfl
  · intro a ha
    obtain ⟨d, -, ha⟩ := List.mem_flatMap.1 ha
    rcases eq_of_mem_sourceOrigins ha with rfl | rfl <;> rfl
  · intro a ha
    obtain ⟨f, -, rfl⟩ := List.mem_map.1 ha
    rfl
  · intro a ha
    obtain ⟨r, -, rfl⟩ := List.mem_map.1 ha
    rfl

theorem HasPlainNames.nodup_ids_iff (h : HasPlainNames api) :
    ((origins api).map Origin.id).Nodup ↔ ¬Clash api := by
  rw [List.nodup_map_iff_inj_on h.nodup_origins]
  constructor
  · rintro hinj ⟨a, ha, b, hb, hne, hc⟩
    have hid := ((h.isPlain a ha).id_eq_iff (h.isPlain b hb) hne).2 (.inl hc)
    exact hne (hinj a ha b hb hid)
  · intro hn a ha b hb hid
    by_contra hne
    rcases ((h.isPlain a ha).id_eq_iff (h.isPlain b hb) hne).1 hid with hc | hc
    · exact hn ⟨a, ha, b, hb, hne, hc⟩
    · exact hn ⟨b, hb, a, ha, Ne.symm hne, hc⟩

/-- Where names are letters and digits, an id is generated more than once only if there is a clash.
If every part gives resources, a clash is what fails, and without one nothing does. -/
theorem collision_iff_clash (h : HasPlainNames api) (context : Context) :
    (∀ id, stack context api = .error (.idCollision id) → Clash api) ∧
    ∀ graphs functions,
      ((parts context api).mapM id).run .empty = (.ok graphs, functions) →
      (Clash api → ∃ id, stack context api = .error (.idCollision id)) ∧
      (¬Clash api → ∃ s, stack context api = .ok s) := by
  refine ⟨?_, ?_⟩
  · intro id hs
    by_contra hn
    exact not_nodup_of_collision hs (h.nodup_ids_iff.2 hn)
  · intro graphs functions hr
    have hids := ids_of_parts hr
    constructor
    · intro hc
      have hn : ¬(graphs.flatMap Graph.ids).Nodup := by
        rw [hids, h.nodup_ids_iff]
        exact not_not.2 hc
      obtain ⟨-, id, -, -, -, -, hs⟩ := stack_of_not_nodup hr hn
      exact ⟨id, hs⟩
    · intro hc
      exact ⟨_, stack_of_nodup hr (by rw [hids]; exact h.nodup_ids_iff.2 hc)⟩

/-- Two data sources, one of which is named like the role of the other. -/
def roleApi : Api :=
  apiWith [⟨"user", none, .eventBridge ⟨.str "bus", .none⟩⟩, ⟨"userRole", none, .noBackend .none⟩]
    [] []

theorem hasPlainNames_roleApi : HasPlainNames roleApi := by
  constructor <;> decide +kernel

theorem idsOf?_roleApi :
    idsOf? (((parts (.uniform querySchema) roleApi).mapM id).run .empty) =
      some ["GraphQlApi", "GraphQlSchema", "GraphQlDsuser", "GraphQlDsuserRole",
        "GraphQlDsuserRole"] := by
  unfold parts
  rw [schema_query rfl]
  decide +kernel

theorem stack_roleApi : (∃ graphs functions,
      ((parts (.uniform querySchema) roleApi).mapM id).run .empty = (.ok graphs, functions)) ∧
    stack (.uniform querySchema) roleApi = .error (.idCollision "GraphQlDsuserRole") := by
  obtain ⟨graphs, functions, hr, hids⟩ := idsOf?_eq_some idsOf?_roleApi
  refine ⟨⟨graphs, functions, hr⟩, ?_⟩
  have hsplit : graphs.flatMap Graph.ids = ["GraphQlApi", "GraphQlSchema", "GraphQlDsuser",
      "GraphQlDsuserRole"] ++ "GraphQlDsuserRole" :: [] := hids
  exact stack_of_taken hr hsplit (by decide) (by decide)

/-- Names of letters and digits that are different do not keep ids apart. -/
theorem collision_of_plain_names : HasPlainNames roleApi ∧
    stack (.uniform querySchema) roleApi = .error (.idCollision "GraphQlDsuserRole") :=
  ⟨hasPlainNames_roleApi, stack_roleApi.2⟩

theorem clash_roleApi : HasPlainNames roleApi ∧ Clash roleApi ∧
    ∃ id, stack (.uniform querySchema) roleApi = .error (.idCollision id) := by
  obtain ⟨⟨graphs, functions, hr⟩, hs⟩ := stack_roleApi
  obtain ⟨hclash, hfails⟩ := collision_iff_clash hasPlainNames_roleApi (.uniform querySchema)
  have hc := hclash _ hs
  exact ⟨hasPlainNames_roleApi, hc, (hfails graphs functions hr).1 hc⟩

end Compile

end ApiStack
