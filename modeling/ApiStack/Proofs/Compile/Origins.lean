import ApiStack.Proofs.Compile.Failures

namespace ApiStack.Compile

open Config

/-- What a logical id is made for: something there is one of at most, or an entity with a name. -/
inductive Origin where
  | fixed (id : String)
  | apiKey (name : String)
  | dataSource (name : String)
  | role (dataSource : String)
  | pipelineFunction (name : String)
  | resolver (type field : String)
  deriving DecidableEq

def Origin.id : Origin → String
  | fixed id => id
  | apiKey name => LogicalId.apiKey name
  | dataSource name => LogicalId.dataSource name
  | role source => LogicalId.dataSourceRole source
  | pipelineFunction name => LogicalId.pipelineFunction name
  | resolver type field => LogicalId.resolver type field

/-- A role is made for a data source: none is given, and there are statements. -/
def makesRole (d : DataSource) : Bool :=
  d.backend.role.arn.isNone && match d.backend.role.statements with
    | some given => !given.isEmpty
    | none => (Policy.defaultActions? d.backend.type.name).isSome

def logIds (api : Api) : List String :=
  match activeLogging api with
  | none => []
  | some l => LogicalId.logGroup ::
    if l.roleArn.isSome then [] else [LogicalId.logGroupPolicy, LogicalId.logGroupRole]

def permissionIds (api : Api) : List String :=
  if (authorizer? (api.additionalAuthentications ++ [api.authentication])).isSome then
    [LogicalId.authorizerPermission]
  else []

def fixedParts (api : Api) : List (List String) :=
  [[LogicalId.api], [LogicalId.schema], (domain api).ids, logIds api, permissionIds api,
    (waf api).ids, (cache api).ids]

def sourceOrigins (d : DataSource) : List Origin :=
  .dataSource d.name :: if makesRole d then [.role d.name] else []

def partOrigins (api : Api) : List (List Origin) :=
  (fixedParts api).map (fun ids => ids.map .fixed)
  ++ (if api.hasAuth .apiKey then api.apiKeys.values.map fun key => [.apiKey key.name] else [])
  ++ api.dataSources.values.map sourceOrigins
  ++ api.pipelineFunctions.values.map (fun f => [.pipelineFunction f.name])
  ++ api.resolvers.values.map (fun r => [.resolver r.type r.field])

def origins (api : Api) : List Origin := (partOrigins api).flatten

/-- If a part gives resources, they have the ids of what it is made for. -/
def HasIds (p : Build Graph) (os : List Origin) : Prop :=
  Settles (fun _ => True) p fun g => g.ids = os.map Origin.id

variable {context : Context} {api : Api}

theorem HasIds.pure {g : Graph} {ids : List String} (h : g.ids = ids) :
    HasIds (Pure.pure g) (ids.map .fixed) := by
  apply Settles.pure
  rw [List.map_map, h]
  exact (List.map_id ids).symm

theorem endpoint_hasIds (api : Api) : HasIds (endpoint api) [.fixed LogicalId.api] := by
  apply (provider_settles (t := .any) api true api.authentication).bind
  intro primary
  have hadditional := Settles.mapM fun p (_ : p ∈ api.additionalAuthentications) =>
    provider_settles (t := .any) api false p
  exact hadditional.map fun _ _ _ => rfl

theorem schema_hasIds : HasIds (liftM (schema context api)) [.fixed LogicalId.schema] := by
  apply Settles.lift
  intro g hg
  obtain ⟨sources, -, hg⟩ := bind_eq_ok_iff.1 hg
  obtain ⟨text, -, hg⟩ := bind_eq_ok_iff.1 hg
  cases hg
  rfl

theorem ids_logGroup : (logGroup context api).ids = logIds api := by
  unfold logGroup logIds
  cases activeLogging api with
  | none => rfl
  | some l =>
    simp only [Graph.ids]
    cases l.roleArn <;> rfl

theorem authorizerPermission_hasIds (api : Api) :
    HasIds (authorizerPermission api) ((permissionIds api).map .fixed) := by
  unfold authorizerPermission permissionIds
  split
  · next h => rw [h]; exact .pure rfl
  · next a h =>
    rw [h]
    exact (functionArn_settles (t := .any) _ _).map fun _ _ => rfl

theorem apiKey_hasIds {key : ApiKey} : HasIds (liftM (apiKey context key)) [.apiKey key.name] := by
  apply Settles.lift
  intro g hg
  obtain ⟨expiry, -, hg⟩ := bind_eq_ok_iff.1 hg
  cases hg
  rfl

theorem isEmpty_neededStatements {name : String} {b : Backend} {granted : DefaultActions}
    (h : Policy.defaultActions? b.type.name = some granted) :
    Settles (fun _ => True) (neededStatements name granted b) fun l => l.isEmpty = false := by
  cases b with
  | lambda b => exact (functionArn_settles (t := .any) _ _).map fun _ _ => rfl
  | openSearch b => exact (Settles.lift fun _ _ => trivial).map fun _ (_ : True) => rfl
  | dynamoDb b => exact .pure rfl
  | relationalDatabase b => exact .pure rfl
  | eventBridge b => exact .pure rfl
  | http b => cases h
  | noBackend role => cases h

theorem statements_isEmpty (d : DataSource) (ha : d.backend.role.arn = none) :
    Settles (fun _ => True) (statements d) fun l => l.isEmpty = !makesRole d := by
  unfold statements makesRole
  rw [ha]
  cases d.backend.role.statements with
  | some given => exact .pure (by simp)
  | none =>
    simp only
    split
    · exact .throw _ _
    · unfold defaultStatements
      cases hg : Policy.defaultActions? d.backend.type.name with
      | none => exact .pure rfl
      | some granted => exact isEmpty_neededStatements hg

theorem role_isSome (d : DataSource) :
    Settles (fun _ => True) (role d) fun made => made.2.isSome = makesRole d := by
  unfold role
  split
  · next arn ha =>
    apply Settles.pure
    simp [makesRole, ha]
  · next ha =>
    apply (statements_isEmpty d ha).bind
    intro l
    split
    · next he =>
      apply Settles.pure
      intro h
      simp_all
    · next he =>
      apply Settles.pure
      intro h
      simp_all

theorem dataSource_hasIds (d : DataSource) : HasIds (dataSource d) (sourceOrigins d) := by
  unfold dataSource sourceOrigins
  apply (backendEntry_settles (t := .any) d.name d.backend).bind
  intro backend
  apply (role_isSome d).map
  rintro ⟨arn, made⟩ hmade _
  rw [← hmade]
  cases made <;> rfl

theorem pipelineFunction_hasIds {f : PipelineFunction} :
    HasIds (pipelineFunction context api f) [.pipelineFunction f.name] := by
  unfold pipelineFunction
  simp only
  split
  · exact .throw_bind _ _ _
  · apply (Settles.lift fun _ _ => trivial).bind
    intro handler
    exact (syncEntry_settles (t := .any) _ _).map fun _ _ _ => rfl

theorem resolver_hasIds {r : Resolver} :
    HasIds (resolver context api r) [.resolver r.type r.field] := by
  unfold resolver
  apply (Settles.lift fun _ _ => trivial).bind
  intro handler
  apply (syncEntry_settles (t := .any) _ _).bind
  intro sync
  exact (Settles.lift fun _ _ => trivial).map fun _ (_ : True) _ _ => rfl

/-- Every part has the ids of what it is made for. -/
theorem parts_haveIds (context : Context) (api : Api) :
    List.Forall₂ HasIds (parts context api) (partOrigins api) := by
  have hkeys : List.Forall₂ HasIds
      (if api.hasAuth .apiKey then
        api.apiKeys.values.map fun key => (apiKey context key : Build Graph) else [])
      (if api.hasAuth .apiKey then
        api.apiKeys.values.map fun key => [Origin.apiKey key.name] else []) := by
    split
    · rw [List.forall₂_map_left_iff, List.forall₂_map_right_iff, List.forall₂_same]
      exact fun key _ => apiKey_hasIds
    · exact .nil
  unfold parts partOrigins
  refine List.rel_append (List.rel_append (List.rel_append (List.rel_append ?_ hkeys) ?_) ?_) ?_
  · exact .cons (endpoint_hasIds api) (.cons schema_hasIds (.cons (.pure rfl)
      (.cons (.pure ids_logGroup) (.cons (authorizerPermission_hasIds api)
        (.cons (.pure rfl) (.cons (.pure rfl) .nil))))))
  · rw [List.forall₂_map_left_iff, List.forall₂_map_right_iff, List.forall₂_same]
    exact fun d _ => dataSource_hasIds d
  · rw [List.forall₂_map_left_iff, List.forall₂_map_right_iff, List.forall₂_same]
    exact fun f _ => pipelineFunction_hasIds
  · rw [List.forall₂_map_left_iff, List.forall₂_map_right_iff, List.forall₂_same]
    exact fun r _ => resolver_hasIds

theorem ids_of_gives {ps : List (Build Graph)} {os : List (List Origin)} {graphs : List Graph}
    (ho : List.Forall₂ HasIds ps os) (hg : List.Forall₂ (Gives fun _ => True) ps graphs) :
    graphs.flatMap Graph.ids = os.flatten.map Origin.id := by
  induction ho generalizing graphs with
  | nil =>
    cases hg
    rfl
  | cons hp _ ih =>
    cases hg with
    | cons hg hrest =>
      rw [List.flatMap_cons, List.flatten_cons, List.map_append, ih hrest, hp.of_gives hg]

theorem ids_of_front {front behind : List (Build Graph)} {graphs : List Graph} {mid : Functions}
    (he : parts context api = front ++ behind)
    (hr : (front.mapM id).run .empty = (.ok graphs, mid)) :
    graphs.flatMap Graph.ids =
      ((partOrigins api).take front.length).flatten.map Origin.id := by
  have ho := List.forall₂_take front.length (parts_haveIds context api)
  rw [he, List.take_left] at ho
  apply ids_of_gives ho
  apply Gives.of_mapM ?_ hr fun _ _ => trivial
  intro p hp
  exact parts_settle _ context api p (by rw [he]; exact List.mem_append_left _ hp)

theorem ids_of_parts {graphs : List Graph} {functions : Functions}
    (hr : ((parts context api).mapM id).run .empty = (.ok graphs, functions)) :
    graphs.flatMap Graph.ids = (origins api).map Origin.id := by
  have h := ids_of_front (List.append_nil _).symm hr
  rwa [(parts_haveIds context api).length_eq, List.take_length] at h

/-- An id is generated more than once only if two of those known before are the same. -/
theorem not_nodup_of_collision {id : String}
    (h : stack context api = .error (.idCollision id)) :
    ¬((origins api).map Origin.id).Nodup := by
  rcases cases_of_stack_eq_error h with
    ⟨p, hp, mid, mid', hr⟩ | ⟨front, behind, graphs, mid, he, hr, hn, -⟩
  · cases parts_arise context api p hp _ _ _ hr
  · rw [ids_of_front he hr] at hn
    intro hall
    rw [origins, ← List.take_append_drop front.length (partOrigins api), List.flatten_append,
      List.map_append] at hall
    exact hn hall.of_append_left

end ApiStack.Compile
