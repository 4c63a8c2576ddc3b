import ApiStack.Compile.DataSource
import ApiStack.Proofs.Compile.References
import ApiStack.Proofs.Json.Path

namespace ApiStack

namespace Json

@[simp]
theorem prune_join (separator : String) (parts : List Json) :
    (Intrinsic.join separator parts).prune = Intrinsic.join separator (parts.map prune) := by
  rw [← pruneItems_eq_map]
  rfl

@[simp]
theorem prune_getAtt (id attributeName : String) :
    (Intrinsic.getAtt id attributeName).prune = Intrinsic.getAtt id attributeName := rfl

@[simp]
theorem prune_arn (service : String) (region : Json) (rest : List Json) :
    (Intrinsic.arn service region rest).prune =
      Intrinsic.arn service region.prune (rest.map prune) := by
  rw [Intrinsic.arn, prune_join, List.map_append]
  rfl

theorem pruneItems_strs (texts : List String) :
    pruneItems (texts.map str) = texts.map str := by
  rw [pruneItems_eq_map, List.map_map]
  rfl

@[simp]
theorem prune_grant (actions : List String) (resources : List Json) :
    (Policy.grant actions resources).prune = Policy.grant actions (resources.map prune) := by
  rw [← pruneItems_eq_map]
  simp [Policy.grant, prune, pruneEntries, isNull, strs, pruneItems_strs]

@[simp]
theorem prune_allow (actions : List String) (resources : List Json) :
    (Policy.allow actions resources).prune = Policy.allow actions (resources.map prune) := by
  rw [← pruneItems_eq_map]
  simp [Policy.allow, prune, pruneEntries, isNull, strs, pruneItems_strs]

end Json

namespace Compile

open Config Json

@[simp]
theorem map_prune_withAllBelow (arn : Json) :
    (withAllBelow arn).map prune = withAllBelow arn.prune := by
  simp [withAllBelow, prune]

/-- What refers to a function that is found under some name if its definition is embedded. -/
def reference (name : String) : FunctionTarget → Json
  | .arn value => value
  | .named used aliasName => namedFunction used aliasName
  | .embedded _ => namedFunction name none

/-- The block of a backend, in the properties of its data source, shows what is behind it. -/
def BlockShows (name : String) (properties : Json) : Backend → Prop
  | .lambda b => ∃ target, b.function.target = .ok target ∧
      (properties.under "LambdaConfig").under "LambdaFunctionArn" =
        (reference (FunctionName.dataSource name) target).prune
  | .dynamoDb b =>
      (properties.under "DynamoDBConfig").under "TableName" = b.tableName.prune ∧
      (properties.under "DynamoDBConfig").under "AwsRegion" = (Intrinsic.regionOr b.region).prune
  | .relationalDatabase b =>
      let block := (properties.under "RelationalDatabaseConfig").under "RdsHttpEndpointConfig"
      block.under "DbClusterIdentifier" = (clusterArn b).prune ∧
      block.under "AwsSecretStoreArn" = b.secretStore.prune
  | .openSearch b => ∃ endpoint, searchEndpoint b = .ok endpoint ∧
      (properties.under "OpenSearchServiceConfig").under "Endpoint" = endpoint.prune
  | .eventBridge b => (properties.under "EventBridgeConfig").under "EventBusArn" = b.eventBus.prune
  | .http b => (properties.under "HttpConfig").under "Endpoint" = b.endpoint.prune
  | .noBackend _ => True

/-- Statements that grant actions on what the block of a backend shows. -/
inductive Needs (granted : DefaultActions) (properties : Json) : Backend → List Json → Prop
  | lambda (b : LambdaBackend) : Needs granted properties (.lambda b)
      [Policy.grant granted.actions
        (withAllBelow ((properties.under "LambdaConfig").under "LambdaFunctionArn"))]
  | dynamoDb (b : DynamoDb) {tables table : Json}
      (htables : tables = Intrinsic.arn "dynamodb"
        ((properties.under "DynamoDBConfig").under "AwsRegion") [.str "table"])
      (htable : table = (properties.under "DynamoDBConfig").under "TableName") :
      Needs granted properties (.dynamoDb b)
        [Policy.grant granted.actions [Intrinsic.join "/" [tables, table],
          Intrinsic.join "/" [tables, table, .str "*"]]]
  | relationalDatabase (b : RelationalDatabase) {block : Json}
      (hblock : block =
        (properties.under "RelationalDatabaseConfig").under "RdsHttpEndpointConfig") :
      Needs granted properties (.relationalDatabase b)
        [Policy.allow granted.actions (withAllBelow (block.under "DbClusterIdentifier")),
          Policy.allow granted.secretActions (withAllBelow (block.under "AwsSecretStoreArn"))]
  | searchDomain (b : OpenSearch) {domain : String} (hdomain : b.domain = some domain)
      (h : (properties.under "OpenSearchServiceConfig").under "Endpoint" =
        Intrinsic.join "" [.str endpointStart, Intrinsic.getAtt domain "DomainEndpoint"]) :
      Needs granted properties (.openSearch b)
        [Policy.grant granted.actions
          [Intrinsic.join "/" [Intrinsic.getAtt domain "Arn", .str "*"]]]
  | searchEndpoint (b : OpenSearch) {endpoint host region : String}
      (hendpoint : b.endpoint = some (.str endpoint))
      (h : (properties.under "OpenSearchServiceConfig").under "Endpoint" = .str endpoint)
      (hhost : searchHost? endpoint = some (host, region)) :
      Needs granted properties (.openSearch b)
        [Policy.grant granted.actions
          [Intrinsic.arn "es" (.str region) [.str ("domain/" ++ host ++ "/*")]]]
  | eventBridge (b : EventBridge) : Needs granted properties (.eventBridge b)
      [Policy.grant granted.actions [(properties.under "EventBridgeConfig").under "EventBusArn"]]

/-- The statements for the role of a data source: those that are given, or else those that it
needs. -/
inductive Applies (d : DataSource) (properties : Json) : List Json → Prop
  | given {given : List Json} (h : d.backend.role.statements = some given) :
      Applies d properties (given.map prune)
  | needed {granted : DefaultActions} {needed : List Json}
      (h : d.backend.role.statements = none)
      (hg : Policy.defaultActions? d.backend.type.name = some granted)
      (hn : Needs granted properties d.backend needed) : Applies d properties needed
  | nothing (h : d.backend.role.statements = none)
      (hg : Policy.defaultActions? d.backend.type.name = none) : Applies d properties []

theorem functionArn_gives (source : FunctionSource) (name : String) :
    Settles (fun _ => True) (functionArn source name) fun arn =>
      ∃ target, source.target = .ok target ∧ arn = reference name target := by
  unfold functionArn
  apply (Settles.lift_eq _).bind
  intro target
  cases target with
  | arn value => exact .pure fun h => ⟨_, h, rfl⟩
  | named used aliasName => exact .pure fun h => ⟨_, h, rfl⟩
  | embedded definition =>
    apply Settles.map (P := fun _ => True) (.embed id)
    exact fun _ _ h => ⟨_, h, rfl⟩

theorem under_prune_tableSettings (b : DynamoDb) (key : String) :
    (tableSettings b).prune.under key = ((tableSettings b).under key).prune := by
  apply under_prune
  split <;> simp

theorem under_prune_databaseSettings (b : RelationalDatabase) (key : String) :
    ((databaseSettings b).prune.under "RdsHttpEndpointConfig").under key =
      (((databaseSettings b).under "RdsHttpEndpointConfig").under key).prune := by
  have hblock : (databaseSettings b).prune.under "RdsHttpEndpointConfig" =
      ((databaseSettings b).under "RdsHttpEndpointConfig").prune :=
    under_prune (by simp) _
  rw [hblock]
  apply under_prune
  simp

def blockKey? : Backend → Option String
  | .lambda _ => some "LambdaConfig"
  | .dynamoDb _ => some "DynamoDBConfig"
  | .openSearch _ => some "OpenSearchServiceConfig"
  | .relationalDatabase _ => some "RelationalDatabaseConfig"
  | .http _ => some "HttpConfig"
  | .eventBridge _ => some "EventBridgeConfig"
  | .noBackend _ => none

/-- The block of a backend shows what is behind it, wherever it is kept up to null entries. -/
theorem backendEntry_shows (name : String) (b : Backend) :
    Settles (fun _ => True) (backendEntry name b) fun entries =>
      entries.map Prod.fst = (blockKey? b).toList ∧
      ∀ properties : Json, (∀ key v, (key, v) ∈ entries → properties.under key = v.prune) →
        BlockShows name properties b := by
  cases b with
  | lambda b =>
    apply (functionArn_gives b.function _).map
    rintro _ ⟨target, ht, rfl⟩
    refine ⟨rfl, fun properties h => ⟨target, ht, ?_⟩⟩
    rw [h _ _ (List.mem_singleton_self _)]
    exact under_prune (by simp) _
  | dynamoDb b =>
    refine .pure ⟨rfl, fun properties h => ?_⟩
    rw [BlockShows, h _ _ (List.mem_singleton_self _), under_prune_tableSettings,
      under_prune_tableSettings]
    exact ⟨rfl, rfl⟩
  | openSearch b =>
    apply (Settles.lift_eq _).map
    intro settings hs
    obtain ⟨endpoint, he, hs⟩ := bind_eq_ok_iff.1 hs
    cases hs
    refine ⟨rfl, fun properties h => ⟨endpoint, he, ?_⟩⟩
    rw [h _ _ (List.mem_singleton_self _)]
    exact under_prune (by simp) _
  | relationalDatabase b =>
    refine .pure ⟨rfl, fun properties h => ?_⟩
    rw [BlockShows, h _ _ (List.mem_singleton_self _), under_prune_databaseSettings,
      under_prune_databaseSettings]
    exact ⟨rfl, rfl⟩
  | http b =>
    refine .pure ⟨rfl, fun properties h => ?_⟩
    rw [BlockShows, h _ _ (List.mem_singleton_self _)]
    cases ha : b.authorization <;> exact under_prune (by simp [ha, entry]) "Endpoint"
  | eventBridge b =>
    refine .pure ⟨rfl, fun properties h => ?_⟩
    rw [BlockShows, h _ _ (List.mem_singleton_self _)]
    exact under_prune (by simp) _
  | noBackend role => exact .pure ⟨rfl, fun _ _ => trivial⟩

/-- The name of a search domain and the endpoint that its block shows belong to one domain. -/
theorem needs_of_searchArn {name : String} {granted : DefaultActions} {properties : Json}
    {b : OpenSearch} {arn : Json} (hshows : BlockShows name properties (.openSearch b))
    (harn : searchArn name b = .ok arn) :
    Needs granted properties (.openSearch b) [Policy.grant granted.actions [arn.prune]] := by
  obtain ⟨endpoint, he, hp⟩ := hshows
  rw [searchEndpoint] at he
  rw [searchArn] at harn
  split at he
  · next hendpoint hdomain =>
    rw [hendpoint, hdomain] at harn
    cases he
    split at harn
    · next e _ heq =>
      cases heq
      split at harn
      · cases harn
      · next host region hhost =>
        cases harn
        exact .searchEndpoint b hendpoint hp hhost
    · cases ‹_ = some _›
    · cases harn
  · next domain hendpoint hdomain =>
    rw [hendpoint, hdomain] at harn
    cases he
    cases harn
    exact .searchDomain b hdomain hp
  · cases he

theorem neededStatements_needs (name : String) (granted : DefaultActions) (b : Backend) :
    Settles (fun _ => True) (neededStatements name granted b) fun statements =>
      ∀ properties : Json, BlockShows name properties b →
        Policy.defaultActions? b.type.name = some granted →
        Needs granted properties b (statements.map prune) := by
  cases b with
  | lambda b =>
    apply (functionArn_gives b.function _).map
    rintro _ ⟨target, ht, rfl⟩ properties ⟨target', ht', hshows⟩ _
    -- the block and the statements find the function separately, but from one source
    cases ht.symm.trans ht'
    rw [List.map_singleton, prune_grant, map_prune_withAllBelow, ← hshows]
    exact .lambda b
  | dynamoDb b =>
    apply Settles.pure
    rintro properties ⟨htable, hregion⟩ _
    rw [tableStatements, List.map_singleton, prune_grant]
    simp only [List.map_cons, List.map_nil, prune_join, prune_arn, ← hregion, ← htable]
    exact .dynamoDb b rfl rfl
  | relationalDatabase b =>
    apply Settles.pure
    rintro properties ⟨hcluster, hsecret⟩ _
    simp only [databaseStatements, List.map_cons, List.map_nil, prune_allow,
      map_prune_withAllBelow, ← hcluster, ← hsecret]
    exact .relationalDatabase b rfl
  | openSearch b =>
    apply (Settles.lift_eq _).map
    intro arn harn properties hshows _
    rw [List.map_singleton, prune_grant]
    exact needs_of_searchArn hshows harn
  | eventBridge b =>
    apply Settles.pure
    intro properties hshows _
    rw [BlockShows] at hshows
    rw [List.map_singleton, prune_grant, List.map_singleton, ← hshows]
    exact .eventBridge b
  | http b => exact .pure fun _ _ hg => nomatch hg
  | noBackend role => exact .pure fun _ _ hg => nomatch hg

/-- The properties of a data source show what is behind it, and a role that is made has the
statements that apply. -/
inductive Access (d : DataSource) (properties : Json) : Option Json → Option Resource → Prop
  | given {arn : Json} (h : d.backend.role.arn = some arn) : Access d properties (some arn) none
  | nothing (h : d.backend.role.arn = none) (hs : Applies d properties []) :
      Access d properties none none
  | role {statements : List Json} (h : d.backend.role.arn = none) (hne : statements ≠ [])
      (hs : Applies d properties (statements.map prune)) :
      Access d properties (some (Intrinsic.getAtt (LogicalId.dataSourceRole d.name) "Arn"))
        (some (roleWith d.name statements))

theorem statements_apply (d : DataSource) :
    Settles (fun _ => True) (statements d) fun statements =>
      ∀ properties : Json, BlockShows d.name properties d.backend →
        Applies d properties (statements.map prune) := by
  unfold statements
  cases hgiven : d.backend.role.statements with
  | some given => exact .pure fun _ _ => .given hgiven
  | none =>
    simp only
    split
    · exact .throw _ _
    · unfold defaultStatements
      split
      · next hg => exact .pure fun _ _ => .nothing hgiven hg
      · next granted hg =>
        apply (neededStatements_needs d.name granted d.backend).mono
        exact fun statements hneeds properties hshows =>
          .needed hgiven hg (hneeds properties hshows hg)

theorem role_access (d : DataSource) :
    Settles (fun _ => True) (role d) fun (arn, made) =>
      ∀ properties : Json, BlockShows d.name properties d.backend →
        Access d properties arn made := by
  unfold role
  cases harn : d.backend.role.arn with
  | some arn => exact .pure fun _ _ => .given harn
  | none =>
    apply (statements_apply d).bind
    intro statements
    cases statements with
    | nil => exact .pure fun happly properties hshows => .nothing harn (happly properties hshows)
    | cons s rest =>
      exact .pure fun happly properties hshows =>
        .role harn (List.cons_ne_nil s rest) (happly properties hshows)

theorem nodup_properties {b : Backend} {block : List (String × Json)}
    (hkeys : block.map Prod.fst = (blockKey? b).toList) (id name description type : Json)
    (arn : Option Json) :
    (([("ApiId", id), ("Name", name), ("Description", description), ("Type", type)]
      ++ block ++ entry "ServiceRoleArn" arn).map Prod.fst).Nodup := by
  simp only [List.map_append, hkeys]
  cases b <;> cases arn <;> simp [blockKey?, entry]

theorem lookup_serviceRole {b : Backend} {block : List (String × Json)}
    (hkeys : block.map Prod.fst = (blockKey? b).toList) (id name description type : Json)
    (arn : Option Json) :
    ([("ApiId", id), ("Name", name), ("Description", description), ("Type", type)]
      ++ block ++ entry "ServiceRoleArn" arn).lookup "ServiceRoleArn" = arn := by
  have hblock : block.lookup "ServiceRoleArn" = none := by
    rw [lookup_eq_none_iff_notMem, hkeys]
    cases b <;> simp [blockKey?]
  rw [List.lookup_append, List.lookup_append, hblock, Option.or_none]
  cases arn <;> rfl

theorem access_of_dataSource (d : DataSource) :
    Settles (fun _ => True) (dataSource d) fun g => ∃ r arn made,
      g.entries = (LogicalId.dataSource d.name, r) ::
        (made.map fun role => (LogicalId.dataSourceRole d.name, role)).toList ∧
      r.IsNamed "AWS::AppSync::DataSource" d.name ∧
      r.property? "Type" = some (.str d.backend.type.name) ∧
      r.property? "ServiceRoleArn" =
        arn.bind (fun v => if v.isNull then none else some v.prune) ∧
      BlockShows d.name r.properties d.backend ∧ Access d r.properties arn made := by
  unfold dataSource
  apply (backendEntry_shows d.name d.backend).bind
  intro block
  apply (role_access d).map
  rintro ⟨arn, made⟩ haccess ⟨hkeys, hshows⟩
  have hn := nodup_properties hkeys apiId (.str d.name) (.ofOption .str d.description)
    (.str d.backend.type.name) arn
  have harn := lookup_serviceRole hkeys apiId (.str d.name) (.ofOption .str d.description)
    (.str d.backend.type.name) arn
  have hblock : BlockShows d.name _ d.backend := hshows (Json.prune (.obj _)) fun key v hm => by
    have hget : (obj _).get? key = some v := lookup_of_mem hn
      (List.mem_append_left _ (List.mem_append_right _ hm))
    rw [under_prune hn, under, hget, Option.getD_some]
  refine ⟨_, arn, made, rfl, ⟨rfl, Resource.property?_make (v := .str d.name) rfl rfl⟩,
    Resource.property?_make (v := .str d.backend.type.name) rfl rfl, ?_, hblock,
    haccess _ hblock⟩
  exact (get?_prune hn _).trans (congrArg (Option.bind · _) harn)

theorem Needs.unique {granted : DefaultActions} {properties : Json} {b : Backend}
    {statements statements' : List Json} (h : Needs granted properties b statements)
    (h' : Needs granted properties b statements') : statements = statements' := by
  cases h with
  | lambda b =>
    cases h'
    rfl
  | dynamoDb b htables htable =>
    cases h' with
    | dynamoDb _ htables' htable' => rw [htables, htable, htables', htable']
  | relationalDatabase b hblock =>
    cases h' with
    | relationalDatabase _ hblock' => rw [hblock, hblock']
  | searchDomain b hdomain h =>
    cases h' with
    | searchDomain _ hdomain' _ =>
      cases hdomain.symm.trans hdomain'
      rfl
    | searchEndpoint _ _ h' _ => cases h.symm.trans h'
  | searchEndpoint b hendpoint h hhost =>
    cases h' with
    | searchDomain _ _ h' => cases h.symm.trans h'
    | searchEndpoint _ hendpoint' _ hhost' =>
      cases hendpoint.symm.trans hendpoint'
      cases hhost.symm.trans hhost'
      rfl
  | eventBridge b =>
    cases h'
    rfl

theorem Applies.unique {d : DataSource} {properties : Json} {statements statements' : List Json}
    (h : Applies d properties statements) (h' : Applies d properties statements') :
    statements = statements' := by
  cases h with
  | given h =>
    cases h' with
    | given h' =>
      cases h.symm.trans h'
      rfl
    | needed h' _ _ => cases h.symm.trans h'
    | nothing h' _ => cases h.symm.trans h'
  | needed h hg hn =>
    cases h' with
    | given h' => cases h.symm.trans h'
    | needed h' hg' hn' =>
      cases hg.symm.trans hg'
      exact hn.unique hn'
    | nothing h' hg' => cases hg.symm.trans hg'
  | nothing h hg =>
    cases h' with
    | given h' => cases h.symm.trans h'
    | needed h' hg' hn' => cases hg.symm.trans hg'
    | nothing _ _ => rfl

/-- A role that the service assumes for a data source, whose only policy has some statements. -/
structure IsRoleWith (name : String) (statements : List Json) (role : Resource) : Prop where
  type_eq : role.type = "AWS::IAM::Role"
  assumed : role.property? "AssumeRolePolicyDocument" = some Policy.assumeRole
  policies : role.property? "Policies" = some (.arr [.obj [
    ("PolicyName", .str ("AppSync-Datasource-" ++ name)),
    ("PolicyDocument", Policy.document statements)]])

theorem isRoleWith_roleWith (name : String) (statements : List Json) :
    IsRoleWith name (statements.map prune) (roleWith name statements) where
  type_eq := rfl
  assumed := Resource.property?_make (v := Policy.assumeRole) rfl rfl
  policies := by
    rw [← pruneItems_eq_map]
    exact Resource.property?_make (v := .arr [.obj [
      ("PolicyName", .str ("AppSync-Datasource-" ++ name)),
      ("PolicyDocument", Policy.document statements)]]) rfl rfl

/-- How a data source and the role that is made for it belong together. -/
structure IsServed (d : DataSource) (r : Resource) (made : Option Resource) : Prop where
  shows : BlockShows d.name r.properties d.backend
  made_iff : made.isSome = true ↔ d.backend.role.arn = none ∧
    ∃ statements, statements ≠ [] ∧ Applies d r.properties statements
  granted : ∀ role ∈ made, ∃ statements, Applies d r.properties statements ∧
    IsRoleWith d.name statements role
  arn_given : ∀ arn, d.backend.role.arn = some arn →
    r.property? "ServiceRoleArn" = if arn.isNull then none else some arn.prune
  arn_made : d.backend.role.arn = none → r.property? "ServiceRoleArn" =
    made.map fun _ => Intrinsic.getAtt (LogicalId.dataSourceRole d.name) "Arn"

/-- A table in the region of the stack, for which a role is made. -/
def tableSource : DataSource :=
  ⟨"users", none, .dynamoDb ⟨.str "users", false, none, false, none, .none⟩⟩

end Compile

end ApiStack
