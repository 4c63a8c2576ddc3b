import ApiStack.Compile.DataSource
import ApiStack.Proofs.Compile.References.Endpoint

namespace ApiStack.Compile

open Config Json

variable {t : Targets}

theorem holds_tableSettings {b : DynamoDb} (h : t.Covers (Backend.dynamoDb b).ownSupplies) :
    (tableSettings b).EveryEntry t.Resolves := by
  obtain ⟨hname, hregion⟩ := Targets.covers_cons.1 h
  have hn : b.tableName.EveryEntry t.Resolves := hname
  have hr := Targets.holds_regionOr (Targets.covers_optional.1 hregion)
  unfold tableSettings
  rw [everyEntry_obj, everyEntryOf_append]
  refine ⟨by simp [hn, hr], ?_⟩
  split <;> simp

theorem holds_searchEndpoint {b : OpenSearch} {v : Json}
    (h : t.Covers (Backend.openSearch b).ownSupplies) (hv : searchEndpoint b = .ok v) :
    v.EveryEntry t.Resolves := by
  simp only [Backend.ownSupplies, Targets.covers_append, Targets.covers_optional] at h
  obtain ⟨⟨hendpoint, -⟩, hdomain⟩ := h
  unfold searchEndpoint at hv
  split at hv
  · next he _ =>
    cases hv
    exact hendpoint _ he
  · next domain _ hd =>
    cases hv
    have hm : t.domain domain := hdomain (.domain domain) (by simp [hd])
    have ha := Targets.holds_getAtt (t := t) (.inr (.inl hm)) "DomainEndpoint"
    exact Targets.holds_join "" (by simp [ha])
  · cases hv

theorem holds_clusterArn {b : RelationalDatabase}
    (h : t.Covers (Backend.relationalDatabase b).ownSupplies) :
    (clusterArn b).EveryEntry t.Resolves := by
  simp only [Backend.ownSupplies, Targets.covers_append, Targets.covers_cons,
    Targets.covers_optional] at h
  obtain ⟨hcluster, -, -, hregion⟩ := h
  have hc : b.cluster.EveryEntry t.Resolves := hcluster
  exact Targets.holds_arn "rds" (Targets.holds_regionOr hregion) (by simp [hc])

theorem holds_databaseSettings {b : RelationalDatabase}
    (h : t.Covers (Backend.relationalDatabase b).ownSupplies) :
    (databaseSettings b).EveryEntry t.Resolves := by
  have harn := holds_clusterArn h
  simp only [Backend.ownSupplies, Targets.covers_append, Targets.covers_cons,
    Targets.covers_optional] at h
  obtain ⟨-, hsecret, ⟨hdatabase, hschema⟩, hregion⟩ := h
  have hs : b.secretStore.EveryEntry t.Resolves := hsecret
  have hd := everyEntry_getD hdatabase everyEntry_null
  have hsch := everyEntry_getD hschema everyEntry_null
  have hr := Targets.holds_regionOr hregion
  simp [databaseSettings, harn, hs, hd, hsch, hr]

theorem holds_httpSettings {b : Http} (h : t.Covers (Backend.http b).ownSupplies) :
    (httpSettings b).EveryEntry t.Resolves := by
  obtain ⟨hendpoint, hauth⟩ := Targets.covers_cons.1 h
  have he : b.endpoint.EveryEntry t.Resolves := hendpoint
  rw [httpSettings, everyEntry_obj, everyEntryOf_cons]
  refine ⟨⟨by simp, he⟩, everyEntryOf_entry _ fun v hv => ⟨by simp, ?_⟩⟩
  obtain ⟨a, ha, rfl⟩ := Option.map_eq_some_iff.1 hv
  have hs := Targets.covers_flatMap.1 hauth a (by simp [ha])
  obtain ⟨hregion, hservice⟩ := Targets.covers_append.1 hs
  have hr := Targets.holds_regionOr (Targets.covers_optional.1 hregion)
  have hn := everyEntry_getD (Targets.covers_optional.1 hservice) everyEntry_null
  simp [authorizationSettings, hr, hn]

theorem backendEntry_settles (name : String) (b : Backend) :
    Settles t.function (backendEntry name b) fun entries =>
      t.Covers b.ownSupplies → EveryEntryOf t.Resolves entries := by
  cases b with
  | lambda b =>
    apply (functionArn_settles b.function _).map
    intro arn harn h
    simp [harn h]
  | dynamoDb b =>
    apply Settles.pure
    intro h
    simp [holds_tableSettings h]
  | openSearch b =>
    apply (Settles.lift_eq _).map
    intro settings hs h
    obtain ⟨endpoint, he, hs⟩ := bind_eq_ok_iff.1 hs
    cases hs
    have hr := (Targets.covers_append.1 (Targets.covers_append.1 h).1).2
    simp [holds_searchEndpoint h he, Targets.holds_regionOr (Targets.covers_optional.1 hr)]
  | relationalDatabase b =>
    apply Settles.pure
    intro h
    simp [holds_databaseSettings h]
  | http b =>
    apply Settles.pure
    intro h
    simp [holds_httpSettings h]
  | eventBridge b =>
    apply Settles.pure
    intro h
    have hb : b.eventBus.EveryEntry t.Resolves := (Targets.covers_cons.1 h).1
    simp [hb]
  | noBackend role => exact .pure fun _ => everyEntryOf_nil

theorem holds_grant (actions : List String) {resources : List Json}
    (h : EveryEntryIn t.Resolves resources) :
    (Policy.grant actions resources).EveryEntry t.Resolves := by
  simp [Policy.grant, h]

theorem holds_allow (actions : List String) {resources : List Json}
    (h : EveryEntryIn t.Resolves resources) :
    (Policy.allow actions resources).EveryEntry t.Resolves := by
  simp [Policy.allow, h]

theorem holds_withAllBelow {arn : Json} (h : arn.EveryEntry t.Resolves) :
    EveryEntryIn t.Resolves (withAllBelow arn) := by
  have hj : (Intrinsic.join ":" [arn, .str "*"]).EveryEntry t.Resolves :=
    Targets.holds_join ":" (by simp [h])
  simp [withAllBelow, h, hj]

theorem holds_searchArn {name : String} {b : OpenSearch} {v : Json}
    (h : t.Covers (Backend.openSearch b).ownSupplies) (hv : searchArn name b = .ok v) :
    v.EveryEntry t.Resolves := by
  have hdomain := (Targets.covers_append.1 h).2
  unfold searchArn at hv
  split at hv
  · split at hv
    · cases hv
    · cases hv
      exact Targets.holds_arn "es" (everyEntry_str _) (by simp)
  · next domain hd _ =>
    cases hv
    have hm : t.domain domain := hdomain (.domain domain) (by simp [hd])
    have ha := Targets.holds_getAtt (t := t) (.inr (.inl hm)) "Arn"
    exact Targets.holds_join "/" (by simp [ha])
  · cases hv

theorem holds_tableStatements (granted : DefaultActions) {b : DynamoDb}
    (h : t.Covers (Backend.dynamoDb b).ownSupplies) :
    EveryEntryIn t.Resolves (tableStatements granted b) := by
  obtain ⟨hname, hregion⟩ := Targets.covers_cons.1 h
  have hn : b.tableName.EveryEntry t.Resolves := hname
  have htables : (Intrinsic.arn "dynamodb" (Intrinsic.regionOr b.region)
      [.str "table"]).EveryEntry t.Resolves :=
    Targets.holds_arn "dynamodb"
      (Targets.holds_regionOr (Targets.covers_optional.1 hregion)) (by simp)
  simp only [tableStatements, everyEntryIn_cons, everyEntryIn_nil, and_true]
  apply holds_grant
  simp only [everyEntryIn_cons, everyEntryIn_nil, and_true]
  exact ⟨Targets.holds_join "/" (by simp [htables, hn]),
    Targets.holds_join "/" (by simp [htables, hn])⟩

theorem holds_databaseStatements (granted : DefaultActions) {b : RelationalDatabase}
    (h : t.Covers (Backend.relationalDatabase b).ownSupplies) :
    EveryEntryIn t.Resolves (databaseStatements granted b) := by
  have hs : b.secretStore.EveryEntry t.Resolves :=
    (Targets.covers_cons.1 (Targets.covers_cons.1 h).2).1
  simp only [databaseStatements, everyEntryIn_cons, everyEntryIn_nil, and_true]
  exact ⟨holds_allow _ (holds_withAllBelow (holds_clusterArn h)),
    holds_allow _ (holds_withAllBelow hs)⟩

theorem neededStatements_settles (name : String) (granted : DefaultActions) (b : Backend) :
    Settles t.function (neededStatements name granted b) fun statements =>
      t.Covers b.ownSupplies → EveryEntryIn t.Resolves statements := by
  cases b with
  | lambda b =>
    apply (functionArn_settles b.function _).map
    intro arn harn h
    simp [holds_grant granted.actions (holds_withAllBelow (harn h))]
  | dynamoDb b => exact .pure fun h => holds_tableStatements granted h
  | relationalDatabase b => exact .pure fun h => holds_databaseStatements granted h
  | openSearch b =>
    apply (Settles.lift_eq _).map
    intro arn ha h
    have hg : (Policy.grant granted.actions [arn]).EveryEntry t.Resolves :=
      holds_grant granted.actions (by simp [holds_searchArn h ha])
    simp [hg]
  | eventBridge b =>
    apply Settles.pure
    intro h
    have hb : b.eventBus.EveryEntry t.Resolves := (Targets.covers_cons.1 h).1
    have hg : (Policy.grant granted.actions [b.eventBus]).EveryEntry t.Resolves :=
      holds_grant granted.actions (by simp [hb])
    simp [hg]
  | http b => exact .pure fun _ => everyEntryIn_nil
  | noBackend role => exact .pure fun _ => everyEntryIn_nil

theorem statements_settles (d : DataSource) :
    Settles t.function (statements d) fun statements =>
      t.Covers d.supplies → EveryEntryIn t.Resolves statements := by
  unfold statements
  cases hgiven : d.backend.role.statements with
  | some given =>
    apply Settles.pure
    intro h
    rw [everyEntryIn_iff]
    intro j hj
    have hr := (Targets.covers_append.1 (Targets.covers_append.1 h).2).2
    exact hr (.value j) (by simp [hgiven, hj])
  | none =>
    simp only
    split
    · exact .throw _ _
    · unfold defaultStatements
      split
      · exact .pure fun _ => everyEntryIn_nil
      · next granted _ =>
        apply (neededStatements_settles d.name granted d.backend).mono
        intro statements hs h
        exact hs (Targets.covers_append.1 h).1

theorem resolved_roleWith (name : String) {statements : List Json}
    (h : EveryEntryIn t.Resolves statements) : (roleWith name statements).Resolved t := by
  apply Resource.resolved_make
  simp [Policy.assumeRole, Policy.document, h]

/-- What refers to a role resolves, if the role that is made is among the resources. -/
theorem role_settles (d : DataSource) :
    Settles t.function (role d) fun (arn, made) =>
      t.Covers d.supplies →
        (∀ v, arn = some v → (made.isSome = true → t.resource (LogicalId.dataSourceRole d.name)) →
          v.EveryEntry t.Resolves) ∧ ∀ r, made = some r → r.Resolved t := by
  unfold role
  cases harn : d.backend.role.arn with
  | some arn =>
    apply Settles.pure
    intro h
    have hr := (Targets.covers_append.1 (Targets.covers_append.1 h).2).1
    refine ⟨?_, nofun⟩
    intro v hv _
    cases hv
    exact Targets.covers_optional.1 hr arn harn
  | none =>
    apply (statements_settles d).bind
    intro statements
    split
    · exact .pure fun _ _ => ⟨nofun, nofun⟩
    · apply Settles.pure
      intro hs h
      constructor
      · intro v hv hrole
        cases hv
        exact Targets.holds_getAtt (.inl (hrole rfl)) "Arn"
      · intro r hr
        cases hr
        exact resolved_roleWith d.name (hs h)

theorem dataSource_settles (d : DataSource) :
    Settles t.function (dataSource d) fun g =>
      (∃ r, (LogicalId.dataSource d.name, r) ∈ g.entries ∧
        r.IsNamed "AWS::AppSync::DataSource" d.name) ∧
      (t.Covers d.supplies → t.resource LogicalId.api → (∀ id ∈ g.ids, t.resource id) →
        g.Resolved t) := by
  unfold dataSource
  apply (backendEntry_settles d.name d.backend).bind
  intro backend
  apply (role_settles d).map
  rintro ⟨arn, made⟩ hrole hbackend
  refine ⟨⟨_, List.mem_cons_self, rfl, ?_⟩, ?_⟩
  · exact Resource.property?_make (v := .str d.name) rfl rfl
  · intro hc hapi hown
    obtain ⟨harn, hmade⟩ := hrole hc
    have hb := hbackend (Targets.covers_append.1 hc).1
    have hr : ∀ v, arn = some v → v.EveryEntry t.Resolves := by
      intro v hv
      apply harn v hv
      intro hm
      obtain ⟨r, rfl⟩ := Option.isSome_iff_exists.1 hm
      exact hown _ (by simp [Graph.ids])
    intro e he
    rcases List.mem_cons.1 he with rfl | he
    · have hentry := everyEntryOf_entry "ServiceRoleArn" (P := t.Resolves)
        fun v hv => ⟨by simp, hr v hv⟩
      apply Resource.resolved_make
      simp [holds_apiId hapi, everyEntry_ofOption, hb, hentry]
    · obtain ⟨r, hm, rfl⟩ := Option.map_eq_some_iff.1 (Option.mem_toList.1 he)
      exact hmade r hm

end ApiStack.Compile
