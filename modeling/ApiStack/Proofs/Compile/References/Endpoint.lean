import ApiStack.Compile.ApiKey
import ApiStack.Compile.Domain
import ApiStack.Compile.Schema
import ApiStack.Proofs.Compile.References
import ApiStack.Proofs.Failure

namespace ApiStack.Compile

open Config Json

variable {t : Targets}

theorem holds_apiId (h : t.resource LogicalId.api) : apiId.EveryEntry t.Resolves :=
  Targets.holds_getAtt (.inl h) "ApiId"

theorem holds_tags (m : OrderedMap String) : (tags m).EveryEntry t.Resolves := by
  unfold tags
  split
  · trivial
  · rw [everyEntry_arr, everyEntryIn_iff]
    intro j hj
    obtain ⟨e, -, rfl⟩ := List.mem_map.1 hj
    simp

theorem holds_userPool (isPrimary : Bool) {pool : UserPool}
    (h : t.Covers (AuthProvider.userPool pool).supplies) :
    (userPool isPrimary pool).EveryEntry t.Resolves := by
  simp only [AuthProvider.supplies, Targets.covers_cons, Targets.covers_append,
    Targets.covers_optional] at h
  obtain ⟨hid, hregion, hpattern⟩ := h
  have hr : (pool.region.getD (.obj [("Fn::Sub", .str "$\x7bAWS::Region\x7d")])).EveryEntry
      t.Resolves := everyEntry_getD hregion (by simp)
  have hp : (pool.clientPattern.getD .null).EveryEntry t.Resolves :=
    everyEntry_getD hpattern everyEntry_null
  have hid' : pool.userPoolId.EveryEntry t.Resolves := hid
  unfold userPool
  cases isPrimary <;> simp [hr, hp, hid']

theorem holds_tokenIssuer (issuer : TokenIssuer) :
    (tokenIssuer issuer).EveryEntry t.Resolves := by
  simp [tokenIssuer, everyEntry_ofOption]

theorem provider_settles (api : Api) (isPrimary : Bool) (p : AuthProvider) :
    Settles t.function (provider api isPrimary p) fun entries =>
      t.Covers p.supplies → EveryEntryOf t.Resolves entries := by
  apply Settles.map (P := fun entries => t.Covers p.supplies → EveryEntryOf t.Resolves entries)
  · cases p with
    | apiKey => exact .pure fun _ => everyEntryOf_nil
    | iam => exact .pure fun _ => everyEntryOf_nil
    | userPool pool =>
      apply Settles.pure
      intro h
      simp [holds_userPool isPrimary h]
    | tokenIssuer issuer =>
      apply Settles.pure
      intro _
      simp [holds_tokenIssuer]
    | authorizer a =>
      apply (functionArn_settles a.function _).map
      intro arn harn h
      simp [harn h, everyEntry_ofOption]
  · intro entries he h
    simp [he h]

theorem holds_logSettings {l : Logging} (h : t.Covers (Supply.optional l.roleArn))
    (hr : l.roleArn = none → t.resource LogicalId.logGroupRole) :
    (logSettings l).EveryEntry t.Resolves := by
  have harn : (l.roleArn.getD (Intrinsic.getAtt LogicalId.logGroupRole "Arn")).EveryEntry
      t.Resolves := by
    cases hl : l.roleArn with
    | none => exact Targets.holds_getAtt (.inl (hr hl)) "Arn"
    | some arn => exact Targets.covers_optional.1 h arn hl
  simp [logSettings, harn, everyEntry_ofOption]

theorem logGroupRole_mem_logGroup {api : Api} {l : Logging} (h : activeLogging api = some l)
    (hr : l.roleArn = none) (context : Context) :
    LogicalId.logGroupRole ∈ (logGroup context api).ids := by
  simp [logGroup, h, hr, Graph.ids]

theorem forall₂_everyEntryOf {ps : List AuthProvider} {settings : List (List (String × Json))}
    (h : List.Forall₂ (fun p entries => t.Covers p.supplies → EveryEntryOf t.Resolves entries)
      ps settings) (hc : ∀ p ∈ ps, t.Covers p.supplies) :
    EveryEntryIn t.Resolves (settings.map .obj) := by
  induction h with
  | nil => exact everyEntryIn_nil
  | cons hp _ ih =>
    rw [List.map_cons, everyEntryIn_cons, everyEntry_obj]
    exact ⟨hp (hc _ List.mem_cons_self), ih fun p hp => hc p (List.mem_cons_of_mem _ hp)⟩

/-- The endpoint refers to the role of the log group that is made with it. -/
theorem endpoint_settles (context : Context) (api : Api) :
    Settles t.function (endpoint api) fun g =>
      LogicalId.api ∈ g.ids ∧
      (api.Covered t → (∀ id ∈ (logGroup context api).ids, t.resource id) → g.Resolved t) := by
  unfold endpoint
  apply (provider_settles api true api.authentication).bind
  intro primary
  apply (Settles.mapM fun p _ => provider_settles api false p).map
  intro additional hadditional hprimary
  refine ⟨List.mem_singleton_self _, ?_⟩
  intro hc hlog
  have hp := hprimary (hc.provider _ List.mem_cons_self)
  have ha := forall₂_everyEntryOf hadditional fun p hp =>
    hc.provider p (List.mem_cons_of_mem _ hp)
  have hl : ∀ v, (activeLogging api).map logSettings = some v → v.EveryEntry t.Resolves := by
    intro v hv
    obtain ⟨l, hl, rfl⟩ := Option.map_eq_some_iff.1 hv
    apply holds_logSettings (hc.logging l (Option.filter_eq_some_iff.1 hl).1)
    intro hr
    exact hlog _ (logGroupRole_mem_logGroup hl hr context)
  apply Graph.resolved_singleton
  apply Resource.resolved_make
  have henv := hc.environment
  rw [everyEntry_obj] at henv ⊢
  simp only [everyEntryOf_append, and_assoc]
  refine ⟨?_, ?_, hp, ?_, ?_, ?_, ?_, ?_, ?_⟩
  · simp [holds_tags]
  · split <;> simp [henv]
  · split <;> simp [ha]
  · exact everyEntryOf_entry _ fun v hv => ⟨by simp, hl v hv⟩
  all_goals
    apply everyEntryOf_entry
    intro v hv
    obtain ⟨x, -, rfl⟩ := Option.map_eq_some_iff.1 hv
    simp

theorem schema_settles (context : Context) (api : Api) :
    Settles t.function (liftM (schema context api) : Build Graph) fun g =>
      LogicalId.schema ∈ g.ids ∧ (t.resource LogicalId.api → g.Resolved t) := by
  apply Settles.lift
  intro g hg
  obtain ⟨sources, -, hg⟩ := bind_eq_ok_iff.1 hg
  obtain ⟨text, -, hg⟩ := bind_eq_ok_iff.1 hg
  cases hg
  refine ⟨List.mem_singleton_self _, ?_⟩
  intro hapi
  apply Graph.resolved_singleton
  apply Resource.resolved_make
  simp [holds_apiId hapi]

theorem apiKey_settles (context : Context) (key : ApiKey) :
    Settles t.function (liftM (apiKey context key) : Build Graph) fun g =>
      LogicalId.apiKey key.name ∈ g.ids ∧ (t.resource LogicalId.api → g.Resolved t) := by
  apply Settles.lift
  intro g hg
  obtain ⟨expiry, -, hg⟩ := bind_eq_ok_iff.1 hg
  cases hg
  refine ⟨List.mem_singleton_self _, ?_⟩
  intro hapi
  apply Graph.resolved_singleton
  apply Resource.resolved_make
  simp [holds_apiId hapi, everyEntry_ofOption]

theorem resolved_cache {api : Api} (hapi : t.resource LogicalId.api) :
    (cache api).Resolved t := by
  unfold cache
  split
  · exact Graph.resolved_empty
  · apply Graph.resolved_singleton
    apply Resource.resolved_make
    simp [holds_apiId hapi]

theorem resolved_logPolicy (hg : t.resource LogicalId.logGroup)
    (hr : t.resource LogicalId.logGroupRole) : logPolicy.Resolved t := by
  apply Resource.resolved_make
  have hrole := Targets.holds_ref (t := t) (.inr (.inr hr))
  have hgroup := Targets.holds_getAtt (t := t) (.inl hg) "Arn"
  simp [Policy.document, Policy.allow, hrole, hgroup]

theorem resolved_logRole : logRole.Resolved t := by
  apply Resource.resolved_make
  simp [Policy.assumeRole, Policy.document]

theorem resolved_logGroup {context : Context} {api : Api} (hapi : t.resource LogicalId.api)
    (hown : ∀ id ∈ (logGroup context api).ids, t.resource id) :
    (logGroup context api).Resolved t := by
  unfold logGroup at hown ⊢
  cases hl : activeLogging api with
  | none => exact Graph.resolved_empty
  | some l =>
    simp only [hl, Graph.ids, List.map_cons, List.forall_mem_cons] at hown
    obtain ⟨hgroup, hown⟩ := hown
    intro e he
    rcases List.mem_cons.1 he with rfl | he
    · apply Resource.resolved_make
      have hname : logGroupName.EveryEntry t.Resolves :=
        Targets.holds_join "/" (by simp [holds_apiId hapi])
      simp [hname, everyEntry_ofOption]
    · split at he
      · cases he
      · next hr =>
        rw [if_neg hr] at hown
        simp only [List.map_cons, List.map_nil, List.forall_mem_cons] at hown
        obtain ⟨-, hrole, -⟩ := hown
        rcases List.mem_cons.1 he with rfl | he
        · exact resolved_logPolicy hgroup hrole
        · cases List.mem_singleton.1 he
          exact resolved_logRole

theorem mem_of_authorizer? {providers : List AuthProvider} {a : Authorizer}
    (h : authorizer? providers = some a) : .authorizer a ∈ providers := by
  obtain ⟨p, hp, ha⟩ := List.exists_of_findSome?_eq_some h
  cases p with
  | authorizer a' =>
    cases ha
    exact hp
  | _ => cases ha

theorem authorizerPermission_settles (api : Api) :
    Settles t.function (authorizerPermission api) fun g =>
      api.Covered t → t.resource LogicalId.api → g.Resolved t := by
  unfold authorizerPermission
  cases ha : authorizer? (api.additionalAuthentications ++ [api.authentication]) with
  | none => exact .pure fun _ _ => Graph.resolved_empty
  | some a =>
    apply (functionArn_settles a.function _).map
    intro arn harn hc hapi
    have hm : .authorizer a ∈ api.providers := by
      rcases List.mem_append.1 (mem_of_authorizer? ha) with hm | hm
      · exact List.mem_cons_of_mem _ hm
      · rw [List.mem_singleton.1 hm]
        exact List.mem_cons_self
    have hr := Targets.holds_ref (t := t) (.inr (.inr hapi))
    apply Graph.resolved_singleton
    apply Resource.resolved_make
    simp [harn (hc.provider _ hm), hr]

theorem resolved_domainName {d : Domain} (hc : t.Covers d.supplies)
    (hown : d.certificateArn = none → t.resource LogicalId.domainCertificate) :
    (domainName d).Resolved t := by
  have harn : (d.certificateArn.getD (Intrinsic.ref LogicalId.domainCertificate)).EveryEntry
      t.Resolves := by
    cases hd : d.certificateArn with
    | none => exact Targets.holds_ref (.inr (.inr (hown hd)))
    | some arn => exact Targets.covers_optional.1 (Targets.covers_append.1 hc).1 arn hd
  apply Resource.resolved_make
  simp [harn]

theorem resolved_domainCertificate {d : Domain} (hc : t.Covers d.supplies) :
    (domainCertificate d).Resolved t := by
  have hz : (d.hostedZoneId.getD .null).EveryEntry t.Resolves :=
    everyEntry_getD (Targets.covers_optional.1 (Targets.covers_append.1 hc).2) everyEntry_null
  apply Resource.resolved_make
  simp [hz]

theorem resolved_domainRecord {d : Domain} (hc : t.Covers d.supplies)
    (hd : t.resource LogicalId.domainName) : (domainRecord d).Resolved t := by
  have hz : EveryEntryOf t.Resolves [recordZone d] := by
    unfold recordZone
    cases hz : d.hostedZoneId with
    | none => simp
    | some zone =>
      have hv := Targets.covers_optional.1 (Targets.covers_append.1 hc).2 zone hz
      simp [hv]
  have hattribute := Targets.holds_getAtt (t := t) (.inl hd)
  apply Resource.resolved_make
  rw [everyEntry_obj, ← List.singleton_append, everyEntryOf_append]
  exact ⟨hz, by simp [hattribute]⟩

theorem resolved_withPolicy {resources : List (String × Resource)} {policy : String}
    (h : (∀ e ∈ resources, t.resource e.1) → ∀ e ∈ resources, e.2.Resolved t)
    (hown : ∀ id ∈ (Graph.mk (resources.map fun (id, r) =>
      (id, r.withDeletionPolicy policy))).ids, t.resource id) :
    (Graph.mk (resources.map fun (id, r) => (id, r.withDeletionPolicy policy))).Resolved t := by
  intro e he
  obtain ⟨e', he', rfl⟩ := List.mem_map.1 he
  refine (h ?_ e' he').withDeletionPolicy policy
  intro e hm
  exact hown _ (List.mem_map.2 ⟨_, List.mem_map_of_mem hm, rfl⟩)

theorem resolved_domain {api : Api} (hc : api.Covered t) (hapi : t.resource LogicalId.api)
    (hown : ∀ id ∈ (domain api).ids, t.resource id) : (domain api).Resolved t := by
  unfold domain at hown ⊢
  cases hf : api.domain.filter fun d => isOn d.enabled && isOn d.isManaged with
  | none => exact Graph.resolved_empty
  | some d =>
    have hd := hc.domain d (Option.filter_eq_some_iff.1 hf).1
    simp only [hf] at hown
    refine resolved_withPolicy (fun hids => ?_) hown
    simp only [List.forall_mem_append, List.forall_mem_cons, and_assoc] at hids ⊢
    obtain ⟨hname, -, -, hcertificate, -⟩ := hids
    refine ⟨?_, ?_, by simp, ?_, ?_⟩
    · apply resolved_domainName hd
      intro hn
      simp only [hn, Option.isSome_none] at hcertificate
      exact hcertificate _ List.mem_cons_self
    · refine Resource.Resolved.after ?_ hname
      apply Resource.resolved_make
      simp [holds_apiId hapi]
    · intro e he
      split at he
      · cases he
      · cases List.mem_singleton.1 he
        exact resolved_domainCertificate hd
    · intro e he
      split at he
      · cases List.mem_singleton.1 he
        exact resolved_domainRecord hd hname
      · cases he

end ApiStack.Compile
