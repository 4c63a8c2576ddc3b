import ApiStack.Compile.Waf
import ApiStack.Proofs.Compile.References.Endpoint

namespace ApiStack.Compile

open Config Json

variable {t : Targets}

structure PlainRule.Resolved (t : Targets) (r : PlainRule) : Prop where
  action : ∀ v, r.action = some v → v.EveryEntry t.Resolves
  overrideAction : ∀ v, r.overrideAction = some v → v.EveryEntry t.Resolves
  statement : ∀ v, r.statement = some v → v.EveryEntry t.Resolves
  visibility : r.visibility.EveryEntry t.Resolves

theorem PlainRule.Resolved.toJson {r : PlainRule} (h : r.Resolved t) (priority : Nat) :
    (r.toJson priority).EveryEntry t.Resolves := by
  have ha := everyEntryOf_entry "Action" fun v hv => ⟨by simp, h.action v hv⟩
  have ho := everyEntryOf_entry "OverrideAction"
    fun v hv => ⟨by simp, h.overrideAction v hv⟩
  have hs := everyEntryOf_entry "Statement" fun v hv => ⟨by simp, h.statement v hv⟩
  simp [PlainRule.toJson, ha, ho, hs, h.visibility]

theorem holds_bareAction (name : String) : (bareAction name).EveryEntry t.Resolves := by
  simp [bareAction]

theorem holds_visibility (list own : Option Visibility) (name : String) :
    (visibility list own name).EveryEntry t.Resolves := by
  simp [visibility]

theorem holds_throttleStatement {throttle : Throttle}
    (h : t.Covers (Supply.optional throttle.scope)) :
    (throttleStatement throttle).EveryEntry t.Resolves := by
  have hs := everyEntryOf_entry "ScopeDownStatement" (P := t.Resolves)
    fun v hv => ⟨by simp, Targets.covers_optional.1 h v hv⟩
  simp only [throttleStatement, everyEntry_obj, everyEntryOf_cons, everyEntryOf_append]
  refine ⟨⟨by simp, ⟨by simp, ?_⟩, hs⟩, trivial⟩
  split <;> simp

theorem resolved_throttleRule (list : Option Visibility) (owner : String) {throttle : Throttle}
    (h : t.Covers (Supply.optional throttle.scope)) :
    (throttleRule list owner throttle).Resolved t where
  action v hv := by
    cases hv
    exact holds_bareAction _
  overrideAction v hv := by cases hv
  statement v hv := by
    cases hv
    exact holds_throttleStatement h
  visibility := holds_visibility ..

theorem resolved_introspectionRule (list : Option Visibility) (owner : String)
    (b : IntrospectionBan) : (introspectionRule list owner b).Resolved t where
  action v hv := by
    cases hv
    exact holds_bareAction _
  overrideAction v hv := by cases hv
  statement v hv := by
    cases hv
    simp [introspectionStatement, body, transformation]
  visibility := holds_visibility ..

theorem resolved_customRule (list : Option Visibility) {r : CustomRule}
    (h : t.Covers (WafRule.custom r).supplies) : (customRule list r).Resolved t where
  action v hv := by
    simp only [customRule] at hv
    split at hv
    · cases hv
    · cases hv
      exact holds_bareAction _
  overrideAction := Targets.covers_optional.1 (Targets.covers_append.1 h).1
  statement := Targets.covers_optional.1 (Targets.covers_append.1 h).2
  visibility := holds_visibility ..

theorem resolved_plainRule (list : Option Visibility) (owner : String) {rule : WafRule}
    (h : t.Covers rule.supplies) : (plainRule list owner rule).Resolved t := by
  cases rule with
  | preset p =>
    cases p with
    | throttle => exact resolved_throttleRule list owner Targets.covers_nil
    | disableIntrospection => exact resolved_introspectionRule list owner .default
  | throttle input => exact resolved_throttleRule list owner h
  | disableIntrospection b => exact resolved_introspectionRule list owner b
  | custom r => exact resolved_customRule list h

theorem mem_swapRemove {α : Type} {key : String} {entries : List (String × α)} {e : String × α}
    (h : e ∈ swapRemove key entries) : e ∈ entries := by
  unfold swapRemove at h
  split at h
  · cases h
  · next last hlast =>
    have hm := List.mem_of_getLast? hlast
    split at h
    · exact (List.dropLast_sublist _).subset h
    · obtain ⟨e', he', rfl⟩ := List.mem_map.1 h
      split
      · exact hm
      · exact (List.dropLast_sublist _).subset he'

theorem holds_allOf {statements : List Json} (h : EveryEntryIn t.Resolves statements) :
    (allOf statements).EveryEntry t.Resolves := by
  simp [allOf, h]

theorem holds_narrowScope {narrow : Json} {settings : List (String × Json)}
    (hn : narrow.EveryEntry t.Resolves) (hs : EveryEntryOf t.Resolves settings) :
    EveryEntryOf t.Resolves (narrowScope narrow settings) := by
  simp only [narrowScope]
  split
  · exact everyEntryOf_setEntry hs (by simp) hn
  · next scope hscope =>
    rw [everyEntryOf_iff] at hs
    have hsc := (hs _ (mem_of_lookup hscope)).2
    have hrest : EveryEntryOf t.Resolves (swapRemove "ScopeDownStatement" settings) :=
      everyEntryOf_iff.2 fun e he => hs e (mem_swapRemove he)
    apply everyEntryOf_setEntry hrest (by simp)
    split
    · exact hn
    · exact holds_allOf (by simp [hsc, hn])

theorem holds_rateSettings? {statement : Json} {settings : List (String × Json)}
    (h : rateSettings? statement = some settings) (hs : statement.EveryEntry t.Resolves) :
    EveryEntryOf t.Resolves settings := by
  obtain ⟨v, hv, he⟩ := Option.bind_eq_some_iff.1 h
  cases statement with
  | obj entries =>
    rw [everyEntry_obj, everyEntryOf_iff] at hs
    have hr := (hs _ (mem_of_lookup hv)).2
    cases v with
    | obj settings' =>
      cases he
      exact everyEntry_obj.1 hr
    | _ => cases he
  | _ => cases hv

theorem holds_scopeToKey {key : Json} {statement : Option Json}
    (hk : key.EveryEntry t.Resolves) (hs : ∀ v, statement = some v → v.EveryEntry t.Resolves) :
    (scopeToKey key statement).EveryEntry t.Resolves := by
  cases statement with
  | none => exact hk
  | some v =>
    have hv := hs v rfl
    simp only [scopeToKey]
    split
    · next settings entries hsettings =>
      rw [everyEntry_obj] at hv ⊢
      have hrate := holds_rateSettings? hsettings (everyEntry_obj.2 hv)
      exact everyEntryOf_setEntry hv (by simp) (everyEntry_obj.2 (holds_narrowScope hk hrate))
    · exact holds_allOf (by simp [hv, hk])

theorem holds_keyStatement {name : String} (h : t.resource (LogicalId.apiKey name)) :
    (keyStatement name).EveryEntry t.Resolves := by
  have hk := Targets.holds_getAtt (t := t) (.inl h) "ApiKey"
  simp [keyStatement, keyHeader, transformation, hk]

theorem resolved_keyRules (list : Option Visibility) {key : ApiKey}
    (hk : t.resource (LogicalId.apiKey key.name))
    (hc : ∀ rule ∈ key.wafRules, t.Covers rule.supplies) :
    ∀ r ∈ keyRules list key, r.Resolved t := by
  intro r hr
  obtain ⟨rule, hm, rfl⟩ := List.mem_map.1 hr
  have hp := resolved_plainRule list key.name (hc rule hm)
  refine ⟨hp.action, hp.overrideAction, ?_, hp.visibility⟩
  intro v hv
  cases hv
  exact holds_scopeToKey (holds_keyStatement hk) hp.statement

/-- The rules of a list refer to the keys whose rules are among them. -/
theorem resolved_plainRules {api : Api} {w : Waf} (hc : api.Covered t)
    (hw : t.Covers w.supplies)
    (hkeys : api.hasAuth .apiKey = true →
      ∀ key ∈ api.apiKeys.values, t.resource (LogicalId.apiKey key.name)) :
    ∀ r ∈ plainRules api w, r.Resolved t := by
  intro r hr
  rcases List.mem_append.1 hr with hr | hr
  · obtain ⟨rule, hm, rfl⟩ := List.mem_map.1 hr
    have hrules := Targets.covers_flatMap.1 (Targets.covers_append.1 hw).2
    exact resolved_plainRule w.visibility "" (hrules rule hm)
  · split at hr
    · next ha =>
      obtain ⟨key, hm, hr⟩ := List.mem_flatMap.1 hr
      exact resolved_keyRules w.visibility (hkeys ha key hm) (hc.apiKey key hm) r hr
    · cases hr

theorem holds_wafRules {api : Api} {w : Waf} (h : ∀ r ∈ plainRules api w, r.Resolved t) :
    (wafRules api w).EveryEntry t.Resolves := by
  rw [wafRules, everyEntry_arr, everyEntryIn_iff]
  intro j hj
  obtain ⟨i, hi, rfl⟩ := List.mem_iff_getElem.1 hj
  rw [List.getElem_zipWith]
  exact (h _ (List.getElem_mem _)).toJson _

theorem resolved_wafAssociation {list : Json} (hapi : t.resource LogicalId.api)
    (h : list.EveryEntry t.Resolves) : (wafAssociation list).Resolved t := by
  have hr := Targets.holds_ref (t := t) (.inr (.inr hapi))
  apply Resource.resolved_make
  simp [h, hr]

theorem holds_listDescription (description : Option String) (hapi : t.resource LogicalId.api) :
    (match description with
      | some text => Json.str text
      | none => Intrinsic.join " " [.str "ACL rules for", Intrinsic.ref LogicalId.api]).EveryEntry
        t.Resolves := by
  have hr := Targets.holds_ref (t := t) (.inr (.inr hapi))
  cases description with
  | none => exact Targets.holds_join " " (by simp [hr])
  | some text => exact everyEntry_str text

theorem resolved_wafList {api : Api} {w : Waf} (hapi : t.resource LogicalId.api)
    (h : ∀ r ∈ plainRules api w, r.Resolved t) : (wafList api w).Resolved t := by
  have hd := holds_listDescription w.description hapi
  apply Resource.resolved_make
  simp only [everyEntry_obj, everyEntryOf_cons]
  refine ⟨⟨by simp, holds_bareAction _⟩, ?_, ⟨by simp, hd⟩, ?_, ⟨by simp, holds_wafRules h⟩,
    ⟨by simp, holds_visibility ..⟩, ⟨by simp, holds_tags _⟩, trivial⟩
  · simp
  · simp

/-- A web access control list refers to the endpoint and to the keys whose rules it has. -/
theorem resolved_waf {api : Api} (hc : api.Covered t) (hapi : t.resource LogicalId.api)
    (hkeys : api.hasAuth .apiKey = true →
      ∀ key ∈ api.apiKeys.values, t.resource (LogicalId.apiKey key.name))
    (hown : ∀ id ∈ (waf api).ids, t.resource id) : (waf api).Resolved t := by
  unfold waf at hown ⊢
  cases hf : api.waf.filter fun w => isOn w.enabled with
  | none => exact Graph.resolved_empty
  | some w =>
    have hw := hc.waf w (Option.filter_eq_some_iff.1 hf).1
    simp only [hf] at hown ⊢
    cases harn : w.arn with
    | some arn =>
      have hv := Targets.covers_optional.1 (Targets.covers_append.1 hw).1 arn harn
      exact Graph.resolved_singleton (resolved_wafAssociation hapi hv)
    | none =>
      simp only [harn, Graph.ids, List.map_cons, List.forall_mem_cons] at hown
      have hlist := Targets.holds_getAtt (t := t) (.inl hown.1) "Arn"
      intro e he
      rcases List.mem_cons.1 he with rfl | he
      · exact resolved_wafList hapi (resolved_plainRules hc hw hkeys)
      · cases List.mem_singleton.1 he
        exact resolved_wafAssociation hapi hlist

end ApiStack.Compile
