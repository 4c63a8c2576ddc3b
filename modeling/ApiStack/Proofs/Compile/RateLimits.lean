import ApiStack.Proofs.Compile.WafRules
import ApiStack.Proofs.Config.Limits
import ApiStack.Proofs.Json.Path

namespace ApiStack

open Config

/-- The limits of a rate: how many requests it allows, by what they are counted, and the header that
holds the address of a forwarded request. -/
structure Json.IsLimitedRate (rate : Json) : Prop where
  limit : ∃ n, rate.get? "Limit" = some (.nat n) ∧ 100 ≤ n
  keyType : ∃ type, rate.get? "AggregateKeyType" = some (.str type) ∧
    (type = "IP" ∨ type = "FORWARDED_IP")
  header : ∀ forwarded, rate.get? "ForwardedIPConfig" = some forwarded →
    ∃ name, forwarded.get? "HeaderName" = some (.str name) ∧ name.toList ≠ [] ∧
      ∀ c ∈ name.toList, c.isAlphanum = true ∨ c = '-'

/-- A rule of a list counts a rate within the limits. -/
def Json.HasLimitedRate (item : Json) : Prop :=
  ∃ rate, item.at? [.key "Statement", .key "RateBasedStatement"] = some rate ∧ rate.IsLimitedRate

namespace Compile

def headerName (t : Throttle) : String :=
  (t.forwardedIp.bind ForwardedIp.headerName).getD "X-Forwarded-For"

def forwardedSettings (t : Throttle) : Json :=
  .obj [("HeaderName", .str (headerName t)),
    ("FallbackBehavior", .str ((t.forwardedIp.bind ForwardedIp.fallbackBehavior).getD "MATCH"))]

def rateEntries (t : Throttle) : List (String × Json) :=
  [("AggregateKeyType", .str (t.aggregateKeyType.getD "IP")),
      ("Limit", .nat (t.limit.getD 100))]
    ++ if t.aggregateKeyType.getD "IP" = "FORWARDED_IP" then
        [("ForwardedIPConfig", forwardedSettings t)]
      else []

def rateStatement (t : Throttle) (scope : Option Json) : Json :=
  .obj [("RateBasedStatement", .obj (rateEntries t ++ Json.entry "ScopeDownStatement" scope))]

theorem statement?_of_throttle? {rule : WafRule} {t : Throttle} (h : rule.throttle? = some t) :
    rule.statement? = some (rateStatement t t.scope) := by
  cases rule with
  | preset p =>
    cases p with
    | throttle =>
      cases h
      rfl
    | disableIntrospection => cases h
  | throttle input =>
    cases h
    rfl
  | disableIntrospection b => cases h
  | custom r => cases h

theorem scope_notMem_rateEntries (t : Throttle) :
    "ScopeDownStatement" ∉ (rateEntries t).map Prod.fst := by
  unfold rateEntries
  split <;> simp

/-- A narrower scope takes the place of the scope. -/
theorem narrowScope_append {base : List (String × Json)}
    (h : "ScopeDownStatement" ∉ base.map Prod.fst) (narrow : Json) (scope : Option Json) :
    ∃ s, narrowScope narrow (base ++ Json.entry "ScopeDownStatement" scope) =
      base ++ Json.entry "ScopeDownStatement" (some s) := by
  have hnone := lookup_eq_none_iff_notMem.2 h
  cases scope with
  | none =>
    refine ⟨narrow, ?_⟩
    simp only [narrowScope, Json.entry, Option.map_none, Option.toList_none, List.append_nil, hnone]
    exact setEntry_of_notMem h narrow
  | some scope =>
    refine ⟨if scope.isNull then narrow else allOf [scope, narrow], ?_⟩
    have hlookup : (base ++ [("ScopeDownStatement", scope)]).lookup "ScopeDownStatement" =
        some scope := by
      rw [List.lookup_append, hnone, Option.none_or, List.lookup_cons_self]
    have hremove : swapRemove "ScopeDownStatement" (base ++ [("ScopeDownStatement", scope)]) =
        base := by
      -- the scope is the last entry: no other entry takes its place
      simp [swapRemove]
    simp only [narrowScope, Json.entry, Option.map_some, Option.toList_some, hlookup, hremove]
    exact setEntry_of_notMem h _

theorem ListedRule.statement?_of_throttle? {l : ListedRule} {t : Throttle}
    (h : l.rule.throttle? = some t) : ∃ scope, l.statement? = some (rateStatement t scope) := by
  obtain ⟨key, rule⟩ := l
  have hs : rule.statement? = some (rateStatement t t.scope) := Compile.statement?_of_throttle? h
  cases key with
  | none => exact ⟨t.scope, hs⟩
  | some key =>
    obtain ⟨s, hn⟩ :=
      narrowScope_append (scope_notMem_rateEntries t) (keyStatement key.name) t.scope
    refine ⟨some s, ?_⟩
    simp only [ListedRule.statement?, hs]
    rw [rateStatement, rateStatement, ← hn]
    rfl

theorem isHeaderName_headerName {t : Throttle} (h : t.IsSound) :
    isHeaderName (headerName t) = true := by
  unfold headerName
  cases hn : t.forwardedIp.bind ForwardedIp.headerName with
  | none => decide
  | some name => exact h.header name hn

theorem eq_forwardedSettings {t : Throttle} {scope : Option Json} {v : Json}
    (h : ("ForwardedIPConfig", v) ∈ rateEntries t ++ Json.entry "ScopeDownStatement" scope) :
    v = forwardedSettings t := by
  rcases List.mem_append.1 h with h | h
  · unfold rateEntries at h
    split at h
    · simpa using h
    · simp at h
  · cases scope <;> simp [Json.entry] at h

/-- The rate of a throttle that was checked keeps the limits, whatever its scope. -/
theorem isLimitedRate_prune {t : Throttle} (h : t.IsSound) (scope : Option Json) :
    (Json.obj (rateEntries t ++ Json.entry "ScopeDownStatement" scope)).prune.IsLimitedRate := by
  refine ⟨⟨t.limit.getD 100, ?_, ?_⟩, ⟨t.aggregateKeyType.getD "IP", ?_, ?_⟩, ?_⟩
  · exact Json.lookup_pruneEntries (v := .nat (t.limit.getD 100)) rfl rfl
  · cases hl : t.limit with
    | none => exact Nat.le_refl 100
    | some n => exact h.limit n hl
  · exact Json.lookup_pruneEntries (v := .str (t.aggregateKeyType.getD "IP")) rfl rfl
  · cases hk : t.aggregateKeyType with
    | none => exact .inl rfl
    | some type =>
      have hm := h.aggregateKeyType type hk
      simpa [aggregateKeyTypes] using hm
  · intro forwarded hf
    obtain ⟨v, hv, -, rfl⟩ := Json.mem_pruneEntries (mem_of_lookup hf)
    obtain rfl := eq_forwardedSettings hv
    have hh := isHeaderName_headerName h
    simp only [isHeaderName, Bool.and_eq_true, Bool.not_eq_true', List.isEmpty_eq_false_iff,
      List.all_eq_true, Bool.or_eq_true, decide_eq_true_eq] at hh
    exact ⟨headerName t, rfl, hh⟩

theorem hasLimitedRate_prune {list : Option Visibility} {l : ListedRule} {item : Json}
    (hi : IsItemOf list l item) (hs : l.rule.IsSound) (ht : l.rule.throttle?.isSome = true) :
    item.prune.HasLimitedRate := by
  obtain ⟨t, ht⟩ := Option.isSome_iff_exists.1 ht
  obtain ⟨scope, hscope⟩ := ListedRule.statement?_of_throttle? ht
  refine ⟨_, Json.at?_prune (v := .obj (rateEntries t ++ Json.entry "ScopeDownStatement" scope))
    ?_ rfl, isLimitedRate_prune (hs t ht) scope⟩
  rw [Json.at?, Json.Step.from?, hi.get?_statement, hscope]
  rfl

theorem isSound_of_mem_listedRules {api : Api} {w : Waf} {l : ListedRule} (h : api.IsLimited)
    (hw : w.IsSound) (hl : l ∈ listedRules api w) : l.rule.IsSound := by
  rcases List.mem_append.1 hl with hl | hl
  · obtain ⟨rule, hr, rfl⟩ := List.mem_map.1 hl
    exact hw.rules rule hr
  · split at hl
    · obtain ⟨⟨key, rule⟩, hr, rfl⟩ := List.mem_map.1 hl
      obtain ⟨key', hk, hr⟩ := List.mem_flatMap.1 hr
      obtain ⟨rule', hr, he⟩ := List.mem_map.1 hr
      cases he
      exact (h.apiKeys key hk).wafRules rule hr
    · cases hl

theorem wafRules_limited {api : Api} {w : Waf} (h : api.IsLimited) (hw : w.IsSound) :
    ∃ items, (wafRules api w).prune = .arr items ∧
      List.Forall₂ (fun l item => l.rule.throttle?.isSome = true → item.HasLimitedRate)
        (listedRules api w) items := by
  obtain ⟨items, he, hi⟩ := wafRules_items api w
  have hsound : ∀ l ∈ listedRules api w, l.rule.IsSound :=
    fun l hl => isSound_of_mem_listedRules h hw hl
  refine ⟨items.map Json.prune, by rw [he, Json.prune, Json.pruneItems_eq_map], ?_⟩
  rw [List.forall₂_map_right_iff]
  refine ((List.forall₂_and_left ..).2 ⟨hsound, hi⟩).imp ?_
  rintro l item ⟨hs, hi⟩ ht
  exact hasLimitedRate_prune hi hs ht

end Compile

end ApiStack
