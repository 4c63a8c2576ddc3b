import ApiStack.Proofs.Compile.Schema
import ApiStack.Proofs.Compile.WafRules
import ApiStack.Proofs.Failure
import ApiStack.Proofs.OrderedMap

namespace ApiStack

open Config

/-- The requests that statements are about. A request has headers, a value is a text once resources
are deployed, and what a statement that is not made of others says of a request is left open. -/
structure Traffic where
  Request : Type
  header : Request → String → Option String
  deployed : Json → String
  holds : Json → Request → Prop

/-- How a statement is made of others, or of a header that has to be a text. A rate is counted over
all requests unless it has a scope. -/
inductive StatementForm where
  | all (statements : List Json)
  | any (statements : List Json)
  | not (statement : Json)
  | rate (scope : Option Json)
  | header (name : String) (text : Json)
  | other

/-- A value with one entry, as a statement of one kind. -/
def Json.IsSingle (j : Json) : Prop := ∃ kind settings, j = .obj [(kind, settings)]

/-- A statement that a rule is given is of one kind. -/
def Config.WafRule.IsOfOneKind : WafRule → Prop
  | .custom r => ∀ s, r.statement = some s → s.IsSingle
  | _ => True

namespace StatementForm

def parts : StatementForm → List Json
  | all statements => statements
  | any statements => statements
  | not statement => [statement]
  | rate scope => scope.toList
  | header _ _ => []
  | other => []

def listed? (settings : Json) : Option (List Json) :=
  (settings.get? "Statements").bind Json.items?

/-- The header and its text, if exactly that text is asked for. -/
def exactHeader? (settings : Json) : Option (String × Json) := do
  let field ← settings.get? "FieldToMatch"
  let header ← field.get? "SingleHeader"
  let name ← (← header.get? "Name").text?
  let [transformation] ← (← settings.get? "TextTransformations").items? | none
  if (← (← settings.get? "PositionalConstraint").text?) = "EXACTLY"
      ∧ (← (← transformation.get? "Type").text?) = "NONE" then
    return (name, ← settings.get? "SearchString")
  else none

def ofKind (kind : String) (settings : Json) : StatementForm :=
  match kind with
  | "AndStatement" => (listed? settings).elim other all
  | "OrStatement" => (listed? settings).elim other any
  | "NotStatement" => (settings.get? "Statement").elim other not
  | "RateBasedStatement" => rate ((settings.get? "ScopeDownStatement").filter fun s => !s.isNull)
  | "ByteMatchStatement" => (exactHeader? settings).elim other fun (name, text) => header name text
  | _ => other

def of : Json → StatementForm
  | .obj [(kind, settings)] => ofKind kind settings
  | _ => other

theorem sizeOf_lt_of_get? {key : String} {j v : Json} (h : j.get? key = some v) :
    sizeOf v < sizeOf j := by
  cases j with
  | obj entries =>
    have hs := List.sizeOf_lt_of_mem (mem_of_lookup h)
    simp only [Prod.mk.sizeOf_spec, Json.obj.sizeOf_spec] at hs ⊢
    omega
  | _ => cases h

theorem sizeOf_lt_of_listed? {settings s : Json} {statements : List Json}
    (h : listed? settings = some statements) (hs : s ∈ statements) :
    sizeOf s < sizeOf settings := by
  obtain ⟨j, hj, hi⟩ := Option.bind_eq_some_iff.1 h
  cases j with
  | arr items =>
    cases hi
    have hlt := List.sizeOf_lt_of_mem hs
    have hle := sizeOf_lt_of_get? hj
    simp only [Json.arr.sizeOf_spec] at hle
    omega
  | _ => cases hi

theorem sizeOf_lt_of_mem_ofKind {kind : String} {settings s : Json}
    (h : s ∈ (ofKind kind settings).parts) : sizeOf s < sizeOf settings := by
  unfold ofKind at h
  split at h
  · cases hl : listed? settings with
    | none => simp [hl, parts] at h
    | some statements => exact sizeOf_lt_of_listed? hl (by simpa [hl, parts] using h)
  · cases hl : listed? settings with
    | none => simp [hl, parts] at h
    | some statements => exact sizeOf_lt_of_listed? hl (by simpa [hl, parts] using h)
  · cases hg : settings.get? "Statement" with
    | none => simp [hg, parts] at h
    | some v =>
      have he : s = v := by simpa [hg, parts] using h
      exact sizeOf_lt_of_get? (he ▸ hg)
  · have hg : settings.get? "ScopeDownStatement" = some s := by
      simp only [parts, Option.mem_toList] at h
      exact (Option.filter_eq_some_iff.1 h).1
    exact sizeOf_lt_of_get? hg
  · cases he : exactHeader? settings <;> simp [he, parts] at h
  · simp [parts] at h

theorem sizeOf_lt_of_mem_parts {j s : Json} (h : s ∈ (of j).parts) : sizeOf s < sizeOf j := by
  unfold of at h
  split at h
  · next kind settings =>
    have hs := sizeOf_lt_of_mem_ofKind h
    simp only [Json.obj.sizeOf_spec, List.cons.sizeOf_spec, Prod.mk.sizeOf_spec]
    omega
  · cases h

end StatementForm

namespace Traffic

/-- A statement matches or counts a request. -/
def Matches (t : Traffic) (r : t.Request) (statement : Json) : Prop :=
  match _h : StatementForm.of statement with
  | .all statements => ∀ s, s ∈ statements → t.Matches r s
  | .any statements => ∃ s, ∃ _ : s ∈ statements, t.Matches r s
  | .not s => ¬t.Matches r s
  | .rate none => True
  | .rate (some s) => t.Matches r s
  | .header name text => t.header r name = some (t.deployed text)
  | .other => t.holds statement r
termination_by sizeOf statement
decreasing_by
  all_goals
    apply StatementForm.sizeOf_lt_of_mem_parts
    rw [‹StatementForm.of statement = _›]
    simp_all [StatementForm.parts]

/-- A request carries an API key. -/
def Carries (t : Traffic) (r : t.Request) (key : ApiKey) : Prop :=
  t.header r "X-Api-Key" = some (t.deployed (Intrinsic.getAtt (LogicalId.apiKey key.name) "ApiKey"))

/-- A statement of a form matches or counts a request. -/
def Demands (t : Traffic) (r : t.Request) (statement : Json) : StatementForm → Prop
  | .all statements => ∀ s ∈ statements, t.Matches r s
  | .any statements => ∃ s ∈ statements, t.Matches r s
  | .not s => ¬t.Matches r s
  | .rate scope => ∀ s ∈ scope, t.Matches r s
  | .header name text => t.header r name = some (t.deployed text)
  | .other => t.holds statement r

variable {t : Traffic} {r : t.Request}

theorem matches_iff {statement : Json} :
    t.Matches r statement ↔ t.Demands r statement (.of statement) := by
  rw [Matches]
  split <;> simp_all [Demands]

end Traffic

namespace Compile

variable {t : Traffic} {r : t.Request}

theorem matches_allOf {statements : List Json} :
    t.Matches r (allOf statements) ↔ ∀ s ∈ statements, t.Matches r s := by
  rw [Traffic.matches_iff]
  rfl

theorem matches_keyStatement {key : ApiKey} :
    t.Matches r (keyStatement key.name) ↔ t.Carries r key := by
  rw [Traffic.matches_iff]
  rfl

/-- A rate is counted over the requests that its scope matches, and over all if that is null. -/
theorem matches_rate {settings : Json} :
    t.Matches r (.obj [("RateBasedStatement", settings)]) ↔
      ∀ s, settings.get? "ScopeDownStatement" = some s → s.isNull = false → t.Matches r s := by
  rw [Traffic.matches_iff]
  simp only [StatementForm.of, StatementForm.ofKind, Traffic.Demands, Option.mem_def,
    Option.filter_eq_some_iff, Bool.not_eq_true', and_imp]

theorem lookup_narrowScope (key : Json) (settings : List (String × Json)) :
    (narrowScope key settings).lookup "ScopeDownStatement" =
      some (match settings.lookup "ScopeDownStatement" with
        | none => key
        | some scope => if scope.isNull then key else allOf [scope, key]) := by
  simp only [narrowScope]
  cases settings.lookup "ScopeDownStatement" with
  | none => rw [lookup_setEntry, if_pos rfl]
  | some scope => rw [lookup_setEntry, if_pos rfl]

/-- A narrower scope counts the requests that are counted anyway, if the key's statement matches
them. -/
theorem matches_narrowScope {key : Json} (hk : key.isNull = false)
    (settings : List (String × Json)) :
    t.Matches r (.obj [("RateBasedStatement", .obj (narrowScope key settings))]) ↔
      t.Matches r key ∧ t.Matches r (.obj [("RateBasedStatement", .obj settings)]) := by
  rw [matches_rate, matches_rate]
  simp only [Json.get?, lookup_narrowScope, Option.some.injEq, forall_eq']
  cases settings.lookup "ScopeDownStatement" with
  | none => simp [hk]
  | some scope =>
    cases hn : scope.isNull with
    | true => simp [hn, hk]
    | false =>
      have ha : (allOf [scope, key]).isNull = false := rfl
      simp [hn, ha, matches_allOf, and_comm]

theorem rateSettings?_of_ne {kind : String} (h : kind ≠ "RateBasedStatement") (settings : Json) :
    rateSettings? (.obj [(kind, settings)]) = none := by
  rw [rateSettings?, Json.get?, List.lookup_cons, beq_false_of_ne h.symm]
  rfl

/-- A statement that also asks for a key matches or counts what it would without, and what the
key's statement matches. -/
theorem matches_scopeToKey {key : Json} {statement : Option Json} (hk : key.isNull = false)
    (hs : ∀ s, statement = some s → s.IsSingle) :
    t.Matches r (scopeToKey key statement) ↔
      t.Matches r key ∧ ∀ s, statement = some s → t.Matches r s := by
  cases statement with
  | none => simp [scopeToKey]
  | some s =>
    obtain ⟨kind, settings, rfl⟩ := hs s rfl
    have hall : t.Matches r (allOf [.obj [(kind, settings)], key]) ↔
        t.Matches r key ∧ t.Matches r (.obj [(kind, settings)]) := by
      simp [matches_allOf, and_comm]
    simp only [Option.some.injEq, forall_eq']
    by_cases hkind : kind = "RateBasedStatement"
    · subst hkind
      cases settings with
      | obj entries => exact matches_narrowScope hk entries
      | _ => exact hall
    · have he : scopeToKey key (some (.obj [(kind, settings)])) =
          allOf [.obj [(kind, settings)], key] := by
        simp only [scopeToKey, rateSettings?_of_ne hkind]
      rwa [he]

theorem isSingle_statement {rule : WafRule} (h : rule.IsOfOneKind) {s : Json}
    (hs : rule.statement? = some s) : s.IsSingle := by
  cases rule with
  | preset p => cases p <;> cases hs <;> exact ⟨_, _, rfl⟩
  | throttle input =>
    cases hs
    exact ⟨_, _, rfl⟩
  | disableIntrospection b =>
    cases hs
    exact ⟨_, _, rfl⟩
  | custom custom => exact h s hs

/-- The rules of a list keep their own statements. Those of an API key match or count the requests
that carry the key and that their own statements, if they have any, match or count. -/
theorem statements_of_wafRules {api : Api} (ha : api.hasAuth .apiKey = true) (w : Waf)
    (t : Traffic) : ∃ own keyed, wafRules api w = .arr (own ++ keyed) ∧
      List.Forall₂ (fun rule item => item.get? "Statement" = rule.statement?) w.rules own ∧
      List.Forall₂ (fun rule item => rule.2.IsOfOneKind →
          ∃ s, item.get? "Statement" = some s ∧ ∀ r, t.Matches r s ↔
            t.Carries r rule.1 ∧ ∀ s, rule.2.statement? = some s → t.Matches r s)
        (keyedRules api.apiKeys.values) keyed := by
  obtain ⟨own, keyed, he, hown, hkeyed⟩ := wafRules_split ha w
  refine ⟨own, keyed, he, hown.imp fun rule item h => h.get?_statement, hkeyed.imp ?_⟩
  intro rule item h hone
  refine ⟨_, h.get?_statement, fun r => ?_⟩
  rw [matches_scopeToKey rfl fun s hs => isSingle_statement hone hs, matches_keyStatement]

/-- A key with a rule of each kind. -/
def mobileKey : ApiKey :=
  { ApiKey.named "mobile" with
    wafRules := [.preset .throttle,
      .throttle (.settings { Throttle.default with scope := some fromFrance }),
      .disableIntrospection .default,
      .custom ⟨"Abroad", none, none, none,
        some (.obj [("NotStatement", .obj [("Statement", fromFrance)])]), none⟩,
      .custom ⟨"All", none, none, none, none, none⟩] }
where
  fromFrance := .obj [("GeoMatchStatement", .obj [("CountryCodes", .arr [.str "FR"])])]

def mobileApi : Api := { apiWith [] [] [] with apiKeys := .ofList [("mobile", mobileKey)] }

def guardList : Waf :=
  ⟨none, none, none, none, none, none, [.preset .disableIntrospection]⟩

/-- Requests that have one header at most, and that all other statements match. -/
def bareTraffic : Traffic where
  Request := Option (String × String)
  header request name := (request.filter (·.1 = name)).map Prod.snd
  deployed _ := "secret"
  holds _ _ := True

/-- No rule of a key matches or counts a request without a key. -/
theorem statements_mobileKey : ∃ own keyed,
    wafRules mobileApi guardList = .arr (own ++ keyed) ∧ own.length = 1 ∧ keyed.length = 5 ∧
    ∀ item ∈ keyed, ∃ s, item.get? "Statement" = some s ∧ ¬bareTraffic.Matches none s := by
  obtain ⟨own, keyed, he, hown, hkeyed⟩ :=
    @statements_of_wafRules mobileApi rfl guardList bareTraffic
  refine ⟨own, keyed, he, hown.length_eq.symm, hkeyed.length_eq.symm, fun item hi => ?_⟩
  obtain ⟨⟨key, rule⟩, hrule, h⟩ := exists_of_mem_right hkeyed hi
  have hone : rule.IsOfOneKind := by
    have hkeys : keyedRules mobileApi.apiKeys.values =
        mobileKey.wafRules.map fun rule => (mobileKey, rule) := rfl
    simp only [hkeys, mobileKey, List.map_cons, List.map_nil, List.mem_cons, Prod.mk.injEq,
      List.not_mem_nil, or_false] at hrule
    obtain ⟨-, rfl⟩ | ⟨-, rfl⟩ | ⟨-, rfl⟩ | ⟨-, rfl⟩ | ⟨-, rfl⟩ := hrule
    · trivial
    · trivial
    · trivial
    · rintro s ⟨⟩
      exact ⟨_, _, rfl⟩
    · rintro s ⟨⟩
  obtain ⟨s, hs, hm⟩ := h hone
  exact ⟨s, hs, fun hall => nomatch ((hm none).1 hall).1⟩

end Compile

end ApiStack
