import ApiStack.Config.Issues
import Mathlib.Data.List.Basic

namespace ApiStack.Config

@[simp]
theorem demand_eq_nil_iff {holds : Bool} {path message : String} :
    demand holds path message = [] ↔ holds = true := by
  cases holds <;> simp [demand]

@[simp]
theorem within_eq_nil_iff {least greatest n : Nat} {path : String} :
    within least greatest path n = [] ↔ least ≤ n ∧ n ≤ greatest := by
  unfold within
  split
  · next h =>
    constructor
    · intro hn
      cases hn
    · intro hn
      exact absurd hn.1 (Nat.not_le.2 h)
  · next h =>
    split
    · next h' =>
      constructor
      · intro hn
        cases hn
      · intro hn
        exact absurd hn.2 (Nat.not_le.2 h')
    · next h' => exact iff_of_true rfl ⟨Nat.not_lt.1 h, Nat.not_lt.1 h'⟩

@[simp]
theorem among_eq_nil_iff {choices : List String} {path value : String} :
    among choices path value = [] ↔ value ∈ choices := by
  simp [among]

@[simp]
theorem formed_eq_nil_iff {pattern path : String} {holds : Bool} :
    formed pattern holds path = [] ↔ holds = true :=
  demand_eq_nil_iff

@[simp]
theorem ifGiven_eq_nil_iff {value : Option α} {issues : α → List Issue} :
    ifGiven value issues = [] ↔ ∀ a ∈ value, issues a = [] := by
  cases value <;> simp [ifGiven]

theorem atEach_eq_nil_iff {issues : Nat → α → List Issue} {P : α → Prop} {items : List α}
    (h : ∀ i a, issues i a = [] ↔ P a) : atEach issues items = [] ↔ ∀ a ∈ items, P a := by
  induction items generalizing issues with
  | nil => simp [atEach]
  | cons a rest ih =>
    have hrest := ih fun i => h (i + 1)
    rw [atEach] at hrest ⊢
    rw [List.mapIdx_cons, List.flatten_cons, List.append_eq_nil_iff, h, hrest,
      List.forall_mem_cons]

/-- Named entities have no issues if each of them has none, whatever its name. -/
theorem entryIssues_eq_nil_iff {issues : String → α → List Issue} {P : α → Prop} {path : String}
    {m : OrderedMap α} (h : ∀ path a, issues path a = [] ↔ P a) :
    entryIssues issues path m = [] ↔ ∀ a ∈ m.values, P a := by
  simp only [entryIssues, List.flatMap_eq_nil_iff, h, OrderedMap.values, List.forall_mem_map]

/-- What a provider has to satisfy: the primary one may say what happens to users by default. -/
def AuthProvider.IsSound (isPrimary : Bool) : AuthProvider → Prop
  | .userPool pool => ∀ action ∈ pool.defaultAction, isPrimary = true ∧ action ∈ userPoolActions
  | _ => True

theorem AuthProvider.issues_eq_nil_iff (p : AuthProvider) {isPrimary : Bool} {path : String} :
    p.issues isPrimary path = [] ↔ p.IsSound isPrimary := by
  cases p with
  | userPool pool => cases isPrimary <;> simp [issues, IsSound]
  | _ => exact iff_of_true rfl trivial

structure Domain.IsSound (d : Domain) : Prop where
  name : isDomainName d.name = true
  hostedZoneName : ∀ zone ∈ d.hostedZoneName, isZoneName zone = true
  certificate : d.isManaged = some false ∨ d.certificateArn.isSome = true ∨
    d.hostedZoneId.isSome = true

theorem Domain.issues_eq_nil_iff (d : Domain) {path : String} :
    d.issues path = [] ↔ d.IsSound := by
  simp only [issues, List.append_eq_nil_iff, formed_eq_nil_iff, ifGiven_eq_nil_iff,
    demand_eq_nil_iff, Bool.or_eq_true, decide_eq_true_eq]
  constructor
  · rintro ⟨⟨hname, hzone⟩, (h | h) | h⟩
    · exact ⟨hname, hzone, .inl h⟩
    · exact ⟨hname, hzone, .inr (.inl h)⟩
    · exact ⟨hname, hzone, .inr (.inr h)⟩
  · rintro ⟨hname, hzone, h⟩
    exact ⟨⟨hname, hzone⟩, or_assoc.2 h⟩

structure Caching.IsSound (c : Caching) : Prop where
  behavior : c.behavior ∈ cachingBehaviors
  ttl : ∀ n ∈ c.ttl, 1 ≤ n ∧ n ≤ 3600

theorem Caching.issues_eq_nil_iff (c : Caching) {path : String} :
    c.issues path = [] ↔ c.IsSound := by
  simp only [issues, List.append_eq_nil_iff, among_eq_nil_iff, ifGiven_eq_nil_iff,
    within_eq_nil_iff]
  exact ⟨fun ⟨h, h'⟩ => ⟨h, h'⟩, fun h => ⟨h.behavior, h.ttl⟩⟩

structure Throttle.IsSound (t : Throttle) : Prop where
  limit : ∀ n ∈ t.limit, 100 ≤ n
  aggregateKeyType : ∀ type ∈ t.aggregateKeyType, type ∈ aggregateKeyTypes
  header : ∀ name ∈ t.forwardedIp.bind ForwardedIp.headerName, isHeaderName name = true

theorem Throttle.issues_eq_nil_iff (t : Throttle) {path : String} :
    t.issues path = [] ↔ t.IsSound := by
  simp only [issues, List.append_eq_nil_iff, ifGiven_eq_nil_iff, demand_eq_nil_iff,
    among_eq_nil_iff, formed_eq_nil_iff, decide_eq_true_eq]
  exact ⟨fun ⟨⟨h, h'⟩, h''⟩ => ⟨h, h', h''⟩, fun h => ⟨⟨h.limit, h.aggregateKeyType⟩, h.header⟩⟩

theorem Throttle.isSound_default : Throttle.default.IsSound := ⟨nofun, nofun, nofun⟩

def WafRule.throttle? : WafRule → Option Throttle
  | .preset .throttle => some .default
  | .throttle input => some input.toThrottle
  | _ => none

def WafRule.IsSound (rule : WafRule) : Prop := ∀ t ∈ rule.throttle?, t.IsSound

theorem WafRule.issues_eq_nil_iff (rule : WafRule) {path : String} :
    rule.issues path = [] ↔ rule.IsSound := by
  cases rule with
  | preset p => cases p <;> simp [issues, IsSound, throttle?, Throttle.isSound_default]
  | throttle input => simp [issues, IsSound, throttle?, Throttle.issues_eq_nil_iff]
  | disableIntrospection b => simp [issues, IsSound, throttle?]
  | custom r => simp [issues, IsSound, throttle?]

/-- What a web access control list has to satisfy. -/
structure Waf.IsSound (w : Waf) : Prop where
  defaultAction : ∀ action ∈ w.defaultAction, action ∈ wafActions
  rules : ∀ rule ∈ w.rules, rule.IsSound

theorem Waf.issues_eq_nil_iff (w : Waf) {path : String} : w.issues path = [] ↔ w.IsSound := by
  rw [issues, List.append_eq_nil_iff, atEach_eq_nil_iff fun _ rule => rule.issues_eq_nil_iff]
  simp only [ifGiven_eq_nil_iff, among_eq_nil_iff]
  exact ⟨fun ⟨h, h'⟩ => ⟨h, h'⟩, fun h => ⟨h.defaultAction, h.rules⟩⟩

/-- What the time until a key expires has to satisfy. -/
def IsSoundExpiry : Duration → Prop
  | .text s => Duration.isWellFormed s = true
  | .hours _ => True

structure ApiKey.IsSound (key : ApiKey) : Prop where
  expiresAfter : ∀ d ∈ key.expiresAfter, IsSoundExpiry d
  expiresAt : ∀ time ∈ key.expiresAt, (Rfc3339.parse time).isOk = true
  wafRules : ∀ rule ∈ key.wafRules, rule.IsSound

theorem expiryIssues_eq_nil_iff (d : Duration) {path : String} :
    expiryIssues path d = [] ↔ IsSoundExpiry d := by
  cases d with
  | text s => exact formed_eq_nil_iff
  | hours n => exact iff_of_true rfl trivial

theorem ApiKey.issues_eq_nil_iff (key : ApiKey) {path : String} :
    key.issues path = [] ↔ key.IsSound := by
  rw [issues, List.append_eq_nil_iff, List.append_eq_nil_iff,
    atEach_eq_nil_iff fun _ rule => rule.issues_eq_nil_iff]
  simp only [ifGiven_eq_nil_iff, expiryIssues_eq_nil_iff, demand_eq_nil_iff]
  exact ⟨fun ⟨⟨h, h'⟩, h''⟩ => ⟨h, h', h''⟩, fun h => ⟨⟨h.expiresAfter, h.expiresAt⟩, h.wafRules⟩⟩

theorem ApiKeyInput.issues_eq_nil_iff (key : ApiKeyInput) {path : String} :
    key.issues path = [] ↔ key.toApiKey.IsSound := by
  cases key with
  | bare name =>
    refine iff_of_true rfl ⟨?_, ?_, ?_⟩ <;> simp [toApiKey, ApiKey.named]
  | settings key => exact key.issues_eq_nil_iff

def IsSoundBatch (size : Option Nat) : Prop := ∀ n ∈ size, 1 ≤ n ∧ n ≤ 2000

theorem batchIssues_eq_nil_iff {path : String} {size : Option Nat} :
    batchIssues path size = [] ↔ IsSoundBatch size := by
  simp only [batchIssues, ifGiven_eq_nil_iff, within_eq_nil_iff, IsSoundBatch]

/-- What code and templates have to satisfy: one excludes the other. -/
def Handler.IsSound (h : Handler) : Prop :=
  h.code.isSome = true → h.request.isSome = false ∧ h.response.isSome = false

theorem Handler.issues_eq_nil_iff (h : Handler) {path : String} :
    h.issues path = [] ↔ h.IsSound := by
  obtain ⟨code, request, response⟩ := h
  cases code <;> cases request <;> cases response <;> simp [issues, IsSound, demand]

structure AuthoredFunction.IsSound (f : AuthoredFunction) : Prop where
  maxBatchSize : IsSoundBatch f.maxBatchSize
  handler : f.handler.IsSound

theorem AuthoredFunction.issues_eq_nil_iff (f : AuthoredFunction) {path : String} :
    f.issues path = [] ↔ f.IsSound := by
  rw [issues, List.append_eq_nil_iff, batchIssues_eq_nil_iff, Handler.issues_eq_nil_iff]
  exact ⟨fun ⟨h, h'⟩ => ⟨h, h'⟩, fun h => ⟨h.maxBatchSize, h.handler⟩⟩

theorem FunctionInput.issues_eq_nil_iff (input : FunctionInput) {path : String} :
    input.issues path = [] ↔ input.toFunction.IsSound := by
  cases input with
  | dataSource name =>
    refine iff_of_true rfl ⟨?_, ?_⟩ <;>
      simp [toFunction, AuthoredFunction.plain, IsSoundBatch, Handler.IsSound]
  | settings f => exact f.issues_eq_nil_iff

def ResolverCaching.IsSound : ResolverCaching → Prop
  | .custom ttl _ => ∀ n ∈ ttl, 1 ≤ n ∧ n ≤ 3600
  | .enabled _ => True

theorem ResolverCaching.issues_eq_nil_iff (c : ResolverCaching) {path : String} :
    c.issues path = [] ↔ c.IsSound := by
  cases c with
  | custom ttl keys => simp only [issues, IsSound, ifGiven_eq_nil_iff, within_eq_nil_iff]
  | enabled b => exact iff_of_true rfl trivial

def DataSourceUse.IsSound : DataSourceUse → Prop
  | .named name => name ≠ ""
  | .inline _ => True

theorem DataSourceUse.issues_eq_nil_iff (used : DataSourceUse) {path : String} :
    used.issues path = [] ↔ used.IsSound := by
  cases used with
  | named name => simp [issues, IsSound]
  | inline source => exact iff_of_true rfl trivial

def FunctionUse.IsSound : FunctionUse → Prop
  | .named _ => True
  | .inline f => f.IsSound

theorem FunctionUse.issues_eq_nil_iff (used : FunctionUse) {path : String} :
    used.issues path = [] ↔ used.IsSound := by
  cases used with
  | named name => exact iff_of_true rfl trivial
  | inline f => exact f.issues_eq_nil_iff

structure AuthoredResolver.IsSound (r : AuthoredResolver) : Prop where
  maxBatchSize : IsSoundBatch r.maxBatchSize
  handler : r.handler.IsSound
  caching : ∀ c ∈ r.caching, c.IsSound
  dataSource : ∀ used ∈ r.dataSource, used.IsSound
  functions : ∀ used ∈ r.functions.getD [], used.IsSound

theorem AuthoredResolver.issues_eq_nil_iff (r : AuthoredResolver) {path : String} :
    r.issues path = [] ↔ r.IsSound := by
  simp only [issues, List.append_eq_nil_iff, and_assoc, batchIssues_eq_nil_iff,
    Handler.issues_eq_nil_iff, ifGiven_eq_nil_iff, ResolverCaching.issues_eq_nil_iff,
    DataSourceUse.issues_eq_nil_iff, atEach_eq_nil_iff fun _ (used : FunctionUse) => used.issues_eq_nil_iff]
  exact ⟨fun ⟨h₁, h₂, h₃, h₄, h₅⟩ => ⟨h₁, h₂, h₃, h₄, h₅⟩,
    fun h => ⟨h.maxBatchSize, h.handler, h.caching, h.dataSource, h.functions⟩⟩

/-- What a resolver has to satisfy as it is written; the bare name of a data source may be empty. -/
def ResolverInput.IsSound : ResolverInput → Prop
  | .dataSource _ => True
  | .settings r => r.IsSound

theorem ResolverInput.issues_eq_nil_iff (input : ResolverInput) {path : String} :
    input.issues path = [] ↔ input.IsSound := by
  cases input with
  | dataSource name => exact iff_of_true rfl trivial
  | settings r => exact r.issues_eq_nil_iff

/-- What a configuration has to satisfy as it is written. -/
structure Authored.IsSound (c : Authored) : Prop where
  name : Text.isBlankText c.name = false
  authentication : c.authentication.IsSound true
  additionalAuthentications : ∀ p ∈ c.additionalAuthentications, p.IsSound false
  visibility : ∀ v ∈ c.visibility, v ∈ visibilities
  queryDepthLimit : ∀ n ∈ c.queryDepthLimit, 1 ≤ n ∧ n ≤ 75
  resolverCountLimit : ∀ n ∈ c.resolverCountLimit, 1 ≤ n ∧ n ≤ 1000
  domain : ∀ d ∈ c.domain, d.IsSound
  logging : ∀ l ∈ c.logging, l.level ∈ logLevels
  caching : ∀ caching ∈ c.caching, caching.IsSound
  waf : ∀ w ∈ c.waf, w.IsSound
  apiKeys : ∀ key ∈ c.apiKeys, key.toApiKey.IsSound
  pipelineFunctions : ∀ input ∈ c.pipelineFunctions.merged.values, input.toFunction.IsSound
  resolvers : ∀ input ∈ c.resolvers.merged.values, input.IsSound

/-- A configuration has no issues if all of its parts are sound, and only then. -/
theorem Authored.issues_eq_nil_iff (c : Authored) : c.issues = [] ↔ c.IsSound := by
  simp only [issues, List.append_eq_nil_iff, and_assoc, demand_eq_nil_iff, Bool.not_eq_true',
    AuthProvider.issues_eq_nil_iff, ifGiven_eq_nil_iff, among_eq_nil_iff, within_eq_nil_iff,
    Domain.issues_eq_nil_iff, Caching.issues_eq_nil_iff, Waf.issues_eq_nil_iff,
    atEach_eq_nil_iff fun _ (p : AuthProvider) => p.issues_eq_nil_iff,
    atEach_eq_nil_iff fun _ (key : ApiKeyInput) => key.issues_eq_nil_iff,
    entryIssues_eq_nil_iff fun _ (input : FunctionInput) => input.issues_eq_nil_iff,
    entryIssues_eq_nil_iff fun _ (input : ResolverInput) => input.issues_eq_nil_iff]
  constructor
  · rintro ⟨h₁, h₂, h₃, h₄, h₅, h₆, h₇, h₈, h₉, h₁₀, h₁₁, h₁₂, h₁₃⟩
    exact ⟨h₁, h₂, h₃, h₄, h₅, h₆, h₇, h₈, h₉, h₁₀, h₁₁, h₁₂, h₁₃⟩
  · rintro ⟨h₁, h₂, h₃, h₄, h₅, h₆, h₇, h₈, h₉, h₁₀, h₁₁, h₁₂, h₁₃⟩
    exact ⟨h₁, h₂, h₃, h₄, h₅, h₆, h₇, h₈, h₉, h₁₀, h₁₁, h₁₂, h₁₃⟩

theorem Authored.check_eq_ok_iff (c : Authored) : c.check = .ok () ↔ c.IsSound := by
  simp only [← issues_eq_nil_iff, check, List.isEmpty_iff]
  split
  · next h => exact iff_of_true rfl h
  · next h =>
    constructor
    · intro hc
      cases hc
    · intro hc
      exact absurd hc h

end ApiStack.Config
