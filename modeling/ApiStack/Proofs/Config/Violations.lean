import ApiStack.Proofs.Config.DomainName
import ApiStack.Proofs.Config.Reports
import ApiStack.Proofs.Failure
import ApiStack.Proofs.Time.Duration

namespace ApiStack.Config

def NotAmong (choices : List String) (path value : String) : Position → Issue → Prop :=
  Unmet (value ∈ choices) path ("must be one of " ++ ", ".intercalate choices)

def NotFormed (pattern : String) (form : Prop) (path : String) : Position → Issue → Prop :=
  Unmet form path ("must match pattern \"" ++ pattern ++ "\"")

theorem reports_among (choices : List String) (path value : String) :
    Reports (among choices path value) (NotAmong choices path value) :=
  reports_demand List.contains_iff_mem path _

theorem reports_formed {holds : Bool} {form : Prop} (h : holds = true ↔ form)
    (pattern path : String) :
    Reports (formed pattern holds path) (NotFormed pattern form path) :=
  reports_demand h path _

/-- What a provider violates: the primary one may only take a known action by default, and another
one none. -/
inductive AuthProvider.Violates (isPrimary : Bool) (path : String) :
    AuthProvider → Position → Issue → Prop where
  | unknown {pool : UserPool} {action : String} {pos issue} (hp : isPrimary = true)
      (ha : pool.defaultAction = some action)
      (h : NotAmong userPoolActions (path ++ "/config/defaultAction") action pos issue) :
      Violates isPrimary path (.userPool pool) pos issue
  | secondary {pool : UserPool} {action : String} (hp : isPrimary = false)
      (ha : pool.defaultAction = some action) :
      Violates isPrimary path (.userPool pool) []
        ⟨path ++ "/config/defaultAction", "is only allowed on the primary authentication"⟩

theorem AuthProvider.reports (p : AuthProvider) (isPrimary : Bool) (path : String) :
    Reports (p.issues isPrimary path) (p.Violates isPrimary path) := by
  cases p with
  | userPool pool =>
    cases isPrimary with
    | true =>
      refine Reports.congr (reports_ifGiven fun action => reports_among _ _ action)
        fun pos issue => ?_
      constructor
      · rintro ⟨action, ha, h⟩
        exact .unknown rfl ha h
      · rintro (⟨-, ha, h⟩ | ⟨hp, -⟩)
        · exact ⟨_, ha, h⟩
        · cases hp
    | false =>
      refine Reports.congr (reports_ifGiven fun action =>
        reports_demand (iff_of_false Bool.false_ne_true id) _ _) fun pos issue => ?_
      constructor
      · rintro ⟨action, ha, ⟨-⟩⟩
        exact .secondary rfl ha
      · rintro (⟨hp, -, -⟩ | ⟨-, ha⟩)
        · cases hp
        · exact ⟨_, ha, .mk id⟩
  | _ =>
    apply Reports.nil
    intro pos issue h
    cases h

inductive Domain.Violates (d : Domain) (path : String) : Position → Issue → Prop where
  | name {pos issue}
      (h : NotFormed domainPattern (IsDomain d.name.toList) (below path "name") pos issue) :
      Violates d path (0 :: pos) issue
  | zone {zone pos issue} (hz : d.hostedZoneName = some zone)
      (h : NotFormed zonePattern (IsZone zone.toList) (below path "hostedZoneName") pos issue) :
      Violates d path (1 :: pos) issue
  | certificate {pos issue} (h : Unmet (d.isManaged = some false ∨
      d.certificateArn.isSome = true ∨ d.hostedZoneId.isSome = true) path
      "when using CloudFormation, you must provide either certificateArn or hostedZoneId."
      pos issue) :
      Violates d path (2 :: pos) issue

theorem Domain.reports (d : Domain) (path : String) :
    Reports (d.issues path) (d.Violates path) := by
  have hcertificate : (decide (d.isManaged = some false) || d.certificateArn.isSome
      || d.hostedZoneId.isSome) = true ↔ d.isManaged = some false ∨
      d.certificateArn.isSome = true ∨ d.hostedZoneId.isSome = true := by
    rw [Bool.or_eq_true, Bool.or_eq_true, decide_eq_true_eq, or_assoc]
  refine Reports.congr (((reports_formed (isDomainName_iff d.name) _ _).first.andThen
    (reports_ifGiven fun zone => reports_formed (isZoneName_iff zone) _ _)).andThen
    (reports_demand hcertificate _ _)) fun pos issue => ?_
  -- A case for each section, by its number; behind the last one nothing can be violated.
  constructor
  · rintro @⟨_ | _ | _ | k, violated, pos, issue, hk, h⟩ <;> cases hk
    · exact .name h
    · obtain ⟨zone, hz, h⟩ := h
      exact .zone hz h
    · exact .certificate h
  · rintro (h | ⟨hz, h⟩ | h)
    · exact .mk (k := 0) rfl h
    · exact .mk (k := 1) rfl ⟨_, hz, h⟩
    · exact .mk (k := 2) rfl h

inductive Caching.Violates (c : Caching) (path : String) : Position → Issue → Prop where
  | behavior {pos issue}
      (h : NotAmong cachingBehaviors (below path "behavior") c.behavior pos issue) :
      Violates c path (0 :: pos) issue
  | ttl {n pos issue} (hn : c.ttl = some n)
      (h : OutOfRange 1 3600 (below path "ttl") n pos issue) :
      Violates c path (1 :: pos) issue

theorem Caching.reports (c : Caching) (path : String) :
    Reports (c.issues path) (c.Violates path) := by
  refine Reports.congr ((reports_among _ _ _).first.andThen
    (reports_ifGiven fun n => reports_within (by decide) _ n)) fun pos issue => ?_
  constructor
  · rintro @⟨_ | _ | k, violated, pos, issue, hk, h⟩ <;> cases hk
    · exact .behavior h
    · obtain ⟨n, hn, h⟩ := h
      exact .ttl hn h
  · rintro (h | ⟨hn, h⟩)
    · exact .mk (k := 0) rfl h
    · exact .mk (k := 1) rfl ⟨_, hn, h⟩

inductive Throttle.Violates (t : Throttle) (path : String) : Position → Issue → Prop where
  | limit {n pos issue} (hn : t.limit = some n)
      (h : Unmet (100 ≤ n) (below path "limit") "must be >= 100" pos issue) :
      Violates t path (0 :: pos) issue
  | keyType {type pos issue} (ht : t.aggregateKeyType = some type)
      (h : NotAmong aggregateKeyTypes (below path "aggregateKeyType") type pos issue) :
      Violates t path (1 :: pos) issue
  | header {ip header pos issue} (hip : t.forwardedIp = some ip)
      (hh : ip.headerName = some header)
      (h : NotFormed headerPattern (IsHeader header.toList)
        (below path "forwardedIPConfig/headerName") pos issue) :
      Violates t path (2 :: pos) issue

theorem Throttle.reports (t : Throttle) (path : String) :
    Reports (t.issues path) (t.Violates path) := by
  refine Reports.congr
    (((reports_ifGiven fun n => reports_demand decide_eq_true_iff _ _).first.andThen
    (reports_ifGiven fun type => reports_among _ _ type)).andThen
    (reports_ifGiven fun header => reports_formed (isHeaderName_iff header) _ _))
    fun pos issue => ?_
  constructor
  · rintro @⟨_ | _ | _ | k, violated, pos, issue, hk, h⟩ <;> cases hk
    · obtain ⟨n, hn, h⟩ := h
      exact .limit hn h
    · obtain ⟨type, ht, h⟩ := h
      exact .keyType ht h
    · obtain ⟨header, hh, h⟩ := h
      obtain ⟨ip, hip, hh⟩ := Option.bind_eq_some_iff.1 hh
      exact .header hip hh h
  · rintro (⟨hn, h⟩ | ⟨ht, h⟩ | ⟨hip, hh, h⟩)
    · exact .mk (k := 0) rfl ⟨_, hn, h⟩
    · exact .mk (k := 1) rfl ⟨_, ht, h⟩
    · exact .mk (k := 2) rfl ⟨_, Option.bind_eq_some_iff.2 ⟨_, hip, hh⟩, h⟩

example : Throttle.issues "/waf/rules/0/throttle"
    { Throttle.default with limit := some 99, aggregateKeyType := some "USER" } =
      [⟨"/waf/rules/0/throttle/limit", "must be >= 100"⟩,
        ⟨"/waf/rules/0/throttle/aggregateKeyType", "must be one of IP, FORWARDED_IP"⟩] := by
  rfl

theorem WafRule.reports (rule : WafRule) (path : String) :
    Reports (rule.issues path) fun pos issue => ∃ input, rule = .throttle input ∧
      input.toThrottle.Violates (below path "throttle") pos issue := by
  cases rule with
  | throttle input => exact (input.toThrottle.reports _).congr (by simp)
  | _ => exact .nil (by simp)

/-- What a web access control list violates. -/
inductive Waf.Violates (w : Waf) (path : String) : Position → Issue → Prop where
  | defaultAction {action pos issue} (ha : w.defaultAction = some action)
      (h : NotAmong wafActions (below path "defaultAction") action pos issue) :
      Violates w path (0 :: pos) issue
  | rule {i input pos issue} (hi : w.rules[i]? = some (.throttle input))
      (h : input.toThrottle.Violates (below (itemPath (below path "rules") i) "throttle")
        pos issue) :
      Violates w path (1 :: i :: pos) issue

theorem Waf.reports (w : Waf) (path : String) : Reports (w.issues path) (w.Violates path) := by
  refine Reports.congr ((reports_ifGiven fun action => reports_among _ _ action).first.andThen
    (reports_atEach (fun i rule => rule.reports _) w.rules)) fun pos issue => ?_
  constructor
  · rintro @⟨_ | _ | k, violated, pos, issue, hk, h⟩ <;> cases hk
    · obtain ⟨action, ha, h⟩ := h
      exact .defaultAction ha h
    · obtain ⟨i, _, pos, rfl, hi, input, rfl, h⟩ := h
      exact .rule hi h
  · rintro (⟨ha, h⟩ | ⟨hi, h⟩)
    · exact .mk (k := 0) rfl ⟨_, ha, h⟩
    · exact .mk (k := 1) rfl ⟨_, _, _, rfl, hi, _, rfl, h⟩

theorem reports_expiry (d : Duration) (path : String) :
    Reports (expiryIssues path d) fun pos issue => ∃ text, d = .text text ∧
      NotFormed durationPattern (Duration.HasForm text) path pos issue := by
  cases d with
  | text text => exact (reports_formed Duration.isWellFormed_iff _ _).congr (by simp)
  | hours n => exact .nil (by simp)

inductive ApiKey.Violates (key : ApiKey) (path : String) : Position → Issue → Prop where
  | expiresAfter {text pos issue} (ht : key.expiresAfter = some (.text text))
      (h : NotFormed durationPattern (Duration.HasForm text) (below path "expiresAfter")
        pos issue) :
      Violates key path (0 :: pos) issue
  | expiresAt {time pos issue} (ht : key.expiresAt = some time)
      (h : Unmet (∃ t, Rfc3339.parse time = .ok t) (below path "expiresAt")
        "must be a RFC 3339 date-time" pos issue) :
      Violates key path (1 :: pos) issue
  | rule {i input pos issue} (hi : key.wafRules[i]? = some (.throttle input))
      (h : input.toThrottle.Violates (below (itemPath (below path "wafRules") i) "throttle")
        pos issue) :
      Violates key path (2 :: i :: pos) issue

theorem ApiKey.reports (key : ApiKey) (path : String) :
    Reports (key.issues path) (key.Violates path) := by
  have hread (time : String) :
      (Rfc3339.parse time).isOk = true ↔ ∃ t, Rfc3339.parse time = .ok t := by
    constructor
    · exact exists_of_isOk
    · rintro ⟨t, ht⟩
      rw [ht]
      rfl
  refine Reports.congr (((reports_ifGiven fun d => reports_expiry d _).first.andThen
    (reports_ifGiven fun time => reports_demand (hread time) _ _)).andThen
    (reports_atEach (fun i rule => rule.reports _) key.wafRules)) fun pos issue => ?_
  constructor
  · rintro @⟨_ | _ | _ | k, violated, pos, issue, hk, h⟩ <;> cases hk
    · obtain ⟨_, ht, text, rfl, h⟩ := h
      exact .expiresAfter ht h
    · obtain ⟨time, ht, h⟩ := h
      exact .expiresAt ht h
    · obtain ⟨i, _, pos, rfl, hi, input, rfl, h⟩ := h
      exact .rule hi h
  · rintro (⟨ht, h⟩ | ⟨ht, h⟩ | ⟨hi, h⟩)
    · exact .mk (k := 0) rfl ⟨_, ht, _, rfl, h⟩
    · exact .mk (k := 1) rfl ⟨_, ht, h⟩
    · exact .mk (k := 2) rfl ⟨_, _, _, rfl, hi, _, rfl, h⟩

theorem ApiKeyInput.reports (input : ApiKeyInput) (path : String) :
    Reports (input.issues path) fun pos issue => ∃ key, input = .settings key ∧
      key.Violates path pos issue := by
  cases input with
  | bare name => exact .nil (by simp)
  | settings key => exact (key.reports path).congr (by simp)

/-- What code and templates violate: one excludes the other. -/
def Handler.Violates (h : Handler) (path : String) : Position → Issue → Prop :=
  Unmet (h.code = none ∨ h.request = none ∧ h.response = none) path
    "code cannot be combined with request or response templates"

theorem Handler.reports (h : Handler) (path : String) :
    Reports (h.issues path) (h.Violates path) := by
  refine reports_demand ?_ path _
  obtain ⟨code, request, response⟩ := h
  cases code <;> cases request <;> cases response <;> simp

inductive AuthoredFunction.Violates (f : AuthoredFunction) (path : String) :
    Position → Issue → Prop where
  | batch {n pos issue} (hn : f.maxBatchSize = some n)
      (h : OutOfRange 1 2000 (below path "maxBatchSize") n pos issue) :
      Violates f path (0 :: pos) issue
  | handler {pos issue} (h : f.handler.Violates path pos issue) :
      Violates f path (1 :: pos) issue

theorem reports_batch (size : Option Nat) (path : String) :
    Reports (batchIssues path size) fun pos issue => ∃ n, size = some n ∧
      OutOfRange 1 2000 (below path "maxBatchSize") n pos issue :=
  reports_ifGiven fun n => reports_within (by decide) _ n

theorem AuthoredFunction.reports (f : AuthoredFunction) (path : String) :
    Reports (f.issues path) (f.Violates path) := by
  refine Reports.congr ((reports_batch _ path).first.andThen (f.handler.reports path))
    fun pos issue => ?_
  constructor
  · rintro @⟨_ | _ | k, violated, pos, issue, hk, h⟩ <;> cases hk
    · obtain ⟨n, hn, h⟩ := h
      exact .batch hn h
    · exact .handler h
  · rintro (⟨hn, h⟩ | h)
    · exact .mk (k := 0) rfl ⟨_, hn, h⟩
    · exact .mk (k := 1) rfl h

theorem FunctionInput.reports (input : FunctionInput) (path : String) :
    Reports (input.issues path) fun pos issue => ∃ f, input = .settings f ∧
      f.Violates path pos issue := by
  cases input with
  | dataSource name => exact .nil (by simp)
  | settings f => exact (f.reports path).congr (by simp)

theorem FunctionUse.reports (used : FunctionUse) (path : String) :
    Reports (used.issues path) fun pos issue => ∃ f, used = .inline f ∧
      f.Violates path pos issue := by
  cases used with
  | named name => exact .nil (by simp)
  | inline f => exact (f.reports path).congr (by simp)

theorem ResolverCaching.reports (caching : ResolverCaching) (path : String) :
    Reports (caching.issues path) fun pos issue => ∃ n keys, caching = .custom (some n) keys ∧
      OutOfRange 1 3600 (below path "ttl") n pos issue := by
  cases caching with
  | enabled b => exact .nil (by simp)
  | custom ttl keys =>
    refine Reports.congr (reports_ifGiven fun n => reports_within (by decide) _ n) ?_
    simp

theorem DataSourceUse.reports (used : DataSourceUse) (path : String) :
    Reports (used.issues path) fun pos issue => ∃ name, used = .named name ∧
      Unmet (name ≠ "") path "must not be empty" pos issue := by
  cases used with
  | named name => exact (reports_demand decide_eq_true_iff _ _).congr (by simp)
  | inline source => exact .nil (by simp)

/-- What a resolver in full violates, and the pipeline functions that stand in it. -/
inductive AuthoredResolver.Violates (r : AuthoredResolver) (path : String) :
    Position → Issue → Prop where
  | batch {n pos issue} (hn : r.maxBatchSize = some n)
      (h : OutOfRange 1 2000 (below path "maxBatchSize") n pos issue) :
      Violates r path (0 :: pos) issue
  | handler {pos issue} (h : r.handler.Violates path pos issue) :
      Violates r path (1 :: pos) issue
  | ttl {n keys pos issue} (hc : r.caching = some (.custom (some n) keys))
      (h : OutOfRange 1 3600 (below (below path "caching") "ttl") n pos issue) :
      Violates r path (2 :: pos) issue
  | dataSource {name pos issue} (hd : r.dataSource = some (.named name))
      (h : Unmet (name ≠ "") (below path "dataSource") "must not be empty" pos issue) :
      Violates r path (3 :: pos) issue
  | function {functions i f pos issue} (hr : r.functions = some functions)
      (hi : functions[i]? = some (.inline f))
      (h : f.Violates (itemPath (below path "functions") i) pos issue) :
      Violates r path (4 :: i :: pos) issue

theorem AuthoredResolver.reports (r : AuthoredResolver) (path : String) :
    Reports (r.issues path) (r.Violates path) := by
  refine Reports.congr (((((reports_batch _ path).first.andThen (r.handler.reports path)).andThen
    (reports_ifGiven fun caching => caching.reports _)).andThen
    (reports_ifGiven fun used => used.reports _)).andThen
    (reports_atEach (fun i used => used.reports _) _)) fun pos issue => ?_
  constructor
  · rintro @⟨_ | _ | _ | _ | _ | k, violated, pos, issue, hk, h⟩ <;> cases hk
    · obtain ⟨n, hn, h⟩ := h
      exact .batch hn h
    · exact .handler h
    · obtain ⟨_, hc, n, keys, rfl, h⟩ := h
      exact .ttl hc h
    · obtain ⟨_, hd, name, rfl, h⟩ := h
      exact .dataSource hd h
    · obtain ⟨i, _, pos, rfl, hi, f, rfl, h⟩ := h
      cases hr : r.functions with
      | none => simp [hr] at hi
      | some functions =>
        rw [hr] at hi
        exact .function hr hi h
  · rintro (⟨hn, h⟩ | h | ⟨hc, h⟩ | ⟨hd, h⟩ | ⟨hr, hi, h⟩)
    · exact .mk (k := 0) rfl ⟨_, hn, h⟩
    · exact .mk (k := 1) rfl h
    · exact .mk (k := 2) rfl ⟨_, hc, _, _, rfl, h⟩
    · exact .mk (k := 3) rfl ⟨_, hd, _, rfl, h⟩
    · refine .mk (k := 4) rfl ⟨_, _, _, rfl, ?_, _, rfl, h⟩
      rw [hr]
      exact hi

theorem ResolverInput.reports (input : ResolverInput) (path : String) :
    Reports (input.issues path) fun pos issue => ∃ r, input = .settings r ∧
      r.Violates path pos issue := by
  cases input with
  | dataSource name => exact .nil (by simp)
  | settings r => exact (r.reports path).congr (by simp)

/-- What a configuration violates. Entries of maps that are written in several parts count as
entries of one map. -/
inductive Authored.Violates (c : Authored) : Position → Issue → Prop where
  | name {pos issue}
      (h : Unmet (∃ x ∈ c.name.toList, Text.isBlank x = false) "/name" "must not be empty"
        pos issue) :
      Violates c (0 :: pos) issue
  | authentication {pos issue}
      (h : c.authentication.Violates true "/authentication" pos issue) :
      Violates c (1 :: pos) issue
  | additional {i p pos issue} (hi : c.additionalAuthentications[i]? = some p)
      (h : p.Violates false (itemPath "/additionalAuthentications" i) pos issue) :
      Violates c (2 :: i :: pos) issue
  | visibility {value pos issue} (hv : c.visibility = some value)
      (h : NotAmong visibilities "/visibility" value pos issue) :
      Violates c (3 :: pos) issue
  | queryDepthLimit {n pos issue} (hn : c.queryDepthLimit = some n)
      (h : OutOfRange 1 75 "/queryDepthLimit" n pos issue) :
      Violates c (4 :: pos) issue
  | resolverCountLimit {n pos issue} (hn : c.resolverCountLimit = some n)
      (h : OutOfRange 1 1000 "/resolverCountLimit" n pos issue) :
      Violates c (5 :: pos) issue
  | domain {d pos issue} (hd : c.domain = some d) (h : d.Violates "/domain" pos issue) :
      Violates c (6 :: pos) issue
  | logging {logging pos issue} (hl : c.logging = some logging)
      (h : NotAmong logLevels "/logging/level" logging.level pos issue) :
      Violates c (7 :: pos) issue
  | caching {caching pos issue} (hc : c.caching = some caching)
      (h : caching.Violates "/caching" pos issue) :
      Violates c (8 :: pos) issue
  | waf {w pos issue} (hw : c.waf = some w) (h : w.Violates "/waf" pos issue) :
      Violates c (9 :: pos) issue
  | apiKey {i key pos issue} (hi : c.apiKeys[i]? = some (.settings key))
      (h : key.Violates (itemPath "/apiKeys" i) pos issue) :
      Violates c (10 :: i :: pos) issue
  | pipelineFunction {i name f pos issue}
      (hi : c.pipelineFunctions.merged.entries[i]? = some (name, .settings f))
      (h : f.Violates (below "/pipelineFunctions" name) pos issue) :
      Violates c (11 :: i :: pos) issue
  | resolver {i name r pos issue}
      (hi : c.resolvers.merged.entries[i]? = some (name, .settings r))
      (h : r.Violates (below "/resolvers" name) pos issue) :
      Violates c (12 :: i :: pos) issue

theorem not_isBlankText_iff {s : String} :
    (!Text.isBlankText s) = true ↔ ∃ x ∈ s.toList, Text.isBlank x = false := by
  simp [Text.isBlankText]

theorem Authored.reports (c : Authored) : Reports c.issues c.Violates := by
  refine Reports.congr
    (.andThen (.andThen (.andThen (.andThen (.andThen (.andThen (.andThen (.andThen (.andThen
      (.andThen (.andThen (.andThen
    (.first (reports_demand not_isBlankText_iff _ _))
    (c.authentication.reports true _))
    (reports_atEach (fun i p => p.reports false _) _))
    (reports_ifGiven fun value => reports_among _ _ value))
    (reports_ifGiven fun n => reports_within (by decide) _ n))
    (reports_ifGiven fun n => reports_within (by decide) _ n))
    (reports_ifGiven fun d => d.reports _))
    (reports_ifGiven fun logging => reports_among _ _ logging.level))
    (reports_ifGiven fun caching => caching.reports _))
    (reports_ifGiven fun w => w.reports _))
    (reports_atEach (fun i key => key.reports _) _))
    (reports_entryIssues (fun path input => input.reports path) _ _))
    (reports_entryIssues (fun path input => input.reports path) _ _)) fun pos issue => ?_
  -- The sections as one list, in which a number is looked up faster than in appended ones.
  simp only [List.cons_append, List.nil_append]
  constructor
  · rintro @⟨_ | _ | _ | _ | _ | _ | _ | _ | _ | _ | _ | _ | _ | k, violated, pos, issue, hk, h⟩
      <;> cases hk
    · exact .name h
    · exact .authentication h
    · obtain ⟨i, p, pos, rfl, hi, h⟩ := h
      exact .additional hi h
    · obtain ⟨value, hv, h⟩ := h
      exact .visibility hv h
    · obtain ⟨n, hn, h⟩ := h
      exact .queryDepthLimit hn h
    · obtain ⟨n, hn, h⟩ := h
      exact .resolverCountLimit hn h
    · obtain ⟨d, hd, h⟩ := h
      exact .domain hd h
    · obtain ⟨logging, hl, h⟩ := h
      exact .logging hl h
    · obtain ⟨caching, hc, h⟩ := h
      exact .caching hc h
    · obtain ⟨w, hw, h⟩ := h
      exact .waf hw h
    · obtain ⟨i, _, pos, rfl, hi, key, rfl, h⟩ := h
      exact .apiKey hi h
    · obtain ⟨i, name, _, pos, rfl, hi, f, rfl, h⟩ := h
      exact .pipelineFunction hi h
    · obtain ⟨i, name, _, pos, rfl, hi, r, rfl, h⟩ := h
      exact .resolver hi h
  · rintro (h | h | ⟨hi, h⟩ | ⟨hv, h⟩ | ⟨hn, h⟩ | ⟨hn, h⟩ | ⟨hd, h⟩ | ⟨hl, h⟩ | ⟨hc, h⟩ | ⟨hw, h⟩ |
      ⟨hi, h⟩ | ⟨hi, h⟩ | ⟨hi, h⟩)
    · exact .mk (k := 0) rfl h
    · exact .mk (k := 1) rfl h
    · exact .mk (k := 2) rfl ⟨_, _, _, rfl, hi, h⟩
    · exact .mk (k := 3) rfl ⟨_, hv, h⟩
    · exact .mk (k := 4) rfl ⟨_, hn, h⟩
    · exact .mk (k := 5) rfl ⟨_, hn, h⟩
    · exact .mk (k := 6) rfl ⟨_, hd, h⟩
    · exact .mk (k := 7) rfl ⟨_, hl, h⟩
    · exact .mk (k := 8) rfl ⟨_, hc, h⟩
    · exact .mk (k := 9) rfl ⟨_, hw, h⟩
    · exact .mk (k := 10) rfl ⟨_, _, _, rfl, hi, _, rfl, h⟩
    · exact .mk (k := 11) rfl ⟨_, _, _, _, rfl, hi, _, rfl, h⟩
    · exact .mk (k := 12) rfl ⟨_, _, _, _, rfl, hi, _, rfl, h⟩

/-- A check succeeds just if nothing is violated. If it fails, it has one issue for each violated
constraint, in the order of the constraints: none of them hides or repeats another. -/
theorem Authored.check_reports (c : Authored) :
    (c.check = .ok () ↔ ∀ pos issue, ¬c.Violates pos issue) ∧
      (c.check = .ok () ∨ ∃ issues, c.check = .error (.invalid issues) ∧
        Reports issues c.Violates) := by
  rw [← c.reports.eq_nil_iff, check]
  split
  · next h => exact ⟨iff_of_true rfl (List.isEmpty_iff.1 h), .inl rfl⟩
  · next h =>
    exact ⟨iff_of_false nofun fun he => h (List.isEmpty_iff.2 he), .inr ⟨_, rfl, c.reports⟩⟩

end ApiStack.Config
