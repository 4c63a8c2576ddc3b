import ApiStack.Proofs.Compile.DataSourceCalls
import ApiStack.Proofs.Compile.Failures
import ApiStack.Proofs.Config.DomainName

namespace ApiStack

open Config

namespace Compile

/-- The name of a region as in the endpoint of a search domain: two word characters, small letters
and a digit, with dashes between them. -/
inductive IsRegionName : List Char → Prop
  | mk {a b digit : Char} {letters : List Char} (ha : Text.isWordChar a = true)
      (hb : Text.isWordChar b = true) (hne : letters ≠ [])
      (hl : ∀ c ∈ letters, isSmallLetter c = true) (hd : Text.isDecimalDigit digit = true) :
      IsRegionName (a :: b :: '-' :: (letters ++ ['-', digit]))

/-- The endpoint of a search domain: behind the scheme a host, which is a label, a region and what
all hosts of search domains end with. -/
structure IsSearchEndpoint (endpoint host region : String) : Prop where
  scheme : endpoint = endpointStart ++ host
  isRegionName : IsRegionName region.toList
  labels : ∃ name, isHostLabel name = true ∧
    host.toList = ['.'].intercalate (name :: region.toList :: searchHostEnd)

theorem isRegion_iff (label : List Char) : isRegion label = true ↔ IsRegionName label := by
  constructor
  · intro h
    unfold isRegion at h
    split at h
    · next a b rest =>
      simp only [Bool.and_eq_true, Bool.not_eq_true', List.isEmpty_eq_false_iff] at h
      obtain ⟨⟨⟨ha, hb⟩, hne⟩, hrest⟩ := h
      split at hrest
      · next digit hdrop =>
        have hsplit := List.takeWhile_append_dropWhile (p := isSmallLetter) (l := rest)
        rw [hdrop] at hsplit
        rw [← hsplit]
        exact .mk ha hb hne (fun c hc => List.mem_takeWhile_imp hc) hrest
      · cases hrest
    · cases h
  · rintro ⟨ha, hb, hne, hl, hd⟩
    have hdash : isSmallLetter '-' = false := by decide
    simp only [isRegion, List.takeWhile_append_of_pos hl, List.dropWhile_append_of_pos hl]
    simp [hdash, ha, hb, hd, hne]

/-- No label of a host has a point in it. -/
theorem notMem_of_isRegionName {label : List Char} (h : IsRegionName label) : '.' ∉ label := by
  have hword : Text.isWordChar '.' = false := by decide +kernel
  have hdigit : Text.isDecimalDigit '.' = false := by decide +kernel
  have hletter : isSmallLetter '.' = false := by decide
  obtain ⟨ha, hb, -, hl, hd⟩ := h
  intro hm
  simp only [List.mem_cons, List.mem_append, List.not_mem_nil, or_false] at hm
  rcases hm with rfl | rfl | hm | hm | hm | rfl
  · rw [hword] at ha
    cases ha
  · rw [hword] at hb
    cases hb
  · cases hm
  · rw [hl _ hm] at hletter
    cases hletter
  · cases hm
  · rw [hdigit] at hd
    cases hd

theorem notMem_of_isHostLabel {label : List Char} (h : isHostLabel label = true) :
    '.' ∉ label := by
  intro hm
  have hp : (isSmallLetter '.' || '.'.isDigit || decide ('.' = '-')) = true :=
    List.all_eq_true.1 (Bool.and_eq_true_iff.1 h).2 _ hm
  cases hp

theorem searchHost?_eq_some_iff {endpoint host region : String} :
    searchHost? endpoint = some (host, region) ↔ IsSearchEndpoint endpoint host region := by
  constructor
  · intro h
    simp only [searchHost?, labels_eq_splitOn] at h
    split at h
    · next hstart =>
      split at h
      · next name label rest hlabels =>
        split at h
        · next hvalid =>
          simp only [Bool.and_eq_true, decide_eq_true_eq] at hvalid
          obtain ⟨⟨hname, hregion⟩, rfl⟩ := hvalid
          cases h
          refine ⟨?_, ?_, name, hname, ?_⟩
          · rw [← String.toList_inj, String.toList_append, String.toList_ofList]
            nth_rewrite 1 [← hstart]
            exact (List.take_append_drop _ _).symm
          · rw [String.toList_ofList]
            exact (isRegion_iff label).1 hregion
          · rw [String.toList_ofList, String.toList_ofList, ← hlabels, List.intercalate_splitOn]
        · cases h
      · cases h
    · cases h
  · rintro ⟨rfl, hregion, name, hname, hhost⟩
    have hpoints : ∀ l ∈ name :: region.toList :: searchHostEnd, '.' ∉ l := by
      refine List.forall_mem_cons.2 ⟨notMem_of_isHostLabel hname, ?_⟩
      exact List.forall_mem_cons.2 ⟨notMem_of_isRegionName hregion, by decide⟩
    have hlabels : labels host.toList = name :: region.toList :: searchHostEnd := by
      rw [labels_eq_splitOn, hhost]
      exact List.splitOn_intercalate '.' hpoints (List.cons_ne_nil _ _)
    simp only [searchHost?, String.toList_append, List.take_left, List.drop_left, if_true, hlabels]
    simp [hname, (isRegion_iff _).2 hregion]

example : searchHost? "https://search-users.us-east-1.es.amazonaws.com" =
    some ("search-users.us-east-1.es.amazonaws.com", "us-east-1") := by
  decide +kernel

/-- What is wrong with a data source, beside some functions that are embedded already. -/
inductive IsRefused (fs : Functions) (d : DataSource) : Misconfiguration → Prop
  | noFunction {b : LambdaBackend} (hb : d.backend = .lambda b)
      (h : b.function.target = .error (.misconfigured .noFunction)) : IsRefused fs d .noFunction
  | functionTwice {definition known : Json} (hd : d.embedded? = some definition)
      (hk : fs.get? d.name = some known) (h : known.same definition = false) :
      IsRefused fs d (.functionTwice d.name)
  | signatureWithoutStatements (hr : d.backend.role = .none) (h : isSigned d.backend = true) :
      IsRefused fs d (.signatureWithoutStatements d.name)
  | endpointOrDomain {s : OpenSearch} (hb : d.backend = .openSearch s)
      (h : s.endpoint.isSome = s.domain.isSome) : IsRefused fs d .endpointOrDomain
  | openSearchEndpoint {s : OpenSearch} {endpoint : String} (hb : d.backend = .openSearch s)
      (hr : s.role = .none) (hd : s.domain = none) (he : s.endpoint = some (.str endpoint))
      (h : ∀ host region, ¬IsSearchEndpoint endpoint host region) :
      IsRefused fs d (.openSearchEndpoint endpoint)
  | openSearchArn {s : OpenSearch} {endpoint : Json} (hb : d.backend = .openSearch s)
      (hr : s.role = .none) (hd : s.domain = none) (he : s.endpoint = some endpoint)
      (h : ∀ text, endpoint ≠ .str text) : IsRefused fs d (.openSearchArn d.name)

variable {fs fs' : Functions} {d : DataSource} {failure : Failure} {cause : Misconfiguration}

/-- A failure says what is wrong with a data source. -/
def Refusal (fs : Functions) (d : DataSource) (failure : Failure) : Prop :=
  ∃ cause, failure = .misconfigured cause ∧ IsRefused fs d cause

theorem IsRefused.refusal (h : IsRefused fs d cause) : Refusal fs d (.misconfigured cause) :=
  ⟨cause, rfl, h⟩

theorem functionArn_refused {b : LambdaBackend} (hd : d.embedded? = none)
    (hb : d.backend = .lambda b) (name : String) :
    FailsOnly (Refusal fs d) (functionArn b.function name) := by
  unfold functionArn
  apply FailsOnly.lift_bind
  · intro failure h
    cases target_eq_error h
    exact (IsRefused.noFunction hb h).refusal
  · intro target ht
    cases target with
    | arn value => exact .pure _
    | named used aliasName => exact .pure _
    | embedded definition => exact absurd ht (ne_embedded_of_embedded? hd hb definition)

theorem searchEndpoint_eq_error_iff {s : OpenSearch} : searchEndpoint s = .error failure ↔
    s.endpoint.isSome = s.domain.isSome ∧ failure = .misconfigured .endpointOrDomain := by
  unfold searchEndpoint
  cases s.endpoint <;> cases s.domain <;> simp [eq_comm]

theorem searchSettings_refused {s : OpenSearch} (hb : d.backend = .openSearch s)
    (h : searchSettings s = .error failure) : Refusal fs d failure := by
  rcases bind_eq_error_iff.1 h with h | ⟨_, -, h⟩
  · obtain ⟨hsame, rfl⟩ := searchEndpoint_eq_error_iff.1 h
    exact (IsRefused.endpointOrDomain hb hsame).refusal
  · cases h

theorem backendEntry_refused (hd : d.embedded? = none) :
    FailsOnly (Refusal fs d) (backendEntry d.name d.backend) := by
  apply FailsOnly.backendEntry
  · intro b hb
    exact functionArn_refused hd hb _
  · intro s hb failure h
    exact searchSettings_refused hb h

theorem searchArn_refused {s : OpenSearch} (hb : d.backend = .openSearch s) (hr : s.role = .none)
    (hone : s.endpoint.isSome ≠ s.domain.isSome) (h : searchArn d.name s = .error failure) :
    Refusal fs d failure := by
  unfold searchArn at h
  split at h
  · next endpoint he =>
    have hdomain : s.domain = none := by simpa [he] using hone
    split at h
    · next hhost =>
      cases h
      refine (IsRefused.openSearchEndpoint hb hr hdomain he ?_).refusal
      intro host region hs
      rw [searchHost?_eq_some_iff.2 hs] at hhost
      cases hhost
    · cases h
  · cases h
  · next hdomain hne =>
    cases h
    obtain ⟨endpoint, he⟩ : ∃ endpoint, s.endpoint = some endpoint := by
      simpa [hdomain, Option.ne_none_iff_exists'] using hone
    refine (IsRefused.openSearchArn hb hr hdomain he ?_).refusal
    rintro text rfl
    exact hne text he

theorem neededStatements_refused (hd : d.embedded? = none) (hr : d.backend.role = .none)
    (hone : ∀ s, d.backend = .openSearch s → s.endpoint.isSome ≠ s.domain.isSome)
    (granted : DefaultActions) :
    FailsOnly (Refusal fs d) (neededStatements d.name granted d.backend) := by
  apply FailsOnly.neededStatements
  · intro b hb
    exact functionArn_refused hd hb _
  · intro s hb failure h
    rw [hb] at hr
    exact searchArn_refused hb hr (hone s hb) h

theorem role_refused (hd : d.embedded? = none)
    (hone : ∀ s, d.backend = .openSearch s → s.endpoint.isSome ≠ s.domain.isSome) :
    FailsOnly (Refusal fs d) (role d) := by
  rcases hr : d.backend.role with ⟨arn, given⟩
  unfold role statements
  simp only [hr]
  cases arn with
  | some arn => exact .pure _
  | none =>
    apply FailsOnly.bind
    · cases given with
      | some given => exact .pure _
      | none =>
        simp only
        split
        · next hs => exact .throw (IsRefused.signatureWithoutStatements hr hs).refusal
        · unfold defaultStatements
          split
          · exact .pure _
          · exact neededStatements_refused hd hr hone _
    · intro statements
      split <;> exact .pure _

theorem run_of_endpointOrDomain {s : OpenSearch} (hb : d.backend = .openSearch s)
    (h : s.endpoint.isSome = s.domain.isSome) :
    (dataSource d).run fs = (.error (.misconfigured .endpointOrDomain), fs) := by
  apply run_bind_of_error
  rw [hb]
  apply run_bind_of_error
  exact run_lift (bind_eq_error_iff.2 (.inl (searchEndpoint_eq_error_iff.2 ⟨h, rfl⟩))) fs

theorem dataSource_refused (hd : d.embedded? = none) :
    FailsOnly (Refusal fs d) (dataSource d) := by
  by_cases hone : ∃ s, d.backend = .openSearch s ∧ s.endpoint.isSome = s.domain.isSome
  · obtain ⟨s, hb, hsame⟩ := hone
    intro fs' fs'' failure hr
    rw [run_of_endpointOrDomain hb hsame] at hr
    cases hr
    exact (IsRefused.endpointOrDomain hb hsame).refusal
  · apply (backendEntry_refused hd).bind
    intro entries
    exact (role_refused hd fun s hb hsame => hone ⟨s, hb, hsame⟩).map _

/-- What makes a data source fail is wrong with it, and nothing is embedded then. -/
theorem refusal_of_run (h : (dataSource d).run fs = (.error failure, fs')) :
    fs' = fs ∧ Refusal fs d failure := by
  cases outcome_of_run h with
  | detached hd => exact ⟨rfl, dataSource_refused hd _ _ _ h⟩
  | taken hd hk hs => exact ⟨rfl, (IsRefused.functionTwice hd hk hs).refusal⟩

theorem run_of_role {entries : List (String × Json)}
    (hb : (backendEntry d.name d.backend).run fs = (.ok entries, fs))
    (hr : (role d).run fs = (.error failure, fs)) :
    (dataSource d).run fs = (.error failure, fs) :=
  (run_bind_of_ok hb).trans (run_bind_of_error hr)

theorem run_role_of_signed (hr : d.backend.role = .none) (h : isSigned d.backend = true) :
    (role d).run fs = (.error (.misconfigured (.signatureWithoutStatements d.name)), fs) := by
  unfold role statements
  simp only [hr, RoleSettings.none, h]
  rfl

theorem run_role_of_searchArn {s : OpenSearch} (hb : d.backend = .openSearch s)
    (hr : s.role = .none) (h : searchArn d.name s = .error failure) :
    (role d).run fs = (.error failure, fs) := by
  have hrole : d.backend.role = .none := by rw [hb]; exact hr
  have hsigned : isSigned d.backend = false := by rw [hb]; rfl
  have hneeded : (defaultStatements d).run fs = (.error failure, fs) := by
    unfold defaultStatements
    rw [hb]
    exact run_bind_of_error (run_lift h fs)
  unfold role statements
  simp only [hrole, RoleSettings.none, hsigned]
  exact run_bind_of_error hneeded

theorem run_backendEntry_of_openSearch (fs : Functions) {s : OpenSearch} {endpoint : Json}
    (hb : d.backend = .openSearch s) (hd : s.domain = none) (he : s.endpoint = some endpoint) :
    ∃ entries, (backendEntry d.name d.backend).run fs = (.ok entries, fs) := by
  have hsettings : ∃ settings, searchSettings s = .ok settings := by
    simp only [searchSettings, searchEndpoint, hd, he]
    exact ⟨_, rfl⟩
  obtain ⟨settings, h⟩ := hsettings
  rw [hb]
  exact ⟨_, run_bind_of_ok (run_lift h fs)⟩

theorem run_backendEntry_of_signed (fs : Functions) (h : isSigned d.backend = true) :
    ∃ entries, (backendEntry d.name d.backend).run fs = (.ok entries, fs) := by
  unfold isSigned at h
  split at h
  · next b hb =>
    rw [hb]
    exact ⟨_, rfl⟩
  · cases h

theorem IsRefused.run (h : IsRefused fs d cause) :
    (dataSource d).run fs = (.error (.misconfigured cause), fs) := by
  cases h with
  | noFunction hb h =>
    apply run_bind_of_error
    rw [hb]
    apply run_bind_of_error
    exact run_bind_of_error (run_lift h fs)
  | functionTwice hd hk hs =>
    obtain ⟨g, hg⟩ := run_of_embedded hd
    rw [hg, hk]
    exact if_neg (by rw [hs]; exact Bool.false_ne_true)
  | signatureWithoutStatements hr h =>
    obtain ⟨entries, hentries⟩ := run_backendEntry_of_signed fs h
    exact run_of_role hentries (run_role_of_signed hr h)
  | endpointOrDomain hb h => exact run_of_endpointOrDomain hb h
  | openSearchEndpoint hb hr hd he h =>
    obtain ⟨entries, hentries⟩ := run_backendEntry_of_openSearch fs hb hd he
    refine run_of_role hentries (run_role_of_searchArn hb hr ?_)
    simp only [searchArn, he]
    split
    · rfl
    · next host region hs => exact absurd (searchHost?_eq_some_iff.1 hs) (h host region)
  | openSearchArn hb hr hd he h =>
    obtain ⟨entries, hentries⟩ := run_backendEntry_of_openSearch fs hb hd he
    refine run_of_role hentries (run_role_of_searchArn hb hr ?_)
    unfold searchArn
    split
    · next text htext => exact absurd (Option.some.inj (he.symm.trans htext)) (h text)
    · next hdomain _ => cases hd.symm.trans hdomain
    · rfl

/-- A data source is refused for what is wrong with it and for nothing else, and then no function is
embedded. -/
theorem dataSource_fails_iff (d : DataSource) (fs fs' : Functions) (failure : Failure) :
    (dataSource d).run fs = (.error failure, fs') ↔
      fs' = fs ∧ ∃ cause, failure = .misconfigured cause ∧ IsRefused fs d cause := by
  constructor
  · exact refusal_of_run
  · rintro ⟨rfl, cause, rfl, h⟩
    exact h.run

/-- An endpoint that requests are signed for, with a list of no statements. -/
def signedBackend : Backend :=
  .http ⟨.str "https://example.com", some ⟨"AWS_IAM", ⟨none, none⟩⟩, ⟨none, some []⟩⟩

/-- A search domain with an endpoint outside the service, and a role that exists. -/
def localSearch : OpenSearch :=
  ⟨some (.str "http://localhost:9200"), none, none, ⟨some (.str "arn:x"), none⟩⟩

theorem not_isSearchEndpoint_localSearch (host region : String) :
    ¬IsSearchEndpoint "http://localhost:9200" host region := by
  intro h
  have hnone : searchHost? "http://localhost:9200" = none := by decide +kernel
  cases hnone.symm.trans (searchHost?_eq_some_iff.2 h)

/-- Signed requests without any statements are not refused if a list of none is given, and an
endpoint that is not one of a search domain is not if there is a role. -/
theorem compiles_signedBackend :
    (isSigned signedBackend = true ∧ signedBackend.role.arn = none ∧
      signedBackend.role.statements = some [] ∧
      ∃ g, (dataSource ⟨"web", none, signedBackend⟩).run .empty = (.ok g, .empty)) ∧
    (localSearch.endpoint = some (.str "http://localhost:9200") ∧
      (∀ host region, ¬IsSearchEndpoint "http://localhost:9200" host region) ∧
      ∃ g, (dataSource ⟨"search", none, .openSearch localSearch⟩).run .empty = (.ok g, .empty)) :=
  ⟨⟨rfl, rfl, rfl, _, rfl⟩, rfl, not_isSearchEndpoint_localSearch, _, rfl⟩

end Compile

end ApiStack
