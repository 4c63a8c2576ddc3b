import ApiStack.Proofs.Compile.Sites
import ApiStack.Proofs.Config.Lifting

namespace ApiStack

open Config

/-- The definition that a data source embeds, if its function is to be embedded. -/
def Config.DataSource.embedded? (d : DataSource) : Option Json :=
  match d.backend with
  | .lambda b =>
    match b.function.target with
    | .ok (.embedded definition) => some definition
    | _ => none
  | _ => none

/-- Of data sources that are kept under their names, different ones have different names. -/
theorem Config.Api.IsKeyed.eq_of_name_eq {api : Api} (h : api.IsKeyed) {d e : DataSource}
    (hd : d ∈ api.dataSources.values) (he : e ∈ api.dataSources.values) (hn : d.name = e.name) :
    d = e := by
  obtain ⟨⟨name, d⟩, hentry, rfl⟩ := List.mem_map.1 hd
  obtain ⟨⟨name', e⟩, hentry', rfl⟩ := List.mem_map.1 he
  have hnames : name = name' :=
    (h.dataSource _ hentry).symm.trans (hn.trans (h.dataSource _ hentry'))
  subst hnames
  have hlookup := lookup_of_mem api.dataSources.nodup hentry
  rw [lookup_of_mem api.dataSources.nodup hentry'] at hlookup
  exact (Option.some.inj hlookup).symm

namespace Compile

/-- What came of compiling a data source, with the functions before and after it. -/
structure Call where
  dataSource : DataSource
  before : Functions
  result : Except Failure Graph
  after : Functions

def call (fs : Functions) (d : DataSource) : Call :=
  let (result, after) := (dataSource d).run fs
  ⟨d, fs, result, after⟩

/-- Data sources compiled one after another. One that fails does not stop the others. -/
def calls (fs : Functions) : List DataSource → List Call
  | [] => []
  | d :: ds => call fs d :: calls (call fs d).after ds

/-- The functions after data sources were compiled one after another. -/
def functionsAfter (fs : Functions) : List DataSource → Functions
  | [] => fs
  | d :: ds => functionsAfter (call fs d).after ds

def Call.registered? (c : Call) : Option (String × Json) :=
  if c.result.isOk then c.dataSource.embedded?.map fun definition => (c.dataSource.name, definition)
  else none

/-- Of definitions with one name the first. -/
def firsts : Definitions → Definitions
  | [] => []
  | d :: ds => d :: (firsts ds).filter fun e => e.1 ≠ d.1

theorem mem_of_mem_firsts {d : String × Json} {ds : Definitions} (h : d ∈ firsts ds) : d ∈ ds := by
  induction ds with
  | nil => exact h
  | cons first rest ih =>
    rcases List.mem_cons.1 h with rfl | h
    · exact List.mem_cons_self
    · exact List.mem_cons_of_mem _ (ih (List.mem_of_mem_filter h))

theorem exists_mem_firsts {d : String × Json} {ds : Definitions} (h : d ∈ ds) :
    ∃ e ∈ firsts ds, e.1 = d.1 := by
  induction ds with
  | nil => cases h
  | cons first rest ih =>
    by_cases hn : d.1 = first.1
    · exact ⟨first, List.mem_cons_self, hn.symm⟩
    · have hm : d ∈ rest := (List.mem_cons.1 h).resolve_left fun he => hn (congrArg Prod.fst he)
      obtain ⟨e, he, hne⟩ := ih hm
      refine ⟨e, List.mem_cons_of_mem _ (List.mem_filter.2 ⟨he, ?_⟩), hne⟩
      rw [hne]
      exact decide_eq_true hn

section Runs

variable {d : DataSource} {definition : Json} {fs fs' later : Functions}

/-- A part does nothing to the functions, and its result does not depend on them. -/
def IsDetached (b : Build α) : Prop := ∃ r, ∀ fs, b.run fs = (r, fs)

theorem IsDetached.pure (a : α) : IsDetached (Pure.pure a) := ⟨.ok a, fun _ => rfl⟩

theorem IsDetached.lift (r : Except Failure α) : IsDetached (liftM r) := ⟨r, fun _ => rfl⟩

theorem IsDetached.throw (failure : Failure) : IsDetached (throw failure : Build α) :=
  ⟨.error failure, fun _ => rfl⟩

theorem IsDetached.bind {b : Build α} {f : α → Build β} (hb : IsDetached b)
    (hf : ∀ a, IsDetached (f a)) : IsDetached (b >>= f) := by
  obtain ⟨r, hr⟩ := hb
  cases r with
  | error failure => exact ⟨.error failure, fun fs => run_bind_of_error (hr fs)⟩
  | ok a =>
    obtain ⟨r, hr'⟩ := hf a
    exact ⟨r, fun fs => (run_bind_of_ok (hr fs)).trans (hr' fs)⟩

theorem IsDetached.map {b : Build α} (hb : IsDetached b) (f : α → β) :
    IsDetached (do return f (← b)) :=
  hb.bind fun a => .pure (f a)

theorem embedded?_eq_some_iff : d.embedded? = some definition ↔
    ∃ b, d.backend = .lambda b ∧ b.function.target = .ok (.embedded definition) := by
  unfold DataSource.embedded?
  split
  · next b hb =>
    split
    · next known ht => simp [hb, ht]
    · next hne =>
      simp only [reduceCtorEq, false_iff, hb]
      rintro ⟨b', hb', ht⟩
      cases hb'
      exact hne _ ht
  · next hne =>
    simp only [reduceCtorEq, false_iff]
    rintro ⟨b, hb, -⟩
    exact hne b hb

theorem isDetached_functionArn {source : FunctionSource}
    (h : ∀ definition, source.target ≠ .ok (.embedded definition)) (name : String) :
    IsDetached (functionArn source name) := by
  unfold functionArn
  cases ht : source.target with
  | error failure => exact ⟨.error failure, fun _ => rfl⟩
  | ok target =>
    cases target with
    | arn value => exact .pure value
    | named used aliasName => exact .pure _
    | embedded definition => exact absurd ht (h definition)

theorem ne_embedded_of_embedded? (h : d.embedded? = none) {b : LambdaBackend}
    (hb : d.backend = .lambda b) (definition : Json) :
    b.function.target ≠ .ok (.embedded definition) := by
  intro ht
  simp [DataSource.embedded?, hb, ht] at h

theorem isDetached_backendEntry (h : d.embedded? = none) :
    IsDetached (backendEntry d.name d.backend) := by
  cases hb : d.backend with
  | lambda b => exact (isDetached_functionArn (ne_embedded_of_embedded? h hb) _).map _
  | openSearch b => exact (IsDetached.lift _).map _
  | dynamoDb b => exact .pure _
  | relationalDatabase b => exact .pure _
  | http b => exact .pure _
  | eventBridge b => exact .pure _
  | noBackend role => exact .pure _

theorem isDetached_neededStatements (h : d.embedded? = none) (granted : DefaultActions) :
    IsDetached (neededStatements d.name granted d.backend) := by
  cases hb : d.backend with
  | lambda b => exact (isDetached_functionArn (ne_embedded_of_embedded? h hb) _).map _
  | openSearch b => exact (IsDetached.lift _).map _
  | dynamoDb b => exact .pure _
  | relationalDatabase b => exact .pure _
  | http b => exact .pure _
  | eventBridge b => exact .pure _
  | noBackend role => exact .pure _

theorem isDetached_role (h : d.embedded? = none) : IsDetached (role d) := by
  have hstatements : IsDetached (statements d) := by
    unfold statements
    split
    · exact .pure _
    · split
      · exact .throw _
      · unfold defaultStatements
        split
        · exact .pure _
        · exact isDetached_neededStatements h _
  unfold role
  split
  · exact .pure _
  · apply hstatements.bind
    intro statements
    split <;> exact .pure _

theorem isDetached_dataSource (h : d.embedded? = none) : IsDetached (dataSource d) := by
  unfold dataSource
  apply (isDetached_backendEntry h).bind
  intro backend
  exact (isDetached_role h).map _

theorem functionArn_of_embedded {source : FunctionSource}
    (h : source.target = .ok (.embedded definition)) (name : String) :
    functionArn source name = (do
      embed name definition
      return namedFunction name none) := by
  rw [functionArn, h]
  rfl

/-- A definition that was embedded can be embedded again, which changes nothing. -/
theorem embed_embed (name : String) (definition : Json) :
    (do embed name definition; embed name definition) = embed name definition := by
  funext fs
  show (embed name definition >>= fun _ => embed name definition).run fs =
    (embed name definition).run fs
  rcases hr : (embed name definition).run fs with ⟨r, mid⟩
  cases r with
  | error failure => exact run_bind_of_error hr
  | ok u =>
    rw [run_bind_of_ok hr, run_embed]
    obtain ⟨known, hk, hs⟩ := (Embeds.of_embed hr).holds (List.mem_singleton_self _)
    simp only [hk, hs, if_true]

/-- The role of a data source embeds the function once more or does nothing. -/
theorem role_of_embedded (h : d.embedded? = some definition) : ∃ made,
    role d = pure made ∨ role d = (do embed d.name definition; return made) := by
  obtain ⟨b, hb, ht⟩ := embedded?_eq_some_iff.1 h
  obtain ⟨name, description, backend⟩ := d
  obtain ⟨source, ⟨arn, given⟩⟩ := b
  subst hb
  cases arn with
  | some arn => exact ⟨(some arn, none), .inl rfl⟩
  | none =>
    cases given with
    | some given => cases given <;> exact ⟨_, .inl rfl⟩
    | none =>
      rw [role_of_lambda, functionArn_of_embedded ht]
      simp only [bind_assoc, pure_bind]
      exact ⟨_, .inr rfl⟩

theorem dataSource_of_embedded (h : d.embedded? = some definition) : ∃ g,
    dataSource d = (do embed d.name definition; return g) := by
  obtain ⟨made, hrole⟩ := role_of_embedded h
  obtain ⟨b, hb, ht⟩ := embedded?_eq_some_iff.1 h
  have hbackend : backendEntry d.name d.backend = (do
      embed d.name definition
      return [("LambdaConfig", .obj [("LambdaFunctionArn", namedFunction d.name none)])]) := by
    rw [hb, backendEntry, functionArn_of_embedded ht]
    simp only [bind_assoc, pure_bind]
    rfl
  unfold dataSource
  rw [hbackend]
  rcases hrole with hrole | hrole
  · rw [hrole]
    simp only [bind_assoc, pure_bind]
    exact ⟨_, rfl⟩
  · rw [hrole]
    simp only [bind_assoc, pure_bind]
    rw [← bind_assoc, embed_embed]
    exact ⟨_, rfl⟩

/-- What comes of compiling a data source, case by case: nothing is embedded, or its function is
known under its name, or another function is, or its function is new. -/
inductive CallOutcome (d : DataSource) (fs : Functions) : Except Failure Graph → Functions → Prop
  | detached {r} : d.embedded? = none → CallOutcome d fs r fs
  | known {definition known g} : d.embedded? = some definition → fs.get? d.name = some known →
      known.same definition = true → CallOutcome d fs (.ok g) fs
  | taken {definition known} : d.embedded? = some definition → fs.get? d.name = some known →
      known.same definition = false →
      CallOutcome d fs (.error (.misconfigured (.functionTwice d.name))) fs
  | new {definition g} : d.embedded? = some definition → d.name ∉ fs.keys →
      CallOutcome d fs (.ok g) (fs.insert d.name definition)

theorem run_of_embedded (h : d.embedded? = some definition) : ∃ g, ∀ fs,
    (dataSource d).run fs =
      match fs.get? d.name with
      | some known =>
        if known.same definition then (.ok g, fs)
        else (.error (.misconfigured (.functionTwice d.name)), fs)
      | none => (.ok g, fs.insert d.name definition) := by
  obtain ⟨g, hg⟩ := dataSource_of_embedded h
  refine ⟨g, fun fs => ?_⟩
  rw [hg, run_bind, run_embed]
  cases fs.get? d.name with
  | none => rfl
  | some known => cases hs : known.same definition <;> simp only [hs] <;> rfl

theorem outcome_of_run {r : Except Failure Graph} (h : (dataSource d).run fs = (r, fs')) :
    CallOutcome d fs r fs' := by
  cases hd : d.embedded? with
  | none =>
    obtain ⟨r', hr⟩ := isDetached_dataSource hd
    cases (hr fs).symm.trans h
    exact .detached hd
  | some definition =>
    obtain ⟨g, hg⟩ := run_of_embedded hd
    rw [hg] at h
    cases hk : fs.get? d.name with
    | none =>
      rw [hk] at h
      cases h
      exact .new hd (lookup_eq_none_iff_notMem.1 hk)
    | some known =>
      cases hs : known.same definition with
      | true =>
        simp only [hk, hs] at h
        cases h
        exact .known hd hk hs
      | false =>
        simp only [hk, hs] at h
        cases h
        exact .taken hd hk hs

/-- A data source that is compiled again, when more functions may have been embedded, has the result
that it had and changes nothing. -/
theorem run_again {r : Except Failure Graph} {ds : Definitions}
    (h : (dataSource d).run fs = (r, fs')) (hlater : Embeds fs' ds later) :
    (dataSource d).run later = (r, later) := by
  cases hd : d.embedded? with
  | none =>
    obtain ⟨r', hr⟩ := isDetached_dataSource hd
    cases (hr fs).symm.trans h
    exact hr later
  | some definition =>
    obtain ⟨g, hg⟩ := run_of_embedded hd
    rw [hg] at h ⊢
    cases hk : fs.get? d.name with
    | none =>
      rw [hk] at h
      cases h
      have hnew : later.get? d.name = some definition :=
        hlater.keeps (by rw [OrderedMap.get?_insert, if_pos rfl])
      simp only [hnew, definition.same_refl, if_true]
    | some known =>
      cases hs : known.same definition with
      | true =>
        simp only [hk, hs] at h
        cases h
        simp only [hlater.keeps hk, hs, if_true]
      | false =>
        simp only [hk, hs] at h
        cases h
        simp only [hlater.keeps hk, hs]
        rfl

theorem CallOutcome.embeds {r : Except Failure Graph} (h : CallOutcome d fs r fs') :
    ∃ ds, Embeds fs ds fs' := by
  cases h with
  | detached _ => exact ⟨[], .nil fs⟩
  | known _ _ _ => exact ⟨[], .nil fs⟩
  | taken _ _ _ => exact ⟨[], .nil fs⟩
  | new _ hn => exact ⟨_, .new (lookup_eq_none_iff_notMem.2 hn) _⟩

theorem CallOutcome.eq_of_not_isOk {r : Except Failure Graph} (h : CallOutcome d fs r fs')
    (hr : r.isOk = false) : fs' = fs := by
  cases h with
  | detached _ => rfl
  | known _ _ _ => rfl
  | taken _ _ _ => rfl
  | new _ _ => cases hr

/-- The definition of a data source is behind the others if its name is new. -/
theorem CallOutcome.entries {r : Except Failure Graph} (h : CallOutcome d fs r fs') :
    fs'.entries = fs.entries ++
      (Call.registered? ⟨d, fs, r, fs'⟩).toList.filter fun e => e.1 ∉ fs.keys := by
  cases h with
  | detached hd => simp [Call.registered?, hd]
  | known hd hk hs =>
    have hm : d.name ∈ fs.keys := OrderedMap.mem_keys_iff.2 ⟨_, hk⟩
    simp [Call.registered?, hd, hm]
  | taken hd hk hs => simp [Call.registered?, Except.isOk, Except.toBool]
  | new hd hn =>
    rw [OrderedMap.entries_insert_of_notMem hn]
    simp [Call.registered?, hd, hn, Except.isOk, Except.toBool]

theorem outcome_call (fs : Functions) (d : DataSource) :
    CallOutcome d fs (call fs d).result (call fs d).after :=
  outcome_of_run rfl

end Runs

section Calls

variable {fs : Functions} {ds : List DataSource} {c : Call}

theorem mem_calls (h : c ∈ calls fs ds) :
    c = call c.before c.dataSource ∧ c.dataSource ∈ ds ∧ ∃ es, Embeds fs es c.before := by
  induction ds generalizing fs with
  | nil => cases h
  | cons d ds ih =>
    rcases List.mem_cons.1 h with rfl | h
    · exact ⟨rfl, List.mem_cons_self, [], .nil fs⟩
    · obtain ⟨hc, hd, es, hes⟩ := ih h
      obtain ⟨es', hes'⟩ := (outcome_call fs d).embeds
      exact ⟨hc, List.mem_cons_of_mem _ hd, _, hes'.trans hes⟩

theorem pairwise_calls (fs : Functions) (ds : List DataSource) :
    (calls fs ds).Pairwise fun c c' => c.dataSource = c'.dataSource →
      c'.result = c.result ∧ c'.after = c'.before := by
  induction ds generalizing fs with
  | nil => exact .nil
  | cons d ds ih =>
    refine List.pairwise_cons.2 ⟨?_, ih _⟩
    intro c hc hd
    obtain ⟨he, -, es, hes⟩ := mem_calls hc
    have hagain : (dataSource d).run c.before = ((call fs d).result, c.before) := run_again rfl hes
    rw [he, ← hd]
    exact Prod.mk.inj hagain

/-- The first definitions of names that are new, where one more definition was embedded. -/
theorem filter_firsts_cons {fs mid : Functions} (e : String × Json) (es : Definitions)
    (hm : mid.entries = fs.entries ++ [e].filter fun e => e.1 ∉ fs.keys) :
    (firsts (e :: es)).filter (fun e => e.1 ∉ fs.keys) =
      [e].filter (fun e => e.1 ∉ fs.keys) ++ (firsts es).filter fun e => e.1 ∉ mid.keys := by
  have hkeys (name : String) : name ∈ mid.keys ↔ name ∈ fs.keys ∨ name = e.1 := by
    rw [OrderedMap.keys, hm, List.map_append, List.mem_append]
    change name ∈ fs.keys ∨ _ ↔ _
    by_cases he : e.1 ∈ fs.keys
    · simp only [List.filter_singleton, he, not_true, decide_false, cond_false, List.map_nil,
        List.not_mem_nil, or_false]
      exact ⟨.inl, fun h => h.elim id fun h => h ▸ he⟩
    · simp only [List.filter_singleton, he, not_false_eq_true, decide_true, cond_true,
        List.map_singleton, List.mem_singleton]
  rw [firsts, ← List.singleton_append, List.filter_append, List.filter_filter]
  congr 1
  apply List.filter_congr
  intro e' _
  simp only [hkeys, not_or, Bool.decide_and]

/-- The functions after some calls are those before, and the first definition of each new name. -/
theorem entries_functionsAfter (fs : Functions) (ds : List DataSource) :
    (functionsAfter fs ds).entries = fs.entries ++
      (firsts ((calls fs ds).filterMap Call.registered?)).filter fun e => e.1 ∉ fs.keys := by
  induction ds generalizing fs with
  | nil => exact (List.append_nil _).symm
  | cons d ds ih =>
    have he : (call fs d).after.entries =
        fs.entries ++ (call fs d).registered?.toList.filter fun e => e.1 ∉ fs.keys :=
      (outcome_call fs d).entries
    rw [calls, functionsAfter, ih]
    cases hr : (call fs d).registered? with
    | none =>
      rw [hr] at he
      have hafter : (call fs d).after = fs := OrderedMap.ext (he.trans (List.append_nil _))
      rw [List.filterMap_cons_none hr, hafter]
    | some e =>
      rw [hr] at he
      rw [List.filterMap_cons_some hr, filter_firsts_cons e _ he, he, List.append_assoc]
      rfl

theorem registered?_eq_some_iff {e : String × Json} : c.registered? = some e ↔
    c.result.isOk = true ∧ ∃ definition, c.dataSource.embedded? = some definition ∧
      (c.dataSource.name, definition) = e := by
  unfold Call.registered?
  split
  · next hr => simp only [hr, Option.map_eq_some_iff, true_and]
  · next hr => simp [hr]

/-- However data sources are compiled with one registry that is empty first: a call that fails
leaves the registry as it was, a call that is repeated has the result that it had and changes
nothing, and in the end the registry has the definitions of those that were compiled in the order of
the first calls, one for each name. Of an API each of them is under the name of its data source. -/
theorem registry_of_calls (ds : List DataSource) :
    (∀ c ∈ calls .empty ds, c.result.isOk = false → c.after = c.before) ∧
    (calls .empty ds).Pairwise (fun c c' => c.dataSource = c'.dataSource →
      c'.result = c.result ∧ c'.after = c'.before) ∧
    (functionsAfter .empty ds).entries = firsts ((calls .empty ds).filterMap Call.registered?) ∧
    ∀ api : Api, api.IsKeyed → (∀ d ∈ ds, d ∈ api.dataSources.values) →
      ∀ c ∈ calls .empty ds, c.result.isOk = true →
        ∀ definition, c.dataSource.embedded? = some definition →
          (functionsAfter .empty ds).get? c.dataSource.name = some definition := by
  have hentries : (functionsAfter .empty ds).entries =
      firsts ((calls .empty ds).filterMap Call.registered?) := by
    rw [entries_functionsAfter]
    exact List.filter_eq_self.2 fun _ _ => rfl
  refine ⟨?_, pairwise_calls _ _, hentries, ?_⟩
  · intro c hc hr
    rw [(mem_calls hc).1] at hr ⊢
    exact (outcome_call _ _).eq_of_not_isOk hr
  · intro api hkeyed hds c hc hr definition hd
    have hm : (c.dataSource.name, definition) ∈ (calls .empty ds).filterMap Call.registered? :=
      List.mem_filterMap.2 ⟨c, hc, registered?_eq_some_iff.2 ⟨hr, definition, hd, rfl⟩⟩
    obtain ⟨e, he, hname⟩ := exists_mem_firsts hm
    obtain ⟨c', hc', hregistered⟩ := List.mem_filterMap.1 (mem_of_mem_firsts he)
    obtain ⟨-, definition', hd', rfl⟩ := registered?_eq_some_iff.1 hregistered
    -- a name of an API stands for one data source, so that the first definition is the same
    have hsame : c'.dataSource = c.dataSource := hkeyed.eq_of_name_eq
      (hds _ (mem_calls hc').2.1) (hds _ (mem_calls hc).2.1) hname
    rw [hsame, hd] at hd'
    cases hd'
    rw [hsame, ← hentries] at he
    exact lookup_of_mem (functionsAfter .empty ds).nodup he

example : (functionsAfter .empty (⟨"search", none, .openSearch ⟨none, none, none, .none⟩⟩ ::
    ["users", "mails", "users"].map fun name =>
      ⟨name, none, .lambda ⟨⟨none, none, none, some (.obj [])⟩, .none⟩⟩)).entries =
    [("users", .obj []), ("mails", .obj [])] := rfl

end Calls

end Compile

end ApiStack
