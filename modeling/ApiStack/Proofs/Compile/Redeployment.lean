import ApiStack.Proofs.Compile.Parts
import ApiStack.Proofs.Time.Hour

namespace ApiStack

open Config

/-- The value with null for the entry under a key. -/
def Json.blank (key : String) : Json → Json
  | .obj entries => .obj (entries.map fun e => if e.1 = key then (key, .null) else e)
  | j => j

/-- The resource, without the time at which it expires if it is a key. -/
def Resource.withoutExpiry (r : Resource) : Resource :=
  if r.type = "AWS::AppSync::ApiKey" then { r with properties := r.properties.blank "Expires" }
  else r

/-- The resources without the times at which keys expire. -/
def Graph.withoutExpiry (g : Graph) : Graph := ⟨g.entries.map fun e => (e.1, e.2.withoutExpiry)⟩

namespace Compile

/-- Two parts that are run after the same functions were embedded: if both give a result, the same
functions are embedded afterwards, and the results are related. -/
def Alike (R : α → α → Prop) (b b' : Build α) : Prop :=
  ∀ fs mid mid' a a', b.run fs = (.ok a, mid) → b'.run fs = (.ok a', mid') → mid = mid' ∧ R a a'

namespace Alike

variable {R : α → α → Prop}

theorem refl (hr : ∀ a, R a a) (b : Build α) : Alike R b b := by
  intro fs mid mid' a a' h h'
  cases h.symm.trans h'
  exact ⟨rfl, hr a⟩

theorem lift {r r' : Except Failure α} (h : ∀ a a', r = .ok a → r' = .ok a' → R a a') :
    Alike R (liftM r) (liftM r') := by
  intro fs mid mid' a a' hr hr'
  obtain ⟨ha, rfl⟩ := Prod.mk.inj (hr : (r, fs) = (.ok a, mid))
  obtain ⟨ha', rfl⟩ := Prod.mk.inj (hr' : (r', fs) = (.ok a', mid'))
  exact ⟨rfl, h a a' ha ha'⟩

/-- Parts that are alike one by one are alike when they are run one after another. -/
theorem mapM {l l' : List (Build α)} (h : List.Forall₂ (Alike R) l l') :
    Alike (List.Forall₂ R) (l.mapM id) (l'.mapM id) := by
  induction h with
  | nil =>
    intro fs mid mid' as as' hr hr'
    cases hr
    cases hr'
    exact ⟨rfl, .nil⟩
  | cons hb _ ih =>
    intro fs mid mid' as as' hr hr'
    rw [List.mapM_cons] at hr hr'
    obtain ⟨a, first, ha, hr⟩ := run_bind_eq_ok_iff.1 hr
    obtain ⟨a', first', ha', hr'⟩ := run_bind_eq_ok_iff.1 hr'
    obtain ⟨rfl, haa⟩ := hb _ _ _ _ _ ha ha'
    obtain ⟨rest, last, hrest, he⟩ := run_bind_eq_ok_iff.1 hr
    obtain ⟨rest', last', hrest', he'⟩ := run_bind_eq_ok_iff.1 hr'
    obtain ⟨rfl, hss⟩ := ih _ _ _ _ _ hrest hrest'
    cases he
    cases he'
    exact ⟨rfl, .cons haa hss⟩

end Alike

variable {files : FileSystem} {servicePath : Path} {logRetention : Option Nat} {now now' : Instant}
  {api : Api} {s s' : Stack}

theorem parts_alike {R : Graph → Graph → Prop} (hrefl : ∀ g, R g g)
    (hkey : ∀ key ∈ api.apiKeys.values, ∀ g g',
      apiKey ⟨files, servicePath, logRetention, now⟩ key = .ok g →
      apiKey ⟨files, servicePath, logRetention, now'⟩ key = .ok g' → R g g') :
    List.Forall₂ (Alike R) (parts ⟨files, servicePath, logRetention, now⟩ api)
      (parts ⟨files, servicePath, logRetention, now'⟩ api) := by
  have hsame (l : List (Build Graph)) : List.Forall₂ (Alike R) l l :=
    List.forall₂_same.2 fun p _ => .refl hrefl p
  unfold parts
  refine List.rel_append (List.rel_append (List.rel_append (List.rel_append (hsame _) ?_)
    (hsame _)) (hsame _)) (hsame _)
  split
  · rw [List.forall₂_map_left_iff, List.forall₂_map_right_iff, List.forall₂_same]
    exact fun key hk => .lift (hkey key hk)
  · exact .nil

theorem graphs_of_stacks {R : Graph → Graph → Prop}
    (hp : List.Forall₂ (Alike R) (parts ⟨files, servicePath, logRetention, now⟩ api)
      (parts ⟨files, servicePath, logRetention, now'⟩ api))
    (h : stack ⟨files, servicePath, logRetention, now⟩ api = .ok s)
    (h' : stack ⟨files, servicePath, logRetention, now'⟩ api = .ok s') :
    s.functions = s'.functions ∧ ∃ graphs graphs', List.Forall₂ R graphs graphs' ∧
      s.resources.entries = graphs.flatMap Graph.entries ∧
      s'.resources.entries = graphs'.flatMap Graph.entries := by
  obtain ⟨graphs, hr, -, he⟩ := entries_of_stack h
  obtain ⟨graphs', hr', -, he'⟩ := entries_of_stack h'
  obtain ⟨hfunctions, hg⟩ := Alike.mapM hp _ _ _ _ _ hr hr'
  exact ⟨hfunctions, graphs, graphs', hg, he, he'⟩

theorem entries_withoutExpiry_of_forall₂ {graphs graphs' : List Graph}
    (h : List.Forall₂ (fun g g' => g.withoutExpiry = g'.withoutExpiry) graphs graphs') :
    (Graph.mk (graphs.flatMap Graph.entries)).withoutExpiry =
      (Graph.mk (graphs'.flatMap Graph.entries)).withoutExpiry := by
  induction h with
  | nil => rfl
  | cons hg _ ih =>
    simp only [Graph.withoutExpiry, Graph.mk.injEq, List.flatMap_cons, List.map_append] at hg ih ⊢
    rw [hg, ih]

theorem withoutExpiry_apiKey {context context' : Context} {key : ApiKey} {g g' : Graph}
    (h : apiKey context key = .ok g) (h' : apiKey context' key = .ok g') :
    g.withoutExpiry = g'.withoutExpiry := by
  obtain ⟨expiry, -, h⟩ := bind_eq_ok_iff.1 h
  obtain ⟨expiry', -, h'⟩ := bind_eq_ok_iff.1 h'
  cases h
  cases h'
  cases hid : key.id <;> rfl

/-- A key that can be made at two points of an hour expires at the same time. -/
theorem apiKey_eq_of_startOfHour {key : ApiKey} {g g' : Graph}
    (hs : now.startOfHour = now'.startOfHour)
    (h : apiKey ⟨files, servicePath, logRetention, now⟩ key = .ok g)
    (h' : apiKey ⟨files, servicePath, logRetention, now'⟩ key = .ok g') : g = g' := by
  have hasked : ∀ {t : Instant} {expiry : Instant}, Expiry.of key t = .ok expiry →
      Expiry.asked key t = .ok expiry := by
    intro t expiry ht
    obtain ⟨asked, ha, ht⟩ := bind_eq_ok_iff.1 ht
    split at ht
    · cases ht
    · cases ht
      exact ha
  obtain ⟨expiry, he, h⟩ := bind_eq_ok_iff.1 h
  obtain ⟨expiry', he', h'⟩ := bind_eq_ok_iff.1 h'
  have hsame : Expiry.asked key now = Expiry.asked key now' := by
    unfold Expiry.asked
    rw [hs]
  have hexpiry : expiry = expiry' :=
    Except.ok.inj ((hasked he).symm.trans (hsame.trans (hasked he')))
  cases h
  cases h'
  rw [hexpiry]

/-- Stacks of one API that are made at two times embed the same functions and differ at most in when
keys expire. If the times lie in one hour and not within a leap second, the stacks are the same. -/
theorem stack_of_times
    (h : stack ⟨files, servicePath, logRetention, now⟩ api = .ok s)
    (h' : stack ⟨files, servicePath, logRetention, now'⟩ api = .ok s') :
    (s.functions = s'.functions ∧ s.resources.withoutExpiry = s'.resources.withoutExpiry) ∧
    (now.InYears 1678 2261 → now'.InYears 1678 2261 → now.inLeapSecond = false →
      now'.inLeapSecond = false → now.hour = now'.hour → s = s') := by
  constructor
  · obtain ⟨hfunctions, graphs, graphs', hg, he, he'⟩ := graphs_of_stacks (parts_alike
      (R := fun g g' => g.withoutExpiry = g'.withoutExpiry) (fun _ => rfl)
      fun _ _ _ _ hk hk' => withoutExpiry_apiKey hk hk') h h'
    have hentries := entries_withoutExpiry_of_forall₂ hg
    rw [← he, ← he'] at hentries
    exact ⟨hfunctions, hentries⟩
  · intro hy hy' hl hl' hh
    have hstart := Instant.startOfHour_eq_of_hour hy hy' hl hl' hh
    obtain ⟨hfunctions, graphs, graphs', hg, he, he'⟩ := graphs_of_stacks
      (parts_alike (fun _ => rfl) fun _ _ _ _ hk hk' => apiKey_eq_of_startOfHour hstart hk hk') h h'
    rw [List.forall₂_eq_eq_eq] at hg
    obtain ⟨⟨entries⟩, functions⟩ := s
    obtain ⟨⟨entries'⟩, functions'⟩ := s'
    simp only at hfunctions he he'
    rw [hfunctions, he, he', hg]

def Stack.expires? (s : Stack) (id : String) : Option Json :=
  (s.resources.get? id).bind fun r => r.property? "Expires"

/-- A key expires when it was granted to. -/
theorem expires_of_stack {context : Context} {key : ApiKey} (h : stack context api = .ok s)
    (ha : api.hasAuth .apiKey = true) (hk : key ∈ api.apiKeys.values) :
    ∃ expiry, Expiry.of key context.now = .ok expiry ∧
      s.expires? (LogicalId.apiKey key.name) = some (.int expiry.nearestSecond) := by
  have hp : (liftM (apiKey context key) : Build Graph) ∈ parts context api := by
    simp only [parts, if_pos ha, List.mem_append, List.mem_map]
    exact .inl (.inl (.inl (.inr ⟨key, hk, rfl⟩)))
  obtain ⟨g, hg, hentries⟩ := exists_graph_of_part h hp (.lift_eq _)
  obtain ⟨expiry, he, hg⟩ := bind_eq_ok_iff.1 hg
  cases hg
  refine ⟨expiry, he, ?_⟩
  rw [Stack.expires?, get?_of_stack h (hentries _ (List.mem_singleton_self _))]
  rfl

def keyedApi : Api :=
  { apiWith [] [] [] with apiKeys := .ofList [("Default", .named "Default")] }

def lateEvening : Instant := ⟨1483227000, 0⟩

/-- The last second of the year 2016 but for the leap second behind it. -/
def lastSecond : Instant := ⟨1483228799, 0⟩

/-- The middle of the leap second at the end of the year 2016. -/
def leapSecond : Instant := ⟨1483228799, 1500000000⟩

/-- A compilation at some time where every path holds the same text. -/
def Context.uniformAt (text : String) (now : Instant) : Context :=
  ⟨.uniform text, ⟨""⟩, none, now⟩

theorem exists_stack_keyedApi {now : Instant} {seconds : Int}
    (hids : queryIdsIn? (.uniformAt querySchema now) keyedApi =
      some ["GraphQlApi", "GraphQlSchema", "GraphQlApiDefault"])
    (he : (Expiry.of (.named "Default") now).map Instant.nearestSecond = .ok seconds) :
    ∃ s, stack (.uniformAt querySchema now) keyedApi = .ok s ∧
      s.expires? "GraphQlApiDefault" = some (.int seconds) := by
  have hschema : schema (.uniformAt querySchema now) keyedApi = .ok queryGraph := schema_query rfl
  obtain ⟨s, hs⟩ := exists_stack_of_schema hschema hids (by decide)
  have hk : ApiKey.named "Default" ∈ keyedApi.apiKeys.values := List.mem_singleton_self _
  obtain ⟨expiry, he', hexpires⟩ := expires_of_stack hs rfl hk
  obtain ⟨expiry', hof, rfl⟩ := map_eq_ok_iff.1 he
  cases hof.symm.trans he'
  have hid : LogicalId.apiKey "Default" = "GraphQlApiDefault" := by decide
  exact ⟨s, hs, hid ▸ hexpires⟩

theorem exists_stack_lateEvening :
    ∃ s, stack (.uniformAt querySchema lateEvening) keyedApi = .ok s ∧
      s.expires? "GraphQlApiDefault" = some (.int 1514761200) :=
  exists_stack_keyedApi (by decide +kernel) (by decide +kernel)

theorem exists_stack_lastSecond :
    ∃ s, stack (.uniformAt querySchema lastSecond) keyedApi = .ok s ∧
      s.expires? "GraphQlApiDefault" = some (.int 1514761200) :=
  exists_stack_keyedApi (by decide +kernel) (by decide +kernel)

theorem exists_stack_leapSecond :
    ∃ s, stack (.uniformAt querySchema leapSecond) keyedApi = .ok s ∧
      s.expires? "GraphQlApiDefault" = some (.int 1514764799) :=
  exists_stack_keyedApi (by decide +kernel) (by decide +kernel)

theorem stack_same_in_lastSecond : lateEvening.hour = lastSecond.hour ∧
    ∃ s, stack (.uniformAt querySchema lateEvening) keyedApi = .ok s ∧
      stack (.uniformAt querySchema lastSecond) keyedApi = .ok s := by
  obtain ⟨s, hs, -⟩ := exists_stack_lateEvening
  obtain ⟨s', hs', -⟩ := exists_stack_lastSecond
  obtain ⟨-, hsame⟩ := stack_of_times hs hs'
  have hyears : lateEvening.InYears 1678 2261 ∧ lastSecond.InYears 1678 2261 := by decide
  have hhour : lateEvening.hour = lastSecond.hour := by decide
  cases hsame hyears.1 hyears.2 rfl rfl hhour
  exact ⟨hhour, s, hs, hs'⟩

/-- Two stacks of one API that are made within one hour, and are different. -/
theorem stack_differs_in_leapSecond : lateEvening.hour = leapSecond.hour ∧
    lateEvening.InYears 1678 2261 ∧ leapSecond.InYears 1678 2261 ∧
    ∃ s s', stack (.uniformAt querySchema lateEvening) keyedApi = .ok s ∧
      stack (.uniformAt querySchema leapSecond) keyedApi = .ok s' ∧
      s.expires? "GraphQlApiDefault" = some (.int 1514761200) ∧
      s'.expires? "GraphQlApiDefault" = some (.int 1514764799) ∧ s ≠ s' := by
  obtain ⟨s, hs, he⟩ := exists_stack_lateEvening
  obtain ⟨s', hs', he'⟩ := exists_stack_leapSecond
  have hyears : lateEvening.InYears 1678 2261 ∧ leapSecond.InYears 1678 2261 := by decide
  refine ⟨by decide, hyears.1, hyears.2, s, s', hs, hs', he, he', ?_⟩
  rintro rfl
  rw [he] at he'
  have hseconds := Option.some.inj he'
  simp [Json.int] at hseconds

end Compile

end ApiStack
