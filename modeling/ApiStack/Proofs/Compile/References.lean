import ApiStack.Compile.Functions
import ApiStack.Proofs.Compile.Build
import ApiStack.Proofs.Config.Supply
import ApiStack.Proofs.Json.EveryEntry
import ApiStack.Resource.Policy

namespace ApiStack

open Config

/-- What there is to refer to: resources and search domains by their logical ids, and functions by
their names. -/
structure Targets where
  resource : String → Prop
  domain : String → Prop
  function : String → Prop

/-- Targets of which nothing is asked. -/
def Targets.any : Targets := ⟨fun _ => True, fun _ => True, fun _ => True⟩

/-- An entry that is a reference refers to something that there is. -/
structure Targets.Resolves (t : Targets) (key : String) (value : Json) : Prop where
  ref {x : String} : key = "Ref" → value = .str x →
    x = Intrinsic.regionName ∨ x = Intrinsic.accountName ∨ t.resource x
  getAtt {x attributeName : Json} : key = "Fn::GetAtt" → value = .arr [x, attributeName] →
    ∃ id, x = .str id ∧
      (t.resource id ∨ t.domain id ∨ ∃ name, id = LogicalId.function name ∧ t.function name)

/-- A value without references. -/
def Json.IsPlain (j : Json) : Prop := j.EveryEntry fun key _ => key ≠ "Ref" ∧ key ≠ "Fn::GetAtt"

/-- All references in a resource resolve. -/
structure Resource.Resolved (t : Targets) (r : Resource) : Prop where
  properties : r.properties.EveryEntry t.Resolves
  dependsOn : ∀ id ∈ r.dependsOn, t.resource id

def Graph.Resolved (t : Targets) (g : Graph) : Prop := ∀ e ∈ g.entries, e.2.Resolved t

/-- What is supplied has no references but to what there is. -/
def Targets.Accepts (t : Targets) : Supply → Prop
  | .value j => j.EveryEntry t.Resolves
  | .function name => t.function name
  | .domain id => t.domain id

/-- All that is supplied is accepted. -/
def Targets.Covers (t : Targets) (supplies : List Supply) : Prop := ∀ x ∈ supplies, t.Accepts x

namespace Targets

variable {t : Targets}

@[simp]
theorem resolves_of_ne {key : String} (hr : key ≠ "Ref") (hg : key ≠ "Fn::GetAtt")
    (value : Json) : t.Resolves key value :=
  ⟨fun h => absurd h hr, fun h => absurd h hg⟩

@[simp]
theorem resolves_obj (key : String) (entries : List (String × Json)) :
    t.Resolves key (.obj entries) := by
  constructor <;> intros <;> contradiction

theorem resolves_prune {key : String} {value : Json} (h : t.Resolves key value) :
    t.Resolves key value.prune := by
  constructor
  · intro x hk hv
    cases value with
    | str s =>
      cases hv
      exact h.ref hk rfl
    | _ => cases hv
  · intro x attributeName hk hv
    cases value with
    | arr items =>
      rcases items with _ | ⟨y, _ | ⟨a, _ | _⟩⟩ <;> cases hv
      obtain ⟨id, rfl, hid⟩ := h.getAtt hk rfl
      exact ⟨id, rfl, hid⟩
    | _ => cases hv

theorem holds_of_isPlain {j : Json} (h : j.IsPlain) : j.EveryEntry t.Resolves :=
  Json.EveryEntry.mono (fun _ value hk => resolves_of_ne hk.1 hk.2 value) h

theorem holds_getAtt {id : String} (h : t.resource id ∨ t.domain id ∨
      ∃ name, id = LogicalId.function name ∧ t.function name) (attributeName : String) :
    (Intrinsic.getAtt id attributeName).EveryEntry t.Resolves := by
  rw [Intrinsic.getAtt, Json.everyEntry_obj, Json.everyEntryOf_cons]
  refine ⟨⟨⟨fun hk => ?_, fun {x a} _ hv => ?_⟩, Json.everyEntry_strs _⟩, trivial⟩
  · exact absurd hk (by decide)
  · cases hv
    exact ⟨id, rfl, h⟩

theorem holds_ref {name : String} (h : name = Intrinsic.regionName ∨
      name = Intrinsic.accountName ∨ t.resource name) :
    (Intrinsic.ref name).EveryEntry t.Resolves := by
  rw [Intrinsic.ref, Json.everyEntry_obj, Json.everyEntryOf_cons]
  refine ⟨⟨⟨fun {x} _ hv => ?_, fun hk => ?_⟩, trivial⟩, trivial⟩
  · cases hv
    exact h
  · exact absurd hk (by decide)

theorem holds_join (separator : String) {parts : List Json}
    (h : Json.EveryEntryIn t.Resolves parts) :
    (Intrinsic.join separator parts).EveryEntry t.Resolves := by
  simp [Intrinsic.join, h]

theorem holds_regionOr {region : Option Json}
    (h : ∀ v, region = some v → v.EveryEntry t.Resolves) :
    (Intrinsic.regionOr region).EveryEntry t.Resolves :=
  Json.everyEntry_getD h (holds_ref (.inl rfl))

theorem holds_arn (service : String) {region : Json} {rest : List Json}
    (hr : region.EveryEntry t.Resolves) (h : Json.EveryEntryIn t.Resolves rest) :
    (Intrinsic.arn service region rest).EveryEntry t.Resolves := by
  apply holds_join
  simp [hr, h, holds_ref (t := t) (.inr (.inl rfl) : Intrinsic.accountName = _ ∨ _)]

theorem holds_namedFunction {name : String} (h : t.function name) (aliasName : Option String) :
    (Compile.namedFunction name aliasName).EveryEntry t.Resolves := by
  have hf := holds_getAtt (t := t) (.inr (.inr ⟨name, rfl, h⟩)) "Arn"
  cases aliasName with
  | none => exact hf
  | some a =>
    apply holds_join
    simp [hf]

theorem covers_nil : t.Covers [] := by
  intro x hx
  cases hx

@[simp]
theorem covers_cons {x : Supply} {supplies : List Supply} :
    t.Covers (x :: supplies) ↔ t.Accepts x ∧ t.Covers supplies :=
  List.forall_mem_cons

@[simp]
theorem covers_append {xs ys : List Supply} :
    t.Covers (xs ++ ys) ↔ t.Covers xs ∧ t.Covers ys :=
  List.forall_mem_append

theorem covers_flatMap {α : Type} {l : List α} {f : α → List Supply} :
    t.Covers (l.flatMap f) ↔ ∀ a ∈ l, t.Covers (f a) := by
  simp only [Covers, List.mem_flatMap]
  constructor
  · intro h a ha x hx
    exact h x ⟨a, ha, hx⟩
  · rintro h x ⟨a, ha, hx⟩
    exact h a ha x hx

@[simp]
theorem covers_optional {j : Option Json} :
    t.Covers (Supply.optional j) ↔ ∀ v, j = some v → v.EveryEntry t.Resolves := by
  cases j with
  | none => simp [Supply.optional, covers_nil]
  | some v => simp [Supply.optional, covers_nil, Accepts]

@[simp]
theorem covers_map {m : OrderedMap Json} :
    t.Covers (Supply.map m) ↔ (Json.obj m.entries).EveryEntry t.Resolves := by
  simp [Supply.map, covers_nil, Accepts]

end Targets

/-- All that an API supplies is accepted. -/
structure Config.Api.Covered (t : Targets) (api : Api) : Prop where
  environment : (Json.obj api.environment.entries).EveryEntry t.Resolves
  substitutions : (Json.obj api.substitutions.entries).EveryEntry t.Resolves
  provider : ∀ p ∈ api.providers, t.Covers p.supplies
  domain : ∀ d ∈ api.domain, t.Covers d.supplies
  logging : ∀ l ∈ api.logging, t.Covers (Supply.optional l.roleArn)
  waf : ∀ w ∈ api.waf, t.Covers w.supplies
  apiKey : ∀ key ∈ api.apiKeys.values, ∀ rule ∈ key.wafRules, t.Covers rule.supplies
  dataSource : ∀ d ∈ api.dataSources.values, t.Covers d.supplies
  pipelineFunction : ∀ f ∈ api.pipelineFunctions.values, t.Covers f.supplies
  resolver : ∀ r ∈ api.resolvers.values, t.Covers r.supplies

theorem Config.Api.covered_iff {t : Targets} {api : Api} :
    api.Covered t ↔ t.Covers api.supplies := by
  simp only [Api.supplies, Targets.covers_append, Targets.covers_flatMap, Option.mem_toList,
    Targets.covers_map, and_assoc]
  constructor
  · rintro ⟨h₁, h₂, h₃, h₄, h₅, h₆, h₇, h₈, h₉, h₁₀⟩
    exact ⟨h₁, h₂, h₃, h₄, h₅, h₆, h₇, h₈, h₉, h₁₀⟩
  · rintro ⟨h₁, h₂, h₃, h₄, h₅, h₆, h₇, h₈, h₉, h₁₀⟩
    exact ⟨h₁, h₂, h₃, h₄, h₅, h₆, h₇, h₈, h₉, h₁₀⟩

namespace Resource

variable {t : Targets}

theorem resolved_make {type : String} {properties : Json}
    (h : properties.EveryEntry t.Resolves) : (make type properties).Resolved t where
  properties := Json.EveryEntry.prune (P := t.Resolves) (fun _ _ => Targets.resolves_prune) h
  dependsOn id hid := by cases hid

theorem Resolved.after {r : Resource} (h : r.Resolved t) {id : String} (hid : t.resource id) :
    (r.after id).Resolved t where
  properties := h.properties
  dependsOn x hx := by
    rcases List.mem_append.1 hx with hx | hx
    · exact h.dependsOn x hx
    · rw [List.mem_singleton.1 hx]
      exact hid

theorem Resolved.withDeletionPolicy {r : Resource} (h : r.Resolved t) (policy : String) :
    (r.withDeletionPolicy policy).Resolved t :=
  ⟨h.properties, h.dependsOn⟩

/-- A resource of some type shows a name. -/
structure IsNamed (r : Resource) (type name : String) : Prop where
  type_eq : r.type = type
  property?_name : r.property? "Name" = some (.str name)

theorem property?_make {type key : String} {entries : List (String × Json)} {v : Json}
    (h : entries.lookup key = some v) (hv : v.isNull = false) :
    (make type (.obj entries)).property? key = some v.prune := by
  simp only [make, property?, Json.prune, Json.get?]
  exact Json.lookup_pruneEntries h hv

end Resource

namespace Graph

variable {t : Targets}

theorem resolved_empty : empty.Resolved t := by
  intro e he
  cases he

theorem resolved_singleton {id : String} {r : Resource} (h : r.Resolved t) :
    (singleton id r).Resolved t := by
  intro e he
  cases List.mem_singleton.1 he
  exact h

end Graph

namespace Compile

variable {t : Targets}

theorem arn_of_target {source : FunctionSource} {value : Json}
    (h : source.target = .ok (.arn value)) : source.arn = some value := by
  unfold FunctionSource.target at h
  split at h <;> cases h
  assumption

theorem name_of_target {source : FunctionSource} {name : String} {aliasName : Option String}
    (h : source.target = .ok (.named name aliasName)) : source.name = some name := by
  unfold FunctionSource.target at h
  split at h <;> cases h
  assumption

/-- What a function is referred to by resolves once its name is known. -/
theorem functionArn_settles (source : FunctionSource) (name : String) :
    Settles t.function (functionArn source name) fun arn =>
      t.Covers source.supplies → arn.EveryEntry t.Resolves := by
  unfold functionArn
  apply (Settles.lift_eq _).bind
  intro target
  cases target with
  | arn value =>
    apply Settles.pure
    intro ht hc
    have hv := arn_of_target ht
    exact Targets.covers_optional.1 (Targets.covers_append.1 hc).1 value hv
  | named used aliasName =>
    apply Settles.pure
    intro ht hc
    have hm : Supply.function used ∈ source.supplies := by
      simp [FunctionSource.supplies, name_of_target ht]
    exact Targets.holds_namedFunction (hc _ hm) aliasName
  | embedded definition =>
    apply Settles.map (P := fun _ => t.function name) (.embed id)
    intro _ hn _ _
    exact Targets.holds_namedFunction hn none

end Compile

end ApiStack
