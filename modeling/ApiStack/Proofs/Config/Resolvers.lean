import ApiStack.Proofs.Config.Lifting
import Mathlib.Data.List.Dedup

namespace ApiStack

namespace OrderedMap

theorem mem_keys_ofList {entries : List (String × α)} {key : String} :
    key ∈ (ofList entries).keys ↔ key ∈ entries.map Prod.fst := by
  rw [mem_keys_iff, ofList, get?_insertAll]
  have he : (empty : OrderedMap α).get? key = none := rfl
  rw [he, Option.or_none, ← mem_fst_iff_lookup, List.map_reverse, List.mem_reverse]

/-- A map has as many entries as were set if their keys are different, and only then. -/
theorem length_ofList_iff (entries : List (String × α)) :
    (ofList entries).entries.length = entries.length ↔ (entries.map Prod.fst).Nodup := by
  have hp : (ofList entries).keys.Perm (entries.map Prod.fst).dedup := by
    refine (List.perm_ext_iff_of_nodup (ofList entries).nodup (List.nodup_dedup _)).2 ?_
    intro key
    rw [List.mem_dedup]
    exact mem_keys_ofList
  have hl : (ofList entries).entries.length = (entries.map Prod.fst).dedup.length := by
    rw [← hp.length_eq, keys, List.length_map]
  have hs := (List.dedup_sublist (entries.map Prod.fst)).length_eq
  rw [List.dedup_eq_self, List.length_map] at hs
  rw [hl]
  exact hs

end OrderedMap

namespace Config

def AuthoredResolver.path? (key : String) (r : AuthoredResolver) : Option String :=
  (Entities.fieldOf? key r).map fun (type, field) => fieldPath type field

theorem AuthoredResolver.path?_of_toResolver? {key : String} {r : AuthoredResolver}
    {x : Resolver} (h : r.toResolver? key = some x) : r.path? key = some x.path := by
  obtain ⟨⟨type, field⟩, hf, h⟩ := Option.bind_eq_some_iff.1 h
  obtain ⟨kind, -, h⟩ := Option.bind_eq_some_iff.1 h
  cases h
  rw [AuthoredResolver.path?, hf]
  rfl

variable {declared : List (String × AuthoredResolver)} {rs : List Resolver}

theorem map_path_of_toResolver?
    (h : List.Forall₂ (fun e x => e.2.toResolver? e.1 = some x) declared rs) :
    declared.map (fun e => e.2.path? e.1) = (rs.map Resolver.path).map some := by
  induction h with
  | nil => rfl
  | cons hx _ ih =>
    simp only [List.map_cons, ih, AuthoredResolver.path?_of_toResolver? hx]

theorem lookup_path_of_toResolver?
    (h : List.Forall₂ (fun e x => e.2.toResolver? e.1 = some x) declared rs) (path : String) :
    (rs.map fun x => (x.path, x)).lookup path =
      (declared.find? fun e => e.2.path? e.1 = some path).bind fun e => e.2.toResolver? e.1 := by
  induction h with
  | nil => rfl
  | @cons e x _ _ hx _ ih =>
    have hp := AuthoredResolver.path?_of_toResolver? hx
    rw [List.map_cons, List.lookup_cons, List.find?_cons, hp]
    by_cases hk : path = x.path
    · subst hk
      simp [hx]
    · have hk' : some x.path ≠ some path := fun he => hk (Option.some.inj he).symm
      rw [beq_false_of_ne hk, decide_eq_false hk']
      exact ih

namespace Authored

/-- The last resolver that is declared for the field of a path, in full. -/
def lastResolver? (c : Authored) (path : String) : Option Resolver :=
  (c.declaredResolvers.reverse.find? fun e => e.2.path? e.1 = some path).bind
    fun e => e.2.toResolver? e.1

/-- Under the path of a field there is the last resolver that is declared for it. None is missing if
all are for different fields, and only then. -/
theorem resolvers_of_normalize {c : Authored} {api : Api} (h : c.normalize = .ok api) :
    (∀ path, api.resolvers.get? path = c.lastResolver? path) ∧
    (api.resolvers.entries.length = c.resolvers.merged.entries.length ↔
      (c.declaredResolvers.map fun e => e.2.path? e.1).Nodup) ∧
    ((c.declaredResolvers.map fun e => e.2.path? e.1).Nodup →
      ∀ e ∈ c.declaredResolvers, ∃ x, e.2.toResolver? e.1 = some x ∧
        e.2.path? e.1 = some x.path ∧ api.resolvers.get? x.path = some x) := by
  obtain ⟨es, hes, he⟩ := bind_eq_ok_iff.1 h
  obtain ⟨rs, hrs, g⟩ := grows_entities hes
  cases he
  have ho : es.resolvers = .ofList (rs.map fun x => (x.path, x)) := g.resolvers
  have hkeys : (rs.map fun x => (x.path, x)).map Prod.fst = rs.map Resolver.path := by
    rw [List.map_map]
    rfl
  have hlength : c.resolvers.merged.entries.length = (rs.map fun x => (x.path, x)).length := by
    rw [List.length_map, ← hrs.length_eq, declaredResolvers, List.length_map]
  have hnodup : (c.declaredResolvers.map fun e => e.2.path? e.1).Nodup ↔
      (rs.map Resolver.path).Nodup := by
    rw [map_path_of_toResolver? hrs]
    exact List.nodup_map_iff fun _ _ => Option.some.inj
  refine ⟨?_, ?_, ?_⟩
  · intro path
    show es.resolvers.get? path = _
    rw [ho, OrderedMap.ofList, OrderedMap.get?_insertAll, ← List.map_reverse,
      lookup_path_of_toResolver? (List.rel_reverse hrs)]
    exact Option.or_none
  · show es.resolvers.entries.length = _ ↔ _
    rw [hlength, ho, hnodup, ← hkeys]
    exact OrderedMap.length_ofList_iff _
  · intro hn e hm
    obtain ⟨x, hx, hr⟩ := exists_of_mem_left hrs hm
    refine ⟨x, hr, AuthoredResolver.path?_of_toResolver? hr, ?_⟩
    show es.resolvers.get? x.path = some x
    have hn' : ((rs.map fun x => (x.path, x)).map Prod.fst).Nodup := hkeys ▸ hnodup.1 hn
    rw [ho, OrderedMap.get?, OrderedMap.entries_ofList hn']
    exact lookup_of_mem hn' (List.mem_map.2 ⟨x, hx, rfl⟩)

/-- No resolver of a configuration with different fields is missing. -/
theorem resolvers_nested : ∃ api, nested.normalize = .ok api ∧
    api.resolvers.entries.length = nested.resolvers.merged.entries.length ∧
    ∀ e ∈ nested.declaredResolvers, ∃ x, e.2.toResolver? e.1 = some x ∧
      e.2.path? e.1 = some x.path ∧ api.resolvers.get? x.path = some x := by
  obtain ⟨api, h⟩ := exists_of_isOk isOk_nested
  obtain ⟨-, hl, hs⟩ := resolvers_of_normalize h
  have hn : (nested.declaredResolvers.map fun e => e.2.path? e.1).Nodup := by decide +kernel
  exact ⟨api, h, hl.2 hn, hs hn⟩

/-- A configuration with a resolver whose key names its field, and another one that names the same
field itself. -/
def overlapping : Authored :=
  { nested with
    dataSources := .whole (.ofList [("users", nested.nowhere), ("teams", nested.nowhere)])
    pipelineFunctions := .whole .empty
    resolvers := .whole (.ofList [
      ("Query.a", .dataSource "users"),
      ("again", .settings { AuthoredResolver.plain "teams" with
        type := some "Query", field := some "a" })]) }

/-- Two resolvers are declared, and one is left: the first one gives way to the second. -/
theorem resolvers_overlapping :
    overlapping.resolvers.merged.keys = ["Query.a", "again"] ∧
    ∃ api, overlapping.normalize = .ok api ∧
      api.resolvers.entries.map (fun e => (e.1, e.2.kind)) = [("Query.a", .unit "teams")] := by
  have h : (overlapping.normalize.map fun api =>
      api.resolvers.entries.map fun e => (e.1, e.2.kind)) =
        .ok [("Query.a", .unit "teams")] := by
    decide +kernel
  exact ⟨by decide +kernel, map_eq_ok_iff.1 h⟩

end Authored

end Config

end ApiStack
