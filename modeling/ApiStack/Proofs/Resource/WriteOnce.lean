import ApiStack.Proofs.Resource.Graph
import Mathlib.Logic.Function.Basic

namespace ApiStack.Graph

/-- Something that is done to one of several graphs. -/
inductive Operation (ι : Type) where
  | insert (target : ι) (id : String) (r : Resource)
  | merge (target source : ι)

variable {ι : Type} [DecidableEq ι] {graphs graphs' : ι → Graph} {operation : Operation ι}
  {failure : Option Failure}

/-- The graphs after an operation, and what stopped it. The graph that is merged is copied, and a
merge that is stopped has moved the resources in front. -/
def Operation.apply (graphs : ι → Graph) : Operation ι → (ι → Graph) × Option Failure
  | .insert target id r =>
    match (graphs target).insert id r with
    | .ok g => (Function.update graphs target g, none)
    | .error failure => (graphs, some failure)
  | .merge target source =>
    match (graphs target).absorb (graphs source).entries with
    | (g, failure) => (Function.update graphs target g, failure)

/-- The graphs after operations one by one. One that fails does not stop the others. -/
def afterAll (graphs : ι → Graph) (operations : List (Operation ι)) : ι → Graph :=
  operations.foldl (fun graphs operation => (operation.apply graphs).1) graphs

/-- The graphs after operations that started without any resources. -/
def built (operations : List (Operation ι)) : ι → Graph := afterAll (fun _ => .empty) operations

/-- Whether an operation is carried out, and what it does to one of the graphs; the others are as
before. -/
inductive Effect (graphs : ι → Graph) : Operation ι → (ι → Graph) → Option Failure → Prop
  | inserted {target : ι} {id : String} {r : Resource} (h : id ∉ (graphs target).ids) :
      Effect graphs (.insert target id r)
        (Function.update graphs target ⟨(graphs target).entries ++ [(id, r)]⟩) none
  | refused {target : ι} {id : String} {r : Resource} (h : id ∈ (graphs target).ids) :
      Effect graphs (.insert target id r) graphs (some (.idCollision id))
  | merged {target source : ι} (h : ∀ id ∈ (graphs source).ids, id ∉ (graphs target).ids) :
      Effect graphs (.merge target source)
        (Function.update graphs target ⟨(graphs target).entries ++ (graphs source).entries⟩) none
  | stopped {target source : ι} {before behind : List (String × Resource)} {id : String}
      {r : Resource} (he : (graphs source).entries = before ++ (id, r) :: behind)
      (hb : ∀ e ∈ before, e.1 ∉ (graphs target).ids) (hid : id ∈ (graphs target).ids) :
      Effect graphs (.merge target source)
        (Function.update graphs target ⟨(graphs target).entries ++ before⟩)
        (some (.idCollision id))

theorem nodup_ids_append {g : Graph} {entries : List (String × Resource)} (hg : g.ids.Nodup)
    (hn : (entries.map Prod.fst).Nodup) (h : ∀ e ∈ entries, e.1 ∉ g.ids) :
    (g.ids ++ entries.map Prod.fst).Nodup := by
  refine List.nodup_append.2 ⟨hg, hn, ?_⟩
  rintro id hid _ hm rfl
  obtain ⟨e, he, rfl⟩ := List.mem_map.1 hm
  exact h e he hid

theorem apply_insert_of_notMem {target : ι} {id : String} (h : id ∉ (graphs target).ids)
    (r : Resource) : (Operation.insert target id r).apply graphs =
      (Function.update graphs target ⟨(graphs target).entries ++ [(id, r)]⟩, none) := by
  simp only [Operation.apply, insert_of_notMem h]

theorem apply_insert_of_mem {target : ι} {id : String} (h : id ∈ (graphs target).ids)
    (r : Resource) : (Operation.insert target id r).apply graphs =
      (graphs, some (.idCollision id)) := by
  simp only [Operation.apply, insert_of_mem h]

theorem Effect.apply (h : ∀ i, (graphs i).ids.Nodup)
    (he : Effect graphs operation graphs' failure) :
    operation.apply graphs = (graphs', failure) := by
  cases he with
  | inserted hid => exact apply_insert_of_notMem hid _
  | refused hid => exact apply_insert_of_mem hid _
  | @merged target source hnew =>
    have hn := nodup_ids_append (h target) (h source)
      fun e he => hnew e.1 (List.mem_map_of_mem he)
    simp only [Operation.apply, absorb_of_nodup hn]
  | @stopped target source before behind id r he hb hid =>
    have hsource := h source
    rw [ids, he, List.map_append] at hsource
    have hn := nodup_ids_append (h target) (List.nodup_append.1 hsource).1 hb
    simp only [Operation.apply, he, absorb_of_taken hn (List.mem_append_left _ hid)]

/-- A merge comes to its end or to the first id that is taken. -/
theorem exists_effect_merge (h : ∀ i, (graphs i).ids.Nodup) (target source : ι) :
    ∃ graphs' failure, Effect graphs (.merge target source) graphs' failure := by
  by_cases hnew : ∀ id ∈ (graphs source).ids, id ∉ (graphs target).ids
  · exact ⟨_, _, .merged hnew⟩
  · have hn : ¬((graphs target).ids ++ (graphs source).entries.map Prod.fst).Nodup := by
      intro hn
      exact hnew fun id hs ht => (List.nodup_append.1 hn).2.2 id ht id hs rfl
    obtain ⟨before, id, r, behind, he, hb, hid⟩ := exists_first_taken (h target) hn
    have hnotMem : id ∉ before.map Prod.fst := by
      have hsource := h source
      rw [ids, he, List.map_append, List.map_cons] at hsource
      exact notMem_of_nodup_append_cons hsource
    refine ⟨_, _, .stopped he ?_ ((List.mem_append.1 hid).resolve_right hnotMem)⟩
    intro e hmem ht
    exact (List.nodup_append.1 hb).2.2 e.1 ht e.1 (List.mem_map_of_mem hmem) rfl

theorem exists_effect (h : ∀ i, (graphs i).ids.Nodup) (operation : Operation ι) :
    ∃ graphs' failure, Effect graphs operation graphs' failure := by
  cases operation with
  | insert target id r =>
    by_cases hid : id ∈ (graphs target).ids
    · exact ⟨_, _, .refused hid⟩
    · exact ⟨_, _, .inserted hid⟩
  | merge target source => exact exists_effect_merge h target source

theorem apply_eq_iff (h : ∀ i, (graphs i).ids.Nodup) :
    operation.apply graphs = (graphs', failure) ↔ Effect graphs operation graphs' failure := by
  constructor
  · intro ha
    obtain ⟨graphs'', failure', he⟩ := exists_effect h operation
    cases ha.symm.trans (he.apply h)
    exact he
  · exact Effect.apply h

/-- A graph with resources of new ids behind its own. -/
inductive Grown (g : Graph) : Graph → Prop
  | mk {added : List (String × Resource)} (hn : (added.map Prod.fst).Nodup)
      (h : ∀ e ∈ added, e.1 ∉ g.ids) : Grown g ⟨g.entries ++ added⟩

theorem Grown.refl (g : Graph) : Grown g g := by
  have h : Grown g ⟨g.entries ++ []⟩ := .mk List.nodup_nil nofun
  rwa [List.append_nil] at h

theorem Grown.isPrefix {g g' : Graph} (h : Grown g g') : g.entries <+: g'.entries := by
  obtain ⟨-, -⟩ := h
  exact List.prefix_append _ _

theorem Grown.nodup {g g' : Graph} (h : Grown g g') (hg : g.ids.Nodup) : g'.ids.Nodup := by
  obtain ⟨hn, hnew⟩ := h
  rw [ids, List.map_append]
  exact nodup_ids_append hg hn hnew

/-- Where one graph has grown, each of them has grown or is as before. -/
theorem Grown.update {target : ι} {g : Graph} (h : Grown (graphs target) g) (i : ι) :
    Grown (graphs i) (Function.update graphs target g i) := by
  by_cases hi : i = target
  · subst hi
    rwa [Function.update_self]
  · rw [Function.update_of_ne hi]
    exact .refl _

/-- No operation takes resources away or puts them before others. -/
theorem Effect.grown (he : Effect graphs operation graphs' failure)
    (h : ∀ i, (graphs i).ids.Nodup) (i : ι) : Grown (graphs i) (graphs' i) := by
  cases he with
  | @inserted target id r hid =>
    have hn : ([(id, r)].map Prod.fst).Nodup := List.nodup_singleton id
    have hnew : ∀ e ∈ [(id, r)], e.1 ∉ (graphs target).ids := List.forall_mem_singleton.2 hid
    exact Grown.update (.mk hn hnew) i
  | refused hid => exact .refl _
  | @merged target source hnew =>
    exact Grown.update (.mk (h source) fun e he => hnew e.1 (List.mem_map_of_mem he)) i
  | @stopped target source before behind id r he hb hid =>
    have hsource := h source
    rw [ids, he, List.map_append] at hsource
    exact Grown.update (.mk (List.nodup_append.1 hsource).1 hb) i

theorem grown_apply (h : ∀ i, (graphs i).ids.Nodup) (operation : Operation ι) (i : ι) :
    Grown (graphs i) ((operation.apply graphs).1 i) := by
  obtain ⟨graphs', failure, he⟩ := exists_effect h operation
  rw [he.apply h]
  exact he.grown h i

theorem nodup_ids_apply (h : ∀ i, (graphs i).ids.Nodup) (operation : Operation ι) (i : ι) :
    ((operation.apply graphs).1 i).ids.Nodup :=
  (grown_apply h operation i).nodup (h i)

theorem nodup_ids_afterAll (h : ∀ i, (graphs i).ids.Nodup) (operations : List (Operation ι))
    (i : ι) : (afterAll graphs operations i).ids.Nodup := by
  induction operations generalizing graphs with
  | nil => exact h i
  | cons operation rest ih => exact ih (nodup_ids_apply h operation)

theorem prefix_afterAll (h : ∀ i, (graphs i).ids.Nodup) (operations : List (Operation ι))
    (i : ι) : (graphs i).entries <+: (afterAll graphs operations i).entries := by
  induction operations generalizing graphs with
  | nil => exact List.prefix_refl _
  | cons operation rest ih =>
    exact (grown_apply h operation i).isPrefix.trans (ih (nodup_ids_apply h operation))

theorem get?_of_prefix {g g' : Graph} (h : g.entries <+: g'.entries) {id : String} {r : Resource}
    (hr : g.get? id = some r) : g'.get? id = some r := by
  obtain ⟨added, he⟩ := h
  rw [get?] at hr ⊢
  rw [← he, List.lookup_append, hr, Option.some_or]

theorem nodup_ids_built (operations : List (Operation ι)) (i : ι) :
    (built operations i).ids.Nodup :=
  nodup_ids_afterAll (fun _ => ids_nodup_empty) operations i

theorem built_append (operations later : List (Operation ι)) :
    built (operations ++ later) = afterAll (built operations) later :=
  List.foldl_append

/-- Graphs are written once. Whatever was done to them, their ids are different; what is done later
leaves the resources in place, in their order, and under their ids; and each operation is carried
out, refused or stopped as it should be. -/
theorem writeOnce_built (operations : List (Operation ι)) :
    (∀ i, (built operations i).ids.Nodup) ∧
    (∀ later i, (built operations i).entries <+: (built (operations ++ later) i).entries) ∧
    (∀ later i id r, (built operations i).get? id = some r →
      (built (operations ++ later) i).get? id = some r) ∧
    (∀ operation graphs failure, operation.apply (built operations) = (graphs, failure) ↔
      Effect (built operations) operation graphs failure) := by
  have hkept : ∀ later i,
      (built operations i).entries <+: (built (operations ++ later) i).entries := by
    intro later i
    rw [built_append]
    exact prefix_afterAll (nodup_ids_built operations) later i
  refine ⟨nodup_ids_built operations, hkept, ?_, ?_⟩
  · intro later i id r hr
    exact get?_of_prefix (hkept later i) hr
  · intro operation graphs failure
    exact apply_eq_iff (nodup_ids_built operations)

end ApiStack.Graph
