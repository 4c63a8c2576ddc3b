import ApiStack.Proofs.Compile.Parts
import Mathlib.Data.List.Perm.Basic

namespace ApiStack

open Config

/-- APIs that differ in the order of their data sources, pipeline functions and resolvers only. -/
structure Config.Api.Reordered (a b : Api) : Prop where
  dataSources : a.dataSources.entries.Perm b.dataSources.entries
  pipelineFunctions : a.pipelineFunctions.entries.Perm b.pipelineFunctions.entries
  resolvers : a.resolvers.entries.Perm b.resolvers.entries
  rest : { a with
    dataSources := b.dataSources
    pipelineFunctions := b.pipelineFunctions
    resolvers := b.resolvers } = b

namespace Compile

theorem kindEntries_of_perm {a b : Api}
    (hd : a.dataSources.entries.Perm b.dataSources.entries)
    (hf : a.pipelineFunctions.entries.Perm b.pipelineFunctions.entries) :
    kindEntries a = kindEntries b := by
  have hid : functionId a = functionId b := by
    funext owner name
    unfold functionId
    rw [OrderedMap.contains_eq_of_perm hf]
  funext owner kind
  cases kind with
  | unit name =>
    unfold kindEntries
    simp only [OrderedMap.contains_eq_of_perm hd]
  | pipeline names =>
    unfold kindEntries
    simp only [hid]

theorem pipelineFunction_of_reordered {a b : Api} (h : a.Reordered b) (context : Context) :
    pipelineFunction context a = pipelineFunction context b := by
  funext f
  unfold pipelineFunction
  rw [OrderedMap.contains_eq_of_perm h.dataSources, ← h.rest]
  rfl

theorem resolver_of_reordered {a b : Api} (h : a.Reordered b) (context : Context) :
    resolver context a = resolver context b := by
  funext r
  unfold resolver
  rw [kindEntries_of_perm h.dataSources h.pipelineFunctions, ← h.rest]
  rfl

theorem parts_perm {a b : Api} (h : a.Reordered b) (context : Context) :
    (parts context a).Perm (parts context b) := by
  have hd := (h.dataSources.map Prod.snd).map dataSource
  have hf := (h.pipelineFunctions.map Prod.snd).map (pipelineFunction context a)
  have hr := (h.resolvers.map Prod.snd).map (resolver context a)
  rw [pipelineFunction_of_reordered h] at hf
  rw [resolver_of_reordered h] at hr
  have he : parts context a = [endpoint b, schema context b, return domain b,
      return logGroup context b, authorizerPermission b, return waf b, return cache b]
    ++ (if b.hasAuth .apiKey then
        b.apiKeys.values.map fun key => (apiKey context key : Build Graph)
      else [])
    ++ a.dataSources.values.map dataSource
    ++ a.pipelineFunctions.values.map (pipelineFunction context b)
    ++ a.resolvers.values.map (resolver context b) := by
    rw [← pipelineFunction_of_reordered h, ← resolver_of_reordered h, ← h.rest]
    rfl
  rw [he]
  exact (((List.Perm.refl _).append hd).append hf).append hr

/-- What a part amounts to: definitions to embed, and then a result. -/
structure Outcome where
  definitions : Definitions
  result : Except Failure Graph

namespace Outcome

def build (o : Outcome) : Build Graph := declaring o.definitions o.result

/-- The graph that is the result, or an empty one. -/
def graph (o : Outcome) : Graph :=
  match o.result with
  | .ok g => g
  | .error _ => .empty

theorem graph_of_ok {o : Outcome} {g : Graph} (h : o.result = .ok g) : o.graph = g := by
  rw [graph, h]

theorem exists_of_settles {known : String → Prop} {ps : List (Build Graph)}
    (h : ∀ p ∈ ps, Settles known p fun _ => True) : ∃ os : List Outcome, ps = os.map build := by
  induction ps with
  | nil => exact ⟨[], rfl⟩
  | cons p ps ih =>
    obtain ⟨ds, r, he, -⟩ := h p List.mem_cons_self
    obtain ⟨os, hos⟩ := ih fun p hp => h p (List.mem_cons_of_mem _ hp)
    exact ⟨⟨ds, r⟩ :: os, by rw [he, hos]; rfl⟩

theorem run_build_eq_ok_iff {o : Outcome} {g : Graph} {fs fs' : Functions} :
    o.build.run fs = (.ok g, fs') ↔
      o.result = .ok g ∧ (embedAll o.definitions).run fs = (.ok (), fs') := by
  rw [build, declaring, run_bind_eq_ok_iff]
  constructor
  · rintro ⟨u, mid, hu, he⟩
    obtain ⟨hr, rfl⟩ := Prod.mk.inj (he : (o.result, mid) = (.ok g, fs'))
    exact ⟨hr, hu⟩
  · rintro ⟨hr, hu⟩
    exact ⟨(), fs', hu, run_lift hr fs'⟩

/-- Outcomes one after another: all of them have a result, and all definitions are embedded. -/
theorem mapM_build_eq_ok_iff {os : List Outcome} {graphs : List Graph} {fs fs' : Functions} :
    ((os.map build).mapM id).run fs = (.ok graphs, fs') ↔
      List.Forall₂ (fun o g => o.result = .ok g) os graphs ∧
        (embedAll (os.flatMap definitions)).run fs = (.ok (), fs') := by
  induction os generalizing graphs fs with
  | nil =>
    constructor
    · intro h
      cases h
      exact ⟨.nil, rfl⟩
    · rintro ⟨hg, h⟩
      cases hg
      cases h
      rfl
  | cons o os ih =>
    rw [List.map_cons, List.mapM_cons, List.flatMap_cons, embedAll_append]
    constructor
    · intro h
      obtain ⟨g, mid, ho, h⟩ := run_bind_eq_ok_iff.1 h
      obtain ⟨gs, mid', hos, he⟩ := run_bind_eq_ok_iff.1 h
      cases he
      obtain ⟨hr, hd⟩ := run_build_eq_ok_iff.1 ho
      obtain ⟨hg, hds⟩ := ih.1 hos
      exact ⟨.cons hr hg, run_bind_eq_ok_iff.2 ⟨(), mid, hd, hds⟩⟩
    · rintro ⟨hg, h⟩
      obtain ⟨u, mid, hd, hds⟩ := run_bind_eq_ok_iff.1 h
      cases hg with
      | cons hr hg =>
        have ho := run_build_eq_ok_iff.2 ⟨hr, hd⟩
        exact run_bind_eq_ok_iff.2 ⟨_, mid, ho,
          run_bind_eq_ok_iff.2 ⟨_, fs', ih.2 ⟨hg, hds⟩, rfl⟩⟩

theorem forall₂_result_iff {os : List Outcome} {graphs : List Graph} :
    List.Forall₂ (fun o g => o.result = .ok g) os graphs ↔
      (∀ o ∈ os, ∃ g, o.result = .ok g) ∧ graphs = os.map graph := by
  constructor
  · intro h
    induction h with
    | nil => simp
    | cons hr _ ih =>
      obtain ⟨hos, rfl⟩ := ih
      refine ⟨List.forall_mem_cons.2 ⟨⟨_, hr⟩, hos⟩, ?_⟩
      rw [List.map_cons, graph_of_ok hr]
  · rintro ⟨hos, rfl⟩
    induction os with
    | nil => exact .nil
    | cons o os ih =>
      obtain ⟨⟨g, hg⟩, hos⟩ := List.forall_mem_cons.1 hos
      refine .cons ?_ (ih hos)
      rw [graph_of_ok hg, hg]

/-- What a stack is in terms of the outcomes of the parts. -/
theorem stack_eq_ok_iff {context : Context} {api : Api} {os : List Outcome} {s : Stack}
    (ho : parts context api = os.map build) : stack context api = .ok s ↔
      (∀ o ∈ os, ∃ g, o.result = .ok g) ∧ (os.flatMap fun o => o.graph.ids).Nodup ∧
        (embedAll (os.flatMap definitions)).run .empty = (.ok (), s.functions) ∧
        s.resources.entries = os.flatMap fun o => o.graph.entries := by
  constructor
  · intro h
    obtain ⟨graphs, hr, hn, he⟩ := entries_of_stack h
    rw [ho] at hr
    obtain ⟨hg, hd⟩ := mapM_build_eq_ok_iff.1 hr
    obtain ⟨hos, rfl⟩ := forall₂_result_iff.1 hg
    rw [List.flatMap_map] at hn he
    exact ⟨hos, hn, hd, he⟩
  · rintro ⟨hos, hn, hd, he⟩
    have hr := mapM_build_eq_ok_iff.2 ⟨forall₂_result_iff.2 ⟨hos, rfl⟩, hd⟩
    rw [← ho] at hr
    rw [stack_of_nodup hr (by rwa [List.flatMap_map]), List.flatMap_map, ← he]

/-- There is a stack if all outcomes have a result, and neither ids nor definitions conflict. -/
theorem exists_stack_iff {context : Context} {api : Api} {os : List Outcome}
    (ho : parts context api = os.map build) : (∃ s, stack context api = .ok s) ↔
      (∀ o ∈ os, ∃ g, o.result = .ok g) ∧ (os.flatMap fun o => o.graph.ids).Nodup ∧
        Consistent (os.flatMap definitions) := by
  constructor
  · rintro ⟨s, hs⟩
    obtain ⟨hos, hn, hd, -⟩ := (stack_eq_ok_iff ho).1 hs
    exact ⟨hos, hn, .of_embedAll hd⟩
  · rintro ⟨hos, hn, hc⟩
    obtain ⟨fs, hd⟩ := exists_run_embedAll_iff.2 hc
    exact ⟨⟨⟨_⟩, fs⟩, (stack_eq_ok_iff ho).2 ⟨hos, hn, hd, rfl⟩⟩

end Outcome

theorem consistent_of_perm {ds es : Definitions} (h : ds.Perm es) (hc : Consistent ds) :
    Consistent es :=
  fun name d e hd he => hc name d e (h.mem_iff.2 hd) (h.mem_iff.2 he)

theorem exists_perm_map {f : α → β} {l : List α} {m : List β} (h : m.Perm (l.map f)) :
    ∃ l', l.Perm l' ∧ m = l'.map f := by
  have hc : Relation.Comp (fun m l => m = l.map f) List.Perm m l := by
    rw [List.eq_map_comp_perm]
    exact h
  obtain ⟨l', he, hp⟩ := hc
  exact ⟨l', hp.symm, he⟩

open Outcome in
theorem exists_stack_of_perm {context : Context} {a b : Api} {os os' : List Outcome}
    (ha : parts context a = os.map build) (hb : parts context b = os'.map build)
    (hp : os.Perm os') (h : ∃ s, stack context a = .ok s) : ∃ s, stack context b = .ok s := by
  obtain ⟨hos, hn, hc⟩ := (exists_stack_iff ha).1 h
  apply (exists_stack_iff hb).2
  refine ⟨fun o ho => hos o (hp.mem_iff.2 ho), ?_, ?_⟩
  · exact (hp.flatMap_right _).nodup_iff.1 hn
  · exact consistent_of_perm (hp.flatMap_right _) hc

open Outcome in
/-- The order of declarations neither decides whether there is a stack nor what is in it: under each
id the same resource, and under each name of a function equal definitions. -/
theorem stack_of_reordered {a b : Api} (h : a.Reordered b) (context : Context) :
    ((∃ s, stack context a = .ok s) ↔ ∃ s, stack context b = .ok s) ∧
    ∀ s s', stack context a = .ok s → stack context b = .ok s' →
      s.resources.entries.Perm s'.resources.entries ∧
      (∀ id, s.resources.get? id = s'.resources.get? id) ∧
      ∀ name, match s.functions.get? name, s'.functions.get? name with
        | some d, some e => d.same e = true
        | none, none => True
        | _, _ => False := by
  obtain ⟨os, ha⟩ := exists_of_settles (parts_settle (fun _ => True) context a)
  obtain ⟨os', hp, hb⟩ : ∃ os', os.Perm os' ∧ parts context b = os'.map build := by
    have hperm := (parts_perm h context).symm
    rw [ha] at hperm
    exact exists_perm_map hperm
  refine ⟨⟨exists_stack_of_perm ha hb hp, exists_stack_of_perm hb ha hp.symm⟩, ?_⟩
  intro s s' hs hs'
  obtain ⟨-, hn, hd, he⟩ := (Outcome.stack_eq_ok_iff ha).1 hs
  obtain ⟨-, -, hd', he'⟩ := (Outcome.stack_eq_ok_iff hb).1 hs'
  have hperm : s.resources.entries.Perm s'.resources.entries := by
    rw [he, he']
    exact hp.flatMap_right _
  refine ⟨hperm, ?_, get?_of_perm (hp.flatMap_right _) hd hd'⟩
  intro id
  apply lookup_perm ?_ hperm
  rw [he, List.map_flatMap]
  exact hn

def handled (name : String) : DataSource :=
  ⟨name, none, .lambda ⟨⟨none, none, none, some (.str "handler")⟩, .none⟩⟩

theorem reordered_handled : (apiWith [handled "users", handled "posts"] [] []).Reordered
    (apiWith [handled "posts", handled "users"] [] []) where
  dataSources := .swap _ _ _
  pipelineFunctions := .refl _
  resolvers := .refl _
  rest := rfl

theorem idsOf?_handled :
    idsOf? (((parts (.uniform querySchema)
      (apiWith [handled "users", handled "posts"] [] [])).mapM id).run .empty) =
      some ["GraphQlApi", "GraphQlSchema", "GraphQlDsusers", "GraphQlDsusersRole",
        "GraphQlDsposts", "GraphQlDspostsRole"] := by
  unfold parts
  rw [schema_query rfl]
  decide +kernel

theorem stack_handled : ∃ s s',
    stack (.uniform querySchema) (apiWith [handled "users", handled "posts"] [] []) = .ok s ∧
    stack (.uniform querySchema) (apiWith [handled "posts", handled "users"] [] []) = .ok s' ∧
    s.resources.entries.Perm s'.resources.entries := by
  obtain ⟨s, hs⟩ := exists_stack_of_idsOf? idsOf?_handled (by decide)
  obtain ⟨hiff, hsame⟩ := stack_of_reordered reordered_handled (.uniform querySchema)
  obtain ⟨s', hs'⟩ := hiff.1 ⟨s, hs⟩
  exact ⟨s, s', hs, hs', (hsame s s' hs hs').1⟩

end Compile

end ApiStack
