import ApiStack.Proofs.Compile.Parts
import ApiStack.Proofs.Json.Prune

namespace ApiStack

open Config

namespace Resource

/-- A resource as it can be made: with properties, and then an order and a policy. -/
inductive IsMade : Resource → Prop where
  | make (type : String) (properties : Json) : IsMade (make type properties)
  | after {r : Resource} (id : String) : IsMade r → IsMade (r.after id)
  | withDeletionPolicy {r : Resource} (policy : String) :
      IsMade r → IsMade (r.withDeletionPolicy policy)

theorem IsMade.prune_properties {r : Resource} (h : r.IsMade) :
    r.properties.prune = r.properties := by
  induction h with
  | make type properties => exact Json.prune_prune properties
  | after id _ ih => exact ih
  | withDeletionPolicy policy _ ih => exact ih

end Resource

def Graph.IsMade (g : Graph) : Prop := ∀ e ∈ g.entries, e.2.IsMade

theorem Graph.isMade_empty : empty.IsMade := by
  intro e he
  cases he

theorem Graph.isMade_cons {id : String} {r : Resource} {entries : List (String × Resource)}
    (h : r.IsMade) (hrest : IsMade ⟨entries⟩) : IsMade ⟨(id, r) :: entries⟩ :=
  List.forall_mem_cons.2 ⟨h, hrest⟩

theorem Graph.isMade_singleton {id : String} {r : Resource} (h : r.IsMade) :
    (singleton id r).IsMade :=
  isMade_cons h isMade_empty

theorem Graph.isMade_append {xs ys : List (String × Resource)} (hx : IsMade ⟨xs⟩)
    (hy : IsMade ⟨ys⟩) : IsMade ⟨xs ++ ys⟩ :=
  List.forall_mem_append.2 ⟨hx, hy⟩

theorem Graph.isMade_withDeletionPolicy {entries : List (String × Resource)}
    (h : IsMade ⟨entries⟩) (policy : String) :
    IsMade ⟨entries.map fun (id, r) => (id, r.withDeletionPolicy policy)⟩ :=
  List.forall_mem_map.2 fun e he => (h e he).withDeletionPolicy policy

namespace Compile

variable {context : Context} {api : Api}

/-- If a part gives resources, all of them are made. -/
def Makes (p : Build Graph) : Prop := Settles (fun _ => True) p Graph.IsMade

theorem endpoint_makes : Makes (endpoint api) := by
  apply (provider_settles (t := .any) api true api.authentication).bind
  intro primary
  have hadditional := Settles.mapM fun p (_ : p ∈ api.additionalAuthentications) =>
    provider_settles (t := .any) api false p
  apply hadditional.map
  intro additional _ _
  exact Graph.isMade_singleton (.make _ _)

theorem schema_makes : Makes (liftM (schema context api)) := by
  apply Settles.lift
  intro g hg
  obtain ⟨sources, -, hg⟩ := bind_eq_ok_iff.1 hg
  obtain ⟨text, -, hg⟩ := bind_eq_ok_iff.1 hg
  cases hg
  exact Graph.isMade_singleton (.make _ _)

theorem isMade_domain : (domain api).IsMade := by
  rw [domain]
  split
  · exact Graph.isMade_empty
  · apply Graph.isMade_withDeletionPolicy
    apply Graph.isMade_append
    · apply Graph.isMade_append
      · exact Graph.isMade_cons (.make _ _) (Graph.isMade_singleton (.after _ (.make _ _)))
      · split
        · exact Graph.isMade_empty
        · exact Graph.isMade_singleton (.make _ _)
    · split
      · exact Graph.isMade_singleton (.make _ _)
      · exact Graph.isMade_empty

theorem isMade_logGroup : (logGroup context api).IsMade := by
  rw [logGroup]
  split
  · exact Graph.isMade_empty
  · apply Graph.isMade_cons (.make _ _)
    split
    · exact Graph.isMade_empty
    · exact Graph.isMade_cons (.make _ _) (Graph.isMade_singleton (.make _ _))

theorem authorizerPermission_makes : Makes (authorizerPermission api) := by
  rw [authorizerPermission]
  split
  · exact .pure Graph.isMade_empty
  · apply (functionArn_settles (t := .any) _ _).map
    intro arn _
    exact Graph.isMade_singleton (.make _ _)

theorem isMade_waf : (waf api).IsMade := by
  rw [waf]
  split
  · exact Graph.isMade_empty
  · split
    · exact Graph.isMade_singleton (.make _ _)
    · exact Graph.isMade_cons (.make _ _) (Graph.isMade_singleton (.make _ _))

theorem isMade_cache : (cache api).IsMade := by
  rw [cache]
  split
  · exact Graph.isMade_empty
  · exact Graph.isMade_singleton (.make _ _)

theorem apiKey_makes {key : ApiKey} : Makes (liftM (apiKey context key)) := by
  apply Settles.lift
  intro g hg
  obtain ⟨expiry, -, hg⟩ := bind_eq_ok_iff.1 hg
  cases hg
  exact Graph.isMade_singleton (.make _ _)

theorem role_makes (d : DataSource) :
    Settles (fun _ => True) (role d) fun made => ∀ r, made.2 = some r → r.IsMade := by
  rw [role]
  split
  · exact .pure nofun
  · apply (statements_settles (t := .any) d).bind
    intro statements
    split
    · exact .pure fun _ => nofun
    · apply Settles.pure
      intro _ r hr
      cases hr
      exact .make _ _

theorem dataSource_makes (d : DataSource) : Makes (dataSource d) := by
  apply (backendEntry_settles (t := .any) d.name d.backend).bind
  intro backend
  apply (role_makes d).map
  intro made hmade _
  apply Graph.isMade_cons (.make _ _)
  intro e he
  obtain ⟨r, hr, rfl⟩ := Option.map_eq_some_iff.1 (Option.mem_toList.1 he)
  exact hmade r hr

theorem pipelineFunction_makes {f : PipelineFunction} :
    Makes (pipelineFunction context api f) := by
  rw [pipelineFunction]
  simp only
  split
  · exact .throw_bind _ _ _
  · apply (Settles.lift fun _ _ => trivial).bind
    intro handler
    apply (syncEntry_settles (t := .any) _ _).map
    intro sync _ _
    exact Graph.isMade_singleton (.make _ _)

theorem resolver_makes {r : Resolver} : Makes (resolver context api r) := by
  apply (Settles.lift fun _ _ => trivial).bind
  intro handler
  apply (syncEntry_settles (t := .any) _ _).bind
  intro sync
  apply (Settles.lift fun _ _ => trivial).map
  intro entries (_ : True) _ _
  exact Graph.isMade_singleton (.after _ (.make _ _))

theorem parts_make (context : Context) (api : Api) : ∀ p ∈ parts context api, Makes p := by
  apply forall_mem_parts
  · exact endpoint_makes
  · exact schema_makes
  · exact .pure isMade_domain
  · exact .pure isMade_logGroup
  · exact authorizerPermission_makes
  · exact .pure isMade_waf
  · exact .pure isMade_cache
  · exact fun _ _ _ => apiKey_makes
  · exact fun d _ => dataSource_makes d
  · exact fun _ _ => pipelineFunction_makes
  · exact fun _ _ => resolver_makes

theorem isMade_of_stack {s : Stack} (h : stack context api = .ok s) : s.resources.IsMade := by
  intro e he
  obtain ⟨p, hp, g, hg, hge, -⟩ :=
    exists_part_of_entry h (fun _ => True) (fun _ _ => trivial) he
  exact (parts_make context api p hp).of_gives hg e hge

/-- Of a value nothing but its null entries is dropped, and there are none to drop in the properties
of the resources in a stack. -/
theorem onlyNulls_dropped :
    (∀ j : Json, j.HasDistinctKeys → j.prune.IsPruning j) ∧
    ∀ (context : Context) (api : Api) (s : Stack), stack context api = .ok s →
      ∀ e ∈ s.resources.entries, e.2.properties.prune = e.2.properties := by
  constructor
  · intro j h
    exact Json.isPruning_prune h
  · intro context api s h e he
    exact (isMade_of_stack h e he).prune_properties

def patchyApi : Api :=
  apiWith [⟨"users", none, .noBackend ⟨none, some [Json.patchyStatement]⟩⟩] [] []

theorem onlyNulls_dropped_patchy :
    Json.patchyStatement.HasDistinctKeys ∧
    Json.patchyStatement.prune.IsPruning Json.patchyStatement ∧
    ∃ s, stack (.uniform querySchema) patchyApi = .ok s ∧
      ∀ e ∈ s.resources.entries, e.2.properties.prune = e.2.properties := by
  obtain ⟨hvalue, hstack⟩ := onlyNulls_dropped
  have hkeys := Json.hasDistinctKeys_patchyStatement
  have hids : queryIds? patchyApi =
      some ["GraphQlApi", "GraphQlSchema", "GraphQlDsusers", "GraphQlDsusersRole"] := by
    rfl
  obtain ⟨s, hs⟩ := exists_stack_of_queryIds? rfl hids (by decide)
  exact ⟨hkeys, hvalue _ hkeys, s, hs, hstack _ _ s hs⟩

end Compile

end ApiStack
