import ApiStack.Proofs.Compile.Assembly
import ApiStack.Proofs.LogicalId

namespace ApiStack.Compile

open Config

/-- Embedded functions have different ids if their names are different as far as ids show them, and
only then. -/
theorem nodup_functionIds_iff (fs : Functions) :
    (fs.keys.map LogicalId.function).Nodup ↔ (fs.keys.map LogicalId.respelled).Nodup := by
  unfold List.Nodup
  rw [List.pairwise_map, List.pairwise_map]
  apply List.Pairwise.iff
  intro a b
  exact not_congr LogicalId.function_eq_iff

/-- Two data sources with functions of their own, whose names differ in the case of a letter. -/
def lookalikeApi : Api :=
  apiWith [source "users" "list.handler", source "Users" "admin.handler"] [] []
where
  source (name handler : String) : DataSource :=
    ⟨name, none, .lambda ⟨⟨none, none, none, some (.obj [("handler", .str handler)])⟩, .none⟩⟩

theorem idsOf?_lookalikeApi :
    idsOf? (((parts (.uniform querySchema) lookalikeApi).mapM id).run .empty) =
      some ["GraphQlApi", "GraphQlSchema", "GraphQlDsusers", "GraphQlDsusersRole",
        "GraphQlDsUsers", "GraphQlDsUsersRole"] := by
  unfold parts
  rw [schema_query rfl]
  decide +kernel

theorem functions_lookalikeApi :
    (((parts (.uniform querySchema) lookalikeApi).mapM id).run .empty).2.keys =
      ["users", "Users"] := by
  unfold parts
  rw [schema_query rfl]
  decide +kernel

/-- There is a stack although both functions have one id. -/
theorem stack_lookalikeApi : ∃ s, stack (.uniform querySchema) lookalikeApi = .ok s ∧
    s.functions.keys = ["users", "Users"] ∧
    LogicalId.function "users" = LogicalId.function "Users" := by
  obtain ⟨graphs, functions, hr, hids⟩ := idsOf?_eq_some idsOf?_lookalikeApi
  have hkeys := functions_lookalikeApi
  rw [hr] at hkeys
  exact ⟨_, stack_of_nodup hr (hids ▸ by decide), hkeys, by decide⟩

end ApiStack.Compile
