import ApiStack.Proofs.Sdl.BlockLines
import ApiStack.Proofs.Sdl.Parsed
import ApiStack.Proofs.Sdl.Union
import Mathlib

namespace ApiStack.Sdl

open Sdl.Grammar Printer

/-- What may have a description: the names that lead to it, and what is in front of its lines. -/
structure Described where
  path : List String
  level : String
  description : Option String
deriving DecidableEq, Repr

namespace Described

def reread (p : Described) : Described :=
  { p with description := p.description.map (rereadDescription p.level) }

/-- The description has one line only, or nothing to lose in a block. -/
def IsKept (p : Described) : Prop :=
  ∀ text ∈ p.description, '\n' ∈ text.toList → Survives text

instance (p : Described) : Decidable p.IsKept :=
  inferInstanceAs (Decidable (∀ text ∈ p.description, '\n' ∈ text.toList → Survives text))

theorem reread_description_iff {p : Described} (hl : isEmptyLine p.level.toList = true) :
    p.reread.description = p.description ↔ p.IsKept := by
  obtain ⟨path, level, description⟩ := p
  cases description with
  | none => exact iff_of_true rfl nofun
  | some text =>
    simp only [reread, IsKept, Option.map_some, Option.some.injEq, Option.mem_def, forall_eq']
    by_cases hn : '\n' ∈ text.toList
    · rw [rereadDescription_eq_self_iff hl hn, forall_prop_of_true hn]
    · rw [rereadDescription, if_neg (by simpa using hn)]
      exact iff_of_true rfl fun h => absurd h hn

end Described

def InputValue.described (path : List String) (level : String) (v : InputValue) : Described :=
  ⟨path ++ [v.name], level, v.description⟩

def EnumValue.described (path : List String) (v : EnumValue) : Described :=
  ⟨path ++ [v.name], indent, v.description⟩

def Field.described (path : List String) (f : Field) : List Described :=
  ⟨path ++ [f.name], indent, f.description⟩ ::
    f.arguments.map (InputValue.described (path ++ [f.name]) (indent ++ indent))

def TypeBody.described (path : List String) (b : TypeBody) : List Described :=
  b.fields.flatMap (Field.described path) ++ b.enumValues.map (EnumValue.described path) ++
    b.inputs.map (InputValue.described path indent)

def Definition.described : Definition → List Described
  | .schema _ => []
  | .type t => ⟨[t.name], "", t.description⟩ :: t.body.described [t.name]
  | .directive d => ⟨[d.name], "", d.description⟩ ::
      d.arguments.map (InputValue.described [d.name] indent)

/-- All in a document that may have a description, in the order in which it is written. -/
def Document.described (d : Document) : List Described := d.flatMap Definition.described

section Levels

variable {path : List String} {p : Described}

theorem level_of_mem_inputs {level : String} {vs : List InputValue}
    (h : p ∈ vs.map (InputValue.described path level)) : p.level = level := by
  obtain ⟨v, -, rfl⟩ := List.mem_map.1 h
  rfl

theorem isEmptyLine_indent : isEmptyLine indent.toList = true := rfl

theorem Field.isEmptyLine_level {f : Field} (h : p ∈ f.described path) :
    isEmptyLine p.level.toList = true := by
  rcases List.mem_cons.1 h with rfl | h
  · exact isEmptyLine_indent
  · rw [level_of_mem_inputs h]
    rfl

theorem TypeBody.isEmptyLine_level {b : TypeBody} (h : p ∈ b.described path) :
    isEmptyLine p.level.toList = true := by
  rcases List.mem_append.1 h with h | h
  · rcases List.mem_append.1 h with h | h
    · obtain ⟨f, -, h⟩ := List.mem_flatMap.1 h
      exact f.isEmptyLine_level h
    · obtain ⟨v, -, rfl⟩ := List.mem_map.1 h
      exact isEmptyLine_indent
  · rw [level_of_mem_inputs h]
    exact isEmptyLine_indent

theorem Definition.isEmptyLine_level {d : Definition} (h : p ∈ d.described) :
    isEmptyLine p.level.toList = true := by
  cases d with
  | schema s => cases h
  | type t =>
    rcases List.mem_cons.1 h with rfl | h
    · rfl
    · exact t.body.isEmptyLine_level h
  | directive d =>
    rcases List.mem_cons.1 h with rfl | h
    · rfl
    · rw [level_of_mem_inputs h]
      exact isEmptyLine_indent

end Levels

section Reread

variable (path : List String)

theorem InputValue.map_described_reread (level : String) (vs : List InputValue) :
    (vs.map (reread level)).map (described path level) =
      (vs.map (described path level)).map Described.reread := by
  rw [List.map_map, List.map_map]
  rfl

theorem EnumValue.map_described_reread (vs : List EnumValue) :
    (vs.map reread).map (described path) = (vs.map (described path)).map Described.reread := by
  rw [List.map_map, List.map_map]
  rfl

theorem Field.described_reread (f : Field) :
    f.reread.described path = (f.described path).map Described.reread :=
  congrArg (List.cons _) (InputValue.map_described_reread _ _ f.arguments)

theorem Field.flatMap_described_reread (fields : List Field) :
    (fields.map reread).flatMap (described path) =
      (fields.flatMap (described path)).map Described.reread := by
  rw [List.flatMap_map, List.map_flatMap]
  exact List.flatMap_congr fun f _ => f.described_reread path

theorem TypeBody.described_reread (b : TypeBody) :
    b.reread.described path = (b.described path).map Described.reread := by
  have hfields : b.reread.fields = b.fields.map Field.reread := by cases b <;> rfl
  have hvalues : b.reread.enumValues = b.enumValues.map EnumValue.reread := by cases b <;> rfl
  have hinputs : b.reread.inputs = b.inputs.map (InputValue.reread indent) := by cases b <;> rfl
  rw [described, described, List.map_append, List.map_append, hfields, hvalues, hinputs,
    Field.flatMap_described_reread, EnumValue.map_described_reread,
    InputValue.map_described_reread]

theorem Definition.described_reread (d : Definition) :
    d.reread.described = d.described.map Described.reread := by
  cases d with
  | schema s => rfl
  | type t => exact congrArg (List.cons _) (t.body.described_reread [t.name])
  | directive d => exact congrArg (List.cons _) (InputValue.map_described_reread _ _ d.arguments)

theorem Document.described_reread (d : Document) :
    (reread d).described = d.described.map Described.reread := by
  rw [described, described, reread, List.flatMap_map, List.map_flatMap]
  exact List.flatMap_congr fun a _ => a.described_reread

end Reread

/-- What was read is written and read again with a description wherever it had one. A description
with more than one line comes back as it was if and only if it has nothing to lose in a block. -/
theorem descriptions_of_parse {source : String} {d : Document} (h : parse source = .ok d) :
    ∃ d', parse (render d) = .ok d' ∧ List.Forall₂ (fun p q => q.path = p.path ∧
      (q.description.isSome ↔ p.description.isSome) ∧
        (q.description = p.description ↔ p.IsKept)) d.described d'.described := by
  refine ⟨_, (Document.isWritable_of_parse h).parse_render, ?_⟩
  rw [Document.described_reread, List.forall₂_map_right_iff, List.forall₂_same]
  intro p hp
  obtain ⟨definition, -, hp⟩ := List.mem_flatMap.1 hp
  have hsome : p.reread.description.isSome ↔ p.description.isSome := by
    rw [Described.reread, Option.isSome_map]
  exact ⟨rfl, hsome, Described.reread_description_iff (definition.isEmptyLine_level hp)⟩

def indentedSource : String := "\"  a\\n  b\" scalar D"

def indentedDocument : Document := [.type ⟨false, some "  a\n  b", "D", [], .scalar⟩]

set_option maxRecDepth 100000 in
theorem parse_indentedSource : parse indentedSource = .ok indentedDocument := by
  cbv

theorem descriptions_of_indentedSource : parse indentedSource = .ok indentedDocument ∧
    ∃ d', parse (render indentedDocument) = .ok d' ∧ List.Forall₂ (fun p q => q.path = p.path ∧
      (q.description.isSome ↔ p.description.isSome) ∧ (q.description = p.description ↔ p.IsKept))
        indentedDocument.described d'.described :=
  ⟨parse_indentedSource, descriptions_of_parse parse_indentedSource⟩

set_option maxRecDepth 100000 in
/-- The lines lose the indentation that they share. -/
theorem unindented_indentedSource : parse indentedSource = .ok indentedDocument ∧
    parse (render indentedDocument) =
      .ok [.type ⟨false, some "a\nb", "D", [], .scalar⟩] := by
  refine ⟨parse_indentedSource, ?_⟩
  cbv

end ApiStack.Sdl
