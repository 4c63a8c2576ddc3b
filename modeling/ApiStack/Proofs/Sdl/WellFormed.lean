import ApiStack.Proofs.Sdl.MergedValidity

namespace ApiStack.Sdl

open Validation

namespace Document

/-- A type needs no definition, or it is defined somewhere and not merely extended. -/
def KnowsType (d : Document) (name : String) : Prop :=
  name ∈ builtInScalars ∨ ∃ t ∈ d.types, t.isExtension = false ∧ t.name = name

/-- A directive needs no definition, or it is defined somewhere. -/
def KnowsDirective (d : Document) (name : String) : Prop :=
  name ∈ builtInDirectives ∨ ∃ a ∈ d.directives, a.name = name

/-- The places where a type is named that has to be known. -/
inductive UsesType (d : Document) : String → Prop where
  | root {s : SchemaDefinition} {operation : Operation} {name : String} (hs : s ∈ d.schemas)
      (hr : s.root? operation = some name) : UsesType d name
  | interfaceOrMember {t : TypeDefinition} {name : String} (ht : t ∈ d.types)
      (hn : name ∈ t.body.names) : UsesType d name
  | field {t : TypeDefinition} {f : Field} (ht : t ∈ d.types) (hf : f ∈ t.body.fields) :
      UsesType d f.type.innermost
  | argument {t : TypeDefinition} {f : Field} {v : InputValue} (ht : t ∈ d.types)
      (hf : f ∈ t.body.fields) (hv : v ∈ f.arguments) : UsesType d v.type.innermost
  | input {t : TypeDefinition} {v : InputValue} (ht : t ∈ d.types) (hv : v ∈ t.body.inputs) :
      UsesType d v.type.innermost
  | directiveArgument {a : DirectiveDefinition} {v : InputValue} (ha : a ∈ d.directives)
      (hv : v ∈ a.arguments) : UsesType d v.type.innermost

/-- The places where a directive is applied. -/
inductive AppliesDirective (d : Document) : String → Prop where
  | schema {s : SchemaDefinition} {a : Directive} (hs : s ∈ d.schemas) (ha : a ∈ s.directives) :
      AppliesDirective d a.name
  | type {t : TypeDefinition} {a : Directive} (ht : t ∈ d.types) (ha : a ∈ t.directives) :
      AppliesDirective d a.name
  | field {t : TypeDefinition} {f : Field} {a : Directive} (ht : t ∈ d.types)
      (hf : f ∈ t.body.fields) (ha : a ∈ f.directives) : AppliesDirective d a.name
  | argument {t : TypeDefinition} {f : Field} {v : InputValue} {a : Directive} (ht : t ∈ d.types)
      (hf : f ∈ t.body.fields) (hv : v ∈ f.arguments) (ha : a ∈ v.directives) :
      AppliesDirective d a.name
  | enumValue {t : TypeDefinition} {v : EnumValue} {a : Directive} (ht : t ∈ d.types)
      (hv : v ∈ t.body.enumValues) (ha : a ∈ v.directives) : AppliesDirective d a.name
  | input {t : TypeDefinition} {v : InputValue} {a : Directive} (ht : t ∈ d.types)
      (hv : v ∈ t.body.inputs) (ha : a ∈ v.directives) : AppliesDirective d a.name
  | directiveArgument {x : DirectiveDefinition} {v : InputValue} {a : Directive}
      (hx : x ∈ d.directives) (hv : v ∈ x.arguments) (ha : a ∈ v.directives) :
      AppliesDirective d a.name

/-- Names are given once, and only what is known is named or extended. -/
structure IsWellFormed (d : Document) : Prop where
  schema : (d.schemas.filter fun s => !s.isExtension).length ≤ 1
  types : ((d.types.filter fun t => !t.isExtension).map TypeDefinition.name).Nodup
  directives : (d.directives.map DirectiveDefinition.name).Nodup
  notBuiltIn : ∀ a ∈ d.directives, a.name ∉ builtInDirectives
  extended : ∀ t ∈ d.types, t.isExtension = true → d.KnowsType t.name
  usedTypes : ∀ name, d.UsesType name → d.KnowsType name
  appliedDirectives : ∀ name, d.AppliesDirective name → d.KnowsDirective name
  members : ∀ type, (d.membersOf type).Nodup
  values : ∀ type, (d.valuesOf type).Nodup

variable {d : Document} {name : String}

theorem mem_knownTypes_iff : name ∈ knownTypes d ↔ d.KnowsType name := by
  simp only [knownTypes, List.mem_append, filterMap_definedType?, List.mem_map, List.mem_filter,
    Bool.not_eq_true', KnowsType, and_assoc]

theorem mem_knownDirectives_iff : name ∈ knownDirectives d ↔ d.KnowsDirective name := by
  simp only [knownDirectives, List.mem_append, filterMap_definedDirective?, List.mem_map,
    KnowsDirective]

theorem nodup_knownDirectives_iff : (knownDirectives d).Nodup ↔
    (d.directives.map DirectiveDefinition.name).Nodup ∧
      ∀ a ∈ d.directives, a.name ∉ builtInDirectives := by
  have hb : builtInDirectives.Nodup := by decide
  rw [knownDirectives, filterMap_definedDirective?, List.nodup_append', List.disjoint_comm,
    and_iff_right hb]
  refine and_congr_right fun _ => ?_
  unfold List.Disjoint
  exact List.forall_mem_map

theorem exists_mem_iff {P : Definition → Prop} : (∃ x ∈ d, P x) ↔
    (∃ s ∈ d.schemas, P (.schema s)) ∨ (∃ t ∈ d.types, P (.type t)) ∨
      ∃ a ∈ d.directives, P (.directive a) := by
  constructor
  · rintro ⟨x, hx, hp⟩
    cases x with
    | schema s => exact .inl ⟨s, mem_schemas.2 hx, hp⟩
    | type t => exact .inr (.inl ⟨t, mem_types.2 hx, hp⟩)
    | directive a => exact .inr (.inr ⟨a, mem_directives.2 hx, hp⟩)
  · rintro (⟨s, hs, hp⟩ | ⟨t, ht, hp⟩ | ⟨a, ha, hp⟩)
    · exact ⟨_, mem_schemas.1 hs, hp⟩
    · exact ⟨_, mem_types.1 ht, hp⟩
    · exact ⟨_, mem_directives.1 ha, hp⟩

theorem exists_extended_iff : (∃ x ∈ d, name ∈ x.extendedType?) ↔
    ∃ t ∈ d.types, t.isExtension = true ∧ t.name = name := by
  rw [exists_mem_iff]
  simp [Definition.extendedType?]

end Document

theorem mem_usedTypes_schema_iff {s : SchemaDefinition} {name : String} :
    name ∈ (Definition.schema s).usedTypes ↔ ∃ operation, s.root? operation = some name := by
  simp only [Definition.usedTypes, List.mem_filterMap, List.mem_cons, List.not_mem_nil, or_false,
    id_eq, exists_eq_right]
  constructor
  · rintro (h | h | h)
    · exact ⟨.query, h.symm⟩
    · exact ⟨.mutation, h.symm⟩
    · exact ⟨.subscription, h.symm⟩
  · rintro ⟨operation, h⟩
    cases operation with
    | query => exact .inl h.symm
    | mutation => exact .inr (.inl h.symm)
    | subscription => exact .inr (.inr h.symm)

theorem mem_inputDirectives_iff {values : List InputValue} {name : String} :
    name ∈ inputDirectives values ↔ ∃ v ∈ values, ∃ a ∈ v.directives, a.name = name := by
  simp only [inputDirectives, List.mem_flatMap, List.mem_map]

theorem TypeBody.mem_usedTypes_iff {b : TypeBody} {name : String} : name ∈ b.usedTypes ↔
    name ∈ b.names ∨ (∃ f ∈ b.fields, f.type.innermost = name) ∨
      (∃ f ∈ b.fields, ∃ v ∈ f.arguments, v.type.innermost = name) ∨
      ∃ v ∈ b.inputs, v.type.innermost = name := by
  simp only [usedTypes, List.mem_append, List.mem_flatMap, Field.usedTypes, List.mem_cons,
    inputTypes, List.mem_map, and_or_left, exists_or, or_assoc, @eq_comm _ name]

theorem TypeBody.mem_usedDirectives_iff {b : TypeBody} {name : String} :
    name ∈ b.usedDirectives ↔
      (∃ f ∈ b.fields, ∃ a ∈ f.directives, a.name = name) ∨
      (∃ f ∈ b.fields, ∃ v ∈ f.arguments, ∃ a ∈ v.directives, a.name = name) ∨
      (∃ v ∈ b.enumValues, ∃ a ∈ v.directives, a.name = name) ∨
      ∃ v ∈ b.inputs, ∃ a ∈ v.directives, a.name = name := by
  simp only [usedDirectives, List.mem_append, List.mem_flatMap, Field.usedDirectives, List.mem_map,
    mem_inputDirectives_iff, and_or_left, exists_or, or_assoc]

namespace Document

variable {d : Document} {name : String}

theorem exists_usedTypes_iff : (∃ x ∈ d, name ∈ x.usedTypes) ↔ d.UsesType name := by
  have htype (t : TypeDefinition) : (Definition.type t).usedTypes = t.body.usedTypes := rfl
  have hdirective (a : DirectiveDefinition) :
      (Definition.directive a).usedTypes = inputTypes a.arguments := rfl
  simp only [exists_mem_iff, mem_usedTypes_schema_iff, htype, hdirective,
    TypeBody.mem_usedTypes_iff, inputTypes, List.mem_map]
  constructor
  · rintro (⟨s, hs, operation, hr⟩ | ⟨t, ht, hn⟩ | ⟨a, ha, v, hv, rfl⟩)
    · exact .root hs hr
    · rcases hn with hn | ⟨f, hf, rfl⟩ | ⟨f, hf, v, hv, rfl⟩ | ⟨v, hv, rfl⟩
      · exact .interfaceOrMember ht hn
      · exact .field ht hf
      · exact .argument ht hf hv
      · exact .input ht hv
    · exact .directiveArgument ha hv
  · intro h
    cases h with
    | root hs hr => exact .inl ⟨_, hs, _, hr⟩
    | interfaceOrMember ht hn => exact .inr (.inl ⟨_, ht, .inl hn⟩)
    | field ht hf => exact .inr (.inl ⟨_, ht, .inr (.inl ⟨_, hf, rfl⟩)⟩)
    | argument ht hf hv => exact .inr (.inl ⟨_, ht, .inr (.inr (.inl ⟨_, hf, _, hv, rfl⟩))⟩)
    | input ht hv => exact .inr (.inl ⟨_, ht, .inr (.inr (.inr ⟨_, hv, rfl⟩))⟩)
    | directiveArgument ha hv => exact .inr (.inr ⟨_, ha, _, hv, rfl⟩)

theorem exists_usedDirectives_iff :
    (∃ x ∈ d, name ∈ x.usedDirectives) ↔ d.AppliesDirective name := by
  simp only [exists_mem_iff, Definition.usedDirectives, List.mem_append, List.mem_map,
    TypeBody.mem_usedDirectives_iff, mem_inputDirectives_iff]
  constructor
  · rintro (⟨s, hs, a, ha, rfl⟩ | ⟨t, ht, hn⟩ | ⟨x, hx, v, hv, a, ha, rfl⟩)
    · exact .schema hs ha
    · rcases hn with ⟨a, ha, rfl⟩ | ⟨f, hf, a, ha, rfl⟩ | ⟨f, hf, v, hv, a, ha, rfl⟩ |
        ⟨v, hv, a, ha, rfl⟩ | ⟨v, hv, a, ha, rfl⟩
      · exact .type ht ha
      · exact .field ht hf ha
      · exact .argument ht hf hv ha
      · exact .enumValue ht hv ha
      · exact .input ht hv ha
    · exact .directiveArgument hx hv ha
  · intro h
    cases h with
    | schema hs ha => exact .inl ⟨_, hs, _, ha, rfl⟩
    | type ht ha => exact .inr (.inl ⟨_, ht, .inl ⟨_, ha, rfl⟩⟩)
    | field ht hf ha => exact .inr (.inl ⟨_, ht, .inr (.inl ⟨_, hf, _, ha, rfl⟩)⟩)
    | argument ht hf hv ha =>
      exact .inr (.inl ⟨_, ht, .inr (.inr (.inl ⟨_, hf, _, hv, _, ha, rfl⟩))⟩)
    | enumValue ht hv ha =>
      exact .inr (.inl ⟨_, ht, .inr (.inr (.inr (.inl ⟨_, hv, _, ha, rfl⟩)))⟩)
    | input ht hv ha =>
      exact .inr (.inl ⟨_, ht, .inr (.inr (.inr (.inr ⟨_, hv, _, ha, rfl⟩)))⟩)
    | directiveArgument hx hv ha => exact .inr (.inr ⟨_, hx, _, hv, _, ha, rfl⟩)

/-- A document is valid definition by definition just if it is well formed place by place. -/
theorem isValid_iff_isWellFormed : d.IsValid ↔ d.IsWellFormed := by
  have hall {names : Definition → String → Prop} {known : String → Prop} :
      (∀ x ∈ d, ∀ name, names x name → known name) ↔
        ∀ name, (∃ x ∈ d, names x name) → known name := by
    constructor
    · rintro h name ⟨x, hx, hn⟩
      exact h x hx name hn
    · intro h x hx name hn
      exact h name ⟨x, hx, hn⟩
  have hextended : (∀ x ∈ d, ∀ name, name ∈ x.extendedType? → name ∈ knownTypes d) ↔
      ∀ t ∈ d.types, t.isExtension = true → d.KnowsType t.name := by
    rw [hall]
    simp only [exists_extended_iff, mem_knownTypes_iff]
    constructor
    · intro h t ht he
      exact h _ ⟨t, ht, he, rfl⟩
    · rintro h _ ⟨t, ht, he, rfl⟩
      exact h t ht he
  have htypes : (∀ x ∈ d, ∀ name, name ∈ x.usedTypes → name ∈ knownTypes d) ↔
      ∀ name, d.UsesType name → d.KnowsType name := by
    rw [hall]
    simp only [exists_usedTypes_iff, mem_knownTypes_iff]
  have hdirectives : (∀ x ∈ d, ∀ name, name ∈ x.usedDirectives → name ∈ knownDirectives d) ↔
      ∀ name, d.AppliesDirective name → d.KnowsDirective name := by
    rw [hall]
    simp only [exists_usedDirectives_iff, mem_knownDirectives_iff]
  constructor
  · rintro ⟨hs, ht, ha, hk, hm, hv⟩
    rw [filter_definesSchema_length] at hs
    rw [filterMap_definedType?] at ht
    obtain ⟨hn, hb⟩ := nodup_knownDirectives_iff.1 ha
    exact ⟨hs, ht, hn, hb, hextended.1 fun x hx => (hk x hx).extended,
      htypes.1 fun x hx _ hn => (hk x hx).types hn,
      hdirectives.1 fun x hx _ hn => (hk x hx).directives hn, hm, hv⟩
  · rintro ⟨hs, ht, hn, hb, he, hu, hp, hm, hv⟩
    rw [← filter_definesSchema_length] at hs
    rw [← filterMap_definedType?] at ht
    exact ⟨hs, ht, nodup_knownDirectives_iff.2 ⟨hn, hb⟩,
      fun x hx => ⟨hextended.2 he x hx, fun name => htypes.2 hu x hx name,
        fun name => hdirectives.2 hp x hx name⟩, hm, hv⟩

end Document

/-- The check of a text finds nothing just if the text holds a document and this is well formed. -/
theorem validate_eq_nil_iff {source : String} :
    validate source = [] ↔ ∃ d, parse source = .ok d ∧ d.IsWellFormed := by
  unfold validate
  cases hp : parse source with
  | error fault => simp
  | ok d =>
    rw [faults_eq_nil_iff, Document.isValid_iff_isWellFormed]
    simp

end ApiStack.Sdl
