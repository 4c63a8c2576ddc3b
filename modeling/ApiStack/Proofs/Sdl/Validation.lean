import ApiStack.Proofs.Sdl.Union
import ApiStack.Sdl.Validation
import Mathlib.Data.List.Flatten

namespace ApiStack.Sdl

open Validation

def inputTypes (values : List InputValue) : List String := values.map fun v => v.type.innermost

def inputDirectives (values : List InputValue) : List String :=
  values.flatMap fun v => v.directives.map Directive.name

def Field.usedTypes (f : Field) : List String := f.type.innermost :: inputTypes f.arguments

def Field.usedDirectives (f : Field) : List String :=
  f.directives.map Directive.name ++ inputDirectives f.arguments

namespace TypeBody

/-- The names of fields or input fields. -/
def memberNames (b : TypeBody) : List String :=
  b.fields.map Field.name ++ b.inputs.map InputValue.name

def valueNames (b : TypeBody) : List String := b.enumValues.map EnumValue.name

def usedTypes (b : TypeBody) : List String :=
  b.names ++ b.fields.flatMap Field.usedTypes ++ inputTypes b.inputs

def usedDirectives (b : TypeBody) : List String :=
  b.fields.flatMap Field.usedDirectives
    ++ (b.enumValues.flatMap fun v => v.directives.map Directive.name)
    ++ inputDirectives b.inputs

end TypeBody

namespace Definition

def usedTypes : Definition → List String
  | .schema s => [s.query, s.mutation, s.subscription].filterMap id
  | .type t => t.body.usedTypes
  | .directive d => inputTypes d.arguments

def usedDirectives : Definition → List String
  | .schema s => s.directives.map Directive.name
  | .type t => t.directives.map Directive.name ++ t.body.usedDirectives
  | .directive d => inputDirectives d.arguments

def extendedType? : Definition → Option String
  | .type t => if t.isExtension then some t.name else none
  | _ => none

structure IsKnown (names : Names) (x : Definition) : Prop where
  extended : ∀ name ∈ x.extendedType?, name ∈ names.types
  types : x.usedTypes ⊆ names.types
  directives : x.usedDirectives ⊆ names.directives

end Definition

namespace Document

/-- The fields or input fields of a type over all its definitions and extensions. -/
def membersOf (d : Document) (type : String) : List String :=
  (d.types.filter fun t => t.name = type).flatMap fun t => t.body.memberNames

/-- The values of an enumeration over all its definitions and extensions. -/
def valuesOf (d : Document) (type : String) : List String :=
  (d.types.filter fun t => t.name = type).flatMap fun t => t.body.valueNames

/-- Nothing is defined twice, no type has two members of one name, and all that is referred to is
defined or built in. -/
structure IsValid (d : Document) : Prop where
  schema : (d.filter definesSchema).length ≤ 1
  types : (d.filterMap definedType?).Nodup
  directives : (knownDirectives d).Nodup
  known : ∀ x ∈ d, x.IsKnown ⟨knownTypes d, knownDirectives d⟩
  members : ∀ type, (d.membersOf type).Nodup
  values : ∀ type, (d.valuesOf type).Nodup

end Document

/-- Items that are different from each other and from those seen. -/
def IsFresh (seen items : List α) : Prop := items.Nodup ∧ items.Disjoint seen

section IsFresh

variable {seen seen' items more : List α}

theorem isFresh_nil : IsFresh seen [] := ⟨.nil, List.disjoint_nil_left seen⟩

theorem isFresh_empty : IsFresh [] items ↔ items.Nodup :=
  and_iff_left (List.disjoint_nil_right items)

theorem isFresh_append_iff (h : ∀ a, a ∈ seen' ↔ a ∈ items ∨ a ∈ seen) :
    IsFresh seen (items ++ more) ↔ IsFresh seen items ∧ IsFresh seen' more := by
  have hseen : more.Disjoint seen' ↔ items.Disjoint more ∧ more.Disjoint seen := by
    constructor
    · intro hm
      exact ⟨fun a hi ha => hm ha ((h a).2 (.inl hi)), fun a ha hs => hm ha ((h a).2 (.inr hs))⟩
    · rintro ⟨hi, hs⟩ a ha ha'
      rcases (h a).1 ha' with hm | hm
      · exact hi hm ha
      · exact hs ha hm
  unfold IsFresh
  rw [List.nodup_append', List.disjoint_append_left, hseen]
  tauto

theorem isFresh_cons_iff {a : α} (h : ∀ b, b ∈ seen' ↔ b = a ∨ b ∈ seen) :
    IsFresh seen (a :: items) ↔ a ∉ seen ∧ IsFresh seen' items := by
  have hone : IsFresh seen [a] ↔ a ∉ seen := by
    unfold IsFresh
    rw [List.singleton_disjoint]
    exact and_iff_right (List.nodup_singleton a)
  have hseen : ∀ b, b ∈ seen' ↔ b ∈ [a] ∨ b ∈ seen := by
    intro b
    rw [h, List.mem_singleton]
  rw [← hone, ← isFresh_append_iff hseen, List.singleton_append]

end IsFresh

/-- Items have no key twice just if those of one kind have none twice. -/
theorem nodup_flatMap_keys_iff [DecidableEq κ] {items : List α} {kind : α → κ}
    {keys : α → List β} :
    (items.flatMap fun a => (keys a).map (kind a, ·)).Nodup ↔
      ∀ k, ((items.filter fun a => kind a = k).flatMap keys).Nodup := by
  have hinj (a : α) : Function.Injective fun b : β => (kind a, b) :=
    fun _ _ he => (Prod.mk.inj he).2
  induction items with
  | nil => simp
  | cons a rest ih =>
    have hmem (b : β) : (kind a, b) ∈ (rest.flatMap fun a => (keys a).map (kind a, ·)) ↔
        b ∈ (rest.filter fun c => kind c = kind a).flatMap keys := by
      simp only [List.mem_flatMap, List.mem_map, Prod.mk.injEq, List.mem_filter,
        decide_eq_true_eq]
      constructor
      · rintro ⟨c, hc, b', hb, hk, rfl⟩
        exact ⟨c, ⟨hc, hk⟩, hb⟩
      · rintro ⟨c, ⟨hc, hk⟩, hb⟩
        exact ⟨c, hc, b, hb, hk, rfl⟩
    have hdisjoint : ((keys a).map (kind a, ·)).Disjoint
        (rest.flatMap fun a => (keys a).map (kind a, ·)) ↔
          (keys a).Disjoint ((rest.filter fun c => kind c = kind a).flatMap keys) := by
      constructor
      · intro hd b hb hr
        exact hd (List.mem_map_of_mem hb) ((hmem b).2 hr)
      · intro hd p hp hr
        obtain ⟨b, hb, rfl⟩ := List.mem_map.1 hp
        exact hd hb ((hmem b).1 hr)
    rw [List.flatMap_cons, List.nodup_append', List.nodup_map_iff (hinj a), hdisjoint]
    constructor
    · rintro ⟨ha, hr, hd⟩ k
      rw [List.filter_cons]
      by_cases hk : kind a = k
      · subst hk
        rw [if_pos (decide_eq_true rfl), List.flatMap_cons, List.nodup_append']
        exact ⟨ha, ih.1 hr _, hd⟩
      · rw [if_neg (fun h => hk (of_decide_eq_true h))]
        exact ih.1 hr k
    · intro h
      have ha := h (kind a)
      rw [List.filter_cons, if_pos (decide_eq_true rfl), List.flatMap_cons,
        List.nodup_append'] at ha
      refine ⟨ha.1, ih.2 fun k => (h k).sublist ?_, ha.2.2⟩
      exact ((List.sublist_cons_self a rest).filter _).flatMap keys

namespace Validation

variable {names : Names}

theorem typeFaults_eq_nil_iff {name : String} :
    typeFaults names name = [] ↔ name ∈ names.types := by
  simp [typeFaults]

theorem flatMap_typeFaults_eq_nil_iff {used : List String} :
    used.flatMap (typeFaults names) = [] ↔ used ⊆ names.types := by
  simp only [List.flatMap_eq_nil_iff, typeFaults_eq_nil_iff]
  rfl

theorem directiveFaults_eq_nil_iff {directives : List Directive} :
    directiveFaults names directives = [] ↔
      directives.map Directive.name ⊆ names.directives := by
  simp [directiveFaults, List.subset_def]

theorem inputFaults_eq_nil_iff {values : List InputValue} : inputFaults names values = [] ↔
    inputTypes values ⊆ names.types ∧ inputDirectives values ⊆ names.directives := by
  induction values with
  | nil => simp [inputFaults, inputTypes, inputDirectives]
  | cons v rest ih =>
    simp only [inputFaults, inputTypes, inputDirectives] at ih
    simp only [inputFaults, inputTypes, inputDirectives, List.flatMap_cons, List.map_cons,
      List.append_eq_nil_iff, typeFaults_eq_nil_iff, directiveFaults_eq_nil_iff, ih,
      List.append_subset, List.cons_subset]
    tauto

theorem repeated_eq_nil_iff {seen : Seen} {key : String × String} {fault : Fault} :
    (if seen.contains key then [fault] else []) = [] ↔ key ∉ seen := by
  simp

theorem mem_fieldFaults {type : String} {seen : Seen} {fields : List Field}
    {key : String × String} : key ∈ (fieldFaults names type seen fields).2 ↔
      key ∈ fields.map (fun f => (type, f.name)) ∨ key ∈ seen := by
  induction fields generalizing seen with
  | nil => simp [fieldFaults]
  | cons f rest ih => simp [fieldFaults, ih, or_assoc, or_left_comm]

theorem fieldFaults_eq_nil_iff {type : String} {seen : Seen} {fields : List Field} :
    (fieldFaults names type seen fields).1 = [] ↔
      fields.flatMap Field.usedTypes ⊆ names.types ∧
      fields.flatMap Field.usedDirectives ⊆ names.directives ∧
      IsFresh seen (fields.map fun f => (type, f.name)) := by
  induction fields generalizing seen with
  | nil => simp [fieldFaults, isFresh_nil]
  | cons f rest ih =>
    rw [List.map_cons, isFresh_cons_iff (fun _ => List.mem_cons)]
    simp only [fieldFaults, List.append_eq_nil_iff, repeated_eq_nil_iff, typeFaults_eq_nil_iff,
      directiveFaults_eq_nil_iff, inputFaults_eq_nil_iff, ih, List.flatMap_cons, Field.usedTypes,
      Field.usedDirectives, List.append_subset, List.cons_subset]
    tauto

theorem mem_repeatedInputs {type : String} {seen : Seen} {values : List InputValue}
    {key : String × String} : key ∈ (repeatedInputs type seen values).2 ↔
      key ∈ values.map (fun v => (type, v.name)) ∨ key ∈ seen := by
  induction values generalizing seen with
  | nil => simp [repeatedInputs]
  | cons v rest ih => simp [repeatedInputs, ih, or_assoc, or_left_comm]

theorem repeatedInputs_eq_nil_iff {type : String} {seen : Seen} {values : List InputValue} :
    (repeatedInputs type seen values).1 = [] ↔
      IsFresh seen (values.map fun v => (type, v.name)) := by
  induction values generalizing seen with
  | nil => simp [repeatedInputs, isFresh_nil]
  | cons v rest ih =>
    rw [List.map_cons, isFresh_cons_iff (fun _ => List.mem_cons)]
    simp only [repeatedInputs, List.append_eq_nil_iff, repeated_eq_nil_iff, ih]

theorem mem_enumFaults {type : String} {seen : Seen} {values : List EnumValue}
    {key : String × String} : key ∈ (enumFaults names type seen values).2 ↔
      key ∈ values.map (fun v => (type, v.name)) ∨ key ∈ seen := by
  induction values generalizing seen with
  | nil => simp [enumFaults]
  | cons v rest ih => simp [enumFaults, ih, or_assoc, or_left_comm]

theorem enumFaults_eq_nil_iff {type : String} {seen : Seen} {values : List EnumValue} :
    (enumFaults names type seen values).1 = [] ↔
      (values.flatMap fun v => v.directives.map Directive.name) ⊆ names.directives ∧
      IsFresh seen (values.map fun v => (type, v.name)) := by
  induction values generalizing seen with
  | nil => simp [enumFaults, isFresh_nil]
  | cons v rest ih =>
    rw [List.map_cons, isFresh_cons_iff (fun _ => List.mem_cons)]
    simp only [enumFaults, List.append_eq_nil_iff, repeated_eq_nil_iff,
      directiveFaults_eq_nil_iff, ih, List.flatMap_cons, List.append_subset]
    tauto

end Validation

def TypeBody.memberKeys (b : TypeBody) (type : String) : Seen := b.memberNames.map (type, ·)

def TypeBody.valueKeys (b : TypeBody) (type : String) : Seen := b.valueNames.map (type, ·)

theorem TypeBody.memberKeys_eq (b : TypeBody) (type : String) : b.memberKeys type =
    (b.fields.map fun f => (type, f.name)) ++ b.inputs.map fun v => (type, v.name) := by
  simp [memberKeys, memberNames, Function.comp_def]

theorem TypeBody.valueKeys_eq (b : TypeBody) (type : String) :
    b.valueKeys type = b.enumValues.map fun v => (type, v.name) := by
  simp [valueKeys, valueNames]

def Definition.memberKeys : Definition → Seen
  | .type t => t.body.memberKeys t.name
  | _ => []

def Definition.valueKeys : Definition → Seen
  | .type t => t.body.valueKeys t.name
  | _ => []

namespace Validation

variable {names : Names} {type : String} {seen : Members} {b : TypeBody}

/-- The faults of a body are those of its parts, most of which are empty in every body. -/
theorem bodyFaults_eq : (bodyFaults names type seen b).1 =
    b.names.flatMap (typeFaults names)
      ++ (fieldFaults names type seen.fields b.fields).1
      ++ (enumFaults names type seen.enumValues b.enumValues).1
      ++ (repeatedInputs type (fieldFaults names type seen.fields b.fields).2 b.inputs).1
      ++ inputFaults names b.inputs := by
  cases b <;> simp [bodyFaults, TypeBody.names, TypeBody.fields, TypeBody.enumValues,
    TypeBody.inputs, fieldFaults, enumFaults, repeatedInputs, inputFaults]

theorem bodyFaults_eq_nil_iff : (bodyFaults names type seen b).1 = [] ↔
    b.usedTypes ⊆ names.types ∧ b.usedDirectives ⊆ names.directives ∧
    IsFresh seen.fields (b.memberKeys type) ∧ IsFresh seen.enumValues (b.valueKeys type) := by
  have hseen (key : String × String) : key ∈ (fieldFaults names type seen.fields b.fields).2 ↔
      key ∈ b.fields.map (fun f => (type, f.name)) ∨ key ∈ seen.fields := mem_fieldFaults
  rw [bodyFaults_eq, b.memberKeys_eq, b.valueKeys_eq, isFresh_append_iff hseen]
  simp only [List.append_eq_nil_iff, flatMap_typeFaults_eq_nil_iff, fieldFaults_eq_nil_iff,
    enumFaults_eq_nil_iff, repeatedInputs_eq_nil_iff, inputFaults_eq_nil_iff,
    TypeBody.usedTypes, TypeBody.usedDirectives, List.append_subset]
  tauto

theorem mem_fields_bodyFaults {key : String × String} :
    key ∈ (bodyFaults names type seen b).2.fields ↔
      key ∈ b.memberKeys type ∨ key ∈ seen.fields := by
  have hfields : (bodyFaults names type seen b).2.fields =
      (repeatedInputs type (fieldFaults names type seen.fields b.fields).2 b.inputs).2 := by
    cases b <;> rfl
  rw [hfields, mem_repeatedInputs, mem_fieldFaults, b.memberKeys_eq, List.mem_append]
  tauto

theorem mem_enumValues_bodyFaults {key : String × String} :
    key ∈ (bodyFaults names type seen b).2.enumValues ↔
      key ∈ b.valueKeys type ∨ key ∈ seen.enumValues := by
  have hvalues : (bodyFaults names type seen b).2.enumValues =
      (enumFaults names type seen.enumValues b.enumValues).2 := by
    cases b <;> rfl
  rw [hvalues, mem_enumFaults, b.valueKeys_eq]

variable {x : Definition}

theorem referenceFaults_eq_nil_iff : (referenceFaults names seen x).1 = [] ↔
    x.IsKnown names ∧ IsFresh seen.fields x.memberKeys ∧ IsFresh seen.enumValues x.valueKeys := by
  have hnil {seen : Seen} : IsFresh seen [] := isFresh_nil
  have hknown : x.IsKnown names ↔ (∀ name ∈ x.extendedType?, name ∈ names.types) ∧
      x.usedTypes ⊆ names.types ∧ x.usedDirectives ⊆ names.directives :=
    ⟨fun h => ⟨h.extended, h.types, h.directives⟩, fun h => ⟨h.1, h.2.1, h.2.2⟩⟩
  rw [hknown]
  cases x with
  | schema s =>
    simp only [referenceFaults, List.append_eq_nil_iff, directiveFaults_eq_nil_iff,
      flatMap_typeFaults_eq_nil_iff, Definition.extendedType?, Definition.usedTypes,
      Definition.usedDirectives, Definition.memberKeys, Definition.valueKeys]
    have hnone : ∀ name ∈ (none : Option String), name ∈ names.types :=
      fun name hm => absurd hm (Option.not_mem_none name)
    tauto
  | type t =>
    have hext : (if t.isExtension && !names.types.contains t.name then
        [Fault.extendsNothing t.name] else []) = [] ↔
          ∀ name ∈ (Definition.type t).extendedType?, name ∈ names.types := by
      cases he : t.isExtension <;> simp [Definition.extendedType?, he]
    simp only [referenceFaults, List.append_eq_nil_iff, hext, directiveFaults_eq_nil_iff,
      bodyFaults_eq_nil_iff, Definition.usedTypes, Definition.usedDirectives,
      Definition.memberKeys, Definition.valueKeys, List.append_subset]
    tauto
  | directive d =>
    simp only [referenceFaults, inputFaults_eq_nil_iff, Definition.extendedType?,
      Definition.usedTypes, Definition.usedDirectives, Definition.memberKeys,
      Definition.valueKeys]
    have hnone : ∀ name ∈ (none : Option String), name ∈ names.types :=
      fun name hm => absurd hm (Option.not_mem_none name)
    tauto

theorem mem_fields_referenceFaults {key : String × String} :
    key ∈ (referenceFaults names seen x).2.fields ↔ key ∈ x.memberKeys ∨ key ∈ seen.fields := by
  cases x with
  | type t => exact mem_fields_bodyFaults
  | schema _ => exact (or_iff_right List.not_mem_nil).symm
  | directive _ => exact (or_iff_right List.not_mem_nil).symm

theorem mem_enumValues_referenceFaults {key : String × String} :
    key ∈ (referenceFaults names seen x).2.enumValues ↔
      key ∈ x.valueKeys ∨ key ∈ seen.enumValues := by
  cases x with
  | type t => exact mem_enumValues_bodyFaults
  | schema _ => exact (or_iff_right List.not_mem_nil).symm
  | directive _ => exact (or_iff_right List.not_mem_nil).symm

theorem allReferenceFaults_eq_nil_iff {d : Document} : allReferenceFaults names seen d = [] ↔
    (∀ x ∈ d, x.IsKnown names) ∧ IsFresh seen.fields (d.flatMap Definition.memberKeys) ∧
      IsFresh seen.enumValues (d.flatMap Definition.valueKeys) := by
  induction d generalizing seen with
  | nil => simp [allReferenceFaults, isFresh_nil]
  | cons x rest ih =>
    have hfields (key : String × String) : key ∈ (referenceFaults names seen x).2.fields ↔
        key ∈ x.memberKeys ∨ key ∈ seen.fields := mem_fields_referenceFaults
    have hvalues (key : String × String) : key ∈ (referenceFaults names seen x).2.enumValues ↔
        key ∈ x.valueKeys ∨ key ∈ seen.enumValues := mem_enumValues_referenceFaults
    rw [List.flatMap_cons, List.flatMap_cons, isFresh_append_iff hfields,
      isFresh_append_iff hvalues, allReferenceFaults, List.append_eq_nil_iff,
      referenceFaults_eq_nil_iff, ih, List.forall_mem_cons]
    tauto

/-- That a definition defines the schema, as something that may be there once. -/
def definedSchema? (x : Definition) : Option Unit := if definesSchema x then some () else none

theorem isFresh_filterMap_cons_iff {f : Definition → Option α} {before after : List α}
    {rest : Document} (h : ∀ a, a ∈ after ↔ a ∈ f x ∨ a ∈ before) :
    IsFresh before ((x :: rest).filterMap f) ↔
      (∀ a ∈ f x, a ∉ before) ∧ IsFresh after (rest.filterMap f) := by
  cases hx : f x with
  | none =>
    have hsame : ∀ a, a ∈ after ↔ a ∈ [] ∨ a ∈ before := by simpa [hx] using h
    rw [List.filterMap_cons_none hx, ← List.nil_append (rest.filterMap f),
      isFresh_append_iff hsame, List.nil_append]
    exact and_congr_left fun _ => iff_of_true isFresh_nil nofun
  | some a =>
    have hcons : ∀ b, b ∈ after ↔ b = a ∨ b ∈ before := by simpa [hx, eq_comm] using h
    rw [List.filterMap_cons_some hx, isFresh_cons_iff hcons]
    simp

theorem any_definesSchema_iff {d : Document} :
    d.any definesSchema = true ↔ () ∈ d.filterMap definedSchema? := by
  simp only [List.any_eq_true, List.mem_filterMap, definedSchema?, Option.ite_none_right_eq_some,
    and_true]

theorem repeatedDefinition_eq_nil_iff {before : Document} :
    repeatedDefinition before x = [] ↔
      (∀ a ∈ definedSchema? x, a ∉ before.filterMap definedSchema?) ∧
      (∀ a ∈ definedType? x, a ∉ before.filterMap definedType?) ∧
      ∀ a ∈ definedDirective? x, a ∉ knownDirectives before := by
  cases x with
  | schema s =>
    have hs (a : Unit) : a ∈ definedSchema? (.schema s) ↔ s.isExtension = false := by
      simp [definedSchema?, definesSchema]
    have hany := any_definesSchema_iff (d := before)
    simp only [hs, repeatedDefinition, definedType?, definedDirective?, ← hany]
    cases s.isExtension <;> simp
  | type t =>
    cases he : t.isExtension <;>
      simp [repeatedDefinition, definedSchema?, definesSchema, definedType?, definedDirective?, he]
  | directive d =>
    simp [repeatedDefinition, definedSchema?, definesSchema, definedType?, definedDirective?]

theorem mem_filterMap_concat {before : Document} {f : Definition → Option α} (a : α) :
    a ∈ (before ++ [x]).filterMap f ↔ a ∈ f x ∨ a ∈ before.filterMap f := by
  simp [or_comm]

theorem mem_knownDirectives_concat {before : Document} (a : String) :
    a ∈ knownDirectives (before ++ [x]) ↔ a ∈ definedDirective? x ∨ a ∈ knownDirectives before := by
  rw [knownDirectives, List.mem_append, mem_filterMap_concat, knownDirectives, List.mem_append]
  exact or_left_comm

theorem repeatedDefinitions_eq_nil_iff {before d : Document} :
    repeatedDefinitions before d = [] ↔
      IsFresh (before.filterMap definedSchema?) (d.filterMap definedSchema?) ∧
      IsFresh (before.filterMap definedType?) (d.filterMap definedType?) ∧
      IsFresh (knownDirectives before) (d.filterMap definedDirective?) := by
  induction d generalizing before with
  | nil => simp [repeatedDefinitions, isFresh_nil]
  | cons x rest ih =>
    rw [isFresh_filterMap_cons_iff mem_filterMap_concat,
      isFresh_filterMap_cons_iff mem_filterMap_concat,
      isFresh_filterMap_cons_iff mem_knownDirectives_concat, repeatedDefinitions,
      List.append_eq_nil_iff, repeatedDefinition_eq_nil_iff, ih]
    tauto

end Validation

namespace Document

theorem flatMap_memberKeys (d : Document) : d.flatMap Definition.memberKeys =
    d.types.flatMap fun t => t.body.memberNames.map (t.name, ·) := by
  induction d with
  | nil => rfl
  | cons x rest ih => cases x <;> simp [types, Definition.memberKeys, TypeBody.memberKeys, ih]

theorem flatMap_valueKeys (d : Document) : d.flatMap Definition.valueKeys =
    d.types.flatMap fun t => t.body.valueNames.map (t.name, ·) := by
  induction d with
  | nil => rfl
  | cons x rest ih => cases x <;> simp [types, Definition.valueKeys, TypeBody.valueKeys, ih]

theorem nodup_filterMap_definedSchema?_iff (d : Document) :
    (d.filterMap definedSchema?).Nodup ↔ (d.filter definesSchema).length ≤ 1 := by
  have hunits : d.filterMap definedSchema? =
      List.replicate (d.filter definesSchema).length () := by
    induction d with
    | nil => rfl
    | cons x rest ih =>
      cases h : definesSchema x <;> simp [definedSchema?, h, ih, List.replicate_succ]
  rw [hunits, List.nodup_replicate]

end Document

/-- A document has no faults just if it is valid. -/
theorem faults_eq_nil_iff {d : Document} : faults d = [] ↔ d.IsValid := by
  have hdirectives : IsFresh builtInDirectives (d.filterMap definedDirective?) ↔
      (knownDirectives d).Nodup := by
    have hb : builtInDirectives.Nodup := by decide
    rw [knownDirectives, List.nodup_append', IsFresh, List.disjoint_comm]
    tauto
  have hvalid : d.IsValid ↔ (d.filter definesSchema).length ≤ 1 ∧
      (d.filterMap definedType?).Nodup ∧ (knownDirectives d).Nodup ∧
      (∀ x ∈ d, x.IsKnown ⟨knownTypes d, knownDirectives d⟩) ∧
      (∀ type, (d.membersOf type).Nodup) ∧ ∀ type, (d.valuesOf type).Nodup :=
    ⟨fun ⟨s, t, a, k, m, v⟩ => ⟨s, t, a, k, m, v⟩, fun ⟨s, t, a, k, m, v⟩ => ⟨s, t, a, k, m, v⟩⟩
  rw [faults, List.append_eq_nil_iff, repeatedDefinitions_eq_nil_iff,
    allReferenceFaults_eq_nil_iff, hvalid]
  simp only [List.filterMap_nil, isFresh_empty, Document.flatMap_memberKeys,
    Document.flatMap_valueKeys, nodup_flatMap_keys_iff,
    Document.nodup_filterMap_definedSchema?_iff, Document.membersOf, Document.valuesOf]
  have hnil : knownDirectives [] = builtInDirectives := rfl
  rw [hnil, hdirectives]
  tauto

theorem validate_of_parse {source : String} {d : Document} (h : parse source = .ok d) :
    validate source = faults d := by
  unfold validate
  rw [h]

end ApiStack.Sdl
