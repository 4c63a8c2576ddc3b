import ApiStack.Proofs.Sdl.Validation
import Mathlib

namespace ApiStack.Sdl

open Validation

section Repeats

variable {α : Type} [DecidableEq α] {seen seen' items items' : List α}

/-- The items that come behind an equal one, or that were seen before. -/
def repeats (seen : List α) : List α → List α
  | [] => []
  | a :: rest => (if a ∈ seen then [a] else []) ++ repeats (a :: seen) rest

/-- All occurrences of an item but the first are repeats, and the first one too if it was seen. -/
theorem count_repeats (a : α) :
    (repeats seen items).count a = items.count a - if a ∈ seen then 0 else 1 := by
  induction items generalizing seen with
  | nil => simp [repeats]
  | cons b rest ih =>
    rw [repeats, List.count_append, ih, List.count_cons]
    by_cases hb : b = a
    · subst hb
      by_cases hs : b ∈ seen
      · simp [hs, Nat.add_comm]
      · simp [hs]
    · have hne : ¬a = b := fun h => hb h.symm
      by_cases hs : b ∈ seen
      · simp [hs, hb, hne]
      · simp [hs, hb, hne]

theorem repeats_perm (h : items.Perm items') : (repeats seen items).Perm (repeats seen items') := by
  apply List.perm_iff_count.2
  intro a
  rw [count_repeats, count_repeats, h.count_eq]

theorem repeats_congr (h : ∀ a, a ∈ seen ↔ a ∈ seen') :
    repeats seen items = repeats seen' items := by
  induction items generalizing seen seen' with
  | nil => rfl
  | cons b rest ih =>
    have hcons : ∀ a, a ∈ b :: seen ↔ a ∈ b :: seen' := by
      intro a
      rw [List.mem_cons, List.mem_cons, h]
    rw [repeats, repeats, ih hcons]
    simp only [h]

theorem repeats_append (h : ∀ a, a ∈ seen' ↔ a ∈ items ∨ a ∈ seen) (more : List α) :
    repeats seen (items ++ more) = repeats seen items ++ repeats seen' more := by
  induction items generalizing seen with
  | nil =>
    apply repeats_congr
    intro a
    rw [h, or_iff_right List.not_mem_nil]
  | cons b rest ih =>
    have hrest : ∀ a, a ∈ seen' ↔ a ∈ rest ∨ a ∈ b :: seen := by
      intro a
      rw [h, List.mem_cons, List.mem_cons, or_assoc, or_left_comm]
    rw [List.cons_append, repeats, repeats, ih hrest, List.append_assoc]

theorem map_repeats_cons {β : Type} [BEq α] [LawfulBEq α] (f : α → β) (a : α) (rest : List α) :
    (repeats seen (a :: rest)).map f =
      (if seen.contains a then [f a] else []) ++ (repeats (a :: seen) rest).map f := by
  by_cases h : a ∈ seen <;> simp [repeats, h]

theorem map_repeats_singleton {β : Type} [BEq α] [LawfulBEq α] (f : α → β) (a : α) :
    (repeats seen [a]).map f = if seen.contains a then [f a] else [] := by
  rw [map_repeats_cons]
  exact List.append_nil _

end Repeats

theorem filterMap_cons_append {α β : Type} (f : α → Option β) (a : α) (rest : List α) :
    (a :: rest).filterMap f = (f a).toList ++ rest.filterMap f := by
  cases h : f a <;> simp [h]

/-- The faults of names that are used and not known, one for each use. -/
def missing (known : List String) (fault : String → Fault) (used : List String) : List Fault :=
  used.flatMap fun name => if known.contains name then [] else [fault name]

section Missing

variable {known known' : List String} {fault : String → Fault} {used used' : List String}

theorem missing_cons (name : String) : missing known fault (name :: used) =
    (if known.contains name then [] else [fault name]) ++ missing known fault used :=
  List.flatMap_cons

theorem missing_append : missing known fault (used ++ used') =
    missing known fault used ++ missing known fault used' :=
  List.flatMap_append

theorem missing_perm (hk : known.Perm known') (hu : used.Perm used') :
    (missing known fault used).Perm (missing known' fault used') := by
  have hsame : missing known fault used = missing known' fault used := by
    unfold missing
    simp only [hk.contains_eq]
  rw [hsame]
  exact hu.flatMap_right _

end Missing

def againField (key : String × String) : Fault := .repeatedField key.1 key.2

def againValue (key : String × String) : Fault := .repeatedEnumValue key.1 key.2

namespace Validation

variable {names : Names} {type : String} {seen : Seen}

theorem typeFaults_eq (name : String) : typeFaults names name =
    if names.types.contains name then [] else [.unknownType name] := rfl

theorem flatMap_typeFaults_eq (used : List String) :
    used.flatMap (typeFaults names) = missing names.types .unknownType used := rfl

theorem directiveFaults_eq (directives : List Directive) : directiveFaults names directives =
    missing names.directives .unknownDirective (directives.map Directive.name) := by
  rw [directiveFaults, missing, List.flatMap_map]

theorem inputFaults_perm (values : List InputValue) : (inputFaults names values).Perm
    (missing names.types .unknownType (inputTypes values)
      ++ missing names.directives .unknownDirective (inputDirectives values)) := by
  induction values with
  | nil => exact .refl _
  | cons v rest ih =>
    have hfaults : inputFaults names (v :: rest) = typeFaults names v.type.innermost
        ++ directiveFaults names v.directives ++ inputFaults names rest := List.flatMap_cons
    have htypes : inputTypes (v :: rest) = v.type.innermost :: inputTypes rest := rfl
    have hdirectives : inputDirectives (v :: rest) =
        v.directives.map Directive.name ++ inputDirectives rest := List.flatMap_cons
    apply List.perm_iff_count.2
    intro fault
    have hrest := ih.count_eq fault
    rw [hfaults, htypes, hdirectives, missing_cons, missing_append, directiveFaults_eq,
      typeFaults_eq]
    simp only [List.count_append] at hrest ⊢
    omega

theorem fieldFaults_perm (fields : List Field) : (fieldFaults names type seen fields).1.Perm
    ((repeats seen (fields.map fun f => (type, f.name))).map againField
      ++ missing names.types .unknownType (fields.flatMap Field.usedTypes)
      ++ missing names.directives .unknownDirective (fields.flatMap Field.usedDirectives)) := by
  induction fields generalizing seen with
  | nil => exact .refl _
  | cons f rest ih =>
    apply List.perm_iff_count.2
    intro fault
    have hinputs := (@inputFaults_perm names f.arguments).count_eq fault
    have hrest := (@ih ((type, f.name) :: seen)).count_eq fault
    rw [List.map_cons, map_repeats_cons]
    simp only [fieldFaults, List.flatMap_cons, Field.usedTypes, Field.usedDirectives,
      List.cons_append, typeFaults_eq, missing_cons, missing_append, directiveFaults_eq,
      againField, List.count_append] at hinputs hrest ⊢
    omega

theorem repeatedInputs_eq (values : List InputValue) : (repeatedInputs type seen values).1 =
    (repeats seen (values.map fun v => (type, v.name))).map againField := by
  induction values generalizing seen with
  | nil => rfl
  | cons v rest ih =>
    rw [List.map_cons, map_repeats_cons, ← ih]
    rfl

theorem enumFaults_perm (values : List EnumValue) : (enumFaults names type seen values).1.Perm
    ((repeats seen (values.map fun v => (type, v.name))).map againValue
      ++ missing names.directives .unknownDirective
        (values.flatMap fun v => v.directives.map Directive.name)) := by
  induction values generalizing seen with
  | nil => exact .refl _
  | cons v rest ih =>
    apply List.perm_iff_count.2
    intro fault
    have hrest := (@ih ((type, v.name) :: seen)).count_eq fault
    rw [List.map_cons, map_repeats_cons]
    simp only [enumFaults, List.flatMap_cons, missing_append, directiveFaults_eq, againValue,
      List.count_append] at hrest ⊢
    omega

variable {members : Members} {b : TypeBody} {x : Definition} {d : Document}

theorem bodyFaults_perm : (bodyFaults names type members b).1.Perm
    ((repeats members.fields (b.memberKeys type)).map againField
      ++ (repeats members.enumValues (b.valueKeys type)).map againValue
      ++ missing names.types .unknownType b.usedTypes
      ++ missing names.directives .unknownDirective b.usedDirectives) := by
  have hseen (key : String × String) :
      key ∈ (fieldFaults names type members.fields b.fields).2 ↔
        key ∈ b.fields.map (fun f => (type, f.name)) ∨ key ∈ members.fields := mem_fieldFaults
  -- The faults of a member come together but are sorted by kind here, so each fault is counted.
  apply List.perm_iff_count.2
  intro fault
  have hfields := (@fieldFaults_perm names type members.fields b.fields).count_eq fault
  have henum := (@enumFaults_perm names type members.enumValues b.enumValues).count_eq fault
  have hinputs := (@inputFaults_perm names b.inputs).count_eq fault
  rw [bodyFaults_eq, flatMap_typeFaults_eq, b.memberKeys_eq, b.valueKeys_eq, repeats_append hseen,
    repeatedInputs_eq]
  simp only [TypeBody.usedTypes, TypeBody.usedDirectives, missing_append, List.map_append,
    List.count_append] at hfields henum hinputs ⊢
  omega

theorem referenceFaults_perm : (referenceFaults names members x).1.Perm
    ((repeats members.fields x.memberKeys).map againField
      ++ (repeats members.enumValues x.valueKeys).map againValue
      ++ missing names.types .extendsNothing x.extendedType?.toList
      ++ missing names.types .unknownType x.usedTypes
      ++ missing names.directives .unknownDirective x.usedDirectives) := by
  cases x with
  | schema s =>
    rw [referenceFaults, flatMap_typeFaults_eq, directiveFaults_eq]
    exact List.perm_append_comm
  | type t =>
    have hextended : (if t.isExtension && !names.types.contains t.name then
        [Fault.extendsNothing t.name] else []) =
          missing names.types .extendsNothing (Definition.type t).extendedType?.toList := by
      by_cases hk : t.name ∈ names.types <;> cases he : t.isExtension <;>
        simp [Definition.extendedType?, missing, he, hk]
    apply List.perm_iff_count.2
    intro fault
    have hbody := (@bodyFaults_perm names t.name members t.body).count_eq fault
    simp only [referenceFaults, Definition.memberKeys, Definition.valueKeys, Definition.usedTypes,
      Definition.usedDirectives, hextended, directiveFaults_eq, missing_append,
      List.count_append] at hbody ⊢
    omega
  | directive a => exact inputFaults_perm a.arguments

theorem allReferenceFaults_perm : (allReferenceFaults names members d).Perm
    ((repeats members.fields (d.flatMap Definition.memberKeys)).map againField
      ++ (repeats members.enumValues (d.flatMap Definition.valueKeys)).map againValue
      ++ missing names.types .extendsNothing (d.filterMap Definition.extendedType?)
      ++ missing names.types .unknownType (d.flatMap Definition.usedTypes)
      ++ missing names.directives .unknownDirective (d.flatMap Definition.usedDirectives)) := by
  induction d generalizing members with
  | nil => exact .refl _
  | cons x rest ih =>
    have hfields (key : String × String) := @mem_fields_referenceFaults names members x key
    have hvalues (key : String × String) := @mem_enumValues_referenceFaults names members x key
    apply List.perm_iff_count.2
    intro fault
    have hfirst := (@referenceFaults_perm names members x).count_eq fault
    have hrest := (@ih (referenceFaults names members x).2).count_eq fault
    rw [List.flatMap_cons, List.flatMap_cons, repeats_append hfields, repeats_append hvalues,
      filterMap_cons_append]
    simp only [allReferenceFaults, List.flatMap_cons, List.map_append, missing_append,
      List.count_append] at hfirst hrest ⊢
    omega

theorem repeatedDefinition_eq {before : Document} : repeatedDefinition before x =
    (repeats (before.filterMap definedSchema?) (definedSchema? x).toList).map
        (fun _ => .secondSchema)
      ++ (repeats (before.filterMap definedType?) (definedType? x).toList).map .repeatedType
      ++ (repeats (knownDirectives before) (definedDirective? x).toList).map
        .repeatedDirective := by
  cases x with
  | schema s =>
    have hany : before.any definesSchema = (before.filterMap definedSchema?).contains () := by
      rw [Bool.eq_iff_iff, any_definesSchema_iff, List.contains_iff_mem]
    cases he : s.isExtension with
    | true =>
      have hnone : definedSchema? (.schema s) = none := by simp [definedSchema?, definesSchema, he]
      simp [hnone, repeatedDefinition, definedType?, definedDirective?, repeats, he]
    | false =>
      have hsome : definedSchema? (.schema s) = some () := by
        simp [definedSchema?, definesSchema, he]
      rw [hsome, Option.toList_some, map_repeats_singleton, ← hany]
      simp [repeatedDefinition, definedType?, definedDirective?, repeats, he]
  | type t =>
    have hschema : definedSchema? (.type t) = none := rfl
    cases he : t.isExtension with
    | true =>
      have hnone : definedType? (.type t) = none := by simp [definedType?, he]
      simp [hschema, hnone, repeatedDefinition, definedDirective?, repeats, he]
    | false =>
      have hsome : definedType? (.type t) = some t.name := by simp [definedType?, he]
      rw [hschema, hsome, Option.toList_some, map_repeats_singleton]
      simp [repeatedDefinition, definedDirective?, repeats, he]
  | directive a =>
    have hschema : definedSchema? (.directive a) = none := rfl
    have hsome : definedDirective? (.directive a) = some a.name := rfl
    rw [hschema, hsome, Option.toList_some, map_repeats_singleton]
    simp [repeatedDefinition, definedType?, repeats]

theorem repeatedDefinitions_perm {before : Document} : (repeatedDefinitions before d).Perm
    ((repeats (before.filterMap definedSchema?) (d.filterMap definedSchema?)).map
        (fun _ => .secondSchema)
      ++ (repeats (before.filterMap definedType?) (d.filterMap definedType?)).map .repeatedType
      ++ (repeats (knownDirectives before) (d.filterMap definedDirective?)).map
        .repeatedDirective) := by
  induction d generalizing before with
  | nil => exact .refl _
  | cons x rest ih =>
    have hafter {α : Type} {f : Definition → Option α} (a : α) :
        a ∈ (before ++ [x]).filterMap f ↔ a ∈ (f x).toList ∨ a ∈ before.filterMap f := by
      rw [Option.mem_toList]
      exact mem_filterMap_concat a
    have hdirectives (a : String) : a ∈ knownDirectives (before ++ [x]) ↔
        a ∈ (definedDirective? x).toList ∨ a ∈ knownDirectives before := by
      rw [Option.mem_toList]
      exact mem_knownDirectives_concat a
    apply List.perm_iff_count.2
    intro fault
    have hrest := (@ih (before ++ [x])).count_eq fault
    rw [filterMap_cons_append, filterMap_cons_append, filterMap_cons_append,
      repeats_append hafter, repeats_append hafter, repeats_append hdirectives,
      repeatedDefinitions, repeatedDefinition_eq]
    simp only [List.map_append, List.count_append] at hrest ⊢
    omega

end Validation

/-- The faults of a document by their kinds, each as often as there is a reason for it. -/
def Document.faultsByKind (d : Document) : List Fault :=
  (repeats [] (d.filterMap definedSchema?)).map (fun _ => .secondSchema)
    ++ (repeats [] (d.filterMap definedType?)).map .repeatedType
    ++ (repeats builtInDirectives (d.filterMap definedDirective?)).map .repeatedDirective
    ++ (repeats [] (d.flatMap Definition.memberKeys)).map againField
    ++ (repeats [] (d.flatMap Definition.valueKeys)).map againValue
    ++ missing (knownTypes d) .extendsNothing (d.filterMap Definition.extendedType?)
    ++ missing (knownTypes d) .unknownType (d.flatMap Definition.usedTypes)
    ++ missing (knownDirectives d) .unknownDirective (d.flatMap Definition.usedDirectives)

theorem faults_perm_faultsByKind (d : Document) : (faults d).Perm d.faultsByKind := by
  apply List.perm_iff_count.2
  intro fault
  have hrepeated := (@repeatedDefinitions_perm d []).count_eq fault
  have hreferences :=
    (@allReferenceFaults_perm ⟨knownTypes d, knownDirectives d⟩ ⟨[], []⟩ d).count_eq fault
  simp only [faults, Document.faultsByKind, List.count_append] at hrepeated hreferences ⊢
  rw [hrepeated, hreferences]
  simp only [List.filterMap_nil, knownDirectives, List.append_nil]
  omega

theorem faultsByKind_perm {d d' : Document} (h : d.Perm d') :
    d.faultsByKind.Perm d'.faultsByKind := by
  have htypes : (knownTypes d).Perm (knownTypes d') := (h.filterMap _).append_left _
  have hdirectives : (knownDirectives d).Perm (knownDirectives d') := (h.filterMap _).append_left _
  unfold Document.faultsByKind
  iterate 7 apply List.Perm.append
  · exact (repeats_perm (h.filterMap _)).map _
  · exact (repeats_perm (h.filterMap _)).map _
  · exact (repeats_perm (h.filterMap _)).map _
  · exact (repeats_perm (h.flatMap_right _)).map _
  · exact (repeats_perm (h.flatMap_right _)).map _
  · exact missing_perm htypes (h.filterMap _)
  · exact missing_perm htypes (h.flatMap_right _)
  · exact missing_perm hdirectives (h.flatMap_right _)

/-- Documents of the same definitions have the same faults, each as often, in whatever order the
definitions stand. So have the texts that hold such documents. -/
theorem messages_of_perm {d d' : Document} (h : d.Perm d') :
    ((faults d).map Fault.message).Perm ((faults d').map Fault.message) ∧
      ∀ source source', parse source = .ok d → parse source' = .ok d' →
        ((validate source).map Fault.message).Perm ((validate source').map Fault.message) := by
  have hfaults : (faults d).Perm (faults d') :=
    (faults_perm_faultsByKind d).trans
      ((faultsByKind_perm h).trans (faults_perm_faultsByKind d').symm)
  constructor
  · exact hfaults.map _
  · intro source source' hs hs'
    rw [validate_of_parse hs, validate_of_parse hs']
    exact hfaults.map _

/-- A type that is defined twice, and an enumeration that is only extended. -/
def blamedText : String := "type A \x7b x: B \x7d type A \x7b x: Int \x7d extend enum C \x7b V \x7d"

def blamedDocument : Document := [
  .type ⟨false, none, "A", [], .object [] [⟨none, "x", [], .named "B" false, []⟩]⟩,
  .type ⟨false, none, "A", [], .object [] [⟨none, "x", [], .named "Int" false, []⟩]⟩,
  .type ⟨true, none, "C", [], .enumeration [⟨none, "V", []⟩]⟩]

def reversedText : String :=
  "extend enum C \x7b V \x7d type A \x7b x: Int \x7d type A \x7b x: B \x7d"

set_option maxRecDepth 100000 in
theorem parse_blamedText : parse blamedText = .ok blamedDocument := by
  cbv

set_option maxRecDepth 100000 in
theorem parse_reversedText : parse reversedText = .ok blamedDocument.reverse := by
  cbv

theorem messages_reversed : blamedDocument.Perm blamedDocument.reverse ∧
    (validate blamedText).map Fault.message = ["There can be only one type named \"A\".",
      "Unknown type \"B\".", "Field \"A.x\" can only be defined once.",
      "Cannot extend type \"C\" because it is not defined."] ∧
    (validate reversedText).map Fault.message = ["There can be only one type named \"A\".",
      "Cannot extend type \"C\" because it is not defined.",
      "Field \"A.x\" can only be defined once.", "Unknown type \"B\"."] ∧
    ((validate blamedText).map Fault.message).Perm ((validate reversedText).map Fault.message) := by
  have hperm : blamedDocument.Perm blamedDocument.reverse := (List.reverse_perm _).symm
  have hsame := (messages_of_perm hperm).2 _ _ parse_blamedText parse_reversedText
  refine ⟨hperm, ?_, ?_, hsame⟩
  · rw [validate_of_parse parse_blamedText]
    decide +kernel
  · rw [validate_of_parse parse_reversedText]
    decide +kernel

end ApiStack.Sdl
