import ApiStack.Proofs.Sdl.Merge
import ApiStack.Proofs.Sdl.Validation
import Mathlib.Data.List.Perm.Basic

namespace ApiStack.Sdl

open Validation

theorem nodup_append_of_subset {items old new : List α} (h : (items ++ old).Nodup)
    (hn : new.Nodup) (hs : new ⊆ old) : (items ++ new).Nodup := by
  obtain ⟨hi, -, hd⟩ := List.nodup_append'.1 h
  exact List.nodup_append'.2 ⟨hi, hn, List.disjoint_of_subset_right hs hd⟩

namespace Document

/-- A document says nothing that another one does not say. -/
structure IsCoveredBy (m d : Document) : Prop where
  schema : (m.filter definesSchema).length ≤ (d.filter definesSchema).length
  types : (m.filterMap definedType?).Nodup
  mem_types : ∀ name, name ∈ m.filterMap definedType? ↔ name ∈ d.filterMap definedType?
  directives : (m.filterMap definedDirective?).Nodup
  mem_directives : ∀ name,
    name ∈ m.filterMap definedDirective? ↔ name ∈ d.filterMap definedDirective?
  extended : ∀ x ∈ m, ∀ name ∈ x.extendedType?, ∃ y ∈ d, name ∈ y.extendedType?
  usedTypes : ∀ x ∈ m, x.usedTypes ⊆ d.flatMap Definition.usedTypes
  usedDirectives : ∀ x ∈ m, x.usedDirectives ⊆ d.flatMap Definition.usedDirectives
  members : ∀ type, (m.membersOf type).Nodup ∧ m.membersOf type ⊆ d.membersOf type
  values : ∀ type, (m.valuesOf type).Nodup ∧ m.valuesOf type ⊆ d.valuesOf type

theorem membersOf_append (a b : Document) (type : String) :
    Document.membersOf (a ++ b) type = a.membersOf type ++ b.membersOf type := by
  rw [membersOf, types_append, List.filter_append, List.flatMap_append]
  rfl

theorem valuesOf_append (a b : Document) (type : String) :
    Document.valuesOf (a ++ b) type = a.valuesOf type ++ b.valuesOf type := by
  rw [valuesOf, types_append, List.filter_append, List.flatMap_append]
  rfl

/-- What a valid document says can be replaced by a document that it covers. -/
theorem IsValid.of_covered {before d m : Document} (h : IsValid (before ++ d))
    (hc : m.IsCoveredBy d) : IsValid (before ++ m) := by
  have htypes : knownTypes (before ++ d) ⊆ knownTypes (before ++ m) := by
    intro name hn
    simp only [knownTypes, List.filterMap_append, List.mem_append, ← hc.mem_types] at hn ⊢
    exact hn
  have hdirectives : knownDirectives (before ++ d) ⊆ knownDirectives (before ++ m) := by
    intro name hn
    simp only [knownDirectives, List.filterMap_append, List.mem_append,
      ← hc.mem_directives] at hn ⊢
    exact hn
  have hall {used : Definition → List String} {known : List String}
      (hd : ∀ y ∈ before ++ d, used y ⊆ known) : d.flatMap used ⊆ known := by
    intro name hn
    obtain ⟨y, hy, hn⟩ := List.mem_flatMap.1 hn
    exact hd y (List.mem_append_right before hy) hn
  have hused := hall fun y hy => (h.known y hy).types
  have happlied := hall fun y hy => (h.known y hy).directives
  refine ⟨?_, ?_, ?_, ?_, ?_, ?_⟩
  · have hs := h.schema
    have hm := hc.schema
    rw [List.filter_append, List.length_append] at hs ⊢
    omega
  · have ht := h.types
    rw [List.filterMap_append] at ht ⊢
    exact nodup_append_of_subset ht hc.types fun name hn => (hc.mem_types name).1 hn
  · have hd := h.directives
    rw [knownDirectives, List.filterMap_append, ← List.append_assoc] at hd ⊢
    exact nodup_append_of_subset hd hc.directives fun name hn => (hc.mem_directives name).1 hn
  · intro x hx
    rcases List.mem_append.1 hx with hx | hx
    · obtain ⟨he, ht, hd⟩ := h.known x (List.mem_append_left d hx)
      exact ⟨fun name hn => htypes (he name hn), List.Subset.trans ht htypes,
        List.Subset.trans hd hdirectives⟩
    · refine ⟨fun name hn => ?_,
        fun name hn => htypes (hused (hc.usedTypes x hx hn)),
        fun name hn => hdirectives (happlied (hc.usedDirectives x hx hn))⟩
      obtain ⟨y, hy, hn⟩ := hc.extended x hx name hn
      exact htypes ((h.known y (List.mem_append_right before hy)).extended name hn)
  · intro type
    have hm := h.members type
    rw [membersOf_append] at hm ⊢
    exact nodup_append_of_subset hm (hc.members type).1 (hc.members type).2
  · intro type
    have hv := h.values type
    rw [valuesOf_append] at hv ⊢
    exact nodup_append_of_subset hv (hc.values type).1 (hc.values type).2

end Document

theorem filter_eq_singleton [DecidableEq κ] {key : α → κ} {items : List α} {a : α}
    (h : (items.map key).Nodup) (ha : a ∈ items) : (items.filter fun b => key b = key a) = [a] := by
  induction items with
  | nil => cases ha
  | cons b rest ih =>
    obtain ⟨hb, hr⟩ := List.nodup_cons.1 h
    rw [List.filter_cons]
    rcases List.mem_cons.1 ha with rfl | ha
    · rw [if_pos (decide_eq_true rfl), List.filter_eq_nil_iff.2]
      intro c hc he
      exact hb (List.mem_map.2 ⟨c, hc, of_decide_eq_true he⟩)
    · rw [if_neg, ih hr ha]
      exact fun he => hb (List.mem_map.2 ⟨a, ha, (of_decide_eq_true he).symm⟩)

section Append

variable {α κ : Type} [DecidableEq κ] {key : α → κ}

theorem addNew_of_nodup {items more : List α} (h : ((items ++ more).map key).Nodup) :
    Merge.addNew key items more = items ++ more := by
  rw [List.map_append] at h
  obtain ⟨-, hm, hd⟩ := List.nodup_append'.1 h
  rw [addNew_eq, firstOfEach_of_nodup hm, List.filter_eq_self.2]
  intro a ha
  exact decide_eq_true fun hi => hd hi (List.mem_map_of_mem ha)

theorem addNew_subset (items more : List α) : Merge.addNew key items more ⊆ items ++ more := by
  rw [addNew_eq]
  intro a ha
  rcases List.mem_append.1 ha with ha | ha
  · exact List.mem_append_left _ ha
  · exact List.mem_append_right _ (mem_of_mem_firstOfEach (List.mem_filter.1 ha).1)

theorem members_of_nodup (m : Merge.Member α) (type : String) {existing incoming : List α}
    (h : ((existing ++ incoming).map m.name).Nodup) :
    Merge.members m type existing incoming = (existing ++ incoming, none) := by
  induction incoming generalizing existing with
  | nil => rw [Merge.members, List.append_nil]
  | cons a rest ih =>
    have hall : existing ++ a :: rest = (existing ++ [a]) ++ rest := by simp
    have hnew : existing.find? (fun b => m.name b = m.name a) = none := by
      rw [List.map_append] at h
      obtain ⟨-, -, hd⟩ := List.nodup_append'.1 h
      refine List.find?_eq_none.2 fun b hb he => ?_
      exact hd (List.mem_map_of_mem hb) (of_decide_eq_true he ▸ List.mem_cons_self)
    rw [Merge.members, hnew, hall]
    exact ih (hall ▸ h)

end Append

/-- Bodies without common members, if they are of one kind, are put behind each other. -/
theorem body_of_nodup {type : String} {a b : TypeBody} (h : (Merge.body type a b).2 = none)
    (hf : ((a.fields ++ b.fields).map Field.name).Nodup)
    (he : ((a.enumValues ++ b.enumValues).map EnumValue.name).Nodup)
    (hi : ((a.inputs ++ b.inputs).map InputValue.name).Nodup) :
    (Merge.body type a b).1.names ⊆ a.names ++ b.names ∧
    (Merge.body type a b).1.fields = a.fields ++ b.fields ∧
    (Merge.body type a b).1.enumValues = a.enumValues ++ b.enumValues ∧
    (Merge.body type a b).1.inputs = a.inputs ++ b.inputs := by
  have hfields := congrArg Prod.fst (members_of_nodup Merge.fieldMember type hf)
  have hinputs := congrArg Prod.fst (members_of_nodup Merge.inputMember type hi)
  have hvalues := addNew_of_nodup he
  have hnames : Merge.addNew id a.names b.names ⊆ a.names ++ b.names := addNew_subset _ _
  by_cases hk : a.kind = b.kind
  · cases a with
    | scalar =>
      cases b <;> simp [TypeBody.kind] at hk
      exact ⟨List.nil_subset _, rfl, rfl, rfl⟩
    | object =>
      cases b <;> simp [TypeBody.kind] at hk
      exact ⟨hnames, hfields, rfl, rfl⟩
    | interface =>
      cases b <;> simp [TypeBody.kind] at hk
      exact ⟨hnames, hfields, rfl, rfl⟩
    | union =>
      cases b <;> simp [TypeBody.kind] at hk
      exact ⟨hnames, rfl, rfl, rfl⟩
    | enumeration =>
      cases b <;> simp [TypeBody.kind] at hk
      exact ⟨List.nil_subset _, rfl, hvalues, rfl⟩
    | input =>
      cases b <;> simp [TypeBody.kind] at hk
      exact ⟨List.nil_subset _, rfl, rfl, hinputs⟩
  · exact (body_of_kind_ne hk type h).elim

namespace TypeDefinition

/-- A type says all that some definitions of it say, and nothing else. -/
structure IsUnionOf (t : TypeDefinition) (group : List TypeDefinition) : Prop where
  isExtension : t.isExtension = group.all isExtension
  directives : t.directives ⊆ group.flatMap TypeDefinition.directives
  names : t.body.names ⊆ group.flatMap fun u => u.body.names
  fields : t.body.fields = group.flatMap fun u => u.body.fields
  enumValues : t.body.enumValues = group.flatMap fun u => u.body.enumValues
  inputs : t.body.inputs = group.flatMap fun u => u.body.inputs

variable {t : TypeDefinition} {group : List TypeDefinition}

theorem isUnionOf_self (t : TypeDefinition) : t.IsUnionOf [t] where
  isExtension := by simp
  directives := by simp
  names := by simp
  fields := by simp
  enumValues := by simp
  inputs := by simp

theorem IsUnionOf.valueNames (h : t.IsUnionOf group) :
    t.body.valueNames = group.flatMap fun u => u.body.valueNames := by
  rw [TypeBody.valueNames, h.enumValues, List.map_flatMap]
  rfl

theorem IsUnionOf.memberNames_perm (h : t.IsUnionOf group) :
    t.body.memberNames.Perm (group.flatMap fun u => u.body.memberNames) := by
  rw [TypeBody.memberNames, h.fields, h.inputs, List.map_flatMap, List.map_flatMap]
  exact List.flatMap_append_perm group _ _

theorem IsUnionOf.usedTypes (h : t.IsUnionOf group) :
    t.body.usedTypes ⊆ group.flatMap fun u => u.body.usedTypes := by
  intro name hn
  rw [TypeBody.usedTypes, h.fields, h.inputs, List.mem_append, List.mem_append] at hn
  rcases hn with (hn | hn) | hn
  · obtain ⟨s, hs, hn⟩ := List.mem_flatMap.1 (h.names hn)
    exact List.mem_flatMap.2 ⟨s, hs, List.mem_append_left _ (List.mem_append_left _ hn)⟩
  · obtain ⟨f, hf, hn⟩ := List.mem_flatMap.1 hn
    obtain ⟨s, hs, hf⟩ := List.mem_flatMap.1 hf
    exact List.mem_flatMap.2 ⟨s, hs, List.mem_append_left _
      (List.mem_append_right _ (List.mem_flatMap.2 ⟨f, hf, hn⟩))⟩
  · obtain ⟨v, hv, rfl⟩ := List.mem_map.1 hn
    obtain ⟨s, hs, hv⟩ := List.mem_flatMap.1 hv
    exact List.mem_flatMap.2 ⟨s, hs, List.mem_append_right _ (List.mem_map_of_mem hv)⟩

theorem IsUnionOf.body_usedDirectives (h : t.IsUnionOf group) :
    t.body.usedDirectives ⊆ group.flatMap fun u => u.body.usedDirectives := by
  intro name hn
  rw [TypeBody.usedDirectives, h.fields, h.enumValues, h.inputs, List.mem_append,
    List.mem_append] at hn
  rcases hn with (hn | hn) | hn
  · obtain ⟨f, hf, hn⟩ := List.mem_flatMap.1 hn
    obtain ⟨s, hs, hf⟩ := List.mem_flatMap.1 hf
    exact List.mem_flatMap.2 ⟨s, hs, List.mem_append_left _
      (List.mem_append_left _ (List.mem_flatMap.2 ⟨f, hf, hn⟩))⟩
  · obtain ⟨v, hv, hn⟩ := List.mem_flatMap.1 hn
    obtain ⟨s, hs, hv⟩ := List.mem_flatMap.1 hv
    exact List.mem_flatMap.2 ⟨s, hs, List.mem_append_left _
      (List.mem_append_right _ (List.mem_flatMap.2 ⟨v, hv, hn⟩))⟩
  · obtain ⟨v, hv, hn⟩ := List.mem_flatMap.1 hn
    obtain ⟨s, hs, hv⟩ := List.mem_flatMap.1 hv
    exact List.mem_flatMap.2 ⟨s, hs, List.mem_append_right _
      (List.mem_flatMap.2 ⟨v, hv, hn⟩)⟩

theorem IsUnionOf.usedDirectives (h : t.IsUnionOf group) :
    (Definition.type t).usedDirectives ⊆
      group.flatMap fun u => (Definition.type u).usedDirectives := by
  intro name hn
  rcases List.mem_append.1 hn with hn | hn
  · obtain ⟨a, ha, rfl⟩ := List.mem_map.1 hn
    obtain ⟨s, hs, ha⟩ := List.mem_flatMap.1 (h.directives ha)
    exact List.mem_flatMap.2 ⟨s, hs, List.mem_append_left _ (List.mem_map_of_mem ha)⟩
  · obtain ⟨s, hs, hn⟩ := List.mem_flatMap.1 (h.body_usedDirectives hn)
    exact List.mem_flatMap.2 ⟨s, hs, List.mem_append_right _ hn⟩

theorem IsUnionOf.add (h : t.IsUnionOf group) {s : TypeDefinition}
    (hm : ((group ++ [s]).flatMap fun u => u.body.memberNames).Nodup)
    (hv : ((group ++ [s]).flatMap fun u => u.body.valueNames).Nodup)
    (hn : (Merge.typeDefinition t s).2 = none) :
    (Merge.typeDefinition t s).1.IsUnionOf (group ++ [s]) := by
  have hf : ((t.body.fields ++ s.body.fields).map Field.name).Nodup := by
    have hfields := hm.sublist (List.Sublist.flatMap_right (group ++ [s]) fun u _ =>
      List.sublist_append_left (u.body.fields.map Field.name) _)
    rw [← List.map_flatMap, List.flatMap_append, List.flatMap_singleton] at hfields
    rwa [h.fields]
  have hi : ((t.body.inputs ++ s.body.inputs).map InputValue.name).Nodup := by
    have hinputs := hm.sublist (List.Sublist.flatMap_right (group ++ [s]) fun u _ =>
      List.sublist_append_right _ (u.body.inputs.map InputValue.name))
    rw [← List.map_flatMap, List.flatMap_append, List.flatMap_singleton] at hinputs
    rwa [h.inputs]
  have he : ((t.body.enumValues ++ s.body.enumValues).map EnumValue.name).Nodup := by
    rw [h.enumValues]
    simpa [TypeBody.valueNames, List.map_flatMap] using hv
  obtain ⟨hnames, hfields, hvalues, hinputs⟩ := body_of_nodup hn hf he hi
  have hsubset {α : Type} {l l' : List α} (hl : l ⊆ l') (more : List α) : l ++ more ⊆ l' ++ more :=
    List.append_subset.2 ⟨List.subset_append_of_subset_left more hl, List.subset_append_right _ _⟩
  refine ⟨?_, ?_, ?_, ?_, ?_, ?_⟩
  · rw [List.all_append, ← h.isExtension]
    simp [Merge.typeDefinition]
  · rw [List.flatMap_append, List.flatMap_singleton]
    exact List.Subset.trans (addNew_subset t.directives s.directives) (hsubset h.directives _)
  · rw [List.flatMap_append, List.flatMap_singleton]
    exact List.Subset.trans hnames (hsubset h.names _)
  · rw [List.flatMap_append, List.flatMap_singleton, ← h.fields]
    exact hfields
  · rw [List.flatMap_append, List.flatMap_singleton, ← h.enumValues]
    exact hvalues
  · rw [List.flatMap_append, List.flatMap_singleton, ← h.inputs]
    exact hinputs

end TypeDefinition

namespace Merge.Union

/-- The types so far are what their definitions say. -/
structure AreUnions (types all : List TypeDefinition) : Prop where
  nodup : (types.map TypeDefinition.name).Nodup
  mem_names : ∀ name, name ∈ types.map TypeDefinition.name ↔ name ∈ all.map TypeDefinition.name
  isUnionOf : ∀ t ∈ types, t.IsUnionOf (all.filter fun u => u.name = t.name)

theorem joinsUnions_empty : empty.Joins AreUnions [] := ⟨rfl, ⟨.nil, fun _ => .rfl, nofun⟩, rfl⟩

variable {u : Merge.Union} {all : Document} {types all' : List TypeDefinition} {t : TypeDefinition}

theorem AreUnions.append (h : AreUnions types all') (ht : t.name ∉ types.map TypeDefinition.name) :
    AreUnions (types ++ [t]) (all' ++ [t]) := by
  refine ⟨?_, fun name => ?_, fun s hs => ?_⟩
  · rw [List.map_append, List.map_singleton]
    exact List.nodup_append'.2 ⟨h.nodup, List.nodup_singleton _, by simpa using ht⟩
  · simp only [List.map_append, List.mem_append, h.mem_names]
  · rcases List.mem_append.1 hs with hs | hs
    · have hne : t.name ≠ s.name := fun he => ht (he ▸ List.mem_map_of_mem hs)
      rw [List.filter_append, List.filter_cons, if_neg (by simpa using hne), List.filter_nil,
        List.append_nil]
      exact h.isUnionOf s hs
    · obtain rfl := List.mem_singleton.1 hs
      have hnone : (all'.filter fun u => u.name = s.name) = [] := by
        refine List.filter_eq_nil_iff.2 fun a ha he => ht ((h.mem_names _).2 ?_)
        exact List.mem_map.2 ⟨a, ha, of_decide_eq_true he⟩
      rw [List.filter_append, hnone, List.filter_cons, if_pos (decide_eq_true rfl)]
      exact s.isUnionOf_self

theorem AreUnions.replace (h : AreUnions types all') {existing : TypeDefinition}
    (he : types.find? (fun s => s.name = t.name) = some existing)
    (hm : (((all' ++ [t]).filter fun u => u.name = t.name).flatMap
      fun u => u.body.memberNames).Nodup)
    (hv : (((all' ++ [t]).filter fun u => u.name = t.name).flatMap
      fun u => u.body.valueNames).Nodup)
    (hn : (typeDefinition existing t).2 = none) :
    AreUnions (replaceFirst (fun s => s.name = t.name) (fun _ => (typeDefinition existing t).1)
      types) (all' ++ [t]) := by
  have hmem : existing ∈ types := List.mem_of_find?_eq_some he
  have hname : existing.name = t.name := by simpa using List.find?_some he
  have hfilter (name : String) : (all' ++ [t]).filter (fun u => u.name = name) =
      all'.filter (fun u => u.name = name) ++ if t.name = name then [t] else [] := by
    rw [List.filter_append, List.filter_cons, List.filter_nil]
    simp only [decide_eq_true_eq]
  have hnames : (types.map fun s =>
      if s.name = t.name then (typeDefinition existing t).1 else s).map TypeDefinition.name =
        types.map TypeDefinition.name := by
    rw [List.map_map]
    apply List.map_congr_left
    intro s _
    by_cases hs : s.name = t.name
    · simp [hs, typeDefinition, hname]
    · simp [hs]
  have hnodup : (types.map TypeDefinition.name).Nodup := h.nodup
  rw [replaceFirst_eq_map hnodup]
  refine ⟨hnames ▸ h.nodup, fun name => ?_, fun s hs => ?_⟩
  · rw [hnames, h.mem_names, List.map_append, List.mem_append, List.map_singleton,
      List.mem_singleton]
    refine ⟨.inl, fun hor => hor.elim id fun hname' => ?_⟩
    rw [hname', ← h.mem_names, ← hname]
    exact List.mem_map_of_mem hmem
  · obtain ⟨a, ha, rfl⟩ := List.mem_map.1 hs
    by_cases hat : a.name = t.name
    · have hname' : (typeDefinition existing t).1.name = t.name := hname
      rw [if_pos hat, hname']
      rw [hfilter, if_pos rfl] at hm hv ⊢
      have hu := h.isUnionOf existing hmem
      rw [hname] at hu
      exact hu.add hm hv hn
    · rw [if_neg hat, hfilter, if_neg fun he => hat he.symm, List.append_nil]
      exact h.isUnionOf a ha

theorem Joins.add_unions (h : u.Joins AreUnions all) {x : Definition}
    (hm : ∀ type, (Document.membersOf (all ++ [x]) type).Nodup)
    (hv : ∀ type, (Document.valuesOf (all ++ [x]) type).Nodup)
    (hc : (u.add x).conflicts = []) : (u.add x).Joins AreUnions (all ++ [x]) := by
  cases x with
  | schema s => exact h.add_schema s
  | directive d => exact h.add_directive d
  | type t =>
    have hmt := hm t.name
    have hvt := hv t.name
    rw [Document.membersOf, Document.types_append] at hmt
    rw [Document.valuesOf, Document.types_append] at hvt
    cases hf : u.types.find? fun existing => existing.name = t.name with
    | none =>
      rw [add_type_of_new hf]
      refine h.of_types _ (h.types.append fun hn => ?_)
      obtain ⟨s, hs, he⟩ := List.mem_map.1 hn
      exact List.find?_eq_none.1 hf s hs (decide_eq_true he)
    | some existing =>
      rw [add_type_of_old hf] at hc ⊢
      have hnone := Option.toList_eq_nil_iff.1 (List.append_eq_nil_iff.1 hc).2
      exact h.of_types _ (h.types.replace hf hmt hvt hnone)

theorem Joins.foldl_unions {d : Document} (h : u.Joins AreUnions all)
    (hm : ∀ type, (Document.membersOf (all ++ d) type).Nodup)
    (hv : ∀ type, (Document.valuesOf (all ++ d) type).Nodup)
    (hc : (d.foldl Union.add u).conflicts = []) :
    (d.foldl Union.add u).Joins AreUnions (all ++ d) := by
  -- No conflict at the end means that there was none after any of the definitions.
  induction d generalizing u all with
  | nil =>
    rw [List.append_nil]
    exact h
  | cons x rest ih =>
    have hall : all ++ x :: rest = (all ++ [x]) ++ rest := by simp
    rw [hall] at hm hv ⊢
    have hx : (u.add x).conflicts = [] := by
      by_contra hne
      exact conflicts_foldl_ne hne hc
    refine ih (h.add_unions (fun type => ?_) (fun type => ?_) hx) hm hv hc
    · have hmt := hm type
      rw [Document.membersOf_append] at hmt
      exact hmt.of_append_left
    · have hvt := hv type
      rw [Document.valuesOf_append] at hvt
      exact hvt.of_append_left

/-- The definitions of a union before they are sorted. -/
def unsorted (u : Merge.Union) : Document :=
  u.schema.toList.map Definition.schema ++
    (u.types.map Definition.type ++ u.directives.map Definition.directive)

theorem document_perm (u : Merge.Union) : u.document.Perm u.unsorted := by
  have hs : (u.schema.map Definition.schema).toList = u.schema.toList.map Definition.schema := by
    cases u.schema <;> rfl
  rw [document, unsorted, hs]
  exact (List.mergeSort_perm _ _).append_left _

theorem schemas_unsorted (u : Merge.Union) : u.unsorted.schemas = u.schema.toList := by
  simp [unsorted, Document.schemas, List.filterMap_append, List.filterMap_map]

theorem types_unsorted (u : Merge.Union) : u.unsorted.types = u.types := by
  simp [unsorted, Document.types, List.filterMap_append, List.filterMap_map]

theorem directives_unsorted (u : Merge.Union) : u.unsorted.directives = u.directives := by
  simp [unsorted, Document.directives, List.filterMap_append, List.filterMap_map]

end Merge.Union

namespace Document

theorem filter_definesSchema_length (d : Document) :
    (d.filter definesSchema).length = (d.schemas.filter fun s => !s.isExtension).length := by
  induction d with
  | nil => rfl
  | cons x rest ih =>
    cases x with
    | schema s => cases h : s.isExtension <;> simp [schemas, definesSchema, h, ih]
    | type t => simp [schemas, definesSchema, ih]
    | directive a => simp [schemas, definesSchema, ih]

theorem filterMap_definedType? (d : Document) : d.filterMap definedType? =
    (d.types.filter fun t => !t.isExtension).map TypeDefinition.name := by
  induction d with
  | nil => rfl
  | cons x rest ih =>
    cases x with
    | schema _ => exact ih
    | type t => cases h : t.isExtension <;> simp [types, definedType?, h, ih]
    | directive _ => exact ih

theorem filterMap_definedDirective? (d : Document) :
    d.filterMap definedDirective? = d.directives.map DirectiveDefinition.name := by
  induction d with
  | nil => rfl
  | cons x rest ih =>
    cases x with
    | schema _ => exact ih
    | type _ => exact ih
    | directive a => simp [directives, definedDirective?, ih]

theorem mem_schemas {d : Document} {s : SchemaDefinition} : s ∈ d.schemas ↔ .schema s ∈ d := by
  constructor
  · intro h
    obtain ⟨x, hx, he⟩ := List.mem_filterMap.1 h
    cases x <;> cases he
    exact hx
  · intro h
    exact List.mem_filterMap.2 ⟨_, h, rfl⟩

theorem mem_types {d : Document} {t : TypeDefinition} : t ∈ d.types ↔ .type t ∈ d := by
  constructor
  · intro h
    obtain ⟨x, hx, he⟩ := List.mem_filterMap.1 h
    cases x <;> cases he
    exact hx
  · intro h
    exact List.mem_filterMap.2 ⟨_, h, rfl⟩

theorem mem_directives {d : Document} {a : DirectiveDefinition} :
    a ∈ d.directives ↔ .directive a ∈ d := by
  constructor
  · intro h
    obtain ⟨x, hx, he⟩ := List.mem_filterMap.1 h
    cases x <;> cases he
    exact hx
  · intro h
    exact List.mem_filterMap.2 ⟨_, h, rfl⟩

theorem IsCoveredBy.of_perm {m m' d : Document} (h : m.IsCoveredBy d) (hp : m'.Perm m) :
    m'.IsCoveredBy d := by
  have htypes : m'.types.Perm m.types := hp.filterMap _
  have hmembers (type : String) : (m'.membersOf type).Perm (m.membersOf type) :=
    (htypes.filter _).flatMap_right _
  have hvalues (type : String) : (m'.valuesOf type).Perm (m.valuesOf type) :=
    (htypes.filter _).flatMap_right _
  refine ⟨?_, ?_, fun name => ?_, ?_, fun name => ?_, ?_, ?_, ?_, fun type => ?_, fun type => ?_⟩
  · rw [(hp.filter _).length_eq]
    exact h.schema
  · exact (hp.filterMap _).nodup_iff.2 h.types
  · rw [(hp.filterMap _).mem_iff]
    exact h.mem_types name
  · exact (hp.filterMap _).nodup_iff.2 h.directives
  · rw [(hp.filterMap _).mem_iff]
    exact h.mem_directives name
  · exact fun x hx => h.extended x (hp.mem_iff.1 hx)
  · exact fun x hx => h.usedTypes x (hp.mem_iff.1 hx)
  · exact fun x hx => h.usedDirectives x (hp.mem_iff.1 hx)
  · obtain ⟨hn, hs⟩ := h.members type
    exact ⟨(hmembers type).nodup_iff.2 hn, fun a ha => hs ((hmembers type).mem_iff.1 ha)⟩
  · obtain ⟨hn, hs⟩ := h.values type
    exact ⟨(hvalues type).nodup_iff.2 hn, fun a ha => hs ((hvalues type).mem_iff.1 ha)⟩

end Document

theorem mem_of_mem_joinedDirectives {lists : List (List Directive)} {a : Directive}
    (h : a ∈ joinedDirectives lists) : a ∈ lists.flatten := by
  cases lists with
  | nil => exact h
  | cons first others =>
    rw [List.flatten_cons]
    rcases List.mem_append.1 h with h | h
    · exact List.mem_append_left _ h
    · exact List.mem_append_right _ (mem_of_mem_firstOfEach (List.mem_filter.1 h).1)

namespace Merge.Union

variable {u : Merge.Union} {d : Document}

theorem Joins.isExtension_iff (h : u.Joins AreUnions d) {t : TypeDefinition} (ht : t ∈ u.types) :
    t.isExtension = true ↔ ∀ s ∈ d.types, s.name = t.name → s.isExtension = true := by
  rw [(h.types.isUnionOf t ht).isExtension, List.all_eq_true]
  simp only [List.mem_filter, decide_eq_true_eq, and_imp]

theorem Joins.exists_type (h : u.Joins AreUnions d) {t : TypeDefinition} (ht : t ∈ u.types) :
    ∃ s ∈ d.types, s.name = t.name :=
  List.mem_map.1 ((h.types.mem_names t.name).1 (List.mem_map_of_mem ht))

theorem Joins.schema_covered (h : u.Joins AreUnions d) :
    (u.unsorted.filter definesSchema).length ≤ (d.filter definesSchema).length := by
  rw [Document.filter_definesSchema_length, Document.filter_definesSchema_length, schemas_unsorted,
    h.schema]
  cases hs : d.schemas with
  | nil => exact Nat.zero_le _
  | cons first rest =>
    cases he : (first :: rest).all SchemaDefinition.isExtension with
    | true => simp [SchemaDefinition.joined, he]
    | false =>
      obtain ⟨s, hm, hn⟩ := List.all_eq_false.1 he
      have hpos : s ∈ (first :: rest).filter fun s => !s.isExtension :=
        List.mem_filter.2 ⟨hm, by simpa using hn⟩
      exact Nat.le_trans (List.length_filter_le _ _) (List.length_pos_of_mem hpos)

theorem Joins.mem_definedTypes (h : u.Joins AreUnions d) (name : String) :
    name ∈ u.unsorted.filterMap definedType? ↔ name ∈ d.filterMap definedType? := by
  rw [Document.filterMap_definedType?, Document.filterMap_definedType?, types_unsorted]
  simp only [List.mem_map, List.mem_filter, Bool.not_eq_true']
  constructor
  · rintro ⟨t, ⟨ht, hn⟩, rfl⟩
    by_contra hnone
    have hext := (h.isExtension_iff ht).2 fun s hs he => by
      by_contra hse
      exact hnone ⟨s, ⟨hs, by simpa using hse⟩, he⟩
    rw [hext] at hn
    cases hn
  · rintro ⟨s, ⟨hs, hn⟩, rfl⟩
    obtain ⟨t, ht, he⟩ := List.mem_map.1 ((h.types.mem_names s.name).2 (List.mem_map_of_mem hs))
    refine ⟨t, ⟨ht, ?_⟩, he⟩
    by_contra hext
    rw [(h.isExtension_iff ht).1 (by simpa using hext) s hs he.symm] at hn
    cases hn

theorem Joins.extended_covered (h : u.Joins AreUnions d) :
    ∀ x ∈ u.unsorted, ∀ name ∈ x.extendedType?, ∃ y ∈ d, name ∈ y.extendedType? := by
  intro x hx name hn
  cases x with
  | schema s => cases hn
  | directive a => cases hn
  | type t =>
    have ht : t ∈ u.types := types_unsorted u ▸ Document.mem_types.2 hx
    obtain ⟨s, hs, he⟩ := h.exists_type ht
    cases hext : t.isExtension with
    | false => simp [Definition.extendedType?, hext] at hn
    | true =>
      refine ⟨.type s, Document.mem_types.1 hs, ?_⟩
      simpa [Definition.extendedType?, hext, (h.isExtension_iff ht).1 hext s hs he, he] using hn

end Merge.Union

theorem SchemaDefinition.mem_joined {all : List SchemaDefinition} {s : SchemaDefinition}
    (h : SchemaDefinition.joined all = some s) :
    (Definition.schema s).usedTypes ⊆ all.flatMap (fun a => (Definition.schema a).usedTypes) ∧
    (Definition.schema s).usedDirectives ⊆
      all.flatMap fun a => (Definition.schema a).usedDirectives := by
  cases all with
  | nil => cases h
  | cons first rest =>
    obtain rfl := Option.some.inj h
    constructor
    · intro name hn
      have hfound {root : SchemaDefinition → Option String}
          (hr : (first :: rest).findSome? root = some name)
          (hu : ∀ a, root a = some name → name ∈ (Definition.schema a).usedTypes) :
          name ∈ (first :: rest).flatMap fun a => (Definition.schema a).usedTypes := by
        obtain ⟨a, ha, he⟩ := List.exists_of_findSome?_eq_some hr
        exact List.mem_flatMap.2 ⟨a, ha, hu a he⟩
      obtain ⟨root, hroot, he⟩ := List.mem_filterMap.1 hn
      simp only [List.mem_cons, List.not_mem_nil, or_false] at hroot
      rcases hroot with rfl | rfl | rfl
      · exact hfound he fun a ha => List.mem_filterMap.2 ⟨a.query, by simp, ha⟩
      · exact hfound he fun a ha => List.mem_filterMap.2 ⟨a.mutation, by simp, ha⟩
      · exact hfound he fun a ha => List.mem_filterMap.2 ⟨a.subscription, by simp, ha⟩
    · intro name hn
      obtain ⟨a, ha, rfl⟩ := List.mem_map.1 hn
      have hall : a ∈ ((first :: rest).map SchemaDefinition.directives).flatten :=
        mem_of_mem_joinedDirectives ha
      obtain ⟨ds, hds, ha⟩ := List.mem_flatten.1 hall
      obtain ⟨b, hb, rfl⟩ := List.mem_map.1 hds
      exact List.mem_flatMap.2 ⟨b, hb, List.mem_map_of_mem ha⟩

namespace Merge.Union

variable {u : Merge.Union} {d : Document}

/-- What every definition of a document refers to covers what those of the union refer to, if it
does so for the schema and for the types. -/
theorem Joins.used_covered (h : u.Joins AreUnions d) {used : Definition → List String}
    (hs : ∀ s, SchemaDefinition.joined d.schemas = some s →
      used (.schema s) ⊆ d.schemas.flatMap fun a => used (.schema a))
    (ht : ∀ t group, t.IsUnionOf group → used (.type t) ⊆ group.flatMap fun a => used (.type a)) :
    ∀ x ∈ u.unsorted, used x ⊆ d.flatMap used := by
  intro x hx name hn
  cases x with
  | schema s =>
    have hm := Document.mem_schemas.2 hx
    rw [schemas_unsorted, h.schema] at hm
    obtain ⟨a, ha, hn⟩ := List.mem_flatMap.1 (hs s (Option.mem_toList.1 hm) hn)
    exact List.mem_flatMap.2 ⟨_, Document.mem_schemas.1 ha, hn⟩
  | directive a =>
    have ha : a ∈ u.directives := directives_unsorted u ▸ Document.mem_directives.2 hx
    rw [h.directives] at ha
    exact List.mem_flatMap.2
      ⟨_, Document.mem_directives.1 (mem_of_mem_firstOfEach ha), hn⟩
  | type t =>
    have hm : t ∈ u.types := types_unsorted u ▸ Document.mem_types.2 hx
    obtain ⟨a, ha, hn⟩ := List.mem_flatMap.1 (ht t _ (h.types.isUnionOf t hm) hn)
    exact List.mem_flatMap.2 ⟨_, Document.mem_types.1 (List.mem_filter.1 ha).1, hn⟩

/-- The members of one name that a union has are those of one type, if there is one. -/
theorem Joins.members_covered (h : u.Joins AreUnions d) {names : TypeBody → List String}
    (hu : ∀ (t : TypeDefinition) group, t.IsUnionOf group →
      (names t.body).Perm (group.flatMap fun a => names a.body))
    (type : String)
    (hn : ((d.types.filter fun t => t.name = type).flatMap fun t => names t.body).Nodup) :
    ((u.types.filter fun t => t.name = type).flatMap fun t => names t.body).Nodup ∧
    ((u.types.filter fun t => t.name = type).flatMap fun t => names t.body) ⊆
      (d.types.filter fun t => t.name = type).flatMap fun t => names t.body := by
  by_cases hm : type ∈ u.types.map TypeDefinition.name
  · obtain ⟨t, ht, rfl⟩ := List.mem_map.1 hm
    have hone := filter_eq_singleton h.types.nodup ht
    have hperm := hu t _ (h.types.isUnionOf t ht)
    rw [hone, List.flatMap_singleton]
    exact ⟨hperm.nodup_iff.2 hn, hperm.subset⟩
  · have hnone : (u.types.filter fun s => s.name = type) = [] := by
      refine List.filter_eq_nil_iff.2 fun t ht he => hm ?_
      exact List.mem_map.2 ⟨t, ht, of_decide_eq_true he⟩
    rw [hnone]
    exact ⟨.nil, nofun⟩

theorem Joins.covered (h : u.Joins AreUnions d) (hm : ∀ type, (d.membersOf type).Nodup)
    (hv : ∀ type, (d.valuesOf type).Nodup) : u.unsorted.IsCoveredBy d where
  schema := h.schema_covered
  types := by
    rw [Document.filterMap_definedType?, types_unsorted]
    exact h.types.nodup.sublist (List.filter_sublist.map _)
  mem_types := h.mem_definedTypes
  directives := by
    rw [Document.filterMap_definedDirective?, directives_unsorted, h.directives]
    exact nodup_map_firstOfEach d.directives
  mem_directives name := by
    rw [Document.filterMap_definedDirective?, Document.filterMap_definedDirective?,
      directives_unsorted, h.directives]
    exact mem_map_firstOfEach
  extended := h.extended_covered
  usedTypes := h.used_covered (fun _ hs => (SchemaDefinition.mem_joined hs).1)
    fun _ _ hu => hu.usedTypes
  usedDirectives := h.used_covered (fun _ hs => (SchemaDefinition.mem_joined hs).2)
    fun _ _ hu => hu.usedDirectives
  members type := by
    rw [Document.membersOf, types_unsorted]
    exact h.members_covered (fun _ _ hu => hu.memberNames_perm) type (hm type)
  values type := by
    rw [Document.valuesOf, types_unsorted]
    exact h.members_covered (fun _ _ hu => .of_eq hu.valueNames) type (hv type)

end Merge.Union

/-- If documents have no faults behind some declarations, they have none when they are merged. -/
theorem faults_merged {service merged : Document} {documents : List Document}
    (hv : faults (service ++ documents.flatten) = [])
    (hm : Merge.definitions documents.flatten = .ok merged) : faults (service ++ merged) = [] := by
  obtain ⟨hc, rfl⟩ := Merge.definitions_eq_ok_iff.1 hm
  have hvalid := faults_eq_nil_iff.1 hv
  have hmembers (type : String) : (Document.membersOf documents.flatten type).Nodup := by
    have hall := hvalid.members type
    rw [Document.membersOf_append] at hall
    exact hall.of_append_right
  have hvalues (type : String) : (Document.valuesOf documents.flatten type).Nodup := by
    have hall := hvalid.values type
    rw [Document.valuesOf_append] at hall
    exact hall.of_append_right
  have hj := Merge.Union.joinsUnions_empty.foldl_unions (d := documents.flatten) hmembers hvalues hc
  have hcovered := (hj.covered hmembers hvalues).of_perm (Merge.Union.document_perm _)
  exact faults_eq_nil_iff.2 (hvalid.of_covered hcovered)

def serviceScalar : Definition := .type ⟨false, none, "AWSJSON", [], .scalar⟩

/-- Extensions of a scalar of the service and of a type that comes later. -/
def extendingDocuments : List Document := [
  [.type ⟨true, none, "AWSJSON", [⟨"deprecated", []⟩], .scalar⟩,
    .type ⟨true, none, "A", [], .object [] [⟨none, "b", [], .named "AWSJSON" true, []⟩]⟩],
  [.type ⟨false, none, "A", [], .object [] [⟨none, "c", [], .named "A" false, []⟩]⟩]]

theorem faults_merged_extending :
    faults ([serviceScalar] ++ extendingDocuments.flatten) = [] ∧
    ∃ merged, Merge.definitions extendingDocuments.flatten = .ok merged ∧
      faults ([serviceScalar] ++ merged) = [] := by
  have hv : faults ([serviceScalar] ++ extendingDocuments.flatten) = [] := by decide +kernel
  obtain ⟨merged, hm⟩ : ∃ merged, Merge.definitions extendingDocuments.flatten = .ok merged :=
    exists_of_isOk (by decide +kernel)
  exact ⟨hv, merged, hm, faults_merged hv hm⟩

end ApiStack.Sdl
