import ApiStack.Proofs.Sdl.Union
import ApiStack.Proofs.Failure
import ApiStack.Proofs.OrderedMap
import Mathlib

namespace ApiStack.Sdl

theorem mem_map_joinedDirectives {first : List Directive} {others : List (List Directive)}
    {name : String} : name ∈ (joinedDirectives (first :: others)).map Directive.name ↔
      name ∈ first.map Directive.name ∨ name ∈ others.flatten.map Directive.name := by
  have hfirst : name ∈ (firstOfEach Directive.name others.flatten).map Directive.name ↔
      name ∈ others.flatten.map Directive.name := mem_map_firstOfEach
  rw [joinedDirectives, List.map_append, List.mem_append, ← hfirst]
  constructor
  · rintro (h | h)
    · exact .inl h
    · obtain ⟨d, hd, he⟩ := List.mem_map.1 h
      exact .inr (List.mem_map.2 ⟨d, (List.mem_filter.1 hd).1, he⟩)
  · intro h
    by_cases hn : name ∈ first.map Directive.name
    · exact .inl hn
    · obtain ⟨d, hd, rfl⟩ := List.mem_map.1 (h.resolve_left hn)
      exact .inr (List.mem_map_of_mem (List.mem_filter.2 ⟨hd, decide_eq_true hn⟩))

theorem directives_joinedDirectives {lists : List (List Directive)} (h : lists ≠ [])
    (more : List Directive) :
    Merge.directives (joinedDirectives lists) more = joinedDirectives (lists ++ [more]) := by
  obtain ⟨first, others, rfl⟩ := List.exists_cons_of_ne_nil h
  rw [Merge.directives, addNew_eq]
  simp only [mem_map_joinedDirectives]
  rw [List.cons_append, joinedDirectives, joinedDirectives, List.flatten_append,
    List.flatten_singleton, firstOfEach_append, List.filter_append, List.append_assoc,
    List.filter_filter]
  congr 2
  apply List.filter_congr
  intro d _
  rw [← Bool.decide_and, decide_eq_decide, not_or]

theorem joinedDirectives_singleton (ds : List Directive) : joinedDirectives [ds] = ds :=
  List.append_nil ds

/-- Joining a group of members agrees with adding the directives of one after the other. -/
structure IsJoin (m : Merge.Member α) (join : α → List α → α) : Prop where
  name : ∀ a group, m.name (join a group) = m.name a
  type : ∀ a group, m.type (join a group) = m.type a
  one : ∀ a, join a [a] = a
  add : ∀ a b {group}, group ≠ [] → m.addDirectives (join a group) b = join a (group ++ [b])

theorem isJoin_fields : IsJoin Merge.fieldMember fun f group =>
    { f with directives := joinedDirectives (group.map Field.directives) } where
  name _ _ := rfl
  type _ _ := rfl
  one a := by rw [List.map_singleton, joinedDirectives_singleton]
  add a b group h := by
    have hne : group.map Field.directives ≠ [] := fun he => h (List.map_eq_nil_iff.1 he)
    rw [List.map_append, List.map_singleton, ← directives_joinedDirectives hne]
    rfl

theorem isJoin_inputs : IsJoin Merge.inputMember fun v group =>
    { v with directives := joinedDirectives (group.map InputValue.directives) } where
  name _ _ := rfl
  type _ _ := rfl
  one a := by rw [List.map_singleton, joinedDirectives_singleton]
  add a b group h := by
    have hne : group.map InputValue.directives ≠ [] := fun he => h (List.map_eq_nil_iff.1 he)
    rw [List.map_append, List.map_singleton, ← directives_joinedDirectives hne]
    rfl

section Consistent

variable {name : α → String} {type : α → TypeRef} {all : List α} {a : α}

theorem IsConsistent.of_append_left {more : List α} (h : IsConsistent name type (all ++ more)) :
    IsConsistent name type all :=
  fun a ha b hb => h a (List.mem_append_left more ha) b (List.mem_append_left more hb)

theorem IsConsistent.append_one (h : IsConsistent name type all)
    (ha : ∀ b ∈ all.find? (fun b => name b = name a),
      Printer.typeRef (type b) = Printer.typeRef (type a)) :
    IsConsistent name type (all ++ [a]) := by
  have hall : ∀ b ∈ all, name b = name a → Printer.typeRef (type b) = Printer.typeRef (type a) := by
    intro b hb he
    obtain ⟨c, hc⟩ : ∃ c, all.find? (fun b => name b = name a) = some c := by
      rw [← Option.isSome_iff_exists, List.find?_isSome]
      exact ⟨b, hb, decide_eq_true he⟩
    have hn : name c = name a := by simpa using List.find?_some hc
    rw [← ha c hc]
    exact h b hb c (List.mem_of_find?_eq_some hc) (he.trans hn.symm)
  intro b hb c hc he
  rcases List.mem_append.1 hb with hb | hb <;> rcases List.mem_append.1 hc with hc | hc
  · exact h b hb c hc he
  · cases List.mem_singleton.1 hc
    exact hall b hb he
  · cases List.mem_singleton.1 hb
    exact (hall c hc he.symm).symm
  · cases List.mem_singleton.1 hb
    cases List.mem_singleton.1 hc
    rfl

theorem isConsistent_of_nodup (h : (all.map name).Nodup) : IsConsistent name type all := by
  intro a ha b hb he
  rw [List.inj_on_of_nodup_map h ha hb he]

end Consistent

namespace IsJoin

variable {m : Merge.Member α} {join : α → List α → α}

theorem joinGroups_of_nodup (h : IsJoin m join) {all : List α} (hn : (all.map m.name).Nodup) :
    joinGroups m.name join all = all := by
  induction all using List.reverseRecOn with
  | nil => rfl
  | append_singleton all a ih =>
    rw [List.map_append, List.map_singleton] at hn
    have ha : m.name a ∉ all.map m.name := notMem_of_nodup_append_cons hn
    rw [joinGroups_append_new _ ha, ih (List.nodup_append.1 hn).1, h.one]

/-- Members are added to those of earlier definitions just if they are consistent with them. -/
theorem members (h : IsJoin m join) (t : String) {all : List α}
    (hc : IsConsistent m.name m.type all) (incoming : List α) :
    ((Merge.members m t (joinGroups m.name join all) incoming).2 = none ↔
      IsConsistent m.name m.type (all ++ incoming)) ∧
    ((Merge.members m t (joinGroups m.name join all) incoming).2 = none →
      (Merge.members m t (joinGroups m.name join all) incoming).1 =
        joinGroups m.name join (all ++ incoming)) := by
  -- What is kept after each member is the join of all members so far, which are consistent.
  induction incoming generalizing all with
  | nil =>
    rw [List.append_nil, Merge.members]
    exact ⟨⟨fun _ => hc, fun _ => rfl⟩, fun _ => rfl⟩
  | cons a rest ih =>
    have hall : all ++ a :: rest = (all ++ [a]) ++ rest := by simp
    rw [Merge.members, find?_joinGroups h.name, hall]
    cases hf : all.find? (fun b => m.name b = m.name a) with
    | none =>
      have ha : m.name a ∉ all.map m.name := by
        intro hm
        obtain ⟨b, hb, he⟩ := List.mem_map.1 hm
        exact List.find?_eq_none.1 hf b hb (decide_eq_true he)
      have hnew := joinGroups_append_new join ha
      rw [h.one] at hnew
      have hc' := hc.append_one (a := a) (by simp [hf])
      rw [Option.map_none, ← hnew]
      exact ih hc'
    | some b =>
      have hb : b ∈ all := List.mem_of_find?_eq_some hf
      have hn : m.name b = m.name a := by simpa using List.find?_some hf
      simp only [Option.map_some, h.type]
      by_cases ht : Printer.typeRef (m.type b) = Printer.typeRef (m.type a)
      · have hc' := hc.append_one (a := a) (by simp [hf, ht])
        have hold := replaceFirst_joinGroups (f := (m.addDirectives · a)) h.name
          (List.mem_map.2 ⟨b, hb, hn⟩) fun c hm he =>
            h.add c a (List.ne_nil_of_mem (List.mem_filter.2 ⟨hm, decide_eq_true he⟩))
        rw [if_pos ht, hold]
        exact ih hc'
      · rw [if_neg ht]
        have hnc : ¬IsConsistent m.name m.type (all ++ [a] ++ rest) := by
          intro hcons
          have hmb : b ∈ all ++ [a] ++ rest := by simp [hb]
          have hma : a ∈ all ++ [a] ++ rest := by simp
          exact ht (hcons b hmb a hma hn)
        exact ⟨⟨nofun, fun hcons => (hnc hcons).elim⟩, nofun⟩

end IsJoin

theorem joinedFields_of_nodup {fields : List Field} (h : (fields.map Field.name).Nodup) :
    joinedFields fields = fields :=
  isJoin_fields.joinGroups_of_nodup h

theorem joinedInputs_of_nodup {inputs : List InputValue}
    (h : (inputs.map InputValue.name).Nodup) : joinedInputs inputs = inputs :=
  isJoin_inputs.joinGroups_of_nodup h

theorem body_of_kind_ne {a b : TypeBody} (h : a.kind ≠ b.kind) (t : String) :
    (Merge.body t a b).2 ≠ none := by
  cases a <;> cases b <;> first | exact (h rfl).elim | exact nofun

namespace TypeBody

theorem joined_singleton {b : TypeBody} (h : b.IsRepetitionFree) : b.joined [b] = b := by
  have hnames : firstOfEach id b.names = b.names :=
    firstOfEach_of_nodup (by rw [List.map_id]; exact h.names)
  have hvalues := firstOfEach_of_nodup h.enumValues
  have hfields := joinedFields_of_nodup h.fields
  have hinputs := joinedInputs_of_nodup h.inputs
  cases b with
  | scalar => rfl
  | object names fields =>
    rw [joined, List.flatMap_singleton, List.flatMap_singleton, hnames, hfields]
    rfl
  | interface names fields =>
    rw [joined, List.flatMap_singleton, List.flatMap_singleton, hnames, hfields]
    rfl
  | union names =>
    rw [joined, List.flatMap_singleton, hnames]
    rfl
  | enumeration values =>
    rw [joined, List.flatMap_singleton, hvalues]
    rfl
  | input fields =>
    rw [joined, List.flatMap_singleton, hinputs]
    rfl

theorem kind_joined (first : TypeBody) (all : List TypeBody) :
    (first.joined all).kind = first.kind := by
  cases first <;> rfl

theorem joined_congr {a b : TypeBody} (h : a.kind = b.kind) (all : List TypeBody) :
    a.joined all = b.joined all := by
  cases a <;> cases b <;> first | rfl | simp [kind] at h

theorem Agree.of_append_left {all more : List TypeBody} (h : Agree (all ++ more)) : Agree all where
  kind a ha b hb := h.kind a (List.mem_append_left _ ha) b (List.mem_append_left _ hb)
  fields := by
    have hf := h.fields
    rw [List.flatMap_append] at hf
    exact hf.of_append_left
  inputs := by
    have hi := h.inputs
    rw [List.flatMap_append] at hi
    exact hi.of_append_left

theorem IsRepetitionFree.agree {b : TypeBody} (h : b.IsRepetitionFree) : Agree [b] where
  kind x hx y hy := by
    rw [List.mem_singleton.1 hx, List.mem_singleton.1 hy]
  fields := by
    rw [List.flatMap_singleton]
    exact isConsistent_of_nodup h.fields
  inputs := by
    rw [List.flatMap_singleton]
    exact isConsistent_of_nodup h.inputs

/-- A body of the same kind agrees with others if its members are consistent with theirs. -/
theorem Agree.append_one_iff {first b : TypeBody} {all : List TypeBody} (h : Agree all)
    (hm : first ∈ all) (hk : first.kind = b.kind) :
    Agree (all ++ [b]) ↔
      IsConsistent Field.name Field.type (all.flatMap TypeBody.fields ++ b.fields) ∧
      IsConsistent InputValue.name InputValue.type
        (all.flatMap TypeBody.inputs ++ b.inputs) := by
  have hkind : ∀ a ∈ all ++ [b], a.kind = first.kind := by
    intro a ha
    rcases List.mem_append.1 ha with ha | ha
    · exact h.kind a ha first hm
    · cases List.mem_singleton.1 ha
      exact hk.symm
  constructor
  · intro hagree
    have hf := hagree.fields
    have hi := hagree.inputs
    rw [List.flatMap_append, List.flatMap_singleton] at hf hi
    exact ⟨hf, hi⟩
  · rintro ⟨hf, hi⟩
    refine ⟨fun a ha c hc => (hkind a ha).trans (hkind c hc).symm, ?_, ?_⟩
    · rwa [List.flatMap_append, List.flatMap_singleton]
    · rwa [List.flatMap_append, List.flatMap_singleton]

theorem addNew_names (all : List TypeBody) (b : TypeBody) :
    Merge.addNew id (firstOfEach id (all.flatMap names)) b.names =
      firstOfEach id ((all ++ [b]).flatMap names) := by
  rw [addNew_firstOfEach, List.flatMap_append, List.flatMap_singleton]

theorem body_joined (t : String) {first b : TypeBody} {all : List TypeBody} (h : Agree all)
    (hm : first ∈ all) :
    ((Merge.body t (first.joined all) b).2 = none ↔ Agree (all ++ [b])) ∧
    ((Merge.body t (first.joined all) b).2 = none →
      (Merge.body t (first.joined all) b).1 = first.joined (all ++ [b])) := by
  by_cases hk : first.kind = b.kind
  · rw [h.append_one_iff hm hk]
    have hf := isJoin_fields.members t h.fields b.fields
    have hi := isJoin_inputs.members t h.inputs b.inputs
    have hn := addNew_names all b
    have hv : Merge.addNew EnumValue.name (firstOfEach EnumValue.name (all.flatMap enumValues))
        b.enumValues = firstOfEach EnumValue.name (all.flatMap enumValues ++ b.enumValues) :=
      addNew_firstOfEach _ _
    have hsame {α : Type} (f : TypeBody → List α) :
        all.flatMap f ++ f b = (all ++ [b]).flatMap f := by
      rw [List.flatMap_append, List.flatMap_singleton]
    -- a kind of body without fields, or without inputs, adds none to those that agree already
    have hf₀ (he : b.fields = []) : IsConsistent Field.name Field.type
        ((all ++ [b]).flatMap fields) := by
      rw [← hsame, he, List.append_nil]
      exact h.fields
    have hi₀ (he : b.inputs = []) : IsConsistent InputValue.name InputValue.type
        ((all ++ [b]).flatMap inputs) := by
      rw [← hsame, he, List.append_nil]
      exact h.inputs
    rw [hsame] at hf hi hv
    rw [hsame, hsame]
    cases first with
    | scalar =>
      cases b <;> simp [kind] at hk
      exact ⟨⟨fun _ => ⟨hf₀ rfl, hi₀ rfl⟩, fun _ => rfl⟩, fun _ => rfl⟩
    | object =>
      cases b <;> simp [kind] at hk
      refine ⟨⟨fun he => ⟨hf.1.1 he, hi₀ rfl⟩, fun hc => hf.1.2 hc.1⟩, fun he => ?_⟩
      exact congrArg₂ TypeBody.object hn (hf.2 he)
    | interface =>
      cases b <;> simp [kind] at hk
      refine ⟨⟨fun he => ⟨hf.1.1 he, hi₀ rfl⟩, fun hc => hf.1.2 hc.1⟩, fun he => ?_⟩
      exact congrArg₂ TypeBody.interface hn (hf.2 he)
    | union =>
      cases b <;> simp [kind] at hk
      exact ⟨⟨fun _ => ⟨hf₀ rfl, hi₀ rfl⟩, fun _ => rfl⟩, fun _ => congrArg TypeBody.union hn⟩
    | enumeration =>
      cases b <;> simp [kind] at hk
      exact ⟨⟨fun _ => ⟨hf₀ rfl, hi₀ rfl⟩, fun _ => rfl⟩,
        fun _ => congrArg TypeBody.enumeration hv⟩
    | input =>
      cases b <;> simp [kind] at hk
      refine ⟨⟨fun he => ⟨hf₀ rfl, hi.1.1 he⟩, fun hc => hi.1.2 hc.2⟩, fun he => ?_⟩
      exact congrArg TypeBody.input (hi.2 he)
  · have hne := body_of_kind_ne (a := first.joined all) (b := b) (by rwa [kind_joined]) t
    refine ⟨⟨fun he => (hne he).elim, fun hagree => (hk ?_).elim⟩, fun he => (hne he).elim⟩
    exact hagree.kind first (List.mem_append_left _ hm) b (by simp)

end TypeBody

theorem typeDefinition_joined {first t : TypeDefinition} {all : List TypeDefinition}
    (h : TypeBody.Agree (all.map TypeDefinition.body)) (hm : first ∈ all) :
    ((Merge.typeDefinition (first.joined all) t).2 = none ↔
      TypeBody.Agree ((all ++ [t]).map TypeDefinition.body)) ∧
    ((Merge.typeDefinition (first.joined all) t).2 = none →
      (Merge.typeDefinition (first.joined all) t).1 = first.joined (all ++ [t])) := by
  obtain ⟨hb, he⟩ := TypeBody.body_joined (b := t.body) first.name h (List.mem_map_of_mem hm)
  rw [List.map_append, List.map_singleton]
  refine ⟨hb, fun hnone => ?_⟩
  have hbody := he hnone
  have hne : all.map TypeDefinition.directives ≠ [] :=
    fun hnil => List.ne_nil_of_mem hm (List.map_eq_nil_iff.1 hnil)
  have hdirectives := directives_joinedDirectives hne t.directives
  have hj : first.joined (all ++ [t]) = {
      isExtension := all.all TypeDefinition.isExtension && t.isExtension
      description := (all.findSome? TypeDefinition.description).or t.description
      name := first.name
      directives := joinedDirectives (all.map TypeDefinition.directives ++ [t.directives])
      body := first.body.joined (all.map TypeDefinition.body ++ [t.body]) } := by
    simp [TypeDefinition.joined]
  rw [hj, ← hdirectives, ← hbody]
  rfl

theorem name_joined (t : TypeDefinition) (group : List TypeDefinition) :
    (t.joined group).name = t.name := rfl

theorem joined_singleton {t : TypeDefinition} (h : t.body.IsRepetitionFree) :
    t.joined [t] = t := by
  rw [TypeDefinition.joined, List.map_singleton, List.map_singleton, joinedDirectives_singleton,
    TypeBody.joined_singleton h]
  simp

theorem joined_congr {a b : TypeDefinition} (hn : a.name = b.name)
    (hk : a.body.kind = b.body.kind) (all : List TypeDefinition) : a.joined all = b.joined all := by
  rw [TypeDefinition.joined, TypeDefinition.joined, hn, TypeBody.joined_congr hk]

theorem schemaDefinition_joined (all : List SchemaDefinition) (s : SchemaDefinition) :
    some (match SchemaDefinition.joined all with
      | some existing => Merge.schemaDefinition existing s
      | none => s) = SchemaDefinition.joined (all ++ [s]) := by
  cases all with
  | nil => simp [SchemaDefinition.joined, joinedDirectives_singleton]
  | cons first rest =>
    have hlists : (first :: rest).map SchemaDefinition.directives ≠ [] := nofun
    have hd := directives_joinedDirectives hlists s.directives
    have hj : SchemaDefinition.joined (first :: rest ++ [s]) = some {
        isExtension := (first :: rest).all SchemaDefinition.isExtension && s.isExtension
        directives := joinedDirectives
          ((first :: rest).map SchemaDefinition.directives ++ [s.directives])
        query := ((first :: rest).findSome? SchemaDefinition.query).or s.query
        mutation := ((first :: rest).findSome? SchemaDefinition.mutation).or s.mutation
        subscription :=
          ((first :: rest).findSome? SchemaDefinition.subscription).or s.subscription } := by
      have hf (f : SchemaDefinition → Option String) : (first :: rest ++ [s]).findSome? f =
          ((first :: rest).findSome? f).or (f s) := by
        rw [List.findSome?_append, List.findSome?_singleton]
      simp only [List.cons_append, SchemaDefinition.joined] at hf ⊢
      simp [hf, Bool.and_assoc]
    rw [hj, ← hd]
    rfl

namespace Document

theorem schemas_append (a b : Document) :
    Document.schemas (a ++ b) = Document.schemas a ++ Document.schemas b :=
  List.filterMap_append

theorem types_append (a b : Document) :
    Document.types (a ++ b) = Document.types a ++ Document.types b :=
  List.filterMap_append

theorem directives_append (a b : Document) :
    Document.directives (a ++ b) = Document.directives a ++ Document.directives b :=
  List.filterMap_append

theorem Agrees.of_append_left {a b : Document} (h : Document.Agrees (a ++ b)) :
    Document.Agrees a := by
  intro name
  have hn := h name
  rw [types_append, List.filter_append, List.map_append] at hn
  exact hn.of_append_left

theorem Agrees.append_of_types_eq_nil {all more : Document} (h : all.Agrees)
    (hm : more.types = []) : Document.Agrees (all ++ more) := by
  intro name
  rw [types_append, hm, List.append_nil]
  exact h name

theorem Agrees.append_type_iff {all : Document} (h : all.Agrees) (t : TypeDefinition) :
    Document.Agrees (all ++ [.type t]) ↔
      TypeBody.Agree (((all.types.filter fun u => u.name = t.name) ++ [t]).map
        TypeDefinition.body) := by
  have ht : Document.types (all ++ [.type t]) = all.types ++ [t] := types_append all [.type t]
  constructor
  · intro ha
    have hn := ha t.name
    rw [ht, List.filter_append, List.filter_cons, if_pos (decide_eq_true rfl),
      List.filter_nil] at hn
    exact hn
  · intro ha name
    rw [ht, List.filter_append, List.filter_cons]
    by_cases hn : t.name = name
    · subst hn
      rw [if_pos (decide_eq_true rfl), List.filter_nil]
      exact ha
    · rw [if_neg (fun hd => hn (of_decide_eq_true hd)), List.filter_nil, List.append_nil]
      exact h name

end Document

namespace Merge.Union

/-- The union so far is what the definitions read so far are together. For types, it is left open
what that means. -/
structure Joins (areJoined : List TypeDefinition → List TypeDefinition → Prop) (u : Merge.Union)
    (all : Document) : Prop where
  schema : u.schema = SchemaDefinition.joined all.schemas
  types : areJoined u.types all.types
  directives : u.directives = firstOfEach DirectiveDefinition.name all.directives

variable {areJoined : List TypeDefinition → List TypeDefinition → Prop} {u : Merge.Union}
  {all : Document}

theorem Joins.add_schema (h : u.Joins areJoined all) (s : SchemaDefinition) :
    (u.add (.schema s)).Joins areJoined (all ++ [.schema s]) where
  schema := by
    rw [Document.schemas_append]
    show some _ = _
    rw [h.schema]
    exact schemaDefinition_joined all.schemas s
  types := by
    have ht : Document.types (all ++ [.schema s]) = all.types := by
      rw [Document.types_append]
      exact List.append_nil _
    rw [ht]
    exact h.types
  directives := by
    rw [Document.directives_append]
    exact h.directives.trans (congrArg _ (List.append_nil _).symm)

theorem Joins.add_directive (h : u.Joins areJoined all) (d : DirectiveDefinition) :
    (u.add (.directive d)).Joins areJoined (all ++ [.directive d]) where
  schema := by
    rw [Document.schemas_append]
    exact h.schema.trans (congrArg _ (List.append_nil _).symm)
  types := by
    have ht : Document.types (all ++ [.directive d]) = all.types := by
      rw [Document.types_append]
      exact List.append_nil _
    rw [ht]
    exact h.types
  directives := by
    rw [Document.directives_append]
    show addNew DirectiveDefinition.name u.directives [d] = _
    rw [h.directives, addNew_firstOfEach]
    rfl

theorem Joins.of_types {types : List TypeDefinition} {t : TypeDefinition} (faults : List Fault)
    (h : u.Joins areJoined all) (ht : areJoined types (all.types ++ [t])) :
    Joins areJoined { u with types := types, conflicts := faults } (all ++ [.type t]) where
  schema := by
    rw [Document.schemas_append]
    exact h.schema.trans (congrArg _ (List.append_nil _).symm)
  types := by
    rw [Document.types_append]
    exact ht
  directives := by
    rw [Document.directives_append]
    exact h.directives.trans (congrArg _ (List.append_nil _).symm)

/-- The types so far are joined in groups of one name. -/
def AreGrouped (types all : List TypeDefinition) : Prop :=
  types = joinGroups TypeDefinition.name TypeDefinition.joined all

theorem joins_empty : empty.Joins AreGrouped [] := ⟨rfl, rfl, rfl⟩

theorem Joins.find?_types (h : u.Joins AreGrouped all) (name : String) :
    u.types.find? (fun t => t.name = name) =
      (all.types.find? fun t => t.name = name).map fun t =>
        t.joined (all.types.filter fun u => u.name = name) := by
  rw [h.types]
  exact find?_joinGroups name_joined all.types name

theorem add_type_of_new {t : TypeDefinition}
    (h : u.types.find? (fun existing => existing.name = t.name) = none) :
    u.add (.type t) = { u with types := u.types ++ [t] } := by
  simp only [add, h]

theorem add_type_of_old {t existing : TypeDefinition}
    (h : u.types.find? (fun existing => existing.name = t.name) = some existing) :
    u.add (.type t) = { u with
      types := replaceFirst (fun existing => existing.name = t.name)
        (fun _ => (typeDefinition existing t).1) u.types
      conflicts := u.conflicts ++ (typeDefinition existing t).2.toList } := by
  simp only [add, h]

theorem Joins.add_type (h : u.Joins AreGrouped all) (hc : u.conflicts = []) (ha : all.Agrees)
    {t : TypeDefinition} (ht : t.body.IsRepetitionFree) :
    ((u.add (.type t)).conflicts = [] ↔ Document.Agrees (all ++ [.type t])) ∧
    ((u.add (.type t)).conflicts = [] →
      (u.add (.type t)).Joins AreGrouped (all ++ [.type t])) := by
  rw [ha.append_type_iff]
  cases hf : all.types.find? fun u => u.name = t.name with
  | none =>
    have hnone : ∀ u ∈ all.types, u.name ≠ t.name := by
      intro u hu he
      exact List.find?_eq_none.1 hf u hu (decide_eq_true he)
    have hnew : t.name ∉ all.types.map TypeDefinition.name := by
      intro hm
      obtain ⟨u, hu, he⟩ := List.mem_map.1 hm
      exact hnone u hu he
    have hgroup : (all.types.filter fun u => u.name = t.name) = [] :=
      List.filter_eq_nil_iff.2 fun u hu hd => hnone u hu (of_decide_eq_true hd)
    have hj := joinGroups_append_new TypeDefinition.joined hnew
    rw [joined_singleton ht] at hj
    rw [hgroup, add_type_of_new (by rw [h.find?_types, hf, Option.map_none])]
    exact ⟨⟨fun _ => ht.agree, fun _ => hc⟩,
      fun _ => h.of_types u.conflicts ((congrArg (· ++ [t]) h.types).trans hj.symm)⟩
  | some first =>
    have hm : first ∈ all.types := List.mem_of_find?_eq_some hf
    have hn : first.name = t.name := by simpa using List.find?_some hf
    have hgroup : first ∈ all.types.filter fun u => u.name = t.name :=
      List.mem_filter.2 ⟨hm, decide_eq_true hn⟩
    obtain ⟨hi, he⟩ := typeDefinition_joined (t := t) (ha t.name) hgroup
    rw [add_type_of_old (by rw [h.find?_types, hf, Option.map_some]), ← hi]
    have hfault (f : Option Fault) : u.conflicts ++ f.toList = [] ↔ f = none := by
      rw [hc, List.nil_append]
      exact Option.toList_eq_nil_iff
    refine ⟨hfault _, fun hnone => h.of_types _ ?_⟩
    rw [h.types, he ((hfault _).1 hnone)]
    refine replaceFirst_joinGroups name_joined
      (List.mem_map.2 ⟨first, hm, hn⟩) ?_
    intro b hb hbn
    have hk : first.body.kind = b.body.kind :=
      (ha t.name).kind _ (List.mem_map_of_mem hgroup) _
        (List.mem_map_of_mem (List.mem_filter.2 ⟨hb, decide_eq_true hbn⟩))
    exact joined_congr (hn.trans hbn.symm) hk _

theorem conflicts_add_ne {d : Definition} (h : u.conflicts ≠ []) : (u.add d).conflicts ≠ [] := by
  cases d with
  | schema s => exact h
  | directive d => exact h
  | type t =>
    cases hf : u.types.find? (fun existing => existing.name = t.name) with
    | none =>
      rw [add_type_of_new hf]
      exact h
    | some existing =>
      rw [add_type_of_old hf]
      exact List.append_ne_nil_of_left_ne_nil h _

theorem conflicts_foldl_ne {d : Document} (h : u.conflicts ≠ []) :
    (d.foldl add u).conflicts ≠ [] := by
  induction d generalizing u with
  | nil => exact h
  | cons first rest ih => exact ih (conflicts_add_ne h)

/-- Definitions are added without conflict just if they agree with each other and with those
before. -/
theorem Joins.foldl {d : Document} (h : u.Joins AreGrouped all) (hc : u.conflicts = [])
    (ha : all.Agrees) (hd : ∀ t ∈ d.types, t.body.IsRepetitionFree) :
    ((d.foldl Union.add u).conflicts = [] ↔ Document.Agrees (all ++ d)) ∧
    ((d.foldl Union.add u).conflicts = [] →
      (d.foldl Union.add u).Joins AreGrouped (all ++ d)) := by
  -- As long as there is no conflict, the union joins the definitions so far. The first conflict is
  -- never taken back, so nothing needs to be known about the union after it.
  induction d generalizing u all with
  | nil =>
    rw [List.append_nil]
    exact ⟨⟨fun _ => ha, fun _ => hc⟩, fun _ => h⟩
  | cons first rest ih =>
    have happend : all ++ first :: rest = (all ++ [first]) ++ rest := by simp
    have hrest : ∀ t ∈ Document.types rest, t.body.IsRepetitionFree := by
      intro t ht
      exact hd t (by rw [← List.singleton_append, Document.types_append]; exact
        List.mem_append_right _ ht)
    have hfirst : ((u.add first).conflicts = [] ↔ Document.Agrees (all ++ [first])) ∧
        ((u.add first).conflicts = [] →
          (u.add first).Joins AreGrouped (all ++ [first])) := by
      cases first with
      | schema s =>
        refine ⟨⟨fun _ => ?_, fun _ => hc⟩, fun _ => h.add_schema s⟩
        exact ha.append_of_types_eq_nil rfl
      | directive a =>
        refine ⟨⟨fun _ => ?_, fun _ => hc⟩, fun _ => h.add_directive a⟩
        exact ha.append_of_types_eq_nil rfl
      | type t => exact h.add_type hc ha (hd t List.mem_cons_self)
    rw [happend, List.foldl_cons]
    by_cases hn : (u.add first).conflicts = []
    · exact ih (hfirst.2 hn) hn (hfirst.1.1 hn) hrest
    · have hne := conflicts_foldl_ne (d := rest) hn
      exact ⟨⟨fun he => (hne he).elim, fun hall => (hn (hfirst.1.2 hall.of_append_left)).elim⟩,
        fun he => (hne he).elim⟩

end Merge.Union

/-- The order of definitions by name; a type comes before a directive of its name. -/
def Definition.Before : Definition → Definition → Prop
  | .type a, .type b => a.name < b.name
  | .type a, .directive b => a.name ≤ b.name
  | .directive a, .type b => a.name < b.name
  | .directive a, .directive b => a.name < b.name
  | _, _ => False

theorem not_sublist_swap {l : List α} (h : l.Nodup) {a b : α} (hab : [a, b].Sublist l) :
    ¬[b, a].Sublist l := by
  induction l with
  | nil => cases hab
  | cons c rest ih =>
    obtain ⟨hc, hr⟩ := List.nodup_cons.1 h
    intro hba
    cases hab with
    | cons _ hab =>
      cases hba with
      | cons _ hba => exact ih hr hab hba
      | cons_cons _ _ => exact hc (hab.subset (by simp))
    | cons_cons _ hb =>
      cases hba with
      | cons _ hba => exact hc (hba.subset (by simp))
      | cons_cons _ ha => exact hc (ha.subset (by simp))

namespace Merge

/-- Definitions are sorted by name, where no two types and no two directives have one name. -/
theorem pairwise_before {types : List TypeDefinition} {directives : List DirectiveDefinition}
    (ht : (types.map TypeDefinition.name).Nodup)
    (hd : (directives.map DirectiveDefinition.name).Nodup) :
    ((types.map Definition.type ++ directives.map Definition.directive).mergeSort
      fun a b => !(sortName b < sortName a)).Pairwise Definition.Before := by
  have hle (a b : Definition) : (!(sortName b < sortName a)) = true ↔ sortName a ≤ sortName b := by
    rw [Bool.not_eq_true', decide_eq_false_iff_not, not_lt]
  have htrans (a b c : Definition) (hab : (!(sortName b < sortName a)) = true)
      (hbc : (!(sortName c < sortName b)) = true) : (!(sortName c < sortName a)) = true :=
    (hle a c).2 (le_trans ((hle a b).1 hab) ((hle b c).1 hbc))
  have htotal (a b : Definition) :
      (!(sortName b < sortName a) || !(sortName a < sortName b)) = true := by
    rw [Bool.or_eq_true, hle, hle]
    exact le_total _ _
  have hnodup : (types.map Definition.type ++ directives.map Definition.directive).Nodup := by
    refine List.nodup_append.2 ⟨ht.of_map.map fun _ _ => Definition.type.inj,
      hd.of_map.map fun _ _ => Definition.directive.inj, ?_⟩
    intro a ha b hb
    obtain ⟨t, -, rfl⟩ := List.mem_map.1 ha
    obtain ⟨d, -, rfl⟩ := List.mem_map.1 hb
    exact nofun
  have hperm := List.mergeSort_perm
    (types.map Definition.type ++ directives.map Definition.directive)
    fun a b => !(sortName b < sortName a)
  have hsorted := List.pairwise_mergeSort htrans htotal
    (types.map Definition.type ++ directives.map Definition.directive)
  have hsorted_nodup := hperm.nodup_iff.2 hnodup
  rw [List.pairwise_iff_forall_sublist]
  intro a b hab
  have hn : sortName a ≤ sortName b := (hle a b).1 (List.pairwise_iff_forall_sublist.1 hsorted hab)
  have hne : a ≠ b := by
    rintro rfl
    exact List.nodup_iff_sublist.1 hsorted_nodup a hab
  have ha := hperm.mem_iff.1 (hab.subset List.mem_cons_self)
  have hb := hperm.mem_iff.1 (hab.subset (List.mem_cons_of_mem _ List.mem_cons_self))
  rcases List.mem_append.1 ha with ha | ha <;> rcases List.mem_append.1 hb with hb | hb <;>
    obtain ⟨x, hx, rfl⟩ := List.mem_map.1 ha <;> obtain ⟨y, hy, rfl⟩ := List.mem_map.1 hb
  · refine lt_of_le_of_ne hn fun he => hne ?_
    rw [List.inj_on_of_nodup_map ht hx hy he]
  · exact hn
  · -- sorting is stable, so a directive does not get in front of a type of its name
    refine lt_of_le_of_ne hn fun he => not_sublist_swap hsorted_nodup hab ?_
    refine List.pair_sublist_mergeSort htrans htotal ((hle _ _).2 (le_of_eq he.symm)) ?_
    exact List.Sublist.append (List.singleton_sublist.2 hb) (List.singleton_sublist.2 ha)
  · refine lt_of_le_of_ne hn fun he => hne ?_
    rw [List.inj_on_of_nodup_map hd hx hy he]

theorem definitions_eq_ok_iff {d merged : Document} : definitions d = .ok merged ↔
    (d.foldl Union.add .empty).conflicts = [] ∧ (d.foldl Union.add .empty).document = merged := by
  unfold definitions
  by_cases h : (d.foldl Union.add .empty).conflicts.isEmpty = true
  · rw [if_pos h, Except.ok.injEq]
    exact ⟨fun he => ⟨List.isEmpty_iff.1 h, he⟩, And.right⟩
  · rw [if_neg h]
    exact ⟨nofun, fun hc => (h (List.isEmpty_iff.2 hc.1)).elim⟩

theorem agrees_nil : Document.Agrees [] := fun _ => ⟨nofun, nofun, nofun⟩

/-- Definitions can be merged just if they agree. -/
theorem exists_definitions_iff {d : Document} (hr : ∀ t ∈ d.types, t.body.IsRepetitionFree) :
    (∃ merged, definitions d = .ok merged) ↔ d.Agrees := by
  have h := (Union.joins_empty.foldl rfl agrees_nil hr).1
  rw [List.nil_append] at h
  rw [← h]
  constructor
  · rintro ⟨merged, hm⟩
    exact (definitions_eq_ok_iff.1 hm).1
  · intro hc
    exact ⟨_, definitions_eq_ok_iff.2 ⟨hc, rfl⟩⟩

/-- What definitions are merged to: the schema, and then everything else by name. -/
theorem definitions_eq_union {d merged : Document}
    (hr : ∀ t ∈ d.types, t.body.IsRepetitionFree) (h : definitions d = .ok merged) :
    ∃ named, merged = ((SchemaDefinition.joined d.schemas).map Definition.schema).toList ++ named ∧
      named.Perm (d.joinedTypes.map Definition.type ++
        (firstOfEach DirectiveDefinition.name d.directives).map Definition.directive) ∧
      named.Pairwise Definition.Before := by
  obtain ⟨hc, rfl⟩ := definitions_eq_ok_iff.1 h
  have hj := (Union.joins_empty.foldl rfl agrees_nil hr).2 hc
  rw [List.nil_append] at hj
  have ht : (d.joinedTypes.map TypeDefinition.name).Nodup :=
    nodup_map_joinGroups name_joined d.types
  have hd : ((firstOfEach DirectiveDefinition.name d.directives).map
      DirectiveDefinition.name).Nodup := nodup_map_firstOfEach _
  refine ⟨_, ?_, List.mergeSort_perm _ fun a b => !(sortName b < sortName a),
    pairwise_before ht hd⟩
  rw [Union.document, hj.schema, hj.types, hj.directives]
  rfl

end Merge

theorem mapM_parse_of_ok {sources : List String} {documents : List Document}
    (h : sources.mapM parse = .ok documents) :
    (sources.mapM fun source => (parse source).mapError fun fault => [fault]) = .ok documents := by
  rw [mapM_eq_ok_iff] at h ⊢
  refine h.imp fun source document hp => ?_
  rw [hp]
  rfl

theorem merge_of_parsed {sources : List String} {documents : List Document}
    (h : sources.mapM parse = .ok documents) :
    merge sources = Merge.definitions documents.flatten := by
  rw [merge, mapM_parse_of_ok h]
  rfl

/-- Merging texts gives the union of their definitions, if these agree: the schema first, if any
text has one, and then every type and every directive once, by name. A type is what its definitions
and extensions are together. -/
theorem merge_eq_union {sources : List String} {documents : List Document}
    (hp : sources.mapM parse = .ok documents)
    (hr : ∀ t ∈ Document.types documents.flatten, t.body.IsRepetitionFree) :
    ((∃ merged, merge sources = .ok merged) ↔ Document.Agrees documents.flatten) ∧
    ∀ merged, merge sources = .ok merged → ∃ named,
      merged = ((SchemaDefinition.joined (Document.schemas documents.flatten)).map
        Definition.schema).toList ++ named ∧
      named.Perm ((Document.joinedTypes documents.flatten).map Definition.type ++
        (firstOfEach DirectiveDefinition.name (Document.directives documents.flatten)).map
          Definition.directive) ∧
      named.Pairwise Definition.Before := by
  rw [merge_of_parsed hp]
  exact ⟨Merge.exists_definitions_iff hr, fun merged h => Merge.definitions_eq_union hr h⟩

/-- An extension that comes before its type. -/
def extensionFirst : List String :=
  ["extend type A { b: Int! }", "\"one\" type A { c: Int b: Int! }"]

def extensionFirstDocuments : List Document := [
  [.type ⟨true, none, "A", [], .object [] [⟨none, "b", [], .named "Int" true, []⟩]⟩],
  [.type ⟨false, some "one", "A", [], .object []
    [⟨none, "c", [], .named "Int" false, []⟩, ⟨none, "b", [], .named "Int" true, []⟩]⟩]]

set_option maxRecDepth 100000 in
theorem parse_extensionFirst : extensionFirst.mapM parse = .ok extensionFirstDocuments := by
  cbv

theorem merge_extensionFirst :
    extensionFirst.mapM parse = .ok extensionFirstDocuments ∧
    (∀ t ∈ Document.types extensionFirstDocuments.flatten, t.body.IsRepetitionFree) ∧
    ∃ merged, merge extensionFirst = .ok merged ∧
      merged.Perm [.type ⟨false, some "one", "A", [], .object []
        [⟨none, "b", [], .named "Int" true, []⟩, ⟨none, "c", [], .named "Int" false, []⟩]⟩] := by
  have hr : ∀ t ∈ Document.types extensionFirstDocuments.flatten,
      t.body.IsRepetitionFree := by decide
  obtain ⟨-, hunion⟩ := merge_eq_union parse_extensionFirst hr
  have hm : ∃ merged, merge extensionFirst = .ok merged := by
    rw [merge_of_parsed parse_extensionFirst]
    exact exists_of_isOk (by decide +kernel)
  obtain ⟨merged, hm⟩ := hm
  obtain ⟨named, he, hp, -⟩ := hunion merged hm
  exact ⟨parse_extensionFirst, hr, merged, hm, he ▸ hp⟩

end ApiStack.Sdl
