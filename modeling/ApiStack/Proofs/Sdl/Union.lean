import ApiStack.Sdl.Merge
import Mathlib.Data.List.Nodup

namespace ApiStack.Sdl

/-- The first item of every key, in order. -/
def firstOfEach {α κ : Type} [DecidableEq κ] (key : α → κ) : List α → List α
  | [] => []
  | a :: rest => a :: (firstOfEach key rest).filter fun b => key b ≠ key a

/-- What each key is made of: its first item, and all items that have the key. -/
def joinGroups {α κ : Type} [DecidableEq κ] (key : α → κ) (join : α → List α → α)
    (items : List α) : List α :=
  (firstOfEach key items).map fun a => join a (items.filter fun b => key b = key a)

/-- Directives of several definitions: those of the first one, and then the first of every other
name. -/
def joinedDirectives : List (List Directive) → List Directive
  | [] => []
  | first :: others =>
    first ++ (firstOfEach Directive.name others.flatten).filter
      fun d => d.name ∉ first.map Directive.name

def joinedFields : List Field → List Field :=
  joinGroups Field.name fun f group =>
    { f with directives := joinedDirectives (group.map Field.directives) }

def joinedInputs : List InputValue → List InputValue :=
  joinGroups InputValue.name fun v group =>
    { v with directives := joinedDirectives (group.map InputValue.directives) }

namespace TypeBody

/-- The interfaces of a type, or the members of a union. -/
def names : TypeBody → List String
  | .object names _ => names
  | .interface names _ => names
  | .union names => names
  | _ => []

def fields : TypeBody → List Field
  | .object _ fields => fields
  | .interface _ fields => fields
  | _ => []

def enumValues : TypeBody → List EnumValue
  | .enumeration values => values
  | _ => []

def inputs : TypeBody → List InputValue
  | .input fields => fields
  | _ => []

structure IsRepetitionFree (b : TypeBody) : Prop where
  names : b.names.Nodup
  fields : (b.fields.map Field.name).Nodup
  enumValues : (b.enumValues.map EnumValue.name).Nodup
  inputs : (b.inputs.map InputValue.name).Nodup

instance (b : TypeBody) : Decidable b.IsRepetitionFree :=
  decidable_of_iff (b.names.Nodup ∧ (b.fields.map Field.name).Nodup ∧
      (b.enumValues.map EnumValue.name).Nodup ∧ (b.inputs.map InputValue.name).Nodup)
    ⟨fun ⟨n, f, e, i⟩ => ⟨n, f, e, i⟩, fun ⟨n, f, e, i⟩ => ⟨n, f, e, i⟩⟩

/-- What several definitions consist of together, if they are of the kind of the first one. -/
def joined (first : TypeBody) (all : List TypeBody) : TypeBody :=
  match first with
  | .scalar => .scalar
  | .object .. => .object (firstOfEach id (all.flatMap names)) (joinedFields (all.flatMap fields))
  | .interface .. =>
    .interface (firstOfEach id (all.flatMap names)) (joinedFields (all.flatMap fields))
  | .union _ => .union (firstOfEach id (all.flatMap names))
  | .enumeration _ => .enumeration (firstOfEach EnumValue.name (all.flatMap enumValues))
  | .input _ => .input (joinedInputs (all.flatMap inputs))

end TypeBody

def TypeDefinition.joined (first : TypeDefinition) (all : List TypeDefinition) :
    TypeDefinition where
  isExtension := all.all TypeDefinition.isExtension
  description := all.findSome? TypeDefinition.description
  name := first.name
  directives := joinedDirectives (all.map TypeDefinition.directives)
  body := first.body.joined (all.map TypeDefinition.body)

def SchemaDefinition.joined : List SchemaDefinition → Option SchemaDefinition
  | [] => none
  | all@(_ :: _) => some {
      isExtension := all.all SchemaDefinition.isExtension
      directives := joinedDirectives (all.map SchemaDefinition.directives)
      query := all.findSome? SchemaDefinition.query
      mutation := all.findSome? SchemaDefinition.mutation
      subscription := all.findSome? SchemaDefinition.subscription }

namespace Document

/-- The definitions and extensions of the schema. -/
def schemas (d : Document) : List SchemaDefinition :=
  d.filterMap fun | .schema s => some s | _ => none

def types (d : Document) : List TypeDefinition :=
  d.filterMap fun | .type t => some t | _ => none

def directives (d : Document) : List DirectiveDefinition :=
  d.filterMap fun | .directive a => some a | _ => none

/-- Every type once, with all its definitions and extensions together. -/
def joinedTypes (d : Document) : List TypeDefinition :=
  joinGroups TypeDefinition.name TypeDefinition.joined d.types

end Document

/-- Members of one name are declared with one type, as it is written. -/
def IsConsistent (name : α → String) (type : α → TypeRef) (members : List α) : Prop :=
  ∀ a ∈ members, ∀ b ∈ members, name a = name b →
    Printer.typeRef (type a) = Printer.typeRef (type b)

/-- Bodies that can be joined: they are of one kind, and consistent. -/
structure TypeBody.Agree (all : List TypeBody) : Prop where
  kind : ∀ a ∈ all, ∀ b ∈ all, a.kind = b.kind
  fields : IsConsistent Field.name Field.type (all.flatMap TypeBody.fields)
  inputs : IsConsistent InputValue.name InputValue.type (all.flatMap TypeBody.inputs)

/-- The definitions and extensions of every type can be joined. -/
def Document.Agrees (d : Document) : Prop :=
  ∀ name, TypeBody.Agree ((d.types.filter fun t => t.name = name).map TypeDefinition.body)

section FirstOfEach

variable {α κ : Type} [DecidableEq κ] {key : α → κ} {join : α → List α → α}

theorem mem_of_mem_firstOfEach {items : List α} {a : α} (h : a ∈ firstOfEach key items) :
    a ∈ items := by
  induction items with
  | nil => exact h
  | cons b rest ih =>
    rcases List.mem_cons.1 h with rfl | h
    · exact List.mem_cons_self
    · exact List.mem_cons_of_mem _ (ih (List.mem_filter.1 h).1)

theorem mem_map_firstOfEach {items : List α} {k : κ} :
    k ∈ (firstOfEach key items).map key ↔ k ∈ items.map key := by
  induction items with
  | nil => rfl
  | cons b rest ih =>
    by_cases hk : k = key b
    · simp [firstOfEach, hk]
    · rw [List.map_cons, List.mem_cons, ← ih]
      simp only [firstOfEach, List.map_cons, List.mem_cons, List.mem_map, List.mem_filter,
        decide_eq_true_eq]
      constructor
      · rintro (he | ⟨a, ⟨ha, -⟩, rfl⟩)
        · exact .inl he
        · exact .inr ⟨a, ha, rfl⟩
      · rintro (he | ⟨a, ha, rfl⟩)
        · exact .inl he
        · exact .inr ⟨a, ⟨ha, hk⟩, rfl⟩

theorem nodup_map_firstOfEach (items : List α) : ((firstOfEach key items).map key).Nodup := by
  induction items with
  | nil => exact .nil
  | cons b rest ih =>
    refine List.nodup_cons.2 ⟨?_, ih.sublist (List.filter_sublist.map key)⟩
    intro hm
    obtain ⟨a, ha, he⟩ := List.mem_map.1 hm
    exact of_decide_eq_true (List.mem_filter.1 ha).2 he

theorem firstOfEach_append (items more : List α) :
    firstOfEach key (items ++ more) =
      firstOfEach key items ++ (firstOfEach key more).filter fun a => key a ∉ items.map key := by
  induction items with
  | nil => simp [firstOfEach]
  | cons b rest ih =>
    simp only [List.cons_append, firstOfEach, ih, List.filter_append, List.filter_filter]
    congr 2
    apply List.filter_congr
    intro a _
    simp only [List.map_cons, List.mem_cons, not_or, Bool.decide_and, decide_not]

theorem firstOfEach_of_nodup {items : List α} (h : (items.map key).Nodup) :
    firstOfEach key items = items := by
  induction items with
  | nil => rfl
  | cons b rest ih =>
    obtain ⟨hb, hr⟩ := List.nodup_cons.1 h
    rw [firstOfEach, ih hr, List.filter_eq_self.2]
    intro a ha
    exact decide_eq_true fun he => hb (he ▸ List.mem_map_of_mem ha)

theorem firstOfEach_append_new {items : List α} {a : α} (h : key a ∉ items.map key) :
    firstOfEach key (items ++ [a]) = firstOfEach key items ++ [a] := by
  have ha : firstOfEach key [a] = [a] := rfl
  rw [firstOfEach_append, ha, List.filter_cons, if_pos (decide_eq_true h), List.filter_nil]

theorem firstOfEach_append_old {items : List α} {a : α} (h : key a ∈ items.map key) :
    firstOfEach key (items ++ [a]) = firstOfEach key items := by
  have ha : firstOfEach key [a] = [a] := rfl
  have hd : ¬decide (key a ∉ items.map key) = true := fun hn => of_decide_eq_true hn h
  rw [firstOfEach_append, ha, List.filter_cons, if_neg hd, List.filter_nil, List.append_nil]

theorem find?_firstOfEach (items : List α) (k : κ) :
    (firstOfEach key items).find? (fun a => key a = k) = items.find? fun a => key a = k := by
  induction items with
  | nil => rfl
  | cons a rest ih =>
    rw [firstOfEach, List.find?_cons, List.find?_cons, ← ih, List.find?_filter]
    by_cases hk : key a = k
    · rw [decide_eq_true hk]
    · rw [decide_eq_false hk]
      show List.find? _ _ = List.find? _ _
      congr 1
      funext b
      by_cases hb : key b = k
      · have hne : k ≠ key a := fun he => hk he.symm
        simp [hb, hne]
      · simp [hb]

theorem addNew_eq (items more : List α) :
    Merge.addNew key items more =
      items ++ (firstOfEach key more).filter fun a => key a ∉ items.map key := by
  induction more generalizing items with
  | nil => simp [Merge.addNew, firstOfEach]
  | cons a rest ih =>
    have ha : (items.any fun b => decide (key b = key a)) = true ↔ key a ∈ items.map key := by
      simp [List.any_eq_true]
    rw [Merge.addNew]
    by_cases hk : key a ∈ items.map key
    · have hd : ¬decide (key a ∉ items.map key) = true := fun hn => of_decide_eq_true hn hk
      rw [if_pos (ha.2 hk), ih, firstOfEach, List.filter_cons, if_neg hd, List.filter_filter]
      congr 1
      apply List.filter_congr
      intro b _
      by_cases hb : key b ∈ items.map key
      · simp [hb]
      · have hne : key b ≠ key a := fun he => hb (he ▸ hk)
        simp [hb, hne]
    · rw [if_neg (fun hn => hk (ha.1 hn)), ih, firstOfEach, List.filter_cons,
        if_pos (decide_eq_true hk), List.filter_filter, List.append_assoc, List.singleton_append]
      congr 2
      apply List.filter_congr
      intro b _
      simp only [List.map_append, List.map_cons, List.map_nil, List.mem_append, List.mem_singleton,
        not_or, Bool.decide_and, decide_not]

theorem addNew_firstOfEach (items more : List α) :
    Merge.addNew key (firstOfEach key items) more = firstOfEach key (items ++ more) := by
  rw [addNew_eq, firstOfEach_append]
  simp only [mem_map_firstOfEach]

variable (join) in
theorem joinGroups_append_new {items : List α} {a : α} (h : key a ∉ items.map key) :
    joinGroups key join (items ++ [a]) = joinGroups key join items ++ [join a [a]] := by
  have hn {b : α} (hb : b ∈ items) : key a ≠ key b := fun he =>
    h (he ▸ List.mem_map_of_mem hb)
  unfold joinGroups
  rw [firstOfEach_append_new h, List.map_append]
  congr 1
  · apply List.map_congr_left
    intro b hb
    rw [List.filter_append, List.filter_cons,
      if_neg (fun hd => hn (mem_of_mem_firstOfEach hb) (of_decide_eq_true hd)), List.filter_nil,
      List.append_nil]
  · rw [List.map_singleton, List.filter_append, List.filter_cons, if_pos (decide_eq_true rfl),
      List.filter_nil, List.filter_eq_nil_iff.2, List.nil_append]
    intro b hb hd
    exact hn hb (of_decide_eq_true hd).symm

theorem replaceFirst_eq_map {items : List α} (h : (items.map key).Nodup) (k : κ) (f : α → α) :
    Merge.replaceFirst (fun a => key a = k) f items =
      items.map fun a => if key a = k then f a else a := by
  induction items with
  | nil => rfl
  | cons a rest ih =>
    obtain ⟨ha, hr⟩ := List.nodup_cons.1 h
    rw [Merge.replaceFirst, List.map_cons]
    by_cases hk : key a = k
    · rw [if_pos (decide_eq_true hk), if_pos hk]
      congr 1
      have hid : ∀ b ∈ rest, (if key b = k then f b else b) = b := by
        intro b hb
        rw [if_neg]
        intro hbk
        exact ha ((hk.trans hbk.symm) ▸ List.mem_map_of_mem hb)
      rw [List.map_congr_left hid, List.map_id']
    · have hd : ¬decide (key a = k) = true := fun he => hk (of_decide_eq_true he)
      rw [if_neg hd, if_neg hk, ih hr]

section JoinGroups

variable (hjoin : ∀ a group, key (join a group) = key a)
include hjoin

theorem map_joinGroups (items : List α) :
    (joinGroups key join items).map key = (firstOfEach key items).map key := by
  rw [joinGroups, List.map_map]
  exact List.map_congr_left fun a _ => hjoin a _

theorem nodup_map_joinGroups (items : List α) : ((joinGroups key join items).map key).Nodup := by
  rw [map_joinGroups hjoin]
  exact nodup_map_firstOfEach items

theorem find?_joinGroups (items : List α) (k : κ) :
    (joinGroups key join items).find? (fun a => key a = k) =
      (items.find? fun a => key a = k).map fun a => join a (items.filter fun b => key b = k) := by
  have hp : (fun a => decide (key a = k)) ∘
      (fun a => join a (items.filter fun b => key b = key a)) = fun a => decide (key a = k) := by
    funext a
    rw [Function.comp_apply, hjoin]
  rw [joinGroups, List.find?_map, hp, find?_firstOfEach]
  cases hf : items.find? fun a => key a = k with
  | none => rfl
  | some a =>
    have hk : key a = k := by simpa using List.find?_some hf
    rw [Option.map_some, Option.map_some, hk]

/-- An item whose key has come up joins its group. -/
theorem replaceFirst_joinGroups {items : List α} {a : α} {f : α → α}
    (h : key a ∈ items.map key)
    (hf : ∀ b ∈ items, key b = key a →
      f (join b (items.filter fun c => key c = key a)) =
        join b ((items.filter fun c => key c = key a) ++ [a])) :
    Merge.replaceFirst (fun b => key b = key a) f (joinGroups key join items) =
      joinGroups key join (items ++ [a]) := by
  rw [replaceFirst_eq_map (nodup_map_joinGroups hjoin items), joinGroups, joinGroups,
    firstOfEach_append_old h, List.map_map]
  apply List.map_congr_left
  intro b hb
  have hm := mem_of_mem_firstOfEach hb
  rw [Function.comp_apply, hjoin, List.filter_append, List.filter_cons]
  by_cases hk : key b = key a
  · rw [if_pos hk, if_pos (decide_eq_true hk.symm), List.filter_nil, hk, hf b hm hk]
  · have hd : ¬decide (key a = key b) = true := fun he => hk (of_decide_eq_true he).symm
    rw [if_neg hk, if_neg hd, List.filter_nil, List.append_nil]

end JoinGroups

end FirstOfEach

end ApiStack.Sdl
