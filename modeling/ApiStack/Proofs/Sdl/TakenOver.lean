import ApiStack.Proofs.Sdl.MergedValidity

namespace ApiStack.Sdl

/-- Of the items of several lists, those of the first list are taken over, and the first ones with
their key. -/
def IsTakenOver {α κ : Type} [DecidableEq κ] (key : α → κ) (lists : List (List α)) (a : α) : Prop :=
  a ∈ lists.headD [] ∨ lists.flatten.find? (fun b => key b = key a) = some a

/-- What of several lists is taken over. -/
def takenOver {α κ : Type} [DecidableEq κ] (key : α → κ) (lists : List (List α)) : List α :=
  Merge.addNew key (lists.headD []) lists.tail.flatten

section Items

variable {α κ : Type} [DecidableEq κ] {key : α → κ}

theorem find?_eq_none_iff {items : List α} {k : κ} :
    items.find? (fun a => key a = k) = none ↔ k ∉ items.map key := by
  simp [List.find?_eq_none]

theorem find?_of_mem {items : List α} {a : α} (ha : a ∈ items)
    (h : ∀ b ∈ items, key b = key a → b = a) :
    items.find? (fun b => key b = key a) = some a := by
  cases hf : items.find? fun b => key b = key a with
  | none => exact (find?_eq_none_iff.1 hf (List.mem_map_of_mem ha)).elim
  | some b =>
    have he : key b = key a := by simpa using List.find?_some hf
    rw [h b (List.mem_of_find?_eq_some hf) he]

theorem find?_of_nodup {items : List α} {a : α} (ha : a ∈ items) (h : (items.map key).Nodup) :
    items.find? (fun b => key b = key a) = some a :=
  find?_of_mem ha fun _ hb he => List.inj_on_of_nodup_map h hb ha he

theorem mem_firstOfEach_iff {items : List α} {a : α} :
    a ∈ firstOfEach key items ↔ items.find? (fun b => key b = key a) = some a := by
  rw [← find?_firstOfEach]
  exact ⟨fun ha => find?_of_nodup ha (nodup_map_firstOfEach items), List.mem_of_find?_eq_some⟩

theorem mem_addNew_iff {items more : List α} {a : α} :
    a ∈ Merge.addNew key items more ↔
      a ∈ items ∨ (items ++ more).find? (fun b => key b = key a) = some a := by
  rw [addNew_eq, List.mem_append, List.mem_filter, mem_firstOfEach_iff, decide_eq_true_eq,
    List.find?_append]
  refine or_congr_right' fun ha => ?_
  cases hf : items.find? fun b => key b = key a with
  | none =>
    rw [Option.none_or]
    exact and_iff_left (find?_eq_none_iff.1 hf)
  | some b =>
    have hb := List.mem_of_find?_eq_some hf
    have he : key b = key a := by simpa using List.find?_some hf
    rw [Option.some_or]
    constructor
    · rintro ⟨-, hk⟩
      exact (hk (he ▸ List.mem_map_of_mem hb)).elim
    · rintro ⟨⟩
      exact (ha hb).elim

theorem addNew_append (items a b : List α) :
    Merge.addNew key items (a ++ b) = Merge.addNew key (Merge.addNew key items a) b := by
  induction a generalizing items with
  | nil => rfl
  | cons x rest ih =>
    rw [List.cons_append, Merge.addNew, Merge.addNew]
    split
    · exact ih items
    · exact ih (items ++ [x])

theorem mem_takenOver_iff {lists : List (List α)} {a : α} :
    a ∈ takenOver key lists ↔ IsTakenOver key lists a := by
  rw [takenOver, mem_addNew_iff]
  cases lists <;> rfl

theorem takenOver_append {lists : List (List α)} (h : lists ≠ []) (more : List α) :
    takenOver key (lists ++ [more]) = Merge.addNew key (takenOver key lists) more := by
  obtain ⟨first, others, rfl⟩ := List.exists_cons_of_ne_nil h
  rw [takenOver, takenOver, ← addNew_append]
  simp

theorem find?_replaceFirst {items : List α} {k : κ} {a : α} (ha : key a = k) (l : κ) :
    (Merge.replaceFirst (fun b => key b = k) (fun _ => a) items).find? (fun b => key b = l) =
      if l = k then (items.find? fun b => key b = k).map fun _ => a
      else items.find? fun b => key b = l := by
  induction items with
  | nil => simp [Merge.replaceFirst]
  | cons b rest ih =>
    by_cases hb : key b = k
    · by_cases hl : l = k
      · simp [Merge.replaceFirst, hb, hl, ha]
      · have hkl : k ≠ l := fun he => hl he.symm
        simp [Merge.replaceFirst, hb, hl, ha, hkl]
    · by_cases hl : l = k
      · subst hl
        simpa [Merge.replaceFirst, hb] using ih
      · by_cases hbl : key b = l
        · subst hbl
          simp [Merge.replaceFirst, hb]
        · simpa [Merge.replaceFirst, hb, hl, hbl] using ih

theorem subset_addNew (items more : List α) : items ⊆ Merge.addNew key items more := by
  rw [addNew_eq]
  exact List.subset_append_left _ _

theorem map_replaceFirst {β : Type} {g : α → β} {p : α → Bool} {f : α → α}
    (hf : ∀ a, p a = true → g (f a) = g a) (items : List α) :
    (Merge.replaceFirst p f items).map g = items.map g := by
  induction items with
  | nil => rfl
  | cons a rest ih =>
    rw [Merge.replaceFirst]
    split
    · next hp => rw [List.map_cons, List.map_cons, hf a hp]
    · rw [List.map_cons, List.map_cons, ih]

end Items

/-- What of a member stays the same when it takes more directives. -/
structure Merge.Member.IsBare {α : Type} (m : Merge.Member α) (bare : α → α) : Prop where
  name : ∀ a, m.name (bare a) = m.name a
  type : ∀ a, m.type (bare a) = m.type a
  addDirectives : ∀ a b, bare (m.addDirectives a b) = bare a

/-- Among some members there is one of this name and, as it is written, of this type. -/
def Merge.Member.Fits {α : Type} (m : Merge.Member α) (a : α) (members : List α) : Prop :=
  ∃ b ∈ members, m.name b = m.name a ∧ Printer.typeRef (m.type b) = Printer.typeRef (m.type a)

namespace Merge.Member.IsBare

variable {α : Type} {m : Merge.Member α} {bare : α → α}

theorem fits_of_mem (hb : m.IsBare bare) {a : α} {members more : List α}
    (hs : members.map bare ⊆ more.map bare) (ha : a ∈ members) : m.Fits a more := by
  obtain ⟨b, hm, he⟩ := List.mem_map.1 (hs (List.mem_map_of_mem ha))
  refine ⟨b, hm, ?_, ?_⟩
  · rw [← hb.name b, he, hb.name]
  · rw [← hb.type b, he, hb.type]

/-- Members are added without conflict to what is there, each with a type that fits. -/
theorem members_eq_none (hb : m.IsBare bare) {type : String} {existing incoming result : List α}
    (h : Merge.members m type existing incoming = (result, none)) :
    result.map bare = Merge.addNew m.name (existing.map bare) (incoming.map bare) ∧
      ∀ a ∈ incoming, m.Fits a result := by
  induction incoming generalizing existing with
  | nil =>
    cases h
    exact ⟨rfl, nofun⟩
  | cons a rest ih =>
    rw [Merge.members] at h
    rw [List.map_cons, Merge.addNew]
    cases hf : existing.find? fun b => m.name b = m.name a with
    | none =>
      simp only [hf] at h
      obtain ⟨hr, hfits⟩ := ih h
      have hnew : ¬((existing.map bare).any fun b => m.name b = m.name (bare a)) = true := by
        simpa [hb.name] using hf
      have ha : m.Fits a result := by
        apply hb.fits_of_mem _ (List.mem_append_right existing (List.mem_singleton_self a))
        rw [hr]
        exact subset_addNew _ _
      rw [if_neg hnew, hr, List.map_append, List.map_singleton]
      exact ⟨rfl, List.forall_mem_cons.2 ⟨ha, hfits⟩⟩
    | some b =>
      have hm := List.mem_of_find?_eq_some hf
      have hn : m.name b = m.name a := by simpa using List.find?_some hf
      simp only [hf] at h
      split at h
      · next ht =>
        obtain ⟨hr, hfits⟩ := ih h
        rw [map_replaceFirst fun b _ => hb.addDirectives b a] at hr
        have hold : ((existing.map bare).any fun b => m.name b = m.name (bare a)) = true := by
          simpa [hb.name] using ⟨b, hm, hn⟩
        have ha : m.Fits a result := by
          obtain ⟨c, hc, hcn, hct⟩ := hb.fits_of_mem (hr ▸ subset_addNew _ _) hm
          exact ⟨c, hc, hcn.trans hn, hct.trans ht⟩
        rw [if_pos hold]
        exact ⟨hr, List.forall_mem_cons.2 ⟨ha, hfits⟩⟩
      · cases h

end Merge.Member.IsBare

/-- A field without the directives that are applied to it. -/
def Field.bare (f : Field) : Field := { f with directives := [] }

theorem isBare_field : Merge.fieldMember.IsBare Field.bare :=
  ⟨fun _ => rfl, fun _ => rfl, fun _ _ => rfl⟩

namespace TypeBody

def bareFields (b : TypeBody) : List Field := b.fields.map Field.bare

/-- Where this body goes into another one, that one is of the same kind, and fields fit. -/
structure Fits (b merged : TypeBody) : Prop where
  kind : b.kind = merged.kind
  fields : ∀ f ∈ b.fields, Merge.fieldMember.Fits f merged.fields

theorem fits_of_subset {b c : TypeBody} (hk : b.kind = c.kind)
    (hs : b.bareFields ⊆ c.bareFields) : b.Fits c :=
  ⟨hk, fun _ hf => isBare_field.fits_of_mem hs hf⟩

theorem Fits.trans_subset {a b c : TypeBody} (h : a.Fits b) (hk : b.kind = c.kind)
    (hs : b.bareFields ⊆ c.bareFields) : a.Fits c := by
  refine ⟨h.kind.trans hk, fun f hf => ?_⟩
  obtain ⟨g, hg, hn, ht⟩ := h.fields f hf
  obtain ⟨g', hg', hn', ht'⟩ := isBare_field.fits_of_mem hs hg
  exact ⟨g', hg', hn'.trans hn, ht'.trans ht⟩

theorem body_eq_none {type : String} {a b c : TypeBody} (h : Merge.body type a b = (c, none)) :
    c.bareFields = Merge.addNew Field.name a.bareFields b.bareFields ∧ a.kind = c.kind ∧
      b.Fits c := by
  by_cases hk : a.kind = b.kind
  · cases a with
    | object =>
      cases b <;> simp [TypeBody.kind] at hk
      obtain ⟨rfl, hnone⟩ := Prod.mk.inj h
      obtain ⟨hr, hfits⟩ := isBare_field.members_eq_none (Prod.ext rfl hnone)
      exact ⟨hr, rfl, rfl, hfits⟩
    | interface =>
      cases b <;> simp [TypeBody.kind] at hk
      obtain ⟨rfl, hnone⟩ := Prod.mk.inj h
      obtain ⟨hr, hfits⟩ := isBare_field.members_eq_none (Prod.ext rfl hnone)
      exact ⟨hr, rfl, rfl, hfits⟩
    | _ =>
      cases b <;> simp [TypeBody.kind] at hk
      obtain ⟨rfl, -⟩ := Prod.mk.inj h
      exact ⟨rfl, rfl, rfl, fun _ hf => (List.not_mem_nil hf).elim⟩
  · exact (body_of_kind_ne hk type (congrArg Prod.snd h)).elim

end TypeBody

/-- Definitions of a type are united one after another, without a conflict. -/
inductive TypeDefinition.Unites : List TypeDefinition → Option TypeDefinition → Prop
  | none : Unites [] none
  | first (t : TypeDefinition) : Unites [t] (some t)
  | next {group : List TypeDefinition} {m merged t : TypeDefinition} (h : Unites group (some m))
      (ht : Merge.typeDefinition m t = (merged, Option.none)) : Unites (group ++ [t]) (some merged)

/-- What of several definitions of a type is found in one definition. -/
structure TypeDefinition.TakesOver (m : TypeDefinition) (group : List TypeDefinition) : Prop where
  directives : m.directives = takenOver Directive.name (group.map TypeDefinition.directives)
  fields : m.body.bareFields = takenOver Field.name (group.map fun t => t.body.bareFields)
  fits : ∀ t ∈ group, t.body.Fits m.body

namespace TypeDefinition

theorem takesOver_self (t : TypeDefinition) : t.TakesOver [t] where
  directives := rfl
  fields := rfl
  fits s hs := by
    rw [List.mem_singleton.1 hs]
    exact TypeBody.fits_of_subset rfl (List.Subset.refl _)

theorem TakesOver.next {m merged t : TypeDefinition} {group : List TypeDefinition}
    (h : m.TakesOver group) (hne : group ≠ [])
    (ht : Merge.typeDefinition m t = (merged, none)) : merged.TakesOver (group ++ [t]) := by
  have hmap {β : Type} (f : TypeDefinition → β) : group.map f ≠ [] :=
    fun hn => hne (List.map_eq_nil_iff.1 hn)
  obtain ⟨rfl, hnone⟩ := Prod.mk.inj ht
  obtain ⟨hfields, hkind, hfits⟩ := TypeBody.body_eq_none (Prod.ext rfl hnone)
  have hsubset : m.body.bareFields ⊆ (Merge.typeDefinition m t).1.body.bareFields := by
    show _ ⊆ (Merge.body m.name m.body t.body).1.bareFields
    rw [hfields]
    exact subset_addNew _ _
  constructor
  · rw [List.map_append, List.map_singleton, takenOver_append (hmap _), ← h.directives]
    rfl
  · rw [List.map_append, List.map_singleton, takenOver_append (hmap _), ← h.fields]
    exact hfields
  · intro s hs
    rcases List.mem_append.1 hs with hs | hs
    · exact (h.fits s hs).trans_subset hkind hsubset
    · rw [List.mem_singleton.1 hs]
      exact hfits

theorem Unites.eq_nil_iff {group : List TypeDefinition} {m : Option TypeDefinition}
    (h : Unites group m) : group = [] ↔ m = Option.none := by
  cases h <;> simp

theorem Unites.takesOver {group : List TypeDefinition} {m : TypeDefinition}
    (h : Unites group (some m)) : group ≠ [] ∧ m.TakesOver group := by
  generalize ho : some m = o at h
  induction h generalizing m with
  | none => cases ho
  | first t =>
    cases ho
    exact ⟨List.cons_ne_nil _ _, t.takesOver_self⟩
  | next _ ht ih =>
    cases ho
    obtain ⟨hne, hm⟩ := ih rfl
    exact ⟨List.append_ne_nil_of_left_ne_nil hne _, hm.next hne ht⟩

end TypeDefinition

namespace Merge.Union

/-- Under every name there is what the definitions of that name are united to. -/
structure AreUnited (types all : List TypeDefinition) : Prop where
  nodup : (types.map TypeDefinition.name).Nodup
  unites : ∀ name, TypeDefinition.Unites (all.filter fun t => t.name = name)
    (types.find? fun t => t.name = name)

theorem joins_united_empty : empty.Joins AreUnited [] := ⟨rfl, ⟨.nil, fun _ => .none⟩, rfl⟩

variable {u : Merge.Union} {all : Document} {types all' : List TypeDefinition} {t : TypeDefinition}

theorem AreUnited.append (h : AreUnited types all')
    (hf : types.find? (fun s => s.name = t.name) = none) :
    AreUnited (types ++ [t]) (all' ++ [t]) := by
  constructor
  · rw [List.map_append, List.map_singleton]
    refine List.nodup_append'.2 ⟨h.nodup, List.nodup_singleton _, ?_⟩
    exact List.disjoint_singleton.2 (find?_eq_none_iff.1 hf)
  · intro name
    have hu := h.unites name
    rw [List.filter_append, List.find?_append, List.filter_singleton, List.find?_singleton]
    by_cases hn : t.name = name
    · subst hn
      rw [hf] at hu ⊢
      generalize List.filter _ _ = group at hu ⊢
      cases hu
      simpa using .first t
    · simpa [hn] using hu

theorem AreUnited.replace (h : AreUnited types all') {existing merged : TypeDefinition}
    (hf : types.find? (fun s => s.name = t.name) = some existing)
    (ht : typeDefinition existing t = (merged, none)) :
    AreUnited (replaceFirst (fun s => s.name = t.name) (fun _ => merged) types)
      (all' ++ [t]) := by
  have hname : merged.name = t.name := by
    have he : existing.name = t.name := by simpa using List.find?_some hf
    rw [← he, ← (Prod.mk.inj ht).1]
  constructor
  · have hmap := map_replaceFirst (p := fun s => s.name = t.name) (g := TypeDefinition.name)
      (f := fun _ => merged) (fun s hs => hname.trans (of_decide_eq_true hs).symm) types
    rw [hmap]
    exact h.nodup
  · intro name
    have hu := h.unites name
    rw [List.filter_append, List.filter_singleton, find?_replaceFirst hname]
    by_cases hn : name = t.name
    · subst hn
      rw [hf] at hu ⊢
      simpa using hu.next ht
    · have hn' : t.name ≠ name := fun he => hn he.symm
      simpa [hn, hn'] using hu

theorem AreUnited.takesOver (h : AreUnited types all') {m : TypeDefinition} (hm : m ∈ types) :
    m.TakesOver (all'.filter fun t => t.name = m.name) := by
  have hu := h.unites m.name
  rw [find?_of_nodup hm h.nodup] at hu
  exact hu.takesOver.2

theorem AreUnited.mem_names (h : AreUnited types all') (name : String) :
    name ∈ types.map TypeDefinition.name ↔ name ∈ all'.map TypeDefinition.name := by
  have hu := (h.unites name).eq_nil_iff
  rw [find?_eq_none_iff, List.filter_eq_nil_iff] at hu
  rw [← not_iff_not, ← hu]
  simp

theorem Joins.add_united (h : u.Joins AreUnited all) {x : Definition}
    (hc : (u.add x).conflicts = []) : (u.add x).Joins AreUnited (all ++ [x]) := by
  cases x with
  | schema s => exact h.add_schema s
  | directive d => exact h.add_directive d
  | type t =>
    cases hf : u.types.find? fun existing => existing.name = t.name with
    | none =>
      rw [add_type_of_new hf]
      exact h.of_types _ (h.types.append hf)
    | some existing =>
      rw [add_type_of_old hf] at hc ⊢
      have hnone := Option.toList_eq_nil_iff.1 (List.append_eq_nil_iff.1 hc).2
      exact h.of_types _ (h.types.replace hf (Prod.ext rfl hnone))

theorem Joins.foldl_united {d : Document} (h : u.Joins AreUnited all)
    (hc : (d.foldl Union.add u).conflicts = []) :
    (d.foldl Union.add u).Joins AreUnited (all ++ d) := by
  induction d generalizing u all with
  | nil =>
    rw [List.append_nil]
    exact h
  | cons x rest ih =>
    have hx : (u.add x).conflicts = [] := by
      by_contra hne
      exact conflicts_foldl_ne hne hc
    rw [List.append_cons]
    exact ih (h.add_united hx) hc

end Merge.Union

/-- What of the definitions of a document is found in their union. -/
structure Document.TakesOver (merged all : Document) : Prop where
  types : (merged.types.map TypeDefinition.name).Nodup ∧
    ∀ name, name ∈ merged.types.map TypeDefinition.name ↔ name ∈ all.types.map TypeDefinition.name
  directives : ∀ m ∈ merged.types, ∀ a, a ∈ m.directives ↔ IsTakenOver Directive.name
    ((all.types.filter fun t => t.name = m.name).map TypeDefinition.directives) a
  fields : ∀ m ∈ merged.types, ∀ f, f ∈ m.body.bareFields ↔ IsTakenOver Field.name
    ((all.types.filter fun t => t.name = m.name).map fun t => t.body.bareFields) f
  fits : ∀ m ∈ merged.types, ∀ t ∈ all.types, t.name = m.name → t.body.Fits m.body
  schemaDirectives : ∀ a, a ∈ merged.schemas.flatMap SchemaDefinition.directives ↔
    IsTakenOver Directive.name (all.schemas.map SchemaDefinition.directives) a
  roots : ∀ operation, merged.schemas.findSome? (SchemaDefinition.root? · operation) =
    all.schemas.findSome? (SchemaDefinition.root? · operation)

theorem isTakenOver_of_mem {α κ : Type} [DecidableEq κ] {key : α → κ}
    {items : TypeDefinition → List α} {types : List TypeDefinition} {name : String}
    {t : TypeDefinition} {a : α} (ht : t ∈ types) (hn : t.name = name) (ha : a ∈ items t)
    (h : ∀ s ∈ types, s.name = name → ∀ b ∈ items s, key b = key a → b = a) :
    IsTakenOver key ((types.filter fun t => t.name = name).map items) a := by
  have hgroup : t ∈ types.filter fun t => t.name = name :=
    List.mem_filter.2 ⟨ht, decide_eq_true hn⟩
  refine .inr (find?_of_mem (List.mem_flatten.2 ⟨_, List.mem_map_of_mem hgroup, ha⟩) fun b hb => ?_)
  obtain ⟨s, hs, hb⟩ := List.mem_flatMap.1 hb
  exact h s (List.mem_filter.1 hs).1 (of_decide_eq_true (List.mem_filter.1 hs).2) b hb

namespace Document.TakesOver

variable {merged all : Document} {m t : TypeDefinition}

theorem mem_directives (h : merged.TakesOver all) (hm : m ∈ merged.types) (ht : t ∈ all.types)
    (hn : t.name = m.name) {a : Directive} (ha : a ∈ t.directives)
    (hsame : ∀ s ∈ all.types, s.name = m.name → ∀ b ∈ s.directives, b.name = a.name → b = a) :
    a ∈ m.directives :=
  (h.directives m hm a).2 (isTakenOver_of_mem ht hn ha hsame)

theorem mem_bareFields (h : merged.TakesOver all) (hm : m ∈ merged.types) (ht : t ∈ all.types)
    (hn : t.name = m.name) {f : Field} (hf : f ∈ t.body.bareFields)
    (hsame : ∀ s ∈ all.types, s.name = m.name → ∀ g ∈ s.body.bareFields, g.name = f.name → g = f) :
    f ∈ m.body.bareFields :=
  (h.fields m hm f).2 (isTakenOver_of_mem ht hn hf hsame)

end Document.TakesOver

theorem joinedDirectives_eq (lists : List (List Directive)) :
    joinedDirectives lists = takenOver Directive.name lists := by
  cases lists with
  | nil => rfl
  | cons first others => exact (addNew_eq first others.flatten).symm

theorem root?_joined (all : List SchemaDefinition) (operation : Operation) :
    (SchemaDefinition.joined all).toList.findSome? (SchemaDefinition.root? · operation) =
      all.findSome? (SchemaDefinition.root? · operation) := by
  cases all with
  | nil => rfl
  | cons first rest =>
    rw [SchemaDefinition.joined, Option.toList_some, List.findSome?_singleton]
    cases operation <;> rfl

theorem mem_directives_joined (all : List SchemaDefinition) (a : Directive) :
    a ∈ (SchemaDefinition.joined all).toList.flatMap SchemaDefinition.directives ↔
      IsTakenOver Directive.name (all.map SchemaDefinition.directives) a := by
  rw [← mem_takenOver_iff, ← joinedDirectives_eq]
  cases all with
  | nil => rfl
  | cons first rest => rw [SchemaDefinition.joined, Option.toList_some, List.flatMap_singleton]

namespace Merge

theorem Union.schemas_document (u : Union) : u.document.schemas = u.schema.toList := by
  have hp : u.document.schemas.Perm u.schema.toList := by
    rw [← u.schemas_unsorted]
    exact u.document_perm.filterMap _
  cases hs : u.schema with
  | none =>
    rw [hs] at hp
    exact List.perm_nil.1 hp
  | some s =>
    rw [hs] at hp
    exact List.perm_singleton.1 hp

theorem Union.types_document_perm (u : Union) : u.document.types.Perm u.types := by
  rw [← u.types_unsorted]
  exact u.document_perm.filterMap _

theorem takesOver_of_definitions {d merged : Document} (h : definitions d = .ok merged) :
    merged.TakesOver d := by
  obtain ⟨hc, rfl⟩ := definitions_eq_ok_iff.1 h
  have hj := Union.joins_united_empty.foldl_united hc
  rw [List.nil_append] at hj
  generalize d.foldl Union.add Union.empty = u at hj ⊢
  have hp := u.types_document_perm
  have hmade {m : TypeDefinition} (hm : m ∈ u.document.types) :
      m.TakesOver (d.types.filter fun t => t.name = m.name) :=
    hj.types.takesOver (hp.mem_iff.1 hm)
  refine ⟨⟨(hp.map _).nodup_iff.2 hj.types.nodup, fun name => ?_⟩, fun m hm a => ?_,
    fun m hm f => ?_, fun m hm t ht hn => ?_, fun a => ?_, fun operation => ?_⟩
  · rw [(hp.map _).mem_iff]
    exact hj.types.mem_names name
  · rw [(hmade hm).directives, mem_takenOver_iff]
  · rw [(hmade hm).fields, mem_takenOver_iff]
  · exact (hmade hm).fits t (List.mem_filter.2 ⟨ht, decide_eq_true hn⟩)
  · rw [u.schemas_document, hj.schema, mem_directives_joined]
  · rw [u.schemas_document, hj.schema, root?_joined]

end Merge

end ApiStack.Sdl
