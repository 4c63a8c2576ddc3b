import ApiStack.Proofs.Sdl.TakenOver
import ApiStack.Proofs.Sdl.Validation

namespace ApiStack.Sdl

def Fault.conflict? : Fault → Option String
  | .kindConflict type _ _ => some type
  | .typeConflict type _ _ _ => some type
  | _ => none

/-- Every member has the name and the type of one of the others. -/
def Merge.Member.Stems {α : Type} (m : Merge.Member α) (members others : List α) : Prop :=
  ∀ a ∈ members, ∃ b ∈ others, m.name b = m.name a ∧ m.type b = m.type a

namespace Merge.Member.IsBare

variable {α : Type} {m : Merge.Member α} {bare : α → α} {existing incoming : List α} {type : String}

theorem mem_replaceFirst {p : α → Bool} {f : α → α} {items : List α} {a : α}
    (h : a ∈ Merge.replaceFirst p f items) : a ∈ items ∨ ∃ b ∈ items, a = f b := by
  induction items with
  | nil => cases h
  | cons b rest ih =>
    rw [Merge.replaceFirst] at h
    split at h
    · rcases List.mem_cons.1 h with rfl | h
      · exact .inr ⟨b, List.mem_cons_self, rfl⟩
      · exact .inl (List.mem_cons_of_mem b h)
    · rcases List.mem_cons.1 h with rfl | h
      · exact .inl List.mem_cons_self
      · rcases ih h with h | ⟨c, hc, he⟩
        · exact .inl (List.mem_cons_of_mem b h)
        · exact .inr ⟨c, List.mem_cons_of_mem b hc, he⟩

theorem stems_replaceFirst (hb : m.IsBare bare) (p : α → Bool) (a : α) (items : List α) :
    m.Stems (Merge.replaceFirst p (m.addDirectives · a) items) items := by
  intro b hm
  rcases mem_replaceFirst hm with hm | ⟨c, hc, rfl⟩
  · exact ⟨b, hm, rfl, rfl⟩
  · refine ⟨c, hc, ?_, ?_⟩
    · rw [← hb.name, ← hb.name (m.addDirectives c a), hb.addDirectives]
    · rw [← hb.type, ← hb.type (m.addDirectives c a), hb.addDirectives]

end Merge.Member.IsBare

namespace Merge.Member.Stems

variable {α : Type} {m : Merge.Member α} {a b c : List α}

theorem nil (b : List α) : m.Stems [] b := nofun

theorem of_subset (h : a ⊆ b) : m.Stems a b := fun x hx => ⟨x, h hx, rfl, rfl⟩

theorem trans (h : m.Stems a b) (h' : m.Stems b c) : m.Stems a c := by
  intro x hx
  obtain ⟨y, hy, hn, ht⟩ := h x hx
  obtain ⟨z, hz, hn', ht'⟩ := h' y hy
  exact ⟨z, hz, hn'.trans hn, ht'.trans ht⟩

theorem append (h : m.Stems a c) (h' : m.Stems b c) : m.Stems (a ++ b) c :=
  List.forall_mem_append.2 ⟨h, h'⟩

theorem append_right (h : m.Stems a b) (c : List α) : m.Stems (a ++ c) (b ++ c) :=
  (h.trans (of_subset (List.subset_append_left b c))).append
    (of_subset (List.subset_append_right b c))

/-- Members are consistent if those are that they stem from. -/
theorem isConsistent (h : m.Stems a b) (hb : IsConsistent m.name m.type b) :
    IsConsistent m.name m.type a := by
  intro x hx y hy he
  obtain ⟨x', hx', hn, ht⟩ := h x hx
  obtain ⟨y', hy', hn', ht'⟩ := h y hy
  rw [← ht, ← ht']
  exact hb x' hx' y' hy' (hn.trans (he.trans hn'.symm))

end Merge.Member.Stems

namespace Merge

variable {α : Type} {m : Member α} {bare : α → α} {type : String} {fault : Fault}

/-- The directives of a member that is there already are added to it, which changes nothing else. -/
theorem stems_known (hb : m.IsBare bare) (existing rest : List α) (a : α) :
    m.Stems (replaceFirst (fun b => m.name b = m.name a) (m.addDirectives · a) existing ++ rest)
      (existing ++ a :: rest) := by
  have hs := (hb.stems_replaceFirst (fun b => m.name b = m.name a) a existing).append_right rest
  exact hs.trans (.of_subset (by simp))

theorem stems_members (hb : m.IsBare bare) (type : String) (existing incoming : List α) :
    m.Stems (members m type existing incoming).1 (existing ++ incoming) := by
  induction incoming generalizing existing with
  | nil => exact .of_subset (List.subset_append_left _ _)
  | cons a rest ih =>
    rw [members]
    split
    · rw [List.append_cons existing a rest]
      exact ih _
    · simp only
      split
      · exact (ih _).trans (stems_known hb existing rest a)
      · exact .of_subset (List.subset_append_left _ _)

theorem not_isConsistent_of_fault (hb : m.IsBare bare) {existing incoming : List α}
    (h : (members m type existing incoming).2 = some fault) :
    fault.conflict? = some type ∧ ¬IsConsistent m.name m.type (existing ++ incoming) := by
  induction incoming generalizing existing with
  | nil => cases h
  | cons a rest ih =>
    rw [members] at h
    split at h
    · rw [List.append_cons existing a rest]
      exact ih h
    · next b hf =>
      have hm := List.mem_of_find?_eq_some hf
      have hn : m.name b = m.name a := by simpa using List.find?_some hf
      simp only at h
      split at h
      · obtain ⟨hc, hi⟩ := ih h
        exact ⟨hc, fun hcons => hi ((stems_known hb existing rest a).isConsistent hcons)⟩
      · next ht =>
        cases h
        exact ⟨rfl, fun hcons => ht (hcons b (by simp [hm]) a (by simp) hn)⟩

end Merge

theorem isBare_input : Merge.inputMember.IsBare fun v => { v with directives := [] } :=
  ⟨fun _ => rfl, fun _ => rfl, fun _ _ => rfl⟩

namespace TypeBody

/-- A body has the kind of one of the others, and its members have names and types of theirs. -/
structure StemsFrom (b : TypeBody) (others : List TypeBody) : Prop where
  kind : ∃ c ∈ others, c.kind = b.kind
  fields : Merge.fieldMember.Stems b.fields (others.flatMap TypeBody.fields)
  inputs : Merge.inputMember.Stems b.inputs (others.flatMap TypeBody.inputs)

variable {a b : TypeBody} {others more : List TypeBody} {type : String} {fault : Fault}

theorem subset_flatMap {α : Type} (f : TypeBody → List α) (h : b ∈ others) :
    f b ⊆ others.flatMap f :=
  fun _ hx => List.mem_flatMap.2 ⟨b, h, hx⟩

theorem flatMap_subset {α : Type} (f : TypeBody → List α) (h : others ⊆ more) :
    others.flatMap f ⊆ more.flatMap f := by
  intro x hx
  obtain ⟨c, hc, hx⟩ := List.mem_flatMap.1 hx
  exact List.mem_flatMap.2 ⟨c, h hc, hx⟩

theorem stemsFrom_of_mem (h : b ∈ others) : b.StemsFrom others where
  kind := ⟨b, h, rfl⟩
  fields := .of_subset (subset_flatMap fields h)
  inputs := .of_subset (subset_flatMap inputs h)

theorem StemsFrom.mono (h : b.StemsFrom others) (hs : others ⊆ more) : b.StemsFrom more where
  kind := by
    obtain ⟨c, hc, hk⟩ := h.kind
    exact ⟨c, hs hc, hk⟩
  fields := h.fields.trans (.of_subset (flatMap_subset _ hs))
  inputs := h.inputs.trans (.of_subset (flatMap_subset _ hs))

theorem StemsFrom.fields_append (ha : a.StemsFrom others) (hb : b ∈ others) :
    Merge.fieldMember.Stems (a.fields ++ b.fields) (others.flatMap TypeBody.fields) :=
  ha.fields.append (.of_subset (subset_flatMap TypeBody.fields hb))

theorem StemsFrom.inputs_append (ha : a.StemsFrom others) (hb : b ∈ others) :
    Merge.inputMember.Stems (a.inputs ++ b.inputs) (others.flatMap TypeBody.inputs) :=
  ha.inputs.append (.of_subset (subset_flatMap TypeBody.inputs hb))

theorem body_of_ne (h : a.kind ≠ b.kind) :
    Merge.body type a b = (a, some (.kindConflict type a.kind b.kind)) := by
  cases a <;> cases b <;> first | exact (h rfl).elim | rfl

theorem StemsFrom.body (ha : a.StemsFrom others) (hb : b ∈ others) :
    (Merge.body type a b).1.StemsFrom others := by
  by_cases hk : a.kind = b.kind
  · have hfields := (Merge.stems_members isBare_field type a.fields b.fields).trans
      (ha.fields_append hb)
    have hinputs := (Merge.stems_members isBare_input type a.inputs b.inputs).trans
      (ha.inputs_append hb)
    cases a <;> cases b <;> simp [TypeBody.kind] at hk
    · exact ha
    · exact ⟨ha.kind, hfields, .nil _⟩
    · exact ⟨ha.kind, hfields, .nil _⟩
    · exact ⟨ha.kind, .nil _, .nil _⟩
    · exact ⟨ha.kind, .nil _, .nil _⟩
    · exact ⟨ha.kind, .nil _, hinputs⟩
  · rw [body_of_ne hk]
    exact ha

theorem StemsFrom.not_agree (ha : a.StemsFrom others) (hb : b ∈ others)
    (h : (Merge.body type a b).2 = some fault) :
    fault.conflict? = some type ∧ ¬Agree others := by
  by_cases hk : a.kind = b.kind
  · have hfields (h : (Merge.members Merge.fieldMember type a.fields b.fields).2 = some fault) :
        fault.conflict? = some type ∧ ¬Agree others := by
      obtain ⟨hc, hn⟩ := Merge.not_isConsistent_of_fault isBare_field h
      exact ⟨hc, fun hagree => hn ((ha.fields_append hb).isConsistent hagree.fields)⟩
    have hinputs (h : (Merge.members Merge.inputMember type a.inputs b.inputs).2 = some fault) :
        fault.conflict? = some type ∧ ¬Agree others := by
      obtain ⟨hc, hn⟩ := Merge.not_isConsistent_of_fault isBare_input h
      exact ⟨hc, fun hagree => hn ((ha.inputs_append hb).isConsistent hagree.inputs)⟩
    cases a <;> cases b <;> simp [TypeBody.kind] at hk
    · cases h
    · exact hfields h
    · exact hfields h
    · cases h
    · cases h
    · exact hinputs h
  · obtain ⟨c, hc, hck⟩ := ha.kind
    rw [body_of_ne hk] at h
    cases h
    exact ⟨rfl, fun hagree => hk (hck ▸ hagree.kind c hc b hb)⟩

end TypeBody

def Document.bodiesOf (d : Document) (type : String) : List TypeBody :=
  (d.types.filter fun t => t.name = type).map TypeDefinition.body

theorem Document.membersOf_eq_flatMap (d : Document) (type : String) :
    d.membersOf type = (d.bodiesOf type).flatMap TypeBody.memberNames := by
  rw [Document.membersOf, Document.bodiesOf, List.flatMap_map]

theorem TypeBody.agree_bodiesOf_iff {d : Document} {type : String} (h : (d.membersOf type).Nodup) :
    Agree (d.bodiesOf type) ↔
      ∀ a ∈ d.bodiesOf type, ∀ b ∈ d.bodiesOf type, a.kind = b.kind := by
  rw [Document.membersOf_eq_flatMap] at h
  have hfields : ((d.bodiesOf type).flatMap fun b => b.fields.map Field.name).Sublist
      ((d.bodiesOf type).flatMap memberNames) :=
    .flatMap_right _ fun b _ => List.sublist_append_left _ _
  have hinputs : ((d.bodiesOf type).flatMap fun b => b.inputs.map InputValue.name).Sublist
      ((d.bodiesOf type).flatMap memberNames) :=
    .flatMap_right _ fun b _ => List.sublist_append_right _ _
  refine ⟨Agree.kind, fun hkind => ⟨hkind, ?_, ?_⟩⟩
  · refine isConsistent_of_nodup ?_
    rw [List.map_flatMap]
    exact h.sublist hfields
  · refine isConsistent_of_nodup ?_
    rw [List.map_flatMap]
    exact h.sublist hinputs

namespace Merge.Union

/-- The types so far stem from the definitions of their names, and a conflict names a type whose
definitions do not agree. -/
structure StemsFrom (u : Merge.Union) (all : Document) : Prop where
  types : ∀ t ∈ u.types, t.body.StemsFrom (all.bodiesOf t.name)
  conflicts : ∀ fault ∈ u.conflicts, ∃ type, fault.conflict? = some type ∧
    ¬TypeBody.Agree (all.bodiesOf type)

theorem stemsFrom_empty : empty.StemsFrom [] := ⟨nofun, nofun⟩

variable {u : Merge.Union} {all : Document}

theorem bodiesOf_append (a b : Document) (type : String) :
    Document.bodiesOf (a ++ b) type = a.bodiesOf type ++ b.bodiesOf type := by
  rw [Document.bodiesOf, Document.types_append, List.filter_append, List.map_append]
  rfl

theorem StemsFrom.mono (h : u.StemsFrom all) (more : Document) : u.StemsFrom (all ++ more) where
  types t ht := by
    rw [bodiesOf_append]
    exact (h.types t ht).mono (List.subset_append_left _ _)
  conflicts fault hf := by
    obtain ⟨type, hc, hn⟩ := h.conflicts fault hf
    rw [Document.bodiesOf] at hn
    refine ⟨type, hc, fun hagree => hn ?_⟩
    rw [bodiesOf_append] at hagree
    exact hagree.of_append_left

theorem StemsFrom.add (h : u.StemsFrom all) (x : Definition) :
    (u.add x).StemsFrom (all ++ [x]) := by
  have hall := h.mono [x]
  cases x with
  | schema s => exact ⟨hall.types, hall.conflicts⟩
  | directive d => exact ⟨hall.types, hall.conflicts⟩
  | type t =>
    have ht : t.body ∈ Document.bodiesOf (all ++ [.type t]) t.name := by
      rw [bodiesOf_append]
      simp [Document.bodiesOf, Document.types]
    cases hf : u.types.find? fun existing => existing.name = t.name with
    | none =>
      rw [add_type_of_new hf]
      refine ⟨List.forall_mem_append.2 ⟨hall.types, ?_⟩, hall.conflicts⟩
      exact List.forall_mem_singleton.2 (TypeBody.stemsFrom_of_mem ht)
    | some existing =>
      have hm := List.mem_of_find?_eq_some hf
      have hn : existing.name = t.name := by simpa using List.find?_some hf
      have hs := hall.types existing hm
      rw [hn] at hs
      rw [add_type_of_old hf]
      constructor
      · intro s hsm
        rcases Member.IsBare.mem_replaceFirst hsm with hsm | ⟨-, -, rfl⟩
        · exact hall.types s hsm
        · show (Merge.body existing.name existing.body t.body).1.StemsFrom
            (Document.bodiesOf _ existing.name)
          rw [hn]
          exact hs.body ht
      · refine List.forall_mem_append.2 ⟨hall.conflicts, fun fault hfault => ?_⟩
        have hnot := hs.not_agree ht (Option.mem_toList.1 hfault)
        exact ⟨existing.name, hnot.1, hn ▸ hnot.2⟩

theorem StemsFrom.foldl (h : u.StemsFrom all) (d : Document) :
    (d.foldl Union.add u).StemsFrom (all ++ d) := by
  induction d generalizing u all with
  | nil =>
    rw [List.append_nil]
    exact h
  | cons x rest ih =>
    rw [List.append_cons]
    exact ih (h.add x)

end Merge.Union

namespace Merge

/-- Definitions that cannot be merged are in conflict. -/
theorem conflicts_of_definitions {d : Document} {faults : List Fault}
    (h : definitions d = .error faults) :
    faults ≠ [] ∧ ∀ fault ∈ faults, ∃ type, fault.conflict? = some type ∧
      ¬TypeBody.Agree (d.bodiesOf type) := by
  unfold definitions at h
  simp only at h
  split at h
  · cases h
  · next hne =>
    cases h
    have hs := Union.stemsFrom_empty.foldl d
    exact ⟨fun he => hne (List.isEmpty_iff.2 he), hs.conflicts⟩

end Merge

theorem merge_of_malformed {before after : List String} {source : String}
    {documents : List Document} {fault : Fault} (hb : before.mapM parse = .ok documents)
    (hs : parse source = .error fault) : merge (before ++ source :: after) = .error [fault] := by
  rw [merge, List.mapM_append, mapM_parse_of_ok hb, List.mapM_cons, hs]
  rfl

theorem parsed_or_malformed (sources : List String) :
    (∃ documents, sources.mapM parse = .ok documents) ∨
      ∃ before source after documents fault, sources = before ++ source :: after ∧
        before.mapM parse = .ok documents ∧ parse source = .error fault := by
  induction sources with
  | nil => exact .inl ⟨[], rfl⟩
  | cons source rest ih =>
    cases hs : parse source with
    | error fault => exact .inr ⟨[], source, rest, [], fault, rfl, rfl, hs⟩
    | ok document =>
      rcases ih with ⟨documents, hd⟩ | ⟨before, other, after, documents, fault, rfl, hd, hf⟩
      · refine .inl ⟨document :: documents, ?_⟩
        rw [List.mapM_cons, hs, hd]
        rfl
      · refine .inr ⟨source :: before, other, after, document :: documents, fault, rfl, ?_, hf⟩
        rw [List.mapM_cons, hs, hd]
        rfl

end ApiStack.Sdl
