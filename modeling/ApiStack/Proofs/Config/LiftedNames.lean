import ApiStack.Proofs.Config.LiftingFaults
import Mathlib.Data.List.Flatten

namespace ApiStack.Config

/-- A place in a resolver where a definition may stand: what the resolver uses, or an item of the
list of functions that it runs. -/
structure Place where
  type : String
  field : String
  index : Option Nat
  deriving DecidableEq

def Place.name (p : Place) : String :=
  match p.index with
  | none => liftedName (p.type ++ p.field)
  | some i => liftedItemName (liftedName (p.type ++ p.field)) i

section Names

theorem not_isDigit_of_mem_liftedName {name : String} {c : Char}
    (h : c ∈ (liftedName name).toList) : c.isDigit = false := by
  rw [liftedName, String.toList_ofList, List.mem_filter, Bool.or_eq_true, decide_eq_true_eq] at h
  rcases h.2 with hc | rfl
  · unfold Char.isAlpha Char.isUpper Char.isLower at hc
    unfold Char.isDigit
    grind
  · rfl

theorem toList_liftedItemName (base : String) (i : Nat) :
    (liftedItemName base i).toList = base.toList ++ '_' :: Nat.toDigits 10 i := by
  simp [liftedItemName]

/-- A text without a digit is not the name of an item. -/
theorem liftedName_ne_liftedItemName (name base : String) (i : Nat) :
    liftedName name ≠ liftedItemName base i := by
  intro h
  obtain ⟨c, cs, hc⟩ := List.exists_cons_of_ne_nil (Nat.toDigits_ne_nil (b := 10) (n := i))
  have hdigit : c.isDigit = true :=
    Nat.isDigit_of_mem_toDigits (b := 10) (n := i) (by decide) (by decide) (by simp [hc])
  have hm : c ∈ (liftedName name).toList := by simp [h, toList_liftedItemName, hc]
  rw [not_isDigit_of_mem_liftedName hm] at hdigit
  cases hdigit

/-- A text is split in one way only at its last underscore. -/
theorem append_underscore_inj {as bs ds es : List Char} (hd : '_' ∉ ds) (he : '_' ∉ es)
    (h : as ++ '_' :: ds = bs ++ '_' :: es) : as = bs ∧ ds = es := by
  have hsplit {a ds es : List Char} (hd : '_' ∉ ds) (h : '_' :: ds = a ++ '_' :: es) :
      a = [] ∧ ds = es := by
    cases a with
    | nil => exact ⟨rfl, (List.cons.inj h).2⟩
    | cons c a =>
      obtain ⟨-, rfl⟩ := List.cons.inj h
      exact absurd (List.mem_append_right a List.mem_cons_self) hd
  rcases List.append_eq_append_iff.1 h with ⟨a, rfl, ha⟩ | ⟨a, rfl, ha⟩
  · obtain ⟨rfl, rfl⟩ := hsplit hd ha
    exact ⟨(List.append_nil as).symm, rfl⟩
  · obtain ⟨rfl, rfl⟩ := hsplit he ha
    exact ⟨List.append_nil bs, rfl⟩

theorem liftedItemName_inj {base base' : String} {i j : Nat}
    (h : liftedItemName base i = liftedItemName base' j) : base = base' ∧ i = j := by
  rw [← String.toList_inj, toList_liftedItemName, toList_liftedItemName] at h
  obtain ⟨hbase, hdigits⟩ :=
    append_underscore_inj Nat.underscore_not_in_toDigits Nat.underscore_not_in_toDigits h
  refine ⟨String.toList_inj.1 hbase, ?_⟩
  rw [← Nat.ofDigitChars_ten_toDigits (n := i), hdigits, Nat.ofDigitChars_ten_toDigits]

end Names

/-- Two places have one name if and only if their types and fields run together to the same letters
and underscores, and they are the same item. -/
theorem Place.name_eq_iff {p q : Place} : p.name = q.name ↔
    liftedName (p.type ++ p.field) = liftedName (q.type ++ q.field) ∧ p.index = q.index := by
  obtain ⟨type, field, index⟩ := p
  obtain ⟨type', field', index'⟩ := q
  cases index with
  | none =>
    cases index' with
    | none => simp only [Place.name, and_true]
    | some j => simp [Place.name, liftedName_ne_liftedItemName]
  | some i =>
    cases index' with
    | none => simp [Place.name, (liftedName_ne_liftedItemName _ _ _).symm]
    | some j =>
      constructor
      · intro h
        obtain ⟨hbase, rfl⟩ := liftedItemName_inj h
        exact ⟨hbase, rfl⟩
      · rintro ⟨hbase, hindex⟩
        cases hindex
        exact congrArg (liftedItemName · i) hbase

/-- All that a resolver uses stands in it: its data source, and its functions with theirs. -/
structure AuthoredResolver.IsInline (r : AuthoredResolver) : Prop where
  dataSource : ∀ used, r.dataSource = some used → ∃ source, used = .inline source
  functions : ∀ uses, r.functions = some uses → ∀ used ∈ uses,
    ∃ f source, used = .inline f ∧ f.dataSource = .inline source

def AuthoredResolver.places (type field : String) (r : AuthoredResolver) : List Place :=
  match Entities.kindOf r with
  | .unit => r.dataSource.toList.map fun _ => ⟨type, field, none⟩
  | .pipeline => (List.range' 0 (r.functions.getD []).length).map fun i => ⟨type, field, some i⟩

namespace FunctionUse

theorem map_fst_lifted (base : String) (index : Nat) {uses : List FunctionUse}
    (h : ∀ used ∈ uses, ∃ f, used = .inline f) :
    (lifted base index uses).map Prod.fst =
      (List.range' index uses.length).map (liftedItemName base) := by
  induction uses generalizing index with
  | nil => rfl
  | cons used rest ih =>
    obtain ⟨f, rfl⟩ := h used List.mem_cons_self
    have hrest := ih (index + 1) fun used hm => h used (List.mem_cons_of_mem _ hm)
    rw [lifted, List.map_cons, hrest, List.length_cons, List.range'_succ, List.map_cons]

theorem mem_lifted_inline {base : String} {index : Nat} {uses : List FunctionUse}
    {e : String × AuthoredFunction} (h : e ∈ lifted base index uses) : .inline e.2 ∈ uses := by
  induction uses generalizing index with
  | nil => cases h
  | cons used rest ih =>
    cases used with
    | named name => exact List.mem_cons_of_mem _ (ih h)
    | inline f =>
      rcases List.mem_cons.1 h with rfl | h
      · exact List.mem_cons_self
      · exact List.mem_cons_of_mem _ (ih h)

end FunctionUse

theorem map_fst_liftedFrom {l : List (String × AuthoredFunction)}
    (h : ∀ e ∈ l, ∃ source, e.2.dataSource = .inline source) :
    (liftedFrom l).map Prod.fst = l.map Prod.fst := by
  induction l with
  | nil => rfl
  | cons e rest ih =>
    obtain ⟨name, f⟩ := e
    obtain ⟨source, hs⟩ : ∃ source, f.dataSource = .inline source := h _ List.mem_cons_self
    have hrest := ih fun e hm => h e (List.mem_cons_of_mem _ hm)
    rw [List.map_cons, ← hrest, liftedFrom, List.flatMap_cons]
    simp only [hs]
    rfl

namespace AuthoredResolver

variable {r : AuthoredResolver} {key type field : String}

theorem base_of_fieldOf? (h : Entities.fieldOf? key r = some (type, field)) :
    r.base key = liftedName (type ++ field) := by
  rw [base, h]

theorem forall_functions_inline (hi : r.IsInline) : ∀ used ∈ r.functions.getD [],
    ∃ f source, used = .inline f ∧ f.dataSource = .inline source := by
  intro used hm
  cases hf : r.functions with
  | none =>
    rw [hf] at hm
    exact absurd hm List.not_mem_nil
  | some uses =>
    rw [hf] at hm
    exact hi.functions uses hf used hm

theorem liftedFunctions_of_pipeline (h : Entities.fieldOf? key r = some (type, field))
    (hk : Entities.kindOf r = .pipeline) : r.liftedFunctions key =
      FunctionUse.lifted (liftedName (type ++ field)) 0 (r.functions.getD []) := by
  rw [liftedFunctions, hk, base_of_fieldOf? h]

theorem map_fst_liftedFunctions (hi : r.IsInline)
    (h : Entities.fieldOf? key r = some (type, field)) (hk : Entities.kindOf r = .pipeline) :
    (r.liftedFunctions key).map Prod.fst = (r.places type field).map Place.name := by
  have hinline : ∀ used ∈ r.functions.getD [], ∃ f, used = .inline f := by
    intro used hm
    obtain ⟨f, -, hf, -⟩ := forall_functions_inline hi used hm
    exact ⟨f, hf⟩
  rw [liftedFunctions_of_pipeline h hk, FunctionUse.map_fst_lifted _ _ hinline, places, hk]
  simp only [List.map_map]
  rfl

theorem map_fst_liftedDataSources (hi : r.IsInline)
    (h : Entities.fieldOf? key r = some (type, field)) :
    (r.liftedDataSources key).map Prod.fst = (r.places type field).map Place.name := by
  cases hk : Entities.kindOf r with
  | unit =>
    rw [liftedDataSources, places, hk]
    cases hd : r.dataSource with
    | none => rfl
    | some used =>
      obtain ⟨source, rfl⟩ := hi.dataSource used hd
      simp [DataSourceUse.lifted, Place.name, base_of_fieldOf? h]
  | pipeline =>
    have hinline : ∀ e ∈ r.liftedFunctions key, ∃ source, e.2.dataSource = .inline source := by
      intro e hm
      rw [liftedFunctions_of_pipeline h hk] at hm
      obtain ⟨f, source, he, hs⟩ :=
        forall_functions_inline hi _ (FunctionUse.mem_lifted_inline hm)
      cases he
      exact ⟨source, hs⟩
    have hfrom : r.liftedDataSources key = liftedFrom (r.liftedFunctions key) := by
      rw [liftedDataSources, hk]
    rw [hfrom, map_fst_liftedFrom hinline, map_fst_liftedFunctions hi h hk]

theorem map_fst_liftedFunctions_sublist (hi : r.IsInline)
    (h : Entities.fieldOf? key r = some (type, field)) :
    ((r.liftedFunctions key).map Prod.fst).Sublist ((r.places type field).map Place.name) := by
  cases hk : Entities.kindOf r with
  | unit =>
    rw [liftedFunctions, hk]
    exact List.nil_sublist _
  | pipeline =>
    rw [map_fst_liftedFunctions hi h hk]

theorem nodup_places (type field : String) (r : AuthoredResolver) :
    (r.places type field).Nodup := by
  rw [places]
  cases Entities.kindOf r with
  | unit => cases r.dataSource <;> simp
  | pipeline =>
    apply List.Nodup.map _ List.nodup_range'
    intro i j h
    simpa using h

end AuthoredResolver

namespace Authored

/-- All that the resolvers of a configuration use stands in them, and each is for a field of its
own. -/
structure IsInline (c : Authored) : Prop where
  dataSources : c.dataSources.merged.entries = []
  pipelineFunctions : c.pipelineFunctions.merged.entries = []
  resolvers : ∀ e ∈ c.declaredResolvers, e.2.IsInline
  fields : ∀ e ∈ c.declaredResolvers, ∃ place, Entities.fieldOf? e.1 e.2 = some place
  distinct : c.declaredResolvers.Pairwise fun a b =>
    Entities.fieldOf? a.1 a.2 ≠ Entities.fieldOf? b.1 b.2

end Authored

def placesOf (e : String × AuthoredResolver) : List Place :=
  match Entities.fieldOf? e.1 e.2 with
  | none => []
  | some (type, field) => e.2.places type field

def Authored.places (c : Authored) : List Place := c.declaredResolvers.flatMap placesOf

section Places

variable {c : Authored} {failure : Failure} {name : String}

theorem nodup_placesOf (e : String × AuthoredResolver) : (placesOf e).Nodup := by
  unfold placesOf
  split
  · exact .nil
  · exact AuthoredResolver.nodup_places _ _ _

theorem fieldOf?_of_mem_placesOf {e : String × AuthoredResolver} {p : Place}
    (h : p ∈ placesOf e) : Entities.fieldOf? e.1 e.2 = some (p.type, p.field) := by
  unfold placesOf at h
  split at h
  · cases h
  · next type field hf =>
    rw [hf]
    unfold AuthoredResolver.places at h
    split at h
    · obtain ⟨used, -, rfl⟩ := List.mem_map.1 h
      rfl
    · obtain ⟨i, -, rfl⟩ := List.mem_map.1 h
      rfl

theorem Authored.IsInline.nodup_places (hc : c.IsInline) : c.places.Nodup := by
  refine List.nodup_flatMap.2 ⟨fun e _ => nodup_placesOf e, ?_⟩
  refine hc.distinct.imp ?_
  intro a b hne p ha hb
  exact hne ((fieldOf?_of_mem_placesOf ha).trans (fieldOf?_of_mem_placesOf hb).symm)

theorem Authored.IsInline.declaredFunctions_eq (hc : c.IsInline) : c.declaredFunctions = [] := by
  rw [declaredFunctions, hc.pipelineFunctions]
  rfl

theorem Authored.IsInline.map_fst_dataSources (hc : c.IsInline) :
    c.allDataSources.map Prod.fst = c.places.map Place.name := by
  rw [allDataSources, liftedDataSources, hc.dataSources, hc.declaredFunctions_eq]
  simp only [liftedFrom, List.flatMap_nil, List.nil_append, List.map_flatMap, places]
  apply List.flatMap_congr
  intro e hm
  obtain ⟨⟨type, field⟩, hf⟩ := hc.fields e hm
  rw [AuthoredResolver.map_fst_liftedDataSources (hc.resolvers e hm) hf, placesOf, hf]

theorem Authored.IsInline.map_fst_functions_sublist (hc : c.IsInline) :
    (c.allFunctions.map Prod.fst).Sublist (c.places.map Place.name) := by
  rw [allFunctions, hc.declaredFunctions_eq, List.nil_append, liftedFunctions, places,
    List.map_flatMap, List.map_flatMap]
  apply List.Sublist.flatMap_right
  intro e hm
  obtain ⟨⟨type, field⟩, hf⟩ := hc.fields e hm
  rw [placesOf, hf]
  exact AuthoredResolver.map_fst_liftedFunctions_sublist (hc.resolvers e hm) hf

/-- Where a function has a value twice on a list of different items, two of them have it. -/
theorem exists_ne_of_duplicate_map {f : α → β} {l : List α} {b : β} (hn : l.Nodup)
    (h : List.Duplicate b (l.map f)) : ∃ p ∈ l, ∃ q ∈ l, p ≠ q ∧ f p = b ∧ f q = b := by
  induction l with
  | nil => exact h.elim_nil.elim
  | cons a l ih =>
    obtain ⟨ha, hl⟩ := List.nodup_cons.1 hn
    rcases List.duplicate_cons_iff.1 h with ⟨hb, hm⟩ | h
    · obtain ⟨q, hq, he⟩ := List.mem_map.1 hm
      refine ⟨a, List.mem_cons_self, q, List.mem_cons_of_mem _ hq, ?_, hb, he⟩
      rintro rfl
      exact ha hq
    · obtain ⟨p, hp, q, hq, hne⟩ := ih hl h
      exact ⟨p, List.mem_cons_of_mem _ hp, q, List.mem_cons_of_mem _ hq, hne⟩

/-- Where all that is used stands in resolvers, a conflict is one of two different places with one
name, and two such places always make a failure: a conflict, unless something else is wrong. Two
places have one name if and only if they are the same item and their types and fields run together
to the same letters and underscores, whatever digits are in them. -/
theorem conflicts_of_isInline (hc : c.IsInline) :
    (∀ p ∈ c.places, ∀ q ∈ c.places, p.name = q.name ↔
      liftedName (p.type ++ p.field) = liftedName (q.type ++ q.field) ∧ p.index = q.index) ∧
    (∀ name failure, c.normalize = .error failure → IsConflict name failure →
      ∃ p ∈ c.places, ∃ q ∈ c.places, p ≠ q ∧ p.name = name ∧ q.name = name) ∧
    ∀ p ∈ c.places, ∀ q ∈ c.places, p ≠ q → p.name = q.name →
      ∃ failure, c.normalize = .error failure ∧
        (c.IsComplete → ∃ name, IsConflict name failure) := by
  refine ⟨fun p _ q _ => Place.name_eq_iff, ?_, ?_⟩
  · intro name failure h hf
    have htwice : List.Duplicate name (c.places.map Place.name) := by
      rcases duplicate_of_isConflict h hf with h | h
      · rwa [hc.map_fst_dataSources] at h
      · exact h.mono_sublist hc.map_fst_functions_sublist
    exact exists_ne_of_duplicate_map hc.nodup_places htwice
  · intro p hp q hq hne hname
    cases h : c.normalize with
    | error failure =>
      exact ⟨failure, rfl, fun hcomplete => exists_conflict_of_isComplete hcomplete h⟩
    | ok api =>
      have hn := nodup_of_normalize h
      rw [hc.map_fst_dataSources] at hn
      exact absurd (List.inj_on_of_nodup_map hn hp hq hname) hne

/-- Resolvers for two fields whose names differ in a digit only, each with a data source of its
own. -/
def numbered : Authored :=
  { Authored.nested with
    dataSources := .whole .empty
    pipelineFunctions := .whole .empty
    resolvers := .whole (.ofList [("Query.user1", own), ("Query.user2", own)]) }
where
  own : ResolverInput := .settings { AuthoredResolver.plain "" with
    dataSource := some (.inline ⟨.noBackend, none, none⟩) }

theorem declaredResolvers_numbered : numbered.declaredResolvers =
    [("Query.user1", numbered.own.toResolver), ("Query.user2", numbered.own.toResolver)] := rfl

theorem fieldOf?_numbered :
    Entities.fieldOf? "Query.user1" numbered.own.toResolver = some ("Query", "user1") ∧
      Entities.fieldOf? "Query.user2" numbered.own.toResolver = some ("Query", "user2") := by
  decide +kernel

theorem isInline_numbered : numbered.IsInline := by
  have hown : numbered.own.toResolver.IsInline := by
    constructor
    · rintro used ⟨⟩
      exact ⟨_, rfl⟩
    · rintro uses ⟨⟩
  obtain ⟨hfirst, hsecond⟩ := fieldOf?_numbered
  refine ⟨rfl, rfl, ?_, ?_, ?_⟩ <;> rw [declaredResolvers_numbered]
  · exact List.forall_mem_cons.2 ⟨hown, List.forall_mem_singleton.2 hown⟩
  · exact List.forall_mem_cons.2 ⟨⟨_, hfirst⟩, List.forall_mem_singleton.2 ⟨_, hsecond⟩⟩
  · rw [List.pairwise_pair, hfirst, hsecond]
    decide

theorem normalize_numbered :
    numbered.normalize = .error (.misconfigured (.inlineDataSource "Queryuser")) := by
  have h : numbered.normalize.map (fun _ => ()) =
      .error (.misconfigured (.inlineDataSource "Queryuser")) := by
    decide +kernel
  exact map_eq_error_iff.1 h

theorem places_numbered : ∃ p ∈ numbered.places, ∃ q ∈ numbered.places,
    p ≠ q ∧ p.name = "Queryuser" ∧ q.name = "Queryuser" :=
  (conflicts_of_isInline isInline_numbered).2.1 _ _ normalize_numbered .dataSource

/-- A conflict though nothing is declared, and no two resolvers are for one field. -/
theorem conflict_numbered : numbered.IsInline ∧ numbered.declaredResolvers.map Prod.fst =
      ["Query.user1", "Query.user2"] ∧
    ∃ name failure, numbered.normalize = .error failure ∧ IsConflict name failure :=
  ⟨isInline_numbered, rfl, _, _, normalize_numbered, .dataSource⟩

end Places

end ApiStack.Config
