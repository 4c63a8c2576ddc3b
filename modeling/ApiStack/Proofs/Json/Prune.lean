import ApiStack.Proofs.Json.Path

namespace ApiStack.Json

/-- The value is neither an array nor an object. -/
def IsLeaf : Json → Prop
  | arr _ => False
  | obj _ => False
  | _ => True

/-- Each object in a value gives a key once, as a map does. -/
inductive HasDistinctKeys : Json → Prop where
  | null : HasDistinctKeys Json.null
  | bool (b : Bool) : HasDistinctKeys (Json.bool b)
  | num (n : Number) : HasDistinctKeys (Json.num n)
  | str (s : String) : HasDistinctKeys (Json.str s)
  | arr {items : List Json} : (∀ j ∈ items, HasDistinctKeys j) → HasDistinctKeys (Json.arr items)
  | obj {entries : List (String × Json)} : (entries.map Prod.fst).Nodup →
      (∀ e ∈ entries, HasDistinctKeys e.2) → HasDistinctKeys (Json.obj entries)

/-- No entry of an object on a path is null. -/
def IsSetAlong (j : Json) (path : List Step) : Prop :=
  ∀ front name, front ++ [.key name] <+: path → j.at? (front ++ [.key name]) ≠ some null

/-- A value is another one without its null entries, and as the other one in all else. -/
structure IsPruning (p j : Json) : Prop where
  everyEntry : p.EveryEntry fun _ v => v ≠ null
  fixed : p.prune = p
  exists_at?_iff (path : List Step) :
    (∃ w, p.at? path = some w) ↔ (∃ v, j.at? path = some v) ∧ j.IsSetAlong path
  leaf {path : List Step} {v w : Json} : j.at? path = some v → p.at? path = some w →
    v.IsLeaf ∨ w.IsLeaf → w = v
  items {path : List Step} {items : List Json} : j.at? path = some (arr items) →
    ∃ left, p.at? path = some (arr left) ∧ left.length = items.length ∧
      ∀ i : Nat, left[i]? = some null ↔ items[i]? = some null
  keys {path : List Step} {entries : List (String × Json)} : j.at? path = some (obj entries) →
    ∃ left, p.at? path = some (obj left) ∧
      left.map Prod.fst = (entries.filter fun e => !e.2.isNull).map Prod.fst

theorem isNull_eq_false_iff {j : Json} : j.isNull = false ↔ j ≠ null := by
  cases j with
  | null => simp only [isNull, Bool.true_eq_false, ne_eq, not_true_eq_false]
  | _ => simp only [isNull, ne_eq, reduceCtorEq, not_false_eq_true]

theorem prune_eq_null_iff {j : Json} : j.prune = null ↔ j = null := by
  cases j <;> simp only [prune, reduceCtorEq]

theorem isLeaf_prune {j : Json} : j.prune.IsLeaf ↔ j.IsLeaf := by
  cases j <;> rfl

theorem IsLeaf.prune_eq {j : Json} (h : j.IsLeaf) : j.prune = j := by
  cases j with
  | arr _ => cases h
  | obj _ => cases h
  | _ => rfl

theorem map_fst_pruneEntries (entries : List (String × Json)) :
    (pruneEntries entries).map Prod.fst =
      (entries.filter fun e => !e.2.isNull).map Prod.fst := by
  rw [pruneEntries_eq_map, List.map_map]
  rfl

theorem getElem?_pruneItems_eq_some_iff {items : List Json} {i : Nat} {w : Json} :
    (pruneItems items)[i]? = some w ↔ ∃ v, items[i]? = some v ∧ w = v.prune := by
  rw [pruneItems_eq_map, List.getElem?_map, Option.map_eq_some_iff]
  simp only [eq_comm]

theorem getElem?_pruneItems_eq_null_iff {items : List Json} {i : Nat} :
    (pruneItems items)[i]? = some null ↔ items[i]? = some null := by
  rw [getElem?_pruneItems_eq_some_iff]
  simp only [eq_comm (a := null), prune_eq_null_iff, exists_eq_right]

/-- Under a key there is what there was, pruned, unless it was null. If the key were given again, a
null entry would uncover the next one. -/
theorem get?_prune_eq_some_iff {entries : List (String × Json)} {key : String} {w : Json}
    (hn : (entries.map Prod.fst).Nodup) : (obj entries).prune.get? key = some w ↔
      ∃ v, (obj entries).get? key = some v ∧ v ≠ null ∧ w = v.prune := by
  rw [get?_prune hn, Option.bind_eq_some_iff]
  apply exists_congr
  intro v
  rw [← isNull_eq_false_iff]
  cases v.isNull <;> simp [eq_comm]

/-- No null entry is left at any depth. -/
theorem everyEntry_prune (j : Json) : j.prune.EveryEntry fun _ v => v ≠ null := by
  induction j using Json.induction with
  | null => trivial
  | bool b => trivial
  | num n => trivial
  | str s => trivial
  | arr items ih =>
    rw [prune, everyEntry_arr, everyEntryIn_iff]
    intro p hp
    obtain ⟨j, hj, rfl⟩ := mem_pruneItems hp
    exact ih j hj
  | obj entries ih =>
    rw [prune, everyEntry_obj, everyEntryOf_iff]
    intro e he
    obtain ⟨v, hv, hn, hp⟩ := mem_pruneEntries he
    rw [hp, ne_eq, prune_eq_null_iff]
    exact ⟨isNull_eq_false_iff.1 hn, ih _ hv⟩

/-- A value without null entries stays as it is. -/
theorem prune_eq_self {j : Json} (h : j.EveryEntry fun _ v => v ≠ null) : j.prune = j := by
  induction j using Json.induction with
  | null => rfl
  | bool b => rfl
  | num n => rfl
  | str s => rfl
  | arr items ih =>
    rw [everyEntry_arr, everyEntryIn_iff] at h
    have hitems : items.map prune = items.map id :=
      List.map_congr_left fun j hj => ih j hj (h j hj)
    rw [prune, pruneItems_eq_map, hitems, List.map_id]
  | obj entries ih =>
    rw [everyEntry_obj, everyEntryOf_iff] at h
    have hkept : (entries.filter fun e => !e.2.isNull) = entries := by
      apply List.filter_eq_self.2
      intro e he
      rw [isNull_eq_false_iff.2 (h e he).1, Bool.not_false]
    have hvalues : (entries.map fun e => (e.1, e.2.prune)) = entries.map id :=
      List.map_congr_left fun e he => Prod.ext rfl (ih e he (h e he).2)
    rw [prune, pruneEntries_eq_map, hkept, hvalues, List.map_id]

theorem prune_prune (j : Json) : j.prune.prune = j.prune := prune_eq_self (everyEntry_prune j)

/-- What a step leads to stands there without the null entries too, unless it is a null entry. -/
def Step.Keeps : Step → Json → Prop
  | key _, v => v ≠ null
  | index _, _ => True

theorem HasDistinctKeys.from? {j v : Json} {step : Step} (h : j.HasDistinctKeys)
    (hv : step.from? j = some v) : v.HasDistinctKeys := by
  cases step with
  | key name =>
    cases h with
    | obj _ he => exact he _ (mem_of_lookup hv)
    | _ => cases hv
  | index i =>
    cases h with
    | arr hi => exact hi _ (List.mem_of_getElem? hv)
    | _ => cases hv

theorem Step.from?_prune_eq_some_iff {step : Step} {j w : Json} (h : j.HasDistinctKeys) :
    step.from? j.prune = some w ↔ ∃ v, step.from? j = some v ∧ step.Keeps v ∧ w = v.prune := by
  cases step with
  | key name =>
    cases h with
    | obj hn _ => exact get?_prune_eq_some_iff hn
    | _ => simp [from?, Json.prune, get?]
  | index i =>
    cases h with
    | @arr items _ =>
      have hi : (index i).from? (Json.arr items).prune = (pruneItems items)[i]? := rfl
      rw [hi, getElem?_pruneItems_eq_some_iff]
      simp only [Keeps, true_and]
      rfl
    | _ => simp [from?, Json.prune, items?]

theorem isSetAlong_nil (j : Json) : j.IsSetAlong [] := by
  intro front name hp
  cases front <;> cases List.prefix_nil.1 hp

/-- A path is set if its first step is kept and what is behind it is set. -/
theorem isSetAlong_cons_iff {j v : Json} {step : Step} (h : step.from? j = some v)
    {path : List Step} : j.IsSetAlong (step :: path) ↔ step.Keeps v ∧ v.IsSetAlong path := by
  constructor
  · intro hs
    constructor
    · cases step with
      | key name =>
        have hv := hs [] name ⟨path, rfl⟩
        rw [List.nil_append, at?_cons h] at hv
        exact fun hnull => hv (congrArg some hnull)
      | index i => trivial
    · intro front name hp
      rw [← at?_cons h]
      exact hs (step :: front) name (List.cons_prefix_cons.2 ⟨rfl, hp⟩)
  · rintro ⟨hk, hs⟩ front name hp
    -- in front of the null entry there is nothing, or the first step and more
    cases front with
    | nil =>
      obtain ⟨rfl, -⟩ := List.cons_prefix_cons.1 hp
      rw [List.nil_append, at?_cons h]
      exact fun hnull => hk (Option.some.inj hnull)
    | cons first front =>
      obtain ⟨rfl, hbehind⟩ := List.cons_prefix_cons.1 hp
      rw [List.cons_append, at?_cons h]
      exact hs front name hbehind

/-- Without the null entries a path leads to what it led to, pruned, if no entry on it is null. -/
theorem at?_prune_eq_some_iff {j w : Json} {path : List Step} (h : j.HasDistinctKeys) :
    j.prune.at? path = some w ↔ ∃ v, j.at? path = some v ∧ j.IsSetAlong path ∧ w = v.prune := by
  induction path generalizing j with
  | nil =>
    simp only [at?, isSetAlong_nil, Option.some.injEq, true_and, exists_eq_left', eq_comm]
  | cons step path ih =>
    rw [at?, Option.bind_eq_some_iff]
    constructor
    · rintro ⟨p, hp, hw⟩
      obtain ⟨v, hv, hk, rfl⟩ := (Step.from?_prune_eq_some_iff h).1 hp
      obtain ⟨u, hu, hs, rfl⟩ := (ih (h.from? hv)).1 hw
      exact ⟨u, (at?_cons hv path).trans hu, (isSetAlong_cons_iff hv).2 ⟨hk, hs⟩, rfl⟩
    · rintro ⟨u, hu, hs, rfl⟩
      obtain ⟨v, hv, hu⟩ := Option.bind_eq_some_iff.1 hu
      obtain ⟨hk, hs⟩ := (isSetAlong_cons_iff hv).1 hs
      exact ⟨v.prune, (Step.from?_prune_eq_some_iff h).2 ⟨v, hv, hk, rfl⟩,
        (ih (h.from? hv)).2 ⟨u, hu, hs, rfl⟩⟩

/-- Pruning drops null entries and nothing else. -/
theorem isPruning_prune {j : Json} (h : j.HasDistinctKeys) : j.prune.IsPruning j where
  everyEntry := everyEntry_prune j
  fixed := prune_prune j
  exists_at?_iff path := by
    simp only [at?_prune_eq_some_iff h]
    constructor
    · rintro ⟨-, v, hv, hs, -⟩
      exact ⟨⟨v, hv⟩, hs⟩
    · rintro ⟨⟨v, hv⟩, hs⟩
      exact ⟨v.prune, v, hv, hs, rfl⟩
  leaf hv hw hleaf := by
    obtain ⟨u, hu, -, rfl⟩ := (at?_prune_eq_some_iff h).1 hw
    cases hv.symm.trans hu
    rw [isLeaf_prune, or_self] at hleaf
    exact hleaf.prune_eq
  items {path items} hitems := by
    refine ⟨pruneItems items, at?_prune hitems rfl, ?_, fun i => getElem?_pruneItems_eq_null_iff⟩
    rw [pruneItems_eq_map, List.length_map]
  keys {path entries} hentries :=
    ⟨pruneEntries entries, at?_prune hentries rfl, map_fst_pruneEntries entries⟩

/-- A statement of which parts are not set, at two depths, and with an item that is null. -/
def patchyStatement : Json :=
  obj [("Sid", null), ("Effect", str "Allow"), ("Resource", arr [str "*", null]),
    ("Condition", obj [("Bool", null)])]

example : patchyStatement.prune = obj [("Effect", str "Allow"),
    ("Resource", arr [str "*", null]), ("Condition", obj [])] := rfl

theorem hasDistinctKeys_patchyStatement : patchyStatement.HasDistinctKeys := by
  apply HasDistinctKeys.obj (by decide)
  simp only [List.forall_mem_cons, List.not_mem_nil, false_implies, implies_true, and_true]
  have hitems : (arr [str "*", null]).HasDistinctKeys := by
    apply HasDistinctKeys.arr
    simp only [List.forall_mem_cons, List.not_mem_nil, false_implies, implies_true, and_true]
    exact ⟨.str _, .null⟩
  have hcondition : (obj [("Bool", null)]).HasDistinctKeys := by
    apply HasDistinctKeys.obj (by decide)
    exact List.forall_mem_singleton.2 .null
  exact ⟨.null, .str _, hitems, hcondition⟩

end ApiStack.Json
