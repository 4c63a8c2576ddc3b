import ApiStack.Json.Prune
import ApiStack.Proofs.Json.Same
import ApiStack.Proofs.OrderedMap

namespace ApiStack.Json

mutual

/-- A condition holds of every entry of an object in the value, at any depth. -/
def EveryEntry (P : String → Json → Prop) : Json → Prop
  | obj entries => EveryEntryOf P entries
  | arr items => EveryEntryIn P items
  | _ => True
termination_by structural j => j

/-- A condition holds of every entry in some items. -/
def EveryEntryIn (P : String → Json → Prop) : List Json → Prop
  | [] => True
  | j :: rest => EveryEntry P j ∧ EveryEntryIn P rest
termination_by structural items => items

/-- A condition holds of some entries and of every entry in their values. -/
def EveryEntryOf (P : String → Json → Prop) : List (String × Json) → Prop
  | [] => True
  | (k, v) :: rest => (P k v ∧ EveryEntry P v) ∧ EveryEntryOf P rest
termination_by structural entries => entries

end

variable {P Q : String → Json → Prop}

@[simp]
theorem everyEntry_obj {entries : List (String × Json)} :
    (obj entries).EveryEntry P ↔ EveryEntryOf P entries := by
  rw [EveryEntry]

@[simp]
theorem everyEntry_arr {items : List Json} : (arr items).EveryEntry P ↔ EveryEntryIn P items := by
  rw [EveryEntry]

@[simp]
theorem everyEntry_null : null.EveryEntry P := trivial

@[simp]
theorem everyEntry_bool (b : Bool) : (bool b).EveryEntry P := trivial

@[simp]
theorem everyEntry_int (n : Int) : (int n).EveryEntry P := trivial

@[simp]
theorem everyEntry_nat (n : Nat) : (nat n).EveryEntry P := trivial

@[simp]
theorem everyEntry_str (s : String) : (str s).EveryEntry P := trivial

@[simp]
theorem everyEntryIn_nil : EveryEntryIn P [] := trivial

@[simp]
theorem everyEntryIn_cons {j : Json} {rest : List Json} :
    EveryEntryIn P (j :: rest) ↔ j.EveryEntry P ∧ EveryEntryIn P rest := by
  rw [EveryEntryIn]

@[simp]
theorem everyEntryOf_nil : EveryEntryOf P [] := trivial

@[simp]
theorem everyEntryOf_cons {k : String} {v : Json} {rest : List (String × Json)} :
    EveryEntryOf P ((k, v) :: rest) ↔ (P k v ∧ v.EveryEntry P) ∧ EveryEntryOf P rest := by
  rw [EveryEntryOf]

theorem everyEntryIn_iff {items : List Json} :
    EveryEntryIn P items ↔ ∀ j ∈ items, j.EveryEntry P := by
  induction items with
  | nil => simp only [everyEntryIn_nil, List.not_mem_nil, false_implies, implies_true]
  | cons j rest ih => rw [everyEntryIn_cons, ih, List.forall_mem_cons]

theorem everyEntryOf_iff {entries : List (String × Json)} :
    EveryEntryOf P entries ↔ ∀ e ∈ entries, P e.1 e.2 ∧ e.2.EveryEntry P := by
  induction entries with
  | nil => simp only [everyEntryOf_nil, List.not_mem_nil, false_implies, implies_true]
  | cons e rest ih =>
    obtain ⟨k, v⟩ := e
    rw [everyEntryOf_cons, ih, List.forall_mem_cons]

@[simp]
theorem everyEntryOf_append {xs ys : List (String × Json)} :
    EveryEntryOf P (xs ++ ys) ↔ EveryEntryOf P xs ∧ EveryEntryOf P ys := by
  simp only [everyEntryOf_iff, List.forall_mem_append]

@[simp]
theorem everyEntry_strs (texts : List String) : (strs texts).EveryEntry P := by
  rw [strs, everyEntry_arr, everyEntryIn_iff]
  intro j hj
  obtain ⟨s, -, rfl⟩ := List.mem_map.1 hj
  trivial

theorem everyEntry_ofOption {f : α → Json} (h : ∀ a, (f a).EveryEntry P) (o : Option α) :
    (ofOption f o).EveryEntry P := by
  cases o with
  | none => trivial
  | some a => exact h a

theorem everyEntry_getD {o : Option Json} {j : Json} (ho : ∀ v, o = some v → v.EveryEntry P)
    (hj : j.EveryEntry P) : (o.getD j).EveryEntry P := by
  cases o with
  | none => exact hj
  | some v => exact ho v rfl

theorem everyEntryOf_entry (key : String) {o : Option Json}
    (h : ∀ v, o = some v → P key v ∧ v.EveryEntry P) : EveryEntryOf P (entry key o) := by
  cases o with
  | none => exact everyEntryOf_nil
  | some v => exact everyEntryOf_cons.2 ⟨h v rfl, everyEntryOf_nil⟩

theorem EveryEntry.mono (h : ∀ k v, P k v → Q k v) {j : Json} :
    j.EveryEntry P → j.EveryEntry Q := by
  induction j using Json.induction with
  | null => exact id
  | bool b => exact id
  | num n => exact id
  | str s => exact id
  | arr items ih =>
    simp only [everyEntry_arr, everyEntryIn_iff]
    intro hi j hj
    exact ih j hj (hi j hj)
  | obj entries ih =>
    simp only [everyEntry_obj, everyEntryOf_iff]
    intro he e hm
    exact ⟨h _ _ (he e hm).1, ih e hm (he e hm).2⟩

theorem pruneItems_eq_map (items : List Json) : pruneItems items = items.map prune := by
  induction items with
  | nil => rfl
  | cons j rest ih => rw [pruneItems, ih, List.map_cons]

theorem pruneEntries_eq_map (entries : List (String × Json)) : pruneEntries entries =
    (entries.filter fun e => !e.2.isNull).map fun e => (e.1, e.2.prune) := by
  induction entries with
  | nil => rfl
  | cons e rest ih =>
    rw [pruneEntries, List.filter_cons, ih]
    cases e.2.isNull <;> rfl

theorem mem_pruneItems {items : List Json} {j : Json} (h : j ∈ pruneItems items) :
    ∃ i ∈ items, j = i.prune := by
  rw [pruneItems_eq_map] at h
  obtain ⟨i, hi, rfl⟩ := List.mem_map.1 h
  exact ⟨i, hi, rfl⟩

theorem mem_pruneEntries {entries : List (String × Json)} {e : String × Json}
    (h : e ∈ pruneEntries entries) :
    ∃ v, (e.1, v) ∈ entries ∧ v.isNull = false ∧ e.2 = v.prune := by
  rw [pruneEntries_eq_map] at h
  obtain ⟨⟨k, v⟩, hm, rfl⟩ := List.mem_map.1 h
  obtain ⟨hm, hn⟩ := List.mem_filter.1 hm
  exact ⟨v, hm, by simpa using hn, rfl⟩

/-- A condition that pruned values keep holds of every entry that is left. -/
theorem EveryEntry.prune (hP : ∀ k v, P k v → P k v.prune) {j : Json} :
    j.EveryEntry P → j.prune.EveryEntry P := by
  induction j using Json.induction with
  | null => exact id
  | bool b => exact id
  | num n => exact id
  | str s => exact id
  | arr items ih =>
    simp only [Json.prune, everyEntry_arr, everyEntryIn_iff]
    intro hi j hj
    obtain ⟨i, hm, rfl⟩ := mem_pruneItems hj
    exact ih i hm (hi i hm)
  | obj entries ih =>
    simp only [Json.prune, everyEntry_obj, everyEntryOf_iff]
    rintro he ⟨k, w⟩ hw
    obtain ⟨v, hm, -, rfl⟩ := mem_pruneEntries hw
    exact ⟨hP _ _ (he _ hm).1, ih _ hm (he _ hm).2⟩

/-- Under a key without null values, the value left is that of the first entry. -/
theorem lookup_pruneEntries {key : String} {v : Json} {entries : List (String × Json)}
    (h : entries.lookup key = some v) (hv : v.isNull = false) :
    (pruneEntries entries).lookup key = some v.prune := by
  induction entries with
  | nil => cases h
  | cons head rest ih =>
    obtain ⟨k, w⟩ := head
    rw [List.lookup_cons] at h
    rw [pruneEntries]
    by_cases hk : key = k
    · subst hk
      simp only [beq_self_eq_true, Option.some.injEq] at h
      subst h
      rw [if_neg (by simp [hv]), List.lookup_cons, beq_self_eq_true]
    · have hb : (key == k) = false := beq_false_of_ne hk
      simp only [hb] at h
      split
      · exact ih h
      · rw [List.lookup_cons, hb]
        exact ih h

theorem everyEntryOf_setEntry {key : String} {v : Json} {entries : List (String × Json)}
    (h : EveryEntryOf P entries) (hk : P key v) (hv : v.EveryEntry P) :
    EveryEntryOf P (setEntry key v entries) := by
  rw [everyEntryOf_iff] at h ⊢
  intro e he
  rcases mem_setEntry he with rfl | he
  · exact ⟨hk, hv⟩
  · exact h e he

end ApiStack.Json
