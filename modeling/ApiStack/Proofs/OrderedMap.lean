import ApiStack.OrderedMap
import Mathlib.Data.List.Nodup

namespace ApiStack

theorem notMem_of_nodup_append_cons {l₁ l₂ : List String} {key : String}
    (h : (l₁ ++ key :: l₂).Nodup) : key ∉ l₁ := by
  intro hm
  exact (List.nodup_cons.1 (List.nodup_middle.1 h)).1 (List.mem_append_left l₂ hm)

theorem mem_of_lookup {entries : List (String × α)} {key : String} {a : α}
    (h : entries.lookup key = some a) : (key, a) ∈ entries := by
  obtain ⟨before, behind, he, -⟩ := List.lookup_eq_some_iff.1 h
  rw [he]
  exact List.mem_append_right _ List.mem_cons_self

theorem lookup_of_mem {entries : List (String × α)} {key : String} {a : α}
    (hn : (entries.map Prod.fst).Nodup) (h : (key, a) ∈ entries) :
    entries.lookup key = some a := by
  induction entries with
  | nil => cases h
  | cons entry rest ih =>
    obtain ⟨k, b⟩ := entry
    obtain ⟨hk, hr⟩ := List.nodup_cons.1 hn
    rcases List.mem_cons.1 h with he | hm
    · cases he
      exact List.lookup_cons_self
    · have hne : key ≠ k := by
        rintro rfl
        exact hk (List.mem_map.2 ⟨_, hm, rfl⟩)
      rw [List.lookup_cons, beq_false_of_ne hne]
      exact ih hr hm

theorem lookup_eq_some_iff_mem {entries : List (String × α)} {key : String} {a : α}
    (hn : (entries.map Prod.fst).Nodup) : entries.lookup key = some a ↔ (key, a) ∈ entries :=
  ⟨mem_of_lookup, lookup_of_mem hn⟩

/-- The order of entries with different keys does not matter for what is found. -/
theorem lookup_perm {l₁ l₂ : List (String × α)} (hn : (l₁.map Prod.fst).Nodup) (h : l₁.Perm l₂)
    (key : String) : l₁.lookup key = l₂.lookup key := by
  have hn' := (h.map Prod.fst).nodup_iff.1 hn
  ext a
  rw [lookup_eq_some_iff_mem hn, lookup_eq_some_iff_mem hn', h.mem_iff]

theorem mem_fst_iff_lookup {entries : List (String × α)} {key : String} :
    key ∈ entries.map Prod.fst ↔ ∃ a, entries.lookup key = some a := by
  rw [← Option.isSome_iff_exists, List.lookup_isSome_iff]
  simp only [List.mem_map, beq_iff_eq]
  constructor
  · rintro ⟨entry, hm, he⟩
    exact ⟨entry, hm, he.symm⟩
  · rintro ⟨entry, hm, he⟩
    exact ⟨entry, hm, he.symm⟩

theorem lookup_eq_none_iff_notMem {entries : List (String × α)} {key : String} :
    entries.lookup key = none ↔ key ∉ entries.map Prod.fst := by
  rw [← Option.not_isSome_iff_eq_none, Option.isSome_iff_exists, mem_fst_iff_lookup]

theorem lookup_eq_none_of_ne {entries : List (String × α)} {key : String}
    (h : ∀ e ∈ entries, e.1 ≠ key) : entries.lookup key = none := by
  apply lookup_eq_none_iff_notMem.2
  intro hm
  obtain ⟨e, he, heq⟩ := List.mem_map.1 hm
  exact h e he heq

theorem lookup_setEntry (key : String) (a : α) (entries : List (String × α)) (k : String) :
    (setEntry key a entries).lookup k = if k = key then some a else entries.lookup k := by
  induction entries with
  | nil =>
    by_cases h : k = key
    · simp [setEntry, h]
    · simp [setEntry, List.lookup_cons, h, beq_false_of_ne h]
  | cons entry rest ih =>
    obtain ⟨k', b⟩ := entry
    by_cases hk : k' = key
    · subst hk
      by_cases h : k = k'
      · simp [setEntry, h]
      · simp [setEntry, List.lookup_cons, h, beq_false_of_ne h]
    · by_cases h : k = k'
      · subst h
        simp [setEntry, hk]
      · simp [setEntry, hk, List.lookup_cons, beq_false_of_ne h, ih]

theorem setEntry_of_notMem {key : String} {entries : List (String × α)}
    (h : key ∉ entries.map Prod.fst) (a : α) : setEntry key a entries = entries ++ [(key, a)] := by
  induction entries with
  | nil => rfl
  | cons entry rest ih =>
    obtain ⟨k, b⟩ := entry
    simp only [List.map_cons, List.mem_cons, not_or] at h
    simp only [setEntry, if_neg (Ne.symm h.1), ih h.2, List.cons_append]

theorem mem_setEntry {key : String} {a : α} {entries : List (String × α)} {entry : String × α}
    (h : entry ∈ setEntry key a entries) : entry = (key, a) ∨ entry ∈ entries := by
  induction entries with
  | nil => simpa [setEntry] using h
  | cons first rest ih =>
    obtain ⟨k, b⟩ := first
    by_cases hk : k = key
    · subst hk
      simp only [setEntry, if_true, List.mem_cons] at h
      exact h.imp id (List.mem_cons_of_mem _)
    · simp only [setEntry, hk, if_false, List.mem_cons] at h
      rcases h with h | h
      · exact .inr (h ▸ List.mem_cons_self)
      · exact (ih h).imp id (List.mem_cons_of_mem _)

namespace OrderedMap

/-- The map with each value changed along with its key. -/
def mapValues (f : String → α → β) (m : OrderedMap α) : OrderedMap β where
  entries := m.entries.map fun entry => (entry.1, f entry.1 entry.2)
  nodup := by
    rw [List.map_map]
    exact m.nodup

theorem ext {m n : OrderedMap α} (h : m.entries = n.entries) : m = n := by
  cases m
  cases n
  cases h
  rfl

theorem contains_iff {m : OrderedMap α} {key : String} : m.contains key = true ↔ key ∈ m.keys :=
  List.contains_iff_mem

theorem mem_keys_iff {m : OrderedMap α} {key : String} :
    key ∈ m.keys ↔ ∃ a, m.get? key = some a :=
  mem_fst_iff_lookup

theorem contains_eq_isSome (m : OrderedMap α) (key : String) :
    m.contains key = (m.get? key).isSome := by
  rw [Bool.eq_iff_iff, contains_iff, mem_keys_iff, Option.isSome_iff_exists]

theorem contains_eq_of_perm {m n : OrderedMap α} (h : m.entries.Perm n.entries) (key : String) :
    m.contains key = n.contains key := by
  rw [Bool.eq_iff_iff, contains_iff, contains_iff]
  exact (h.map Prod.fst).mem_iff

theorem get?_insert (m : OrderedMap α) (key : String) (a : α) (k : String) :
    (m.insert key a).get? k = if k = key then some a else m.get? k :=
  lookup_setEntry key a m.entries k

theorem entries_insert_of_notMem {m : OrderedMap α} {key : String} (h : key ∉ m.keys) (a : α) :
    (m.insert key a).entries = m.entries ++ [(key, a)] :=
  setEntry_of_notMem h a

theorem get?_insertAll (m : OrderedMap α) (entries : List (String × α)) (key : String) :
    (m.insertAll entries).get? key = (entries.reverse.lookup key).or (m.get? key) := by
  induction entries generalizing m with
  | nil => rfl
  | cons entry rest ih =>
    obtain ⟨k, a⟩ := entry
    have hr : ((m.insert k a).insertAll rest).get? key = _ := ih (m.insert k a)
    have hc : m.insertAll ((k, a) :: rest) = (m.insert k a).insertAll rest := rfl
    rw [hc, hr, get?_insert, List.reverse_cons, List.lookup_append]
    by_cases hk : key = k
    · subst hk
      cases rest.reverse.lookup key <;> simp
    · have hl : [(k, a)].lookup key = none := by
        rw [List.lookup_cons, beq_false_of_ne hk]
        rfl
      rw [hl, if_neg hk, Option.or_none]

theorem mem_entries_insertAll {m : OrderedMap α} {entries : List (String × α)}
    {entry : String × α} (h : entry ∈ (m.insertAll entries).entries) :
    entry ∈ m.entries ∨ entry ∈ entries := by
  induction entries generalizing m with
  | nil => exact .inl h
  | cons first rest ih =>
    rcases ih h with hm | hm
    · rcases mem_setEntry hm with he | he
      · exact .inr (he ▸ List.mem_cons_self)
      · exact .inl he
    · exact .inr (List.mem_cons_of_mem _ hm)

/-- New entries with different keys are appended. -/
theorem entries_insertAll {m : OrderedMap α} {entries : List (String × α)}
    (h : ((m.entries ++ entries).map Prod.fst).Nodup) :
    (m.insertAll entries).entries = m.entries ++ entries := by
  induction entries generalizing m with
  | nil => exact (List.append_nil _).symm
  | cons entry rest ih =>
    have hk : entry.1 ∉ m.keys := by
      rw [List.map_append, List.map_cons] at h
      exact notMem_of_nodup_append_cons h
    have he := entries_insert_of_notMem hk entry.2
    have hi := ih (m := m.insert entry.1 entry.2) (by rw [he]; simpa using h)
    rw [he, List.append_assoc] at hi
    exact hi

theorem entries_ofList {entries : List (String × α)} (h : (entries.map Prod.fst).Nodup) :
    (ofList entries).entries = entries :=
  entries_insertAll (m := empty) h

end OrderedMap

end ApiStack
