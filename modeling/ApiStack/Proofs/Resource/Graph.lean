import ApiStack.Proofs.OrderedMap
import ApiStack.Resource.Graph

namespace ApiStack.Graph

theorem contains_iff {g : Graph} {id : String} : g.contains id = true ↔ id ∈ g.ids :=
  List.contains_iff_mem

theorem insert_of_notMem {g : Graph} {id : String} (h : id ∉ g.ids) (r : Resource) :
    g.insert id r = .ok ⟨g.entries ++ [(id, r)]⟩ := by
  rw [insert, if_neg (contains_iff.not.2 h)]

theorem insert_of_mem {g : Graph} {id : String} (h : id ∈ g.ids) (r : Resource) :
    g.insert id r = .error (.idCollision id) := by
  rw [insert, if_pos (contains_iff.2 h)]

theorem absorb_append (g : Graph) (before behind : List (String × Resource)) :
    g.absorb (before ++ behind) =
      match g.absorb before with
      | (g', none) => g'.absorb behind
      | (g', some failure) => (g', some failure) := by
  induction before generalizing g with
  | nil => rfl
  | cons entry rest ih =>
    obtain ⟨id, r⟩ := entry
    simp only [List.cons_append, absorb]
    cases g.insert id r with
    | ok g' => exact ih g'
    | error failure => rfl

theorem absorb_append_of_none {g g' : Graph} {before : List (String × Resource)}
    (h : g.absorb before = (g', none)) (behind : List (String × Resource)) :
    g.absorb (before ++ behind) = g'.absorb behind := by
  rw [absorb_append, h]

theorem absorb_append_of_some {g g' : Graph} {before : List (String × Resource)}
    {failure : Failure} (h : g.absorb before = (g', some failure))
    (behind : List (String × Resource)) :
    g.absorb (before ++ behind) = (g', some failure) := by
  rw [absorb_append, h]

theorem absorb_append_eq_none_iff {g g' : Graph} {before behind : List (String × Resource)} :
    g.absorb (before ++ behind) = (g', none) ↔
      ∃ mid, g.absorb before = (mid, none) ∧ mid.absorb behind = (g', none) := by
  rcases hb : g.absorb before with ⟨mid, _ | failure⟩
  · rw [absorb_append_of_none hb]
    constructor
    · intro h
      exact ⟨mid, rfl, h⟩
    · rintro ⟨mid', he, h⟩
      cases he
      exact h
  · rw [absorb_append_of_some hb]
    constructor
    · intro h
      cases h
    · rintro ⟨mid', he, h⟩
      cases he

theorem merge_eq_ok_iff {g other g' : Graph} :
    g.merge other = .ok g' ↔ g.absorb other.entries = (g', none) := by
  unfold merge
  split <;> simp_all

theorem merge_eq_error_iff {g other : Graph} {failure : Failure} :
    g.merge other = .error failure ↔ ∃ g', g.absorb other.entries = (g', some failure) := by
  unfold merge
  split <;> simp_all

theorem absorb_of_nodup {g : Graph} {entries : List (String × Resource)}
    (h : (g.ids ++ entries.map Prod.fst).Nodup) :
    g.absorb entries = (⟨g.entries ++ entries⟩, none) := by
  induction entries generalizing g with
  | nil => simp only [absorb, List.append_nil]
  | cons entry rest ih =>
    obtain ⟨id, r⟩ := entry
    have hid : id ∉ g.ids := notMem_of_nodup_append_cons h
    simp only [absorb, insert_of_notMem hid r]
    rw [ih (by simpa [ids] using h), List.append_assoc]
    rfl

theorem absorb_of_taken {g : Graph} {before behind : List (String × Resource)} {id : String}
    {r : Resource} (hn : (g.ids ++ before.map Prod.fst).Nodup)
    (hid : id ∈ g.ids ++ before.map Prod.fst) :
    g.absorb (before ++ (id, r) :: behind) = (⟨g.entries ++ before⟩, some (.idCollision id)) := by
  have hm : id ∈ (Graph.mk (g.entries ++ before)).ids := by simpa [ids] using hid
  simp only [absorb_append, absorb_of_nodup hn, absorb, insert_of_mem hm r]

/-- Resources that cannot all be moved have a first one whose id is taken. -/
theorem exists_first_taken {g : Graph} {entries : List (String × Resource)} (hg : g.ids.Nodup)
    (h : ¬(g.ids ++ entries.map Prod.fst).Nodup) :
    ∃ before id r behind, entries = before ++ (id, r) :: behind ∧
      (g.ids ++ before.map Prod.fst).Nodup ∧ id ∈ g.ids ++ before.map Prod.fst := by
  induction entries generalizing g with
  | nil => exact (h (by simpa using hg)).elim
  | cons entry rest ih =>
    obtain ⟨id, r⟩ := entry
    by_cases hid : id ∈ g.ids
    · exact ⟨[], id, r, rest, rfl, by simpa using hg, by simpa using hid⟩
    · have hg' : (Graph.mk (g.entries ++ [(id, r)])).ids.Nodup := by
        rw [ids, List.map_append, List.nodup_append]
        refine ⟨hg, List.pairwise_singleton _ _, ?_⟩
        rintro a ha b hb rfl
        cases List.mem_singleton.1 hb
        exact hid ha
      obtain ⟨before, id', r', behind, rfl, hn, hm⟩ := ih hg' (by simpa [ids] using h)
      refine ⟨(id, r) :: before, id', r', behind, rfl, ?_, ?_⟩
      · simpa [ids] using hn
      · simpa [ids] using hm

theorem absorb_eq_none_iff {g g' : Graph} {entries : List (String × Resource)}
    (hg : g.ids.Nodup) : g.absorb entries = (g', none) ↔
      (g.ids ++ entries.map Prod.fst).Nodup ∧ g' = ⟨g.entries ++ entries⟩ := by
  constructor
  · intro h
    by_cases hn : (g.ids ++ entries.map Prod.fst).Nodup
    · rw [absorb_of_nodup hn] at h
      exact ⟨hn, (congrArg Prod.fst h).symm⟩
    · obtain ⟨before, id, r, behind, rfl, hb, hid⟩ := exists_first_taken hg hn
      rw [absorb_of_taken hb hid] at h
      cases h
  · rintro ⟨hn, rfl⟩
    exact absorb_of_nodup hn

/-- Nothing but a taken id stops a move. -/
theorem absorb_eq_some {g g' : Graph} {entries : List (String × Resource)} {failure : Failure}
    (hg : g.ids.Nodup) (h : g.absorb entries = (g', some failure)) :
    ¬(g.ids ++ entries.map Prod.fst).Nodup ∧ ∃ id, failure = .idCollision id := by
  have hn : ¬(g.ids ++ entries.map Prod.fst).Nodup := by
    intro hn
    rw [absorb_of_nodup hn] at h
    cases h
  obtain ⟨before, id, r, behind, rfl, hb, hid⟩ := exists_first_taken hg hn
  rw [absorb_of_taken hb hid] at h
  cases h
  exact ⟨hn, id, rfl⟩

theorem ids_nodup_empty : empty.ids.Nodup := List.Pairwise.nil

theorem map_fst_flatMap_entries (graphs : List Graph) :
    (graphs.flatMap entries).map Prod.fst = graphs.flatMap ids :=
  List.map_flatMap

end ApiStack.Graph
