import ApiStack.Proofs.Json.EveryEntry

namespace ApiStack.Json

/-- One step into a value. -/
inductive Step where
  | key (name : String)
  | index (i : Nat)

def Step.from? : Step → Json → Option Json
  | key name, j => j.get? name
  | index i, j => j.items?.bind fun items => items[i]?

/-- What a path leads to. -/
def at? (j : Json) : List Step → Option Json
  | [] => some j
  | step :: path => (step.from? j).bind fun v => v.at? path

theorem at?_cons {j v : Json} {step : Step} (h : step.from? j = some v) (path : List Step) :
    j.at? (step :: path) = v.at? path := by
  rw [at?, h, Option.bind_some]

theorem isNull_of_at? {j v : Json} {path : List Step} (h : j.at? path = some v)
    (hv : v.isNull = false) : j.isNull = false := by
  cases path with
  | nil =>
    cases h
    exact hv
  | cons step path =>
    cases j with
    | null => cases step <;> cases h
    | _ => rfl

theorem Step.from?_prune {step : Step} {j v : Json} (h : step.from? j = some v)
    (hv : v.isNull = false) : step.from? j.prune = some v.prune := by
  cases step with
  | key name =>
    cases j with
    | obj entries => exact lookup_pruneEntries h hv
    | _ => cases h
  | index i =>
    cases j with
    | arr items =>
      have hi : items[i]? = some v := h
      have hp : (pruneItems items)[i]? = some v.prune := by
        rw [pruneItems_eq_map, List.getElem?_map, hi, Option.map_some]
      exact hp
    | _ => cases h

/-- What is not null is still there once null entries are dropped. -/
theorem at?_prune {j v : Json} {path : List Step} (h : j.at? path = some v)
    (hv : v.isNull = false) : j.prune.at? path = some v.prune := by
  induction path generalizing j with
  | nil =>
    cases h
    rfl
  | cons step path ih =>
    obtain ⟨w, hw, hpath⟩ := Option.bind_eq_some_iff.1 h
    rw [at?_cons (Step.from?_prune hw (isNull_of_at? hpath hv))]
    exact ih hpath

theorem at?_obj {name : String} {entries : List (String × Json)} {v : Json}
    (h : entries.lookup name = some v) (path : List Step) :
    (obj entries).at? (.key name :: path) = v.at? path := by
  have hv : (Step.key name).from? (obj entries) = some v := h
  exact at?_cons hv path

/-- A path through some entries also leads through more of them, unless others in front have its
first key. -/
theorem at?_obj_append {name : String} {before entries behind : List (String × Json)}
    {path : List Step} {v : Json} (hb : ∀ e ∈ before, e.1 ≠ name)
    (h : (obj entries).at? (.key name :: path) = some v) :
    (obj (before ++ (entries ++ behind))).at? (.key name :: path) = some v := by
  obtain ⟨w, hw, hpath⟩ := Option.bind_eq_some_iff.1 h
  have hl : (before ++ (entries ++ behind)).lookup name = some w := by
    have hentries : entries.lookup name = some w := hw
    rw [List.lookup_append, List.lookup_append, lookup_eq_none_of_ne hb, hentries,
      Option.none_or, Option.some_or]
  rw [at?_obj hl, hpath]

/-- Dropping null entries leaves what stands under a key, unless it is null. -/
theorem get?_prune {entries : List (String × Json)} (hn : (entries.map Prod.fst).Nodup)
    (key : String) : (obj entries).prune.get? key =
      ((obj entries).get? key).bind fun v => if v.isNull then none else some v.prune := by
  have hlookup : (pruneEntries entries).lookup key =
      (entries.lookup key).bind fun v => if v.isNull then none else some v.prune := by
    induction entries with
    | nil => rfl
    | cons e rest ih =>
      obtain ⟨k, v⟩ := e
      obtain ⟨hk, hrest⟩ := List.nodup_cons.1 hn
      rw [pruneEntries, List.lookup_cons]
      cases hkey : key == k with
      | true =>
        have hnone : rest.lookup key = none :=
          lookup_eq_none_iff_notMem.2 (eq_of_beq hkey ▸ hk)
        cases hv : v.isNull with
        | true =>
          rw [if_pos rfl, ih hrest, hnone, Option.bind_none, Option.bind_some, hv, if_pos rfl]
        | false =>
          rw [if_neg Bool.false_ne_true, List.lookup_cons, hkey, Option.bind_some, hv,
            if_neg Bool.false_ne_true]
      | false =>
        split
        · exact ih hrest
        · rw [List.lookup_cons, hkey]
          exact ih hrest
  exact hlookup

/-- What stands under a key: null if nothing does. -/
def under (j : Json) (key : String) : Json := (j.get? key).getD null

theorem under_prune {entries : List (String × Json)} (hn : (entries.map Prod.fst).Nodup)
    (key : String) : (obj entries).prune.under key = ((obj entries).under key).prune := by
  rw [under, under, get?_prune hn]
  cases (obj entries).get? key with
  | none => rfl
  | some v => cases v <;> rfl

end ApiStack.Json
