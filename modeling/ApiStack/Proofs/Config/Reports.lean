import ApiStack.Config.Issues
import Mathlib.Data.List.Induction

namespace ApiStack.Config

/-- Where a constraint stands: the number of its section, and of the item and the part in it.
Positions are compared number by number, the first one first. -/
abbrev Position := List Nat

/-- Issues are those of what is violated: one for each position, in the order of positions. -/
def Reports (issues : List Issue) (violated : Position → Issue → Prop) : Prop :=
  ∃ vs : List (Position × Issue), vs.map Prod.snd = issues ∧ vs.Pairwise (fun v w => v.1 < w.1) ∧
    ∀ pos issue, (pos, issue) ∈ vs ↔ violated pos issue

/-- A condition that has to hold does not. -/
inductive Unmet (condition : Prop) (path message : String) : Position → Issue → Prop
  | mk (h : ¬condition) : Unmet condition path message [] ⟨path, message⟩

/-- A number does not lie between two bounds. -/
inductive OutOfRange (least greatest : Nat) (path : String) (n : Nat) : Position → Issue → Prop
  | small (h : n < least) :
      OutOfRange least greatest path n [] ⟨path, "must be >= " ++ toString least⟩
  | large (h : greatest < n) :
      OutOfRange least greatest path n [] ⟨path, "must be <= " ++ toString greatest⟩

/-- What is violated in one of several sections, each under its number. -/
inductive InSection (sections : List (Position → Issue → Prop)) : Position → Issue → Prop
  | mk {k : Nat} {violated : Position → Issue → Prop} {pos : Position} {issue : Issue}
      (hk : sections[k]? = some violated) (h : violated pos issue) :
      InSection sections (k :: pos) issue

variable {violated violated' : Position → Issue → Prop} {issues issues' : List Issue}

namespace Reports

theorem congr (h : Reports issues violated)
    (hiff : ∀ pos issue, violated pos issue ↔ violated' pos issue) :
    Reports issues violated' := by
  obtain ⟨vs, he, hs, hm⟩ := h
  exact ⟨vs, he, hs, fun pos issue => (hm pos issue).trans (hiff pos issue)⟩

theorem nil (h : ∀ pos issue, ¬violated pos issue) : Reports [] violated :=
  ⟨[], rfl, .nil, fun pos issue => iff_of_false List.not_mem_nil (h pos issue)⟩

theorem singleton {pos : Position} {issue : Issue}
    (h : ∀ pos' issue', violated pos' issue' ↔ pos' = pos ∧ issue' = issue) :
    Reports [issue] violated := by
  refine ⟨[(pos, issue)], rfl, List.pairwise_singleton _ _, fun pos' issue' => ?_⟩
  rw [List.mem_singleton, Prod.mk.injEq, h]

theorem eq_nil_iff (h : Reports issues violated) :
    issues = [] ↔ ∀ pos issue, ¬violated pos issue := by
  obtain ⟨vs, rfl, -, hm⟩ := h
  rw [List.map_eq_nil_iff, List.eq_nil_iff_forall_not_mem, Prod.forall]
  exact forall₂_congr fun pos issue => not_congr (hm pos issue)

theorem under (h : Reports issues violated) (k : Nat) :
    Reports issues fun pos issue => ∃ rest, pos = k :: rest ∧ violated rest issue := by
  obtain ⟨vs, he, hs, hm⟩ := h
  refine ⟨vs.map fun v => (k :: v.1, v.2), ?_, ?_, fun pos issue => ?_⟩
  · rw [← he, List.map_map]
    rfl
  · refine List.pairwise_map.2 (hs.imp fun hlt => ?_)
    exact List.cons_lt_cons_iff.2 (.inr ⟨rfl, hlt⟩)
  · rw [List.mem_map]
    constructor
    · rintro ⟨v, hv, he⟩
      cases he
      exact ⟨v.1, rfl, (hm _ _).1 hv⟩
    · rintro ⟨rest, rfl, h⟩
      exact ⟨(rest, issue), (hm _ _).2 h, rfl⟩

/-- Two reports, one behind the other, the positions of the second behind those of the first. -/
theorem append (h : Reports issues violated) (h' : Reports issues' violated')
    (hlt : ∀ pos issue pos' issue', violated pos issue → violated' pos' issue' → pos < pos') :
    Reports (issues ++ issues') fun pos issue => violated pos issue ∨ violated' pos issue := by
  obtain ⟨vs, he, hs, hm⟩ := h
  obtain ⟨vs', he', hs', hm'⟩ := h'
  refine ⟨vs ++ vs', by rw [List.map_append, he, he'], ?_, fun pos issue => ?_⟩
  · refine List.pairwise_append.2 ⟨hs, hs', fun v hv w hw => ?_⟩
    exact hlt _ _ _ _ ((hm v.1 v.2).1 hv) ((hm' w.1 w.2).1 hw)
  · rw [List.mem_append, hm, hm']

theorem first (h : Reports issues violated) : Reports issues (InSection [violated]) := by
  refine (h.under 0).congr fun pos issue => ?_
  constructor
  · rintro ⟨rest, rfl, hv⟩
    exact .mk (k := 0) rfl hv
  · rintro @⟨_ | k, violated', rest, issue, hk, hv⟩
    · cases hk
      exact ⟨rest, rfl, hv⟩
    · cases hk

theorem andThen {sections : List (Position → Issue → Prop)}
    (h : Reports issues (InSection sections)) (h' : Reports issues' violated) :
    Reports (issues ++ issues') (InSection (sections ++ [violated])) := by
  refine (h.append (h'.under sections.length) ?_).congr fun pos issue => ?_
  · rintro pos issue pos' issue' ⟨hk, -⟩ ⟨rest, rfl, -⟩
    exact List.cons_lt_cons_iff.2 (.inl (List.getElem?_eq_some_iff.1 hk).1)
  · constructor
    · rintro (⟨hk, hv⟩ | ⟨rest, rfl, hv⟩)
      · refine .mk ?_ hv
        rwa [List.getElem?_append_left (List.getElem?_eq_some_iff.1 hk).1]
      · exact .mk List.getElem?_concat_length hv
    · rintro @⟨k, violated', rest, issue, hk, hv⟩
      -- The number is that of a section that was there, that of the new one, or none.
      rcases Nat.lt_trichotomy k sections.length with hlt | rfl | hgt
      · rw [List.getElem?_append_left hlt] at hk
        exact .inl (.mk hk hv)
      · rw [List.getElem?_concat_length] at hk
        cases hk
        exact .inr ⟨rest, rfl, hv⟩
      · rw [List.getElem?_eq_none (by rw [List.length_append]; exact hgt)] at hk
        cases hk

end Reports

theorem reports_demand {holds : Bool} {condition : Prop} (h : holds = true ↔ condition)
    (path message : String) :
    Reports (demand holds path message) (Unmet condition path message) := by
  cases holds with
  | true =>
    apply Reports.nil
    rintro pos issue ⟨hn⟩
    exact hn (h.1 rfl)
  | false =>
    apply Reports.singleton
    intro pos issue
    constructor
    · rintro ⟨-⟩
      exact ⟨rfl, rfl⟩
    · rintro ⟨rfl, rfl⟩
      exact .mk fun hc => Bool.false_ne_true (h.2 hc)

theorem reports_within {least greatest : Nat} (h : least ≤ greatest) (path : String) (n : Nat) :
    Reports (within least greatest path n) (OutOfRange least greatest path n) := by
  unfold within
  split
  · next hsmall =>
    apply Reports.singleton
    intro pos issue
    constructor
    · rintro (_ | hlarge)
      · exact ⟨rfl, rfl⟩
      · omega
    · rintro ⟨rfl, rfl⟩
      exact .small hsmall
  · next hsmall =>
    split
    · next hlarge =>
      apply Reports.singleton
      intro pos issue
      constructor
      · rintro (h | _)
        · exact absurd h hsmall
        · exact ⟨rfl, rfl⟩
      · rintro ⟨rfl, rfl⟩
        exact .large hlarge
    · next hlarge =>
      apply Reports.nil
      rintro pos issue (h | h)
      · exact hsmall h
      · exact hlarge h

theorem reports_ifGiven {value : Option α} {issues : α → List Issue}
    {violated : α → Position → Issue → Prop} (h : ∀ a, Reports (issues a) (violated a)) :
    Reports (ifGiven value issues) fun pos issue =>
      ∃ a, value = some a ∧ violated a pos issue := by
  cases value with
  | none =>
    apply Reports.nil
    rintro pos issue ⟨a, ha, -⟩
    cases ha
  | some a =>
    refine (h a).congr fun pos issue => ?_
    constructor
    · intro hv
      exact ⟨a, rfl, hv⟩
    · rintro ⟨a, ha, hv⟩
      cases ha
      exact hv

theorem reports_atEach {issues : Nat → α → List Issue}
    {violated : Nat → α → Position → Issue → Prop}
    (h : ∀ i a, Reports (issues i a) (violated i a)) (items : List α) :
    Reports (atEach issues items) fun pos issue =>
      ∃ i a rest, pos = i :: rest ∧ items[i]? = some a ∧ violated i a rest issue := by
  have hsections : Reports (atEach issues items) (InSection (items.mapIdx violated)) := by
    -- From the end of the list, as a section is added behind those that are there.
    induction items using List.reverseRecOn with
    | nil => exact .nil fun pos issue ⟨hk, _⟩ => nomatch hk
    | append_singleton items a ih =>
      rw [atEach, List.mapIdx_concat, List.flatten_concat, List.mapIdx_concat]
      exact ih.andThen (h _ a)
  refine hsections.congr fun pos issue => ?_
  constructor
  · rintro ⟨hk, hv⟩
    rw [List.getElem?_mapIdx] at hk
    obtain ⟨a, ha, rfl⟩ := Option.map_eq_some_iff.1 hk
    exact ⟨_, a, _, rfl, ha, hv⟩
  · rintro ⟨i, a, rest, rfl, ha, hv⟩
    refine .mk ?_ hv
    rw [List.getElem?_mapIdx, ha]
    rfl

theorem reports_entryIssues {issues : String → α → List Issue}
    {violated : String → α → Position → Issue → Prop}
    (h : ∀ path a, Reports (issues path a) (violated path a)) (path : String) (m : OrderedMap α) :
    Reports (entryIssues issues path m) fun pos issue => ∃ k name a rest, pos = k :: rest ∧
      m.entries[k]? = some (name, a) ∧ violated (below path name) a rest issue := by
  have hitems := reports_atEach (fun _ (e : String × α) => h (below path e.1) e.2) m.entries
  have he : entryIssues issues path m =
      atEach (fun _ e => issues (below path e.1) e.2) m.entries := by
    rw [entryIssues, atEach, List.flatMap_def]
    refine congrArg List.flatten (List.ext_getElem? fun k => ?_)
    rw [List.getElem?_map, List.getElem?_mapIdx]
  rw [he]
  refine hitems.congr fun pos issue => ?_
  constructor
  · rintro ⟨k, ⟨name, a⟩, rest, rfl, ha, hv⟩
    exact ⟨k, name, a, rest, rfl, ha, hv⟩
  · rintro ⟨k, name, a, rest, rfl, ha, hv⟩
    exact ⟨k, (name, a), rest, rfl, ha, hv⟩

end ApiStack.Config
