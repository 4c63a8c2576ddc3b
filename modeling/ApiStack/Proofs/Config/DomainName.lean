import ApiStack.Config.DomainName
import Mathlib.Data.List.Basic

namespace ApiStack.Config

theorem labels_eq_splitOn (cs : List Char) : labels cs = cs.splitOn '.' := by
  induction cs with
  | nil => rfl
  | cons c rest ih =>
    rw [labels, ih, List.splitOn_cons_eq_if_modifyHead]
    by_cases hc : c = '.'
    · simp [hc]
    · simp only [hc, if_false, beq_iff_eq]
      cases h : rest.splitOn '.' with
      | nil => exact absurd h (List.splitOn_ne_nil _ _)
      | cons label others => rfl

/-- The name of a domain: some inner labels, a last one, and points between them. -/
def IsDomain (cs : List Char) : Prop :=
  ∃ inner last, inner ≠ [] ∧ (∀ l ∈ inner, isInnerLabel l = true) ∧ isLastLabel last = true ∧
    cs = ['.'].intercalate (inner ++ [last])

/-- The name of a zone: that of a domain and a point. -/
def IsZone (cs : List Char) : Prop := ∃ domain, IsDomain domain ∧ cs = domain ++ ['.']

theorem notMem_of_isInnerLabel {label : List Char} (h : isInnerLabel label = true) :
    '.' ∉ label := by
  cases label with
  | nil => exact List.not_mem_nil
  | cons c rest =>
    obtain ⟨hc, hrest⟩ := Bool.and_eq_true_iff.1 h
    intro hm
    rcases List.mem_cons.1 hm with rfl | hm
    · cases hc
    · cases List.all_eq_true.1 hrest _ hm

theorem isInnerLabel_of_isLastLabel {label : List Char} (h : isLastLabel label = true) :
    isInnerLabel label = true := by
  cases label with
  | nil => cases h
  | cons c rest =>
    obtain ⟨hc, hrest⟩ := Bool.and_eq_true_iff.1 h
    refine Bool.and_eq_true_iff.2 ⟨hc, List.all_eq_true.2 fun x hx => ?_⟩
    rw [List.all_eq_true.1 hrest x hx]
    rfl

theorem areDomainLabels_iff (ls : List (List Char)) : areDomainLabels ls = true ↔
    ∃ inner last, inner ≠ [] ∧ (∀ l ∈ inner, isInnerLabel l = true) ∧ isLastLabel last = true ∧
      ls = inner ++ [last] := by
  fun_induction areDomainLabels ls with
  | case1 first last =>
    rw [Bool.and_eq_true_iff]
    constructor
    · rintro ⟨hfirst, hlast⟩
      exact ⟨[first], last, List.cons_ne_nil _ _, List.forall_mem_singleton.2 hfirst, hlast, rfl⟩
    · rintro ⟨inner, last', hne, hinner, hlast, he⟩
      have hsplit : [first] ++ [last] = inner ++ [last'] := he
      obtain ⟨rfl, h⟩ := List.append_inj' hsplit rfl
      cases h
      exact ⟨hinner _ List.mem_cons_self, hlast⟩
  | case2 first rest hpair ih =>
    rw [Bool.and_eq_true_iff, ih]
    constructor
    · rintro ⟨hfirst, inner, last, -, hinner, hlast, rfl⟩
      exact ⟨first :: inner, last, List.cons_ne_nil _ _, List.forall_mem_cons.2 ⟨hfirst, hinner⟩,
        hlast, rfl⟩
    · rintro ⟨inner, last, hne, hinner, hlast, he⟩
      obtain _ | ⟨label, inner⟩ := inner
      · exact absurd rfl hne
      · cases he
        obtain ⟨hfirst, hinner⟩ := List.forall_mem_cons.1 hinner
        refine ⟨hfirst, inner, last, ?_, hinner, hlast, rfl⟩
        rintro rfl
        exact hpair last rfl
  | case3 =>
    constructor
    · intro h
      cases h
    · rintro ⟨inner, last, -, -, -, he⟩
      exact absurd he.symm (List.append_ne_nil_of_right_ne_nil _ (List.cons_ne_nil _ _))

theorem areDomainLabels_labels_iff (cs : List Char) :
    areDomainLabels (labels cs) = true ↔ IsDomain cs := by
  rw [areDomainLabels_iff, labels_eq_splitOn]
  constructor
  · rintro ⟨inner, last, hne, hinner, hlast, he⟩
    exact ⟨inner, last, hne, hinner, hlast, by rw [← he, List.intercalate_splitOn]⟩
  · rintro ⟨inner, last, hne, hinner, hlast, rfl⟩
    refine ⟨inner, last, hne, hinner, hlast, List.splitOn_intercalate '.' ?_ (by simp)⟩
    intro l hl
    rcases List.mem_append.1 hl with hl | hl
    · exact notMem_of_isInnerLabel (hinner l hl)
    · cases List.mem_singleton.1 hl
      exact notMem_of_isInnerLabel (isInnerLabel_of_isLastLabel hlast)

theorem isDomainName_iff (name : String) : isDomainName name = true ↔ IsDomain name.toList :=
  areDomainLabels_labels_iff _

theorem isZoneName_iff (name : String) : isZoneName name = true ↔ IsZone name.toList := by
  unfold isZoneName
  split
  · next rest h =>
    have hname : name.toList = rest.reverse ++ ['.'] := by
      rw [← List.reverse_reverse name.toList, h, List.reverse_cons]
    rw [areDomainLabels_labels_iff]
    constructor
    · intro hd
      exact ⟨_, hd, hname⟩
    · rintro ⟨domain, hd, he⟩
      rw [hname] at he
      exact List.append_cancel_right he ▸ hd
  · next h =>
    constructor
    · intro hf
      cases hf
    · rintro ⟨domain, -, he⟩
      exact absurd (by rw [he, List.reverse_append]; rfl) (h domain.reverse)

/-- The name of a header: letters, digits and dashes. -/
def IsHeader (cs : List Char) : Prop := cs ≠ [] ∧ ∀ c ∈ cs, c.isAlphanum = true ∨ c = '-'

theorem isHeaderName_iff (name : String) : isHeaderName name = true ↔ IsHeader name.toList := by
  simp only [isHeaderName, IsHeader, Bool.and_eq_true, Bool.not_eq_true', List.isEmpty_eq_false_iff,
    List.all_eq_true, Bool.or_eq_true, decide_eq_true_eq]

def parent (cs : List Char) : List Char := (cs.dropWhile (· ≠ '.')).drop 1

theorem takeWhile_append_parent {cs : List Char} (h : '.' ∈ cs) :
    cs.takeWhile (· ≠ '.') ++ '.' :: parent cs = cs := by
  induction cs with
  | nil => cases h
  | cons c rest ih =>
    by_cases hc : c = '.'
    · simp [parent, hc]
    · have hrest : '.' ∈ rest := (List.mem_cons.1 h).resolve_left fun he => hc he.symm
      have hpos : (decide (c ≠ '.')) = true := decide_eq_true hc
      simp only [parent, List.takeWhile_cons, List.dropWhile_cons, hpos, if_true, List.cons_append]
      exact congrArg _ (ih hrest)

theorem length_labels (cs : List Char) : (labels cs).length = cs.count '.' + 1 := by
  induction cs with
  | nil => rfl
  | cons c rest ih =>
    by_cases hc : c = '.'
    · simp [labels, hc, ih]
    · cases h : labels rest with
      | nil => simp [h] at ih
      | cons label others => simpa [labels, hc, h] using ih

theorem tail_labels {cs : List Char} (h : '.' ∈ cs) : (labels cs).tail = labels (parent cs) := by
  induction cs with
  | nil => cases h
  | cons c rest ih =>
    by_cases hc : c = '.'
    · simp [labels, parent, hc]
    · have hrest : '.' ∈ rest := (List.mem_cons.1 h).resolve_left fun he => hc he.symm
      rw [parent, List.dropWhile_cons_of_pos (by simpa using hc), ← parent, ← ih hrest]
      cases h : labels rest <;> simp [labels, hc, h]

/-- The labels behind the first one are those of a domain if they are more than one. -/
theorem areDomainLabels_tail_iff {ls : List (List Char)} (h : areDomainLabels ls = true) :
    areDomainLabels ls.tail = true ↔ 3 ≤ ls.length := by
  obtain ⟨_ | ⟨label, inner⟩, last, hne, hinner, hlast, rfl⟩ := (areDomainLabels_iff ls).1 h
  · exact absurd rfl hne
  rw [List.cons_append, List.tail_cons, List.length_cons, List.length_append]
  cases inner with
  | nil => simp [areDomainLabels]
  | cons next inner =>
    refine iff_of_true ?_ (by simp)
    exact (areDomainLabels_iff _).2
      ⟨next :: inner, last, List.cons_ne_nil _ _, (List.forall_mem_cons.1 hinner).2, hlast, rfl⟩

theorem IsDomain.mem {cs : List Char} (h : IsDomain cs) : '.' ∈ cs := by
  obtain ⟨inner, last, hne, -, -, he⟩ :=
    (areDomainLabels_iff _).1 ((areDomainLabels_labels_iff cs).2 h)
  have hlength := congrArg List.length he
  rw [length_labels, List.length_append, List.length_singleton] at hlength
  have hinner := List.length_pos_of_ne_nil hne
  exact List.count_pos_iff.1 (by omega)

/-- The parent of a domain is a domain if the name has a second point. -/
theorem isDomain_parent_iff {cs : List Char} (h : IsDomain cs) :
    IsDomain (parent cs) ↔ 2 ≤ cs.count '.' := by
  have hlabels := (areDomainLabels_labels_iff cs).2 h
  rw [← areDomainLabels_labels_iff, ← tail_labels h.mem, areDomainLabels_tail_iff hlabels,
    length_labels, Nat.succ_le_succ_iff]

end ApiStack.Config
