import ApiStack.Json.Basic
import Mathlib.Data.List.Forall2

namespace ApiStack

/-- What holds of a value if it holds of its items or of the values of its entries holds of all
values. -/
@[elab_as_elim]
theorem Json.induction {motive : Json → Prop}
    (null : motive .null) (bool : ∀ b, motive (.bool b)) (num : ∀ n, motive (.num n))
    (str : ∀ s, motive (.str s))
    (arr : ∀ items, (∀ j ∈ items, motive j) → motive (.arr items))
    (obj : ∀ entries, (∀ entry ∈ entries, motive entry.2) → motive (.obj entries)) :
    ∀ j, motive j
  | .null => null
  | .bool b => bool b
  | .num n => num n
  | .str s => str s
  | .arr items => arr items fun j _ => Json.induction null bool num str arr obj j
  | .obj entries => obj entries fun entry _ => Json.induction null bool num str arr obj entry.2
termination_by j => sizeOf j
decreasing_by
  · have hs := List.sizeOf_lt_of_mem ‹_›
    simp only [Json.arr.sizeOf_spec]
    omega
  · have hs := List.sizeOf_lt_of_mem ‹entry ∈ entries›
    have he : sizeOf entry = 1 + sizeOf entry.1 + sizeOf entry.2 := by cases entry; rfl
    simp only [Json.obj.sizeOf_spec]
    omega

theorem Binary64.sameNumber_symm {x y : Binary64} (h : x.sameNumber y = true) :
    y.sameNumber x = true := by
  simp only [sameNumber, Bool.or_eq_true, Bool.and_eq_true, decide_eq_true_eq] at h ⊢
  rcases h with h | h
  · exact .inl h.symm
  · exact .inr h.symm

theorem Binary64.sameNumber_trans {x y z : Binary64} (hxy : x.sameNumber y = true)
    (hyz : y.sameNumber z = true) : x.sameNumber z = true := by
  simp only [sameNumber, Bool.or_eq_true, Bool.and_eq_true, decide_eq_true_eq] at *
  rcases hxy with hxy | hxy
  · have he : x.magnitudeBits = y.magnitudeBits := by simp only [magnitudeBits, hxy]
    rwa [hxy, he]
  · rcases hyz with hyz | hyz
    · have he : y.magnitudeBits = z.magnitudeBits := by simp only [magnitudeBits, hyz]
      exact .inr ⟨hxy.1, he ▸ hxy.2⟩
    · exact .inr ⟨hxy.1, hyz.2⟩

namespace Json

theorem Number.same_refl (n : Number) : n.same n = true := by
  cases n with
  | int n => simp only [same, decide_true]
  | float x => simp only [same, Binary64.sameNumber, decide_true, Bool.true_or]

theorem Number.same_symm {m n : Number} (h : m.same n = true) : n.same m = true := by
  cases m with
  | int m =>
    cases n with
    | int n =>
      simp only [same, decide_eq_true_eq] at h ⊢
      exact h.symm
    | float y => cases h
  | float x =>
    cases n with
    | int n => cases h
    | float y => exact Binary64.sameNumber_symm h

theorem Number.same_trans {k m n : Number} (hkm : k.same m = true) (hmn : m.same n = true) :
    k.same n = true := by
  cases m with
  | int m =>
    cases k with
    | int k =>
      cases n with
      | int n =>
        simp only [same, decide_eq_true_eq] at hkm hmn ⊢
        exact hkm.trans hmn
      | float z => cases hmn
    | float x => cases hkm
  | float y =>
    cases k with
    | int k => cases hkm
    | float x =>
      cases n with
      | int n => cases hmn
      | float z => exact Binary64.sameNumber_trans hkm hmn

/-- The values under a key in order. -/
def valuesAt (key : String) (entries : List (String × Json)) : List Json :=
  (entries.filter fun entry => entry.1 = key).map Prod.snd

theorem mem_valuesAt {key : String} {entries : List (String × Json)} {v : Json} :
    v ∈ valuesAt key entries ↔ (key, v) ∈ entries := by
  simp [valuesAt]

theorem valuesAt_cons (key k : String) (v : Json) (rest : List (String × Json)) :
    valuesAt key ((k, v) :: rest) = if k = key then v :: valuesAt key rest
      else valuesAt key rest := by
  by_cases h : k = key <;> simp [valuesAt, h]

/-- The entry that is found under a key is the first value there. -/
theorem valuesAt_of_lookup {key : String} {entries : List (String × Json)} {v : Json}
    (h : entries.lookup key = some v) :
    valuesAt key entries = v :: valuesAt key (entries.eraseP fun entry => entry.1 = key) := by
  induction entries with
  | nil => cases h
  | cons entry rest ih =>
    obtain ⟨k, w⟩ := entry
    by_cases hk : k = key
    · subst hk
      simp only [List.lookup_cons, beq_self_eq_true, Option.some.injEq] at h
      simp [valuesAt_cons, h]
    · have hb : (key == k) = false := beq_false_of_ne fun e => hk e.symm
      simp only [List.lookup_cons, hb] at h
      simpa [valuesAt_cons, List.eraseP_cons, hk] using ih h

theorem valuesAt_eraseP_of_ne {key k : String} (h : k ≠ key) (entries : List (String × Json)) :
    valuesAt key (entries.eraseP fun entry => entry.1 = k) = valuesAt key entries := by
  induction entries with
  | nil => rfl
  | cons entry rest ih =>
    obtain ⟨k', w⟩ := entry
    by_cases hk : k' = k
    · subst hk
      simp [valuesAt_cons, h]
    · simp [valuesAt_cons, hk, ih]

theorem lookup_eq_none_iff_valuesAt {key : String} {entries : List (String × Json)} :
    entries.lookup key = none ↔ valuesAt key entries = [] := by
  induction entries with
  | nil => simp [valuesAt]
  | cons entry rest ih =>
    obtain ⟨k, w⟩ := entry
    by_cases hk : k = key
    · simp [valuesAt_cons, hk]
    · have hb : (key == k) = false := beq_false_of_ne fun e => hk e.symm
      simp [List.lookup_cons, hb, valuesAt_cons, hk, ih]

theorem sameItems_iff {xs ys : List Json} :
    sameItems xs ys = true ↔ List.Forall₂ (fun x y => x.same y = true) xs ys := by
  induction xs generalizing ys with
  | nil => cases ys <;> simp [sameItems]
  | cons x xs ih => cases ys <;> simp [sameItems, ih]

/-- Entries are equal if under each key they have equal values in the same order. -/
theorem sameEntries_iff {xs ys : List (String × Json)} :
    sameEntries xs ys = true ↔
      ∀ key, List.Forall₂ (fun v w => v.same w = true) (valuesAt key xs) (valuesAt key ys) := by
  induction xs generalizing ys with
  | nil =>
    constructor
    · intro h
      simp only [sameEntries, List.isEmpty_iff] at h
      subst h
      exact fun _ => .nil
    · intro h
      cases ys with
      | nil => rfl
      | cons entry ys =>
        have hh := h entry.1
        simp [valuesAt] at hh
  | cons entry xs ih =>
    obtain ⟨k, v⟩ := entry
    simp only [sameEntries]
    -- the first entry is compared with the first one of its key, which is then out of the way
    cases hl : ys.lookup k with
    | none =>
      simp only [Bool.false_eq_true, false_iff]
      intro h
      have hh := h k
      simp [valuesAt_cons, lookup_eq_none_iff_valuesAt.1 hl] at hh
    | some w =>
      simp only [Bool.and_eq_true, ih]
      have hw := valuesAt_of_lookup hl
      constructor
      · rintro ⟨hvw, h⟩ key
        by_cases hk : k = key
        · subst hk
          simpa [valuesAt_cons, hw, hvw] using h k
        · simpa [valuesAt_cons, hk, valuesAt_eraseP_of_ne hk] using h key
      · intro h
        have hvw := h k
        simp only [valuesAt_cons, if_true, hw, List.forall₂_cons] at hvw
        refine ⟨hvw.1, fun key => ?_⟩
        by_cases hk : k = key
        · subst hk
          exact hvw.2
        · simpa [valuesAt_cons, hk, valuesAt_eraseP_of_ne hk] using h key

theorem same_refl (j : Json) : j.same j = true := by
  induction j using Json.induction with
  | null => rfl
  | bool b => simp only [same, decide_true]
  | num n => exact n.same_refl
  | str s => simp only [same, decide_true]
  | arr items ih =>
    rw [same, sameItems_iff]
    exact List.forall₂_same.2 ih
  | obj entries ih =>
    rw [same, sameEntries_iff]
    intro key
    exact List.forall₂_same.2 fun v hv => ih (key, v) (mem_valuesAt.1 hv)

theorem forall₂_symm {R : Json → Json → Prop} {xs ys : List Json} (h : List.Forall₂ R xs ys)
    (hs : ∀ x ∈ xs, ∀ y, R x y → R y x) : List.Forall₂ R ys xs := by
  induction h with
  | nil => exact .nil
  | cons hxy _ ih =>
    refine .cons (hs _ List.mem_cons_self _ hxy) (ih fun x hx => ?_)
    exact hs x (List.mem_cons_of_mem _ hx)

theorem forall₂_trans {R : Json → Json → Prop} {xs ys zs : List Json}
    (hxy : List.Forall₂ R xs ys) (hyz : List.Forall₂ R ys zs)
    (ht : ∀ x ∈ xs, ∀ y z, R x y → R y z → R x z) : List.Forall₂ R xs zs := by
  induction hxy generalizing zs with
  | nil => exact hyz
  | cons hx _ ih =>
    cases hyz with
    | cons hy hyz =>
      refine .cons (ht _ List.mem_cons_self _ _ hx hy) (ih hyz fun x hm => ?_)
      exact ht x (List.mem_cons_of_mem _ hm)

theorem same_symm {x y : Json} (h : x.same y = true) : y.same x = true := by
  induction x using Json.induction generalizing y with
  | null =>
    cases y with
    | null => rfl
    | _ => cases h
  | bool a =>
    cases y with
    | bool b =>
      simp only [same, decide_eq_true_eq] at h ⊢
      exact h.symm
    | _ => cases h
  | num m =>
    cases y with
    | num n => exact Number.same_symm h
    | _ => cases h
  | str s =>
    cases y with
    | str t =>
      simp only [same, decide_eq_true_eq] at h ⊢
      exact h.symm
    | _ => cases h
  | arr xs ih =>
    cases y with
    | arr ys =>
      rw [same, sameItems_iff] at h ⊢
      exact forall₂_symm h fun x hx y => ih x hx
    | _ => cases h
  | obj xs ih =>
    cases y with
    | obj ys =>
      rw [same, sameEntries_iff] at h ⊢
      exact fun key => forall₂_symm (h key) fun v hv w => ih (key, v) (mem_valuesAt.1 hv)
    | _ => cases h

theorem same_trans {x y z : Json} (hxy : x.same y = true) (hyz : y.same z = true) :
    x.same z = true := by
  induction x using Json.induction generalizing y z with
  | null =>
    cases y with
    | null => exact hyz
    | _ => cases hxy
  | bool a =>
    cases y with
    | bool b =>
      cases z with
      | bool c =>
        simp only [same, decide_eq_true_eq] at hxy hyz ⊢
        exact hxy.trans hyz
      | _ => cases hyz
    | _ => cases hxy
  | num k =>
    cases y with
    | num m =>
      cases z with
      | num n => exact Number.same_trans hxy hyz
      | _ => cases hyz
    | _ => cases hxy
  | str r =>
    cases y with
    | str s =>
      cases z with
      | str t =>
        simp only [same, decide_eq_true_eq] at hxy hyz ⊢
        exact hxy.trans hyz
      | _ => cases hyz
    | _ => cases hxy
  | arr xs ih =>
    cases y with
    | arr ys =>
      cases z with
      | arr zs =>
        rw [same, sameItems_iff] at hxy hyz ⊢
        exact forall₂_trans hxy hyz fun x hx y z => ih x hx
      | _ => cases hyz
    | _ => cases hxy
  | obj xs ih =>
    cases y with
    | obj ys =>
      cases z with
      | obj zs =>
        rw [same, sameEntries_iff] at hxy hyz ⊢
        intro key
        exact forall₂_trans (hxy key) (hyz key) fun v hv w u => ih (key, v) (mem_valuesAt.1 hv)
      | _ => cases hyz
    | _ => cases hxy

end Json

end ApiStack
