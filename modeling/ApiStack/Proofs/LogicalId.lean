import ApiStack.LogicalId
import Mathlib.Tactic.Common

namespace ApiStack.Text

/-- A character that logical ids have a word for. -/
def IsSign (c : Char) : Prop := c = '-' ∨ c = '_'

instance (c : Char) : Decidable (IsSign c) := inferInstanceAs (Decidable (_ ∨ _))

theorem toNat_ofNat (n : Nat) : (Char.ofNat n).toNat = n ∨ (Char.ofNat n).toNat = 0 := by
  unfold Char.ofNat
  by_cases h : n.isValidChar
  · rw [dif_pos h]
    exact .inl (BitVec.toNat_ofNatLT ..)
  · rw [dif_neg h]
    exact .inr rfl

theorem not_isSign_ofNat {n : Nat} (hd : n ≠ 45) (hu : n ≠ 95) : ¬IsSign (Char.ofNat n) := by
  have hn := toNat_ofNat n
  rintro (h | h)
  · rw [h] at hn
    exact hn.elim (fun h => hd h.symm) nofun
  · rw [h] at hn
    exact hn.elim (fun h => hu h.symm) nofun

theorem not_isSign_toUpper {c : Char} (hc : c.toNat < 128) (h : ¬IsSign c) :
    ¬IsSign c.toUpper := by
  have hall : ∀ n < 128, ¬IsSign (Char.ofNat n) → ¬IsSign (Char.ofNat n).toUpper := by decide
  have hn := hall c.toNat hc
  rw [Char.ofNat_toNat] at hn
  exact hn h

theorem codes_uppercaseSequences :
    ∀ entry ∈ uppercaseSequences, ∀ n ∈ entry.2, n ≠ 45 ∧ n ≠ 95 := by
  decide +kernel

/-- A run of letters ends up behind the signs, or is one letter that does not become one. -/
theorem codes_uppercaseRuns : ∀ run ∈ uppercaseRuns, 95 < run.1 + run.2.2.2 ∨
    run.1 = run.2.1 ∧ run.1 + run.2.2.2 ≠ 45 ∧ run.1 + run.2.2.2 ≠ 95 := by
  decide +kernel

theorem not_isSign_of_mem_upperForm {c u : Char} (h : ¬IsSign c) (hu : u ∈ upperForm c) :
    ¬IsSign u := by
  simp only [upperForm] at hu
  split at hu
  · next hc =>
    rw [List.mem_singleton.1 hu]
    exact not_isSign_toUpper hc h
  split at hu
  · next codes hl =>
    obtain ⟨n, hn, rfl⟩ := List.mem_map.1 hu
    obtain ⟨before, behind, he, -⟩ := List.lookup_eq_some_iff.1 hl
    have hm : (c.toNat, codes) ∈ uppercaseSequences := by simp [he]
    obtain ⟨hd, hu⟩ := codes_uppercaseSequences _ hm n hn
    exact not_isSign_ofNat hd hu
  split at hu
  · next first last step shift hf =>
    rw [List.mem_singleton.1 hu]
    have hrun := List.find?_some hf
    have hcodes := codes_uppercaseRuns _ (List.mem_of_find?_eq_some hf)
    simp only [Bool.and_eq_true, decide_eq_true_eq] at hrun hcodes
    rw [Int.ofNat_eq_natCast]
    apply not_isSign_ofNat <;> omega
  · rw [List.mem_singleton.1 hu]
    exact h

end ApiStack.Text

namespace ApiStack.LogicalId

/-- Characters with the dashes and underscores among them spelled out. -/
def spell (cs : List Char) : List Char := cs.flatMap spellOut

/-- Characters with the words for dashes and underscores read as these. -/
def respell : List Char → List Char
  | 'D' :: 'a' :: 's' :: 'h' :: rest => '-' :: respell rest
  | 'U' :: 'n' :: 'd' :: 'e' :: 'r' :: 's' :: 'c' :: 'o' :: 'r' :: 'e' :: rest => '_' :: respell rest
  | c :: rest => c :: respell rest
  | [] => []

/-- A name as far as it can be read back from the logical id of its function. -/
def respelled (name : String) : List Char := respell (capitalize name.toList)

theorem spell_cons (c : Char) (cs : List Char) : spell (c :: cs) = spellOut c ++ spell cs := rfl

theorem spell_append (cs ds : List Char) : spell (cs ++ ds) = spell cs ++ spell ds :=
  List.flatMap_append

theorem spellOut_of_not_isSign {c : Char} (h : ¬Text.IsSign c) : spellOut c = [c] := by
  obtain ⟨hd, hu⟩ := not_or.1 h
  rw [spellOut, if_neg hd, if_neg hu]

theorem spell_of_not_isSign {cs : List Char} (h : ∀ c ∈ cs, ¬Text.IsSign c) : spell cs = cs := by
  induction cs with
  | nil => rfl
  | cons c cs ih =>
    obtain ⟨hc, hcs⟩ := List.forall_mem_cons.1 h
    rw [spell_cons, spellOut_of_not_isSign hc, ih hcs, List.singleton_append]

/-- A word is read as a sign that is spelled out the same. -/
theorem spell_respell (cs : List Char) : spell (respell cs) = spell cs := by
  fun_induction respell cs with
  | case1 rest ih =>
    rw [spell_cons, ih]
    rfl
  | case2 rest ih =>
    rw [spell_cons, ih]
    rfl
  | case3 c rest _ _ ih => rw [spell_cons, spell_cons, ih]
  | case4 => rfl

/-- Letters inside of the words are spelled out from nothing but themselves. -/
theorem exists_of_spell_eq {w cs t : List Char} (hD : 'D' ∉ w) (hU : 'U' ∉ w)
    (h : spell cs = w ++ t) : ∃ rest, cs = w ++ rest ∧ spell rest = t := by
  induction w generalizing cs with
  | nil => exact ⟨cs, rfl, h⟩
  | cons a w ih =>
    rw [List.mem_cons, not_or] at hD hU
    cases cs with
    | nil => cases h
    | cons c cs =>
      rw [spell_cons, spellOut] at h
      split at h
      · exact absurd (List.cons.inj h).1 hD.1
      · split at h
        · exact absurd (List.cons.inj h).1 hU.1
        · have hcons : c :: spell cs = a :: (w ++ t) := h
          obtain ⟨rfl, hcs⟩ := List.cons.inj hcons
          obtain ⟨rest, rfl, hr⟩ := ih hD.2 hU.2 hcs
          exact ⟨rest, rfl, hr⟩

/-- No word appears where there was none. -/
theorem respell_spell (cs : List Char) : respell (spell cs) = respell cs := by
  fun_induction respell cs with
  | case1 rest ih => exact congrArg _ ih
  | case2 rest ih => exact congrArg _ ih
  | case3 c rest hdash hunderscore ih =>
    by_cases hc : Text.IsSign c
    · rcases hc with rfl | rfl
      · exact congrArg _ ih
      · exact congrArg _ ih
    -- a word behind c would consist of letters that were not spelled out, so it was there before
    rw [spell_cons, spellOut_of_not_isSign hc, List.singleton_append, respell, ih]
    · rintro t rfl ht
      obtain ⟨t', rfl, -⟩ := exists_of_spell_eq (w := ['a', 's', 'h']) (by decide) (by decide) ht
      exact hdash t' rfl rfl
    · rintro t rfl ht
      obtain ⟨t', rfl, -⟩ := exists_of_spell_eq
        (w := ['n', 'd', 'e', 'r', 's', 'c', 'o', 'r', 'e']) (by decide) (by decide) ht
      exact hunderscore t' rfl rfl
  | case4 => rfl

theorem spell_eq_iff {cs ds : List Char} : spell cs = spell ds ↔ respell cs = respell ds := by
  constructor
  · intro h
    rw [← respell_spell cs, h, respell_spell]
  · intro h
    rw [← spell_respell cs, h, spell_respell]

/-- The first letter can be capitalized before signs are spelled out. -/
theorem capitalize_spell (cs : List Char) : capitalize (spell cs) = spell (capitalize cs) := by
  cases cs with
  | nil => rfl
  | cons c cs =>
    by_cases hc : Text.IsSign c
    · rcases hc with rfl | rfl
      · rfl
      · rfl
    rw [spell_cons, spellOut_of_not_isSign hc, List.singleton_append, capitalize, capitalize,
      spell_append, spell_of_not_isSign fun u hu => Text.not_isSign_of_mem_upperForm hc hu]

/-- Functions have one logical id if their names are alike once the first letters are capitalized
and words are read as signs, and only then. -/
theorem function_eq_iff {a b : String} : function a = function b ↔ respelled a = respelled b := by
  rw [respelled, respelled, ← spell_eq_iff, ← capitalize_spell, ← capitalize_spell, function,
    function, String.append_left_inj, String.ofList_inj]
  rfl

end ApiStack.LogicalId
