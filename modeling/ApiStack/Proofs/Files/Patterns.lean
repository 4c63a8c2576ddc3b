import ApiStack.Files.Memory
import Mathlib.Data.List.Basic

namespace ApiStack

namespace Glob

/-- A character that opens a wildcard. A closing bracket alone stands for itself. -/
def isWildcard (c : Char) : Bool := c = '*' || c = '?' || c = '['

def IsPlain (text : String) : Prop := ∀ c ∈ text.toList, isWildcard c = false

instance (text : String) : Decidable (IsPlain text) :=
  List.decidableBAll (fun c => isWildcard c = false) text.toList

theorem tokensFrom_cons_of_plain {c : Char} (hc : isWildcard c = false) (fuel position : Nat)
    (previous : Option Char) (read : List Token) (cs : List Char) :
    tokensFrom (fuel + 1) position previous read (c :: cs) =
      tokensFrom fuel (position + 1) (some c) (.char c :: read) cs := by
  simp only [isWildcard, Bool.or_eq_false_iff, decide_eq_false_iff_not] at hc
  obtain ⟨⟨hstar, hmark⟩, hbracket⟩ := hc
  rw [tokensFrom]
  · rintro rfl
    exact hmark rfl
  · rintro rfl
    exact hstar rfl
  · rintro rfl
    exact hbracket rfl

theorem tokensFrom_of_plain {cs : List Char} (h : ∀ c ∈ cs, isWildcard c = false)
    {fuel : Nat} (hfuel : cs.length ≤ fuel) (position : Nat) (previous : Option Char)
    (read : List Token) :
    tokensFrom fuel position previous read cs = .ok (read.reverse ++ cs.map .char) := by
  induction cs generalizing fuel position previous read with
  | nil => cases fuel <;> simp [tokensFrom]
  | cons c rest ih =>
    obtain ⟨hc, hrest⟩ := List.forall_mem_cons.1 h
    obtain _ | fuel := fuel
    · cases hfuel
    · rw [tokensFrom_cons_of_plain hc, ih hrest (Nat.le_of_succ_le_succ hfuel)]
      simp

theorem tokens_of_plain {pattern : String} (h : IsPlain pattern) :
    tokens pattern = .ok (pattern.toList.map .char) :=
  tokensFrom_of_plain h (Nat.le_of_eq String.length_toList) 0 none []

theorem fit_map_char_eq_fits_iff (cs : List Char) (afterSlash : Bool) (ds : List Char) :
    fit (cs.map .char) afterSlash ds = .fits ↔ ds = cs := by
  induction cs generalizing afterSlash ds with
  | nil => cases ds <;> simp [fit]
  | cons c rest ih =>
    cases ds with
    | nil => simp [fit]
    | cons d ds =>
      by_cases hd : d = c
      · simp [fit, Token.stands, hd, ih]
      · simp [fit, Token.stands, hd]

theorem fits_map_char (pattern text : String) :
    fits (pattern.toList.map .char) text = decide (text = pattern) := by
  rw [fits, decide_eq_decide, fit_map_char_eq_fits_iff, String.toList_inj]

end Glob

namespace MemoryFiles

def paths (files : MemoryFiles) : List Path := files.entries.map Prod.fst

theorem glob_of_plain (files : MemoryFiles) {path : Path} (h : Glob.IsPlain path.text) :
    files.glob path.text = .ok (files.paths.filter fun p => p = path) := by
  have hfits : ∀ p : Path,
      Glob.fits (path.text.toList.map .char) p.text = decide (p = path) := by
    intro p
    rw [Glob.fits_map_char, decide_eq_decide]
    exact (Path.mk.injEq p.text path.text).to_iff.symm
  simp only [glob, Glob.tokens_of_plain h, paths, ← hfits]
  rfl

end MemoryFiles

end ApiStack
