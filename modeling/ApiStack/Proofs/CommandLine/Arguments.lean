import ApiStack.CommandLine.Arguments
import ApiStack.Proofs.Failure

namespace ApiStack.CommandLine

namespace Given

variable {g g' : Given}

theorem days?_lt {text : String} {n : Nat} (h : days? text = some n) : n < Nat.pow 2 32 := by
  unfold days? at h
  simp only at h
  split_ifs at h with hbad
  cases h
  simp only [Bool.or_eq_true, not_or, decide_eq_true_eq] at hbad
  exact Nat.lt_of_not_le hbad.1.2

theorem fill_eq_ok {option : Valued} {value : String} {known a? : Option α}
    {read : String → Option α} (h : fill option value known read = .ok a?) :
    ∃ a, read value = some a ∧ a? = some a := by
  unfold fill at h
  split at h
  · cases h
  · cases h
  · next hr =>
    cases h
    exact ⟨_, hr, rfl⟩

/-- The days that are given have at most 32 bits. -/
def HasWord (g : Given) : Prop := ∀ n ∈ g.chosen.logRetention, n < Nat.pow 2 32

theorem HasWord.set {option : Valued} {value : String} (hg : g.HasWord)
    (h : g.set option value = .ok g') : g'.HasWord := by
  cases option <;> obtain ⟨a?, hf, h⟩ := bind_eq_ok_iff.1 h <;> cases h
  case logRetention =>
    obtain ⟨n, hn, rfl⟩ := fill_eq_ok hf
    intro m hm
    cases hm
    exact days?_lt hn
  all_goals exact hg

theorem HasWord.setConfig {argument : String} (hg : g.HasWord)
    (h : g.setConfig argument = .ok g') : g'.HasWord := by
  unfold Given.setConfig at h
  split at h
  · cases h
  · cases h
  · cases h
    exact hg

theorem HasWord.finish {arguments : Arguments} (hg : g.HasWord)
    (h : g.finish = .ok (.compile arguments)) :
    ∀ n ∈ arguments.chosen.logRetention, n < Nat.pow 2 32 := by
  unfold Given.finish at h
  split at h
  · cases h
  · cases h
    exact hg

end Given

theorem hasWord_of_parsePlain {g : Given} {texts : List String} {arguments : Arguments}
    (hg : g.HasWord) (h : parsePlain g texts = .ok (.compile arguments)) :
    ∀ n ∈ arguments.chosen.logRetention, n < Nat.pow 2 32 := by
  induction texts generalizing g with
  | nil => exact hg.finish h
  | cons text rest ih =>
    obtain ⟨g', hs, h⟩ := bind_eq_ok_iff.1 h
    exact ih (hg.setConfig hs) h

theorem hasWord_of_parseFrom {g : Given} {texts : List String} {arguments : Arguments}
    (hg : g.HasWord) (h : parseFrom g texts = .ok (.compile arguments)) :
    ∀ n ∈ arguments.chosen.logRetention, n < Nat.pow 2 32 := by
  -- An option may take the next argument too, so the induction is on the number of arguments.
  induction hlength : texts.length using Nat.strongRecOn generalizing g texts with
  | ind length ih =>
    subst hlength
    match texts with
    | [] => exact hg.finish h
    | text :: rest =>
      rw [parseFrom] at h
      split at h
      · exact hasWord_of_parsePlain hg h
      · obtain ⟨switch, -, h⟩ := bind_eq_ok_iff.1 h
        split at h
        · obtain ⟨g', hs, h⟩ := bind_eq_ok_iff.1 h
          exact ih _ (Nat.lt_succ_self _) (hg.setConfig hs) h rfl
        · cases h
        · cases h
        · split at h
          · cases h
          · exact ih _ (Nat.lt_succ_self _) (g := { g with isRemembered := true }) hg h rfl
        · obtain ⟨g', hs, h⟩ := bind_eq_ok_iff.1 h
          exact ih _ (Nat.lt_succ_self _) (hg.set hs) h rfl
        · split at h
          · cases h
          · next value rest _ =>
            split at h
            · obtain ⟨g', hs, h⟩ := bind_eq_ok_iff.1 h
              exact ih _ (Nat.lt_succ_of_lt (Nat.lt_succ_self _)) (hg.set hs) h rfl
            · cases h

/-- A number of days that is understood has at most 32 bits. -/
theorem hasWord_of_parse {texts : List String} {arguments : Arguments}
    (h : parse texts = .ok (.compile arguments)) :
    ∀ n ∈ arguments.chosen.logRetention, n < Nat.pow 2 32 :=
  hasWord_of_parseFrom (g := .nothing) nofun h

end ApiStack.CommandLine
