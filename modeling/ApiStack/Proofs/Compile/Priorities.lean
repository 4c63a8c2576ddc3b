import ApiStack.Compile.Waf
import ApiStack.Proofs.Compile.WafRules
import ApiStack.Proofs.Compile.References
import ApiStack.Proofs.Json.Path
import Mathlib.Data.List.Nodup
import Mathlib.Data.List.ReduceOption

namespace ApiStack

open Config

def Config.WafRule.priority? : WafRule → Option Nat
  | .preset _ => none
  | .throttle input => input.toThrottle.priority
  | .disableIntrospection b => b.priority
  | .custom r => r.priority

namespace Compile

def askedPriorities (rules : List ListedRule) : List (Option Nat) :=
  rules.map fun l => l.rule.priority?

def unnumbered (asked : List (Option Nat)) : Nat := asked.countP Option.isNone

theorem getElem?_prioritiesFrom (next : Nat) (asked : List (Option Nat)) (k : Nat) :
    (prioritiesFrom next asked)[k]? =
      asked[k]?.map fun p => p.getD (next + unnumbered (asked.take k)) := by
  induction asked generalizing next k with
  | nil => rfl
  | cons p rest ih =>
    cases k with
    | zero => cases p <;> rfl
    | succ k =>
      cases p with
      | none =>
        have hcount : next + 1 + unnumbered (rest.take k) =
            next + unnumbered ((none :: rest).take (k + 1)) := by
          rw [List.take_succ_cons, unnumbered, unnumbered, List.countP_cons_of_pos rfl]
          omega
        rw [prioritiesFrom, List.getElem?_cons_succ, List.getElem?_cons_succ, ih, hcount]
      | some p => exact ih next k

theorem prioritiesFrom_perm (next : Nat) (asked : List (Option Nat)) :
    (prioritiesFrom next asked).Perm
      (asked.reduceOption ++ List.range' next (unnumbered asked)) := by
  induction asked generalizing next with
  | nil => exact .nil
  | cons p rest ih =>
    cases p with
    | none =>
      have hcount : unnumbered (none :: rest) = unnumbered rest + 1 := List.countP_cons_of_pos rfl
      rw [prioritiesFrom, List.reduceOption_cons_of_none, hcount, List.range'_succ]
      exact ((ih (next + 1)).cons next).trans List.perm_middle.symm
    | some p =>
      have hcount : unnumbered (some p :: rest) = unnumbered rest :=
        List.countP_cons_of_neg Bool.false_ne_true
      rw [prioritiesFrom, List.reduceOption_cons_of_some, hcount]
      exact (ih next).cons p

/-- No number is given twice just if those asked for are different and outside of the range that is
given out, whether a rule asks for it before or after. -/
theorem nodup_prioritiesFrom_iff {next : Nat} {asked : List (Option Nat)} :
    (prioritiesFrom next asked).Nodup ↔ asked.reduceOption.Nodup ∧
      ∀ p ∈ asked.reduceOption, ¬(next ≤ p ∧ p < next + unnumbered asked) := by
  rw [(prioritiesFrom_perm next asked).nodup_iff, List.nodup_append']
  have hrange : (List.range' next (unnumbered asked)).Nodup := List.nodup_range'
  simp only [hrange, true_and, List.Disjoint, List.mem_range'_1, imp_false]

theorem priority_plainRule (list : Option Visibility) (owner : String) (rule : WafRule) :
    (plainRule list owner rule).priority = rule.priority? := by
  cases rule with
  | preset p => cases p <;> rfl
  | throttle input => rfl
  | disableIntrospection b => rfl
  | custom r => rfl

theorem ListedRule.priority_plain (list : Option Visibility) (l : ListedRule) :
    (l.plain list).priority = l.rule.priority? := by
  obtain ⟨key, rule⟩ := l
  cases key with
  | none => exact priority_plainRule list "" rule
  | some key => exact priority_plainRule list key.name rule

theorem wafRules_eq_zipWith (api : Api) (w : Waf) : wafRules api w = .arr
    ((listedRules api w).zipWith (fun l p => (l.plain w.visibility).toJson p)
      (priorities (askedPriorities (listedRules api w)))) := by
  have hasked : (plainRules api w).map PlainRule.priority =
      askedPriorities (listedRules api w) := by
    rw [plainRules_eq_map, List.map_map]
    exact List.map_congr_left fun l _ => l.priority_plain w.visibility
  rw [wafRules, hasked, plainRules_eq_map, List.zipWith_map_left]

theorem get?_priority_toJson (r : PlainRule) (p : Nat) :
    (r.toJson p).prune.get? "Priority" = some (.nat p) :=
  Json.lookup_pruneEntries (v := .nat p) rfl rfl

theorem zipWith_eq_map_right {α β γ : Type} {l : List α} {m : List β} (h : m.length = l.length)
    (f : β → γ) : l.zipWith (fun _ b => f b) m = m.map f := by
  have hsnd : Function.uncurry (fun (_ : α) b => f b) = f ∘ Prod.snd := rfl
  rw [← List.map_uncurry_zip_eq_zipWith, hsnd, ← List.map_map, List.map_snd_zip (Nat.le_of_eq h)]

/-- A list has its own rules and, if requests may carry API keys, the rules of these in order behind
them. A rule has the priority that it asks for, or else a hundred and as many more as rules before
it ask for none. The priorities are different just if those asked for are, and none of them lies
between a hundred and as many more as there are rules that ask for none. -/
theorem priorities_of_wafList (api : Api) (w : Waf) : ∃ items numbers,
    (wafList api w).property? "Rules" = some (.arr items) ∧
    items = (listedRules api w).zipWith (fun l p => ((l.plain w.visibility).toJson p).prune)
      numbers ∧
    items.map (Json.get? "Priority") = numbers.map (fun p => some (.nat p)) ∧
    numbers.length = (listedRules api w).length ∧
    (∀ (k : Nat) (l : ListedRule), (listedRules api w)[k]? = some l →
      numbers[k]? = some (l.rule.priority?.getD
        (100 + unnumbered (askedPriorities ((listedRules api w).take k))))) ∧
    (numbers.Nodup ↔ (askedPriorities (listedRules api w)).reduceOption.Nodup ∧
      ∀ p ∈ (askedPriorities (listedRules api w)).reduceOption,
        ¬(100 ≤ p ∧ p < 100 + unnumbered (askedPriorities (listedRules api w)))) := by
  have hlength : (priorities (askedPriorities (listedRules api w))).length =
      (listedRules api w).length := by
    rw [priorities, length_prioritiesFrom, askedPriorities, List.length_map]
  refine ⟨_, priorities (askedPriorities (listedRules api w)), ?_, rfl, ?_, hlength, ?_,
    nodup_prioritiesFrom_iff⟩
  · have hrules : (wafList api w).property? "Rules" = some (wafRules api w).prune :=
      Resource.property?_make (by rfl) (by rfl)
    rw [hrules, wafRules_eq_zipWith, Json.prune, Json.pruneItems_eq_map, List.map_zipWith]
  · rw [List.map_zipWith]
    simp only [get?_priority_toJson]
    exact zipWith_eq_map_right hlength _
  · intro k l hl
    rw [priorities, getElem?_prioritiesFrom, askedPriorities, List.getElem?_map, hl,
      ← List.map_take]
    rfl

end Compile

end ApiStack
