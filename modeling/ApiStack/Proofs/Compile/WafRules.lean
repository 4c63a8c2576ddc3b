import ApiStack.Compile.WafRules
import Mathlib.Data.List.Forall2

namespace ApiStack

open Config

def Config.WafRule.statement? : WafRule → Option Json
  | .preset .throttle => some (Compile.throttleStatement .default)
  | .preset .disableIntrospection => some Compile.introspectionStatement
  | .throttle input => some (Compile.throttleStatement input.toThrottle)
  | .disableIntrospection _ => some Compile.introspectionStatement
  | .custom r => r.statement

namespace Compile

/-- A rule that a list is made of: one of its own, or one of an API key. -/
structure ListedRule where
  key : Option ApiKey
  rule : WafRule

def keyedRules (keys : List ApiKey) : List (ApiKey × WafRule) :=
  keys.flatMap fun key => key.wafRules.map fun rule => (key, rule)

def listedRules (api : Api) (w : Waf) : List ListedRule :=
  w.rules.map (fun rule => ⟨none, rule⟩)
    ++ if api.hasAuth .apiKey then
        (keyedRules api.apiKeys.values).map fun (key, rule) => ⟨some key, rule⟩
      else []

namespace ListedRule

def statement? (l : ListedRule) : Option Json :=
  match l.key with
  | none => l.rule.statement?
  | some key => some (scopeToKey (keyStatement key.name) l.rule.statement?)

/-- The rule before it has its priority. -/
def plain (list : Option Visibility) (l : ListedRule) : PlainRule :=
  match l.key with
  | none => plainRule list "" l.rule
  | some key =>
    let plain := plainRule list key.name l.rule
    { plain with statement := some (scopeToKey (keyStatement key.name) plain.statement) }

end ListedRule

theorem statement_plainRule (list : Option Visibility) (owner : String) (rule : WafRule) :
    (plainRule list owner rule).statement = rule.statement? := by
  cases rule with
  | preset p => cases p <;> rfl
  | throttle input => rfl
  | disableIntrospection b => rfl
  | custom r => rfl

theorem ListedRule.statement_plain (list : Option Visibility) (l : ListedRule) :
    (l.plain list).statement = l.statement? := by
  obtain ⟨key, rule⟩ := l
  cases key with
  | none => exact statement_plainRule list "" rule
  | some key => exact congrArg (some <| scopeToKey _ ·) (statement_plainRule list key.name rule)

theorem plainRules_eq_map (api : Api) (w : Waf) :
    plainRules api w = (listedRules api w).map (ListedRule.plain w.visibility) := by
  unfold plainRules listedRules
  rw [List.map_append, List.map_map]
  congr 1
  split
  · rw [keyedRules, List.map_map, List.map_flatMap]
    congr 1
    funext key
    rw [List.map_map]
    rfl
  · rfl

theorem length_prioritiesFrom (next : Nat) (declared : List (Option Nat)) :
    (prioritiesFrom next declared).length = declared.length := by
  induction declared generalizing next with
  | nil => rfl
  | cons p rest ih =>
    cases p with
    | none => rw [prioritiesFrom, List.length_cons, ih, List.length_cons]
    | some p => rw [prioritiesFrom, List.length_cons, ih, List.length_cons]

/-- Items made from two lists of one length, in terms of the first one. -/
theorem forall₂_zipWith {f : α → β → γ} {l : List α} {m : List β} (h : m.length = l.length) :
    List.Forall₂ (fun a c => ∃ b, c = f a b) l (l.zipWith f m) := by
  induction l generalizing m with
  | nil => exact .nil
  | cons a l ih =>
    cases m with
    | nil => cases h
    | cons b m => exact .cons ⟨b, rfl⟩ (ih (Nat.succ.inj h))

/-- An item of a list is a rule with some priority. -/
def IsItemOf (list : Option Visibility) (l : ListedRule) (item : Json) : Prop :=
  ∃ priority, item = (l.plain list).toJson priority

theorem wafRules_items (api : Api) (w : Waf) :
    ∃ items, wafRules api w = .arr items ∧
      List.Forall₂ (IsItemOf w.visibility) (listedRules api w) items := by
  have hlength : (priorities ((plainRules api w).map PlainRule.priority)).length =
      (plainRules api w).length := by
    rw [priorities, length_prioritiesFrom, List.length_map]
  have h := forall₂_zipWith (f := PlainRule.toJson) hlength
  nth_rewrite 1 [plainRules_eq_map] at h
  rw [List.forall₂_map_left_iff] at h
  exact ⟨_, rfl, h⟩

/-- Items made from two lists after another are made from each of them. -/
theorem exists_append_of_forall₂ {R : α → β → Prop} {l m : List α} {items : List β}
    (h : List.Forall₂ R (l ++ m) items) :
    ∃ first second, items = first ++ second ∧ List.Forall₂ R l first ∧ List.Forall₂ R m second :=
  ⟨items.take l.length, items.drop l.length, (List.take_append_drop ..).symm,
    (List.forall₂_take_append _ _ _ h.flip).flip, (List.forall₂_drop_append _ _ _ h.flip).flip⟩

theorem wafRules_split {api : Api} (ha : api.hasAuth .apiKey = true) (w : Waf) :
    ∃ own keyed, wafRules api w = .arr (own ++ keyed) ∧
      List.Forall₂ (fun rule => IsItemOf w.visibility ⟨none, rule⟩) w.rules own ∧
      List.Forall₂ (fun rule => IsItemOf w.visibility ⟨some rule.1, rule.2⟩)
        (keyedRules api.apiKeys.values) keyed := by
  obtain ⟨items, he, hi⟩ := wafRules_items api w
  rw [listedRules, if_pos ha] at hi
  obtain ⟨own, keyed, rfl, hown, hkeyed⟩ := exists_append_of_forall₂ hi
  rw [List.forall₂_map_left_iff] at hown hkeyed
  exact ⟨own, keyed, he, hown, hkeyed⟩

theorem get?_statement_toJson (r : PlainRule) (priority : Nat) :
    (r.toJson priority).get? "Statement" = r.statement := by
  obtain ⟨name, declared, action, overrideAction, statement, visibility⟩ := r
  cases action <;> cases overrideAction <;> cases statement <;> rfl

theorem IsItemOf.get?_statement {list : Option Visibility} {l : ListedRule} {item : Json}
    (h : IsItemOf list l item) : item.get? "Statement" = l.statement? := by
  obtain ⟨priority, rfl⟩ := h
  rw [get?_statement_toJson, ListedRule.statement_plain]

end Compile

end ApiStack
