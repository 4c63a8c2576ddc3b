import ApiStack.Proofs.Sdl.Parsed
import ApiStack.Proofs.Sdl.Union
import Mathlib

namespace ApiStack.Sdl

theorem map_eq_self {f : α → α} {items : List α} (h : ∀ a ∈ items, f a = a) : items.map f = items :=
  (List.map_congr_left h).trans (List.map_id' items)

namespace Value

mutual

/-- The values inside a value that hold no other values. -/
def leaves : Value → List Value
  | .list items => itemLeaves items
  | .object fields => fieldLeaves fields
  | .null => [.null]
  | .bool b => [.bool b]
  | .num n => [.num n]
  | .str s => [.str s]
  | .enum name => [.enum name]
termination_by structural v => v

def itemLeaves : List Value → List Value
  | [] => []
  | v :: rest => v.leaves ++ itemLeaves rest
termination_by structural items => items

def fieldLeaves : List (String × Value) → List Value
  | [] => []
  | (_, v) :: rest => v.leaves ++ fieldLeaves rest
termination_by structural fields => fields

end

/-- A literal that is read as it is written: a string without control characters other than tabs and
the ends of lines, or a number that is an integer. -/
def IsPlainLiteral : Value → Prop
  | .str s => ∀ c ∈ s.toList, Printer.isControl c = true → c ∈ ['\t', '\r', '\n']
  | .num (.float _) => False
  | .num (.int _) | .null | .bool _ | .enum _ | .list _ | .object _ => True

instance : DecidablePred IsPlainLiteral
  | .str s =>
    List.decidableBAll (fun c => Printer.isControl c = true → c ∈ ['\t', '\r', '\n']) s.toList
  | .num (.float _) => isFalse id
  | .num (.int _) | .null | .bool _ | .enum _ | .list _ | .object _ => isTrue trivial

/-- All literals in a value are read as they are written. -/
def IsPlain (v : Value) : Prop := ∀ leaf ∈ v.leaves, leaf.IsPlainLiteral

instance (v : Value) : Decidable v.IsPlain :=
  inferInstanceAs (Decidable (∀ leaf ∈ v.leaves, leaf.IsPlainLiteral))

theorem rereadString_eq_self {s : String} (h : (Value.str s).IsPlainLiteral) :
    rereadString s = s := by
  have hchar : ∀ c ∈ s.toList, rereadChar c = c := by
    intro c hc
    by_cases hcontrol : Printer.isControl c = true
    · have hcases := h c hc hcontrol
      simp only [List.mem_cons, List.not_mem_nil, or_false] at hcases
      rcases hcases with rfl | rfl | rfl <;> rfl
    · rw [rereadChar, Bool.eq_false_iff.2 hcontrol, Bool.false_and, if_neg Bool.false_ne_true]
  rw [rereadString, map_eq_self hchar, String.ofList_toList]

theorem reread_num_eq_self {n : Json.Number} (h : n.InRange)
    (hp : (Value.num n).IsPlainLiteral) : n.reread = n := by
  cases n with
  | int i => exact h.reread_int
  | float x => exact hp.elim

mutual

theorem IsPlain.reread_eq_self (v : Value) (h : v.IsWritable) (hp : v.IsPlain) : v.reread = v :=
  match v, h, hp with
  | .null, _, _ => rfl
  | .bool _, _, _ => rfl
  | .num _, h, hp => congrArg Value.num (reread_num_eq_self h (hp _ List.mem_cons_self))
  | .str _, _, hp => congrArg Value.str (rereadString_eq_self (hp _ List.mem_cons_self))
  | .enum _, _, _ => rfl
  | .list items, h, hp => congrArg Value.list (rereadItems_eq_self items h hp)
  | .object fields, h, hp => congrArg Value.object (rereadFields_eq_self fields h.2 hp)
termination_by structural v

theorem rereadItems_eq_self (items : List Value) (h : AreItemsWritable items)
    (hp : ∀ leaf ∈ itemLeaves items, leaf.IsPlainLiteral) : rereadItems items = items :=
  match items, h, hp with
  | [], _, _ => rfl
  | v :: rest, h, hp => congrArg₂ List.cons
    (IsPlain.reread_eq_self v h.1 fun leaf hm => hp leaf (List.mem_append_left _ hm))
    (rereadItems_eq_self rest h.2 fun leaf hm => hp leaf (List.mem_append_right _ hm))
termination_by structural items

theorem rereadFields_eq_self (fields : List (String × Value)) (h : AreFieldsWritable fields)
    (hp : ∀ leaf ∈ fieldLeaves fields, leaf.IsPlainLiteral) : rereadFields fields = fields :=
  match fields, h, hp with
  | [], _, _ => rfl
  | (name, v) :: rest, h, hp => congrArg₂ (fun w others => (name, w) :: others)
    (IsPlain.reread_eq_self v h.1.2 fun leaf hm => hp leaf (List.mem_append_left _ hm))
    (rereadFields_eq_self rest h.2 fun leaf hm => hp leaf (List.mem_append_right _ hm))
termination_by structural fields

end

end Value

/-- Descriptions without line feeds, and plain values. -/
structure ArePlain (descriptions : List String) (values : List Value) : Prop where
  descriptions : ∀ text ∈ descriptions, '\n' ∉ text.toList
  values : ∀ v ∈ values, v.IsPlain

instance (descriptions : List String) (values : List Value) :
    Decidable (ArePlain descriptions values) :=
  decidable_of_iff ((∀ text ∈ descriptions, '\n' ∉ text.toList) ∧ ∀ v ∈ values, v.IsPlain)
    ⟨fun h => ⟨h.1, h.2⟩, fun h => ⟨h.1, h.2⟩⟩

section Parts

variable {descriptions texts : List String} {values vs : List Value}

theorem ArePlain.mono (h : ArePlain descriptions values) (hd : texts ⊆ descriptions)
    (hv : vs ⊆ values) : ArePlain texts vs :=
  ⟨fun text hm => h.descriptions text (hd hm), fun v hm => h.values v (hv hm)⟩

theorem ArePlain.of_mem {f : α → List String} {g : α → List Value} {items : List α} {a : α}
    (h : ArePlain (items.flatMap f) (items.flatMap g)) (ha : a ∈ items) : ArePlain (f a) (g a) :=
  h.mono (fun _ hm => List.mem_flatMap.2 ⟨a, ha, hm⟩) fun _ hm => List.mem_flatMap.2 ⟨a, ha, hm⟩

theorem ArePlain.reread_description {d : Option String} (h : ArePlain descriptions values)
    (hd : d.toList ⊆ descriptions) (level : String) : d.map (rereadDescription level) = d := by
  cases d with
  | none => rfl
  | some text =>
    have hline := h.descriptions text (hd List.mem_cons_self)
    rw [Option.map_some, rereadDescription, if_neg (by simpa using hline)]

end Parts

namespace Directive

def values (d : Directive) : List Value := d.arguments.map Prod.snd

theorem IsWritable.reread_eq_self {d : Directive} (h : d.IsWritable)
    (hp : ∀ v ∈ d.values, v.IsPlain) : d.reread = d := by
  have harguments : (d.arguments.map fun a => (a.1, a.2.reread)) = d.arguments :=
    map_eq_self fun a ha => Prod.ext rfl
      ((hp a.2 (List.mem_map_of_mem ha)).reread_eq_self a.2 (h.arguments a ha).2)
  rw [reread, harguments]

theorem map_reread_eq_self {ds : List Directive} {descriptions : List String} {vs : List Value}
    (h : ∀ d ∈ ds, d.IsWritable) (hp : ArePlain descriptions vs) (hv : ds.flatMap values ⊆ vs) :
    ds.map reread = ds :=
  map_eq_self fun d hd => (h d hd).reread_eq_self fun v hm =>
    hp.values v (hv (List.mem_flatMap.2 ⟨d, hd, hm⟩))

end Directive

namespace InputValue

def descriptions (v : InputValue) : List String := v.description.toList

def values (v : InputValue) : List Value :=
  v.default.toList ++ v.directives.flatMap Directive.values

theorem IsWritable.reread_eq_self {v : InputValue} (h : v.IsWritable)
    (hp : ArePlain v.descriptions v.values) (level : String) : v.reread level = v := by
  have hdescription := hp.reread_description (List.Subset.refl _) level
  have hdirectives := Directive.map_reread_eq_self h.directives hp (List.subset_append_right _ _)
  have hdefault : v.default.map Value.reread = v.default := by
    cases hd : v.default with
    | none => rfl
    | some value =>
      have hm : value ∈ v.values := List.mem_append_left _ (by simp [hd])
      rw [Option.map_some, (hp.values value hm).reread_eq_self value (h.default value hd)]
  rw [reread, hdescription, hdefault, hdirectives]

theorem map_reread_eq_self {vs : List InputValue} (h : ∀ v ∈ vs, v.IsWritable)
    (hp : ArePlain (vs.flatMap descriptions) (vs.flatMap values)) (level : String) :
    vs.map (reread level) = vs :=
  map_eq_self fun v hv => (h v hv).reread_eq_self (hp.of_mem hv) level

end InputValue

namespace Field

def descriptions (f : Field) : List String :=
  f.description.toList ++ f.arguments.flatMap InputValue.descriptions

def values (f : Field) : List Value :=
  f.arguments.flatMap InputValue.values ++ f.directives.flatMap Directive.values

theorem IsWritable.reread_eq_self {f : Field} (h : f.IsWritable)
    (hp : ArePlain f.descriptions f.values) : f.reread = f := by
  have hdescription := hp.reread_description (List.subset_append_left _ _) Printer.indent
  have harguments := InputValue.map_reread_eq_self h.arguments
    (hp.mono (List.subset_append_right _ _) (List.subset_append_left _ _))
  have hdirectives := Directive.map_reread_eq_self h.directives hp (List.subset_append_right _ _)
  rw [reread, hdescription, harguments, hdirectives]

end Field

namespace EnumValue

def descriptions (v : EnumValue) : List String := v.description.toList

def values (v : EnumValue) : List Value := v.directives.flatMap Directive.values

theorem IsWritable.reread_eq_self {v : EnumValue} (h : v.IsWritable)
    (hp : ArePlain v.descriptions v.values) : v.reread = v := by
  have hdescription := hp.reread_description (List.Subset.refl _) Printer.indent
  have hdirectives := Directive.map_reread_eq_self h.directives hp (List.Subset.refl _)
  rw [reread, hdescription, hdirectives]

end EnumValue

namespace TypeBody

def descriptions (b : TypeBody) : List String :=
  b.fields.flatMap Field.descriptions ++ b.enumValues.flatMap EnumValue.descriptions ++
    b.inputs.flatMap InputValue.descriptions

def values (b : TypeBody) : List Value :=
  b.fields.flatMap Field.values ++ b.enumValues.flatMap EnumValue.values ++
    b.inputs.flatMap InputValue.values

theorem IsWritable.reread_eq_self {b : TypeBody} (h : b.IsWritable)
    (hp : ArePlain b.descriptions b.values) : b.reread = b := by
  have hfields : ArePlain (b.fields.flatMap Field.descriptions) (b.fields.flatMap Field.values) :=
    hp.mono (fun _ hm => by simp [descriptions, hm]) fun _ hm => by simp [values, hm]
  have hvalues : ArePlain (b.enumValues.flatMap EnumValue.descriptions)
      (b.enumValues.flatMap EnumValue.values) :=
    hp.mono (fun _ hm => by simp [descriptions, hm]) fun _ hm => by simp [values, hm]
  have hinputs : ArePlain (b.inputs.flatMap InputValue.descriptions)
      (b.inputs.flatMap InputValue.values) :=
    hp.mono (fun _ hm => by simp [descriptions, hm]) fun _ hm => by simp [values, hm]
  cases b with
  | scalar => rfl
  | object names fields =>
    rw [reread, map_eq_self fun f hf => (h.2 f hf).reread_eq_self (hfields.of_mem hf)]
  | interface names fields =>
    rw [reread, map_eq_self fun f hf => (h.2 f hf).reread_eq_self (hfields.of_mem hf)]
  | union members => rfl
  | enumeration values =>
    rw [reread, map_eq_self fun v hv => (h v hv).reread_eq_self (hvalues.of_mem hv)]
  | input fields => rw [reread, InputValue.map_reread_eq_self h hinputs]

end TypeBody

namespace Definition

def descriptions : Definition → List String
  | .schema _ => []
  | .type t => t.description.toList ++ t.body.descriptions
  | .directive d => d.description.toList ++ d.arguments.flatMap InputValue.descriptions

/-- The default values and arguments of directives in a definition. -/
def values : Definition → List Value
  | .schema s => s.directives.flatMap Directive.values
  | .type t => t.directives.flatMap Directive.values ++ t.body.values
  | .directive d => d.arguments.flatMap InputValue.values

theorem IsWritable.reread_eq_self {d : Definition} (h : d.IsWritable)
    (hp : ArePlain d.descriptions d.values) : d.reread = d := by
  cases d with
  | schema s =>
    have hdirectives := Directive.map_reread_eq_self h.directives hp (List.Subset.refl _)
    rw [reread, SchemaDefinition.reread, hdirectives]
  | type t =>
    have hdescription := hp.reread_description (List.subset_append_left _ _) ""
    have hdirectives := Directive.map_reread_eq_self h.directives hp (List.subset_append_left _ _)
    have hbody := h.body.reread_eq_self
      (hp.mono (List.subset_append_right _ _) (List.subset_append_right _ _))
    rw [reread, TypeDefinition.reread, hdescription, hdirectives, hbody]
  | directive d =>
    have hdescription := hp.reread_description (List.subset_append_left _ _) ""
    have harguments := InputValue.map_reread_eq_self h.arguments
      (hp.mono (List.subset_append_right _ _) (List.Subset.refl _)) Printer.indent
    rw [reread, DirectiveDefinition.reread, hdescription, harguments]

end Definition

namespace Document

/-- No description has a line feed, no string a control character other than tabs and the ends of
lines, and no number is read as a double. -/
def IsPlain (d : Document) : Prop :=
  ArePlain (d.flatMap Definition.descriptions) (d.flatMap Definition.values)

instance (d : Document) : Decidable d.IsPlain := inferInstanceAs (Decidable (ArePlain _ _))

theorem IsWritable.reread_eq_self {d : Document} (h : d.IsWritable) (hp : d.IsPlain) :
    reread d = d :=
  map_eq_self fun a ha => (h.definitions a ha).reread_eq_self (hp.of_mem ha)

end Document

/-- What was read can be written and read again, and a plain document comes back as it was. -/
theorem parse_render_of_parse {source : String} {d : Document} (h : parse source = .ok d) :
    (∃ d', parse (render d) = .ok d') ∧ (d.IsPlain → parse (render d) = .ok d) := by
  have hw := Document.isWritable_of_parse h
  refine ⟨⟨_, hw.parse_render⟩, fun hp => ?_⟩
  rw [hw.parse_render, hw.reread_eq_self hp]

/-- A type with a description, a directive, and a default value that holds a tab and quotes. -/
def plainSource : String :=
  "\"Books\" type A @a(x: Y) \x7b b(c: D = [\"\\t\\\"\"]): [E!] \x7d"

def plainDocument : Document := [.type ⟨false, some "Books", "A", [⟨"a", [("x", .enum "Y")]⟩],
  .object [] [⟨none, "b", [⟨none, "c", .named "D" false, some (.list [.str "\t\""]), []⟩],
    .list (.named "E" true) false, []⟩]⟩]

set_option maxRecDepth 100000 in
theorem parse_plainSource : parse plainSource = .ok plainDocument := by
  cbv

theorem parse_render_plainDocument : parse plainSource = .ok plainDocument ∧
    plainDocument.IsPlain ∧ parse (render plainDocument) = .ok plainDocument := by
  have hp : plainDocument.IsPlain := by decide +kernel
  exact ⟨parse_plainSource, hp, (parse_render_of_parse parse_plainSource).2 hp⟩

end ApiStack.Sdl
