import ApiStack.Compile.WafRules
import ApiStack.Proofs.Decode.Record

namespace ApiStack.Config

open Decode

theorem toOption_ofDatum_map {α β : Type} (read : Reader α) (f : α → β) (d : Datum) :
    (Reader.ofDatum (fun s => (read s).map f) d).toOption =
      (Reader.ofDatum read d).toOption.map f := by
  change ((f <$> read (.datum d)).run' 0).toOption = ((read (.datum d)).run' 0).toOption.map f
  rw [StateT.run'_eq, StateT.run'_eq, StateT.run_map]
  cases (read (.datum d)).run 0 <;> rfl

/-- The key of the block for a rule that needs no settings. -/
def Preset.key : Preset → String
  | throttle => "throttle"
  | disableIntrospection => "disableIntrospection"

theorem Preset.eq_of_key {p kind : Preset} (h : p.key = kind.key) : p = kind := by
  cases p with
  | throttle =>
    cases kind with
    | throttle => rfl
    | disableIntrospection => exact absurd h (by decide)
  | disableIntrospection =>
    cases kind with
    | throttle => exact absurd h (by decide)
    | disableIntrospection => rfl

/-- Rules of the kind of a preset, with or without settings. -/
inductive WafRule.IsOf : Preset → WafRule → Prop
  | preset (p : Preset) : IsOf p (.preset p)
  | throttle (t : ThrottleInput) : IsOf .throttle (.throttle t)
  | disableIntrospection (b : IntrospectionBan) :
      IsOf .disableIntrospection (.disableIntrospection b)

/-- Rules that data are read as by one of the alternatives. -/
inductive WafRule.Fits (d : Datum) : WafRule → Prop
  | preset {p : Preset} (h : Reader.ofDatum (.variant Preset.variants) d = .ok p) :
      Fits d (.preset p)
  | throttle {t : ThrottleInput} (h : Reader.ofDatum ThrottleInput.ruleRecord.reader d = .ok t) :
      Fits d (.throttle t)
  | disableIntrospection {b : IntrospectionBan}
      (h : Reader.ofDatum IntrospectionBan.ruleRecord.reader d = .ok b) :
      Fits d (.disableIntrospection b)
  | custom {r : CustomRule} (h : Reader.ofDatum CustomRule.record.reader d = .ok r) :
      Fits d (.custom r)

/-- The rule that data are read as: the first alternative counts. -/
def rule? (d : Datum) : Option WafRule :=
  (Reader.ofDatum (.variant Preset.variants) d).toOption.map .preset
    <|> (Reader.ofDatum ThrottleInput.ruleRecord.reader d).toOption.map .throttle
    <|> (Reader.ofDatum IntrospectionBan.ruleRecord.reader d).toOption.map .disableIntrospection
    <|> (Reader.ofDatum CustomRule.record.reader d).toOption.map .custom

section Reading

variable {s : Source} {d : Datum} {rule : WafRule} {steps left left' : Nat}

theorem run_reader_eq_ok_iff (hs : (Reader.buffer s).run steps = .ok (d, left)) :
    (WafRule.reader s).run steps = .ok (rule, left') ↔ rule? d = some rule ∧ left' = left := by
  have hrule : List.findSome? (fun read => (Reader.ofDatum read d).toOption)
      [fun s => (Reader.variant Preset.variants s).map WafRule.preset,
        fun s => (ThrottleInput.ruleRecord.reader s).map WafRule.throttle,
        fun s => (IntrospectionBan.ruleRecord.reader s).map WafRule.disableIntrospection,
        fun s => (CustomRule.record.reader s).map WafRule.custom] = rule? d := by
    simp only [List.findSome?_cons, List.findSome?_nil, toOption_ofDatum_map, rule?]
    grind
  rw [WafRule.reader, Reader.firstOf, run_reading_of_ok hs]
  simp only [hrule]
  cases rule? d with
  | none => exact ⟨fun h => absurd h run_throw_ne_ok, fun h => nomatch h.1⟩
  | some rule' => rw [run_pure_eq_ok, Option.some.injEq, eq_comm (a := left')]

theorem fits_of_rule? (h : rule? d = some rule) : rule.Fits d := by
  simp only [rule?, Option.orElse_eq_orElse, Option.orElse_eq_or, Option.or_eq_some_iff,
    Option.map_eq_some_iff, toOption_eq_some_iff] at h
  rcases h with ⟨p, h, rfl⟩ | ⟨-, ⟨t, h, rfl⟩ | ⟨-, ⟨b, h, rfl⟩ | ⟨-, r, h, rfl⟩⟩⟩
  · exact .preset h
  · exact .throttle h
  · exact .disableIntrospection h
  · exact .custom h

end Reading

section Blocks

variable {entries : List (Datum × Datum)} {p kind : Preset}

/-- The name of a custom rule is among the entries; as it is the first field of such a rule, its key
may be 0 instead. -/
def HasName (entries : List (Datum × Datum)) : Prop :=
  .text "name" ∈ entries.map Prod.fst ∨ .unsigned 0 ∈ entries.map Prod.fst

theorem eq_of_preset (hp : .text p.key ∈ entries.map Prod.fst)
    (h : Reader.ofDatum (.variant Preset.variants) (.map entries) = .ok kind) :
    p = kind ∧ ¬ HasName entries := by
  have hread : Reader.ofDatum (.variant Preset.variants) (.map entries) =
      (Preset.variants.ofDatum (.map entries)).run' 0 := rfl
  rw [hread, StateT.run'_eq] at h
  obtain ⟨⟨_, left⟩, hrun, rfl⟩ := map_eq_ok_iff.1 h
  match entries with
  | [] => exact absurd hrun run_throw_ne_ok
  | _ :: _ :: _ => exact absurd hrun run_throw_ne_ok
  | [(key, content)] =>
    cases List.mem_singleton.1 hp
    obtain ⟨kind, mid, hkey, hrun⟩ := run_bind_eq_ok.1 hrun
    split at hrun
    · cases p <;> cases hkey <;> cases hrun <;>
        exact ⟨rfl, fun h => by simp [HasName, Preset.key] at h⟩
    · exact absurd hrun run_throw_ne_ok

/-- A strict record whose only field is a block is not read from a block of another kind, and from
none with a name beside it. -/
theorem eq_of_strict {α : Type} {r : Record α} {a : α} (kind : Preset) (hstrict : r.isStrict = true)
    (hparts : r.fields.hasParts = false) (hnames : r.fields.names = [kind.key])
    (hp : .text p.key ∈ entries.map Prod.fst) (h : r.IsReadFrom entries a) :
    p = kind ∧ ¬ HasName entries := by
  have honly {name : String} (hm : .text name ∈ entries.map Prod.fst) : name = kind.key :=
    List.mem_singleton.1 (hnames ▸ h.mem_names hstrict hm)
  refine ⟨Preset.eq_of_key (honly hp), ?_⟩
  rintro (hname | hzero)
  · cases kind <;> exact absurd (honly hname) (by decide)
  · -- the key 0 stands for the block itself, which is then given twice
    have htext : r.nameOf? (.text p.key) = some kind.key := by
      rw [Record.nameOf?, hnames, honly hp, if_pos (by simp)]
    have hfirst : r.nameOf? (.unsigned 0) = some kind.key := by
      rw [Record.nameOf?, hnames, hparts]
      rfl
    cases h.key_unique hp hzero htext hfirst

theorem eq_of_throttle {t : ThrottleInput} (hp : .text p.key ∈ entries.map Prod.fst)
    (h : Reader.ofDatum ThrottleInput.ruleRecord.reader (.map entries) = .ok t) :
    p = .throttle ∧ ¬ HasName entries :=
  eq_of_strict .throttle rfl rfl rfl hp (Record.isReadFrom_of_ofDatum h)

theorem eq_of_ban {b : IntrospectionBan} (hp : .text p.key ∈ entries.map Prod.fst)
    (h : Reader.ofDatum IntrospectionBan.ruleRecord.reader (.map entries) = .ok b) :
    p = .disableIntrospection ∧ ¬ HasName entries :=
  eq_of_strict .disableIntrospection rfl rfl rfl hp (Record.isReadFrom_of_ofDatum h)

theorem hasName_of_custom {r : CustomRule} (h : CustomRule.record.IsReadFrom entries r) :
    HasName entries := by
  have hasks : CustomRule.record.fields.Asks "name" := by
    iterate 5 apply Fields.Asks.seq_left
    exact (Fields.asks_required _ _).seq_right _
  obtain ⟨⟨key, value⟩, hm, hname⟩ := List.mem_filterMap.1 (h.mem_named hasks)
  have hm := List.mem_map_of_mem (f := Prod.fst) hm
  cases key with
  | text name => exact .inl (Record.eq_of_nameOf?_text hname ▸ hm)
  | unsigned n =>
    match n with
    | 0 => exact .inr hm
    | n + 1 =>
      have hrest : (CustomRule.record.fields.names.drop 1)[n]? = some "name" := hname
      exact absurd (List.mem_of_getElem? hrest) (by decide)
  | _ => cases hname

/-- With a name beside a block, only the record of custom rules is left. -/
theorem rule?_of_hasName (hp : .text p.key ∈ entries.map Prod.fst) (hn : HasName entries) :
    rule? (.map entries) =
      (Reader.ofDatum CustomRule.record.reader (.map entries)).toOption.map .custom := by
  have hpreset : (Reader.ofDatum (.variant Preset.variants) (.map entries)).toOption = none := by
    apply toOption_eq_none_of_ne
    exact fun kind h => (eq_of_preset hp h).2 hn
  have hthrottle :
      (Reader.ofDatum ThrottleInput.ruleRecord.reader (.map entries)).toOption = none := by
    apply toOption_eq_none_of_ne
    exact fun t h => (eq_of_throttle hp h).2 hn
  have hban :
      (Reader.ofDatum IntrospectionBan.ruleRecord.reader (.map entries)).toOption = none := by
    apply toOption_eq_none_of_ne
    exact fun b h => (eq_of_ban hp h).2 hn
  rw [rule?, hpreset, hthrottle, hban]
  rfl

/-- A block without a name beside it is read as a rule of its kind, if at all. With a name, it is
read as the custom rule in the entries, if there is one. -/
theorem rule_of_block {s : Source} {steps left : Nat}
    (hs : (Reader.buffer s).run steps = .ok (.map entries, left))
    (hp : .text p.key ∈ entries.map Prod.fst) :
    (¬ HasName entries → ∀ rule left',
      (WafRule.reader s).run steps = .ok (rule, left') → rule.IsOf p) ∧
    (HasName entries → ∀ rule left', (WafRule.reader s).run steps = .ok (rule, left') ↔
      left' = left ∧ ∃ r, Reader.ofDatum CustomRule.record.reader (.map entries) = .ok r ∧
        rule = .custom r) := by
  constructor
  · intro hn rule left' hrun
    have hfits := fits_of_rule? ((run_reader_eq_ok_iff hs).1 hrun).1
    cases hfits with
    | preset h =>
      obtain ⟨rfl, -⟩ := eq_of_preset hp h
      apply WafRule.IsOf.preset
    | throttle h =>
      obtain ⟨rfl, -⟩ := eq_of_throttle hp h
      apply WafRule.IsOf.throttle
    | disableIntrospection h =>
      obtain ⟨rfl, -⟩ := eq_of_ban hp h
      apply WafRule.IsOf.disableIntrospection
    | custom h => exact absurd (hasName_of_custom (Record.isReadFrom_of_ofDatum h)) hn
  · intro hn rule left'
    rw [run_reader_eq_ok_iff hs, rule?_of_hasName hp hn, Option.map_eq_some_iff, and_comm]
    simp only [toOption_eq_some_iff, eq_comm (a := rule)]

def plainThrottle : List (Datum × Datum) := [(.text "throttle", .unsigned 500)]

theorem rule_of_plainThrottle :
    ∃ rule, (WafRule.reader (.datum (.map plainThrottle))).run 0 = .ok (rule, 0) ∧
      rule.IsOf .throttle := by
  have hname : ¬ HasName plainThrottle := by simp [HasName, plainThrottle]
  have hread : (WafRule.reader (.datum (.map plainThrottle))).run 0 =
      .ok (.throttle (.limit 500), 0) := rfl
  exact ⟨_, hread, (rule_of_block rfl List.mem_cons_self).1 hname _ _ hread⟩

/-- With a name beside it the throttle is a rule that allows every request. -/
theorem rule_of_named_throttle :
    ∃ r, (WafRule.reader (.datum (.map ((.text "name", .text "limit") :: plainThrottle)))).run 0 =
        .ok (.custom r, 0) ∧
      ¬ (WafRule.custom r).IsOf .throttle ∧ r.statement = none ∧
      (Compile.customRule none r).action = some (Compile.bareAction "Allow") :=
  ⟨_, rfl, nofun, rfl, rfl⟩

end Blocks

end ApiStack.Config
