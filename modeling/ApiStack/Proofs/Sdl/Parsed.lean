import ApiStack.Proofs.Sdl.Definitions

namespace ApiStack.Sdl

open Sdl.Grammar

namespace Parser

/-- A parser only gives results with a property, unless there is a fault; and a fault that was noted
stays. -/
def Ensures (p : Parser α) (P : α → Prop) : Prop :=
  ∀ r a r', p r = some (a, r') → r'.fault = none → r.fault = none ∧ P a

section Rules

variable {p q : Parser α} {P Q : α → Prop} {f : α → Parser β} {R : β → Prop} {a : α}

theorem Ensures.mono (hp : Ensures p P) (h : ∀ a, P a → Q a) : Ensures p Q :=
  fun r a r' he hf => (hp r a r' he hf).imp_right (h a)

theorem Ensures.pure (h : P a) : Ensures (pure a) P := by
  intro r b r' he hf
  cases he
  exact ⟨hf, h⟩

theorem Ensures.failure : Ensures (failure : Parser α) P := by
  intro r a r' he
  cases he

/-- The property of a first result counts only if there is no fault at the end. -/
theorem Ensures.bind (hp : Ensures p P) (hf : ∀ a, Ensures (f a) fun b => P a → R b) :
    Ensures (p >>= f) R := by
  intro r b r' he hfault
  rw [bind_apply, Option.bind_eq_some_iff] at he
  obtain ⟨⟨a, mid⟩, ha, hb⟩ := he
  -- From the end to the front: only that no fault was noted later shows that none was before.
  obtain ⟨hmid, hR⟩ := hf a mid b r' hb hfault
  obtain ⟨hr, hP⟩ := hp r a mid ha hmid
  exact ⟨hr, hR hP⟩

theorem Ensures.map (g : α → β) (hp : Ensures p fun a => R (g a)) : Ensures (g <$> p) R :=
  hp.bind fun _ => Ensures.pure id

theorem Ensures.orElse (hp : Ensures p P) (hq : Ensures q P) : Ensures (p <|> q) P := by
  intro r a r' he
  rw [orElse_apply, Option.or_eq_some_iff] at he
  rcases he with he | ⟨-, he⟩
  · exact hp r a r' he
  · exact hq r a r' he

theorem Ensures.optional (hp : Ensures p P) : Ensures (optional? p) fun o => ∀ a ∈ o, P a := by
  intro r o r' he hfault
  rw [optional?] at he
  split at he
  · next a mid ha =>
    cases he
    obtain ⟨hr, hP⟩ := hp r a _ ha hfault
    refine ⟨hr, fun b hb => ?_⟩
    cases hb
    exact hP
  · cases he
    exact ⟨hfault, fun a ha => absurd ha (Option.not_mem_none a)⟩

theorem Ensures.many (hp : Ensures p P) : Ensures (many p) fun as => ∀ a ∈ as, P a := by
  have hfuel (fuel : Nat) : Ensures (manyUpTo p fuel) fun as => ∀ a ∈ as, P a := by
    induction fuel with
    | zero => exact Ensures.pure nofun
    | succ fuel ih =>
      intro r as r' he hfault
      rw [manyUpTo_succ_apply] at he
      split at he
      · next a mid ha =>
        obtain ⟨⟨others, last⟩, ho, hpair⟩ := Option.map_eq_some_iff.1 he
        cases hpair
        obtain ⟨hmid, hall⟩ := ih mid others _ ho hfault
        obtain ⟨hr, hP⟩ := hp r a mid ha hmid
        exact ⟨hr, List.forall_mem_cons.2 ⟨hP, hall⟩⟩
      · cases he
        exact ⟨hfault, nofun⟩
  exact fun r => hfuel (r.rest.length + 1) r

theorem Ensures.some (hp : Ensures p P) : Ensures (some' p) fun as => as ≠ [] ∧ ∀ a ∈ as, P a :=
  hp.bind fun _ => hp.many.bind fun _ =>
    Ensures.pure fun hall ha => ⟨List.cons_ne_nil _ _, List.forall_mem_cons.2 ⟨ha, hall⟩⟩

/-- A parser that only moves on, and gives nothing that matters. -/
abbrev Moves (p : Parser α) : Prop := Ensures p fun _ => True

theorem Ensures.after (hp : Moves p) (hf : ∀ a, Ensures (f a) R) : Ensures (p >>= f) R :=
  hp.bind fun a => (hf a).mono fun _ h _ => h

end Rules

section Tokens

variable {c : Char → Bool}

theorem moves_ignored : Moves ignored := by
  intro r a r' he hfault
  rw [ignored_apply] at he
  cases he
  exact ⟨hfault, trivial⟩

theorem ensures_charWhere (p : Char → Bool) : Ensures (charWhere p) fun c => p c = true := by
  intro r c r' he hfault
  rw [charWhere] at he
  split at he
  · split at he
    · next hc =>
      cases he
      exact ⟨hfault, hc⟩
    · cases he
  · cases he

theorem ensures_charsWhile (p : Char → Bool) :
    Ensures (charsWhile p) fun cs => cs.all p = true := by
  intro r cs r' he hfault
  cases he
  exact ⟨hfault, List.all_takeWhile⟩

theorem moves_literal (cs : List Char) : Moves (literal cs) := by
  induction cs with
  | nil => exact Ensures.pure trivial
  | cons c cs ih => exact (ensures_charWhere _).bind fun _ => ih.mono fun _ _ _ => trivial

theorem moves_symbol (text : String) : Moves (symbol text) :=
  moves_ignored.after fun _ => moves_literal _

theorem ensures_note (fault : Fault) : Ensures (note fault) fun _ => False := by
  intro r a r' he hfault
  cases he
  change r.fault.or (Option.some fault) = none at hfault
  cases hr : r.fault <;> rw [hr] at hfault <;> cases hfault

theorem Ensures.separated {p : Parser α} {P : α → Prop} (hp : Ensures p P) (mark : String) :
    Ensures (separated mark p) fun as => as ≠ [] ∧ ∀ a ∈ as, P a :=
  (moves_symbol mark).optional.bind fun _ => hp.bind fun _ =>
    Ensures.bind (Ensures.many ((moves_symbol mark).after fun _ => hp)) fun _ =>
      Ensures.pure fun hall ha _ => ⟨List.cons_ne_nil _ _, List.forall_mem_cons.2 ⟨ha, hall⟩⟩

end Tokens

section Leaves

theorem moves_get : Moves (get : Parser Reading) := by
  intro r a r' he hfault
  cases he
  exact ⟨hfault, trivial⟩

theorem moves_absent (p : Parser α) : Moves (absent p) := by
  intro r a r' he hfault
  rw [absent] at he
  split at he
  · cases he
  · cases he
    exact ⟨hfault, trivial⟩

theorem ensures_nameHere : Ensures nameHere IsName :=
  (ensures_charWhere _).bind fun first => (ensures_charsWhile _).bind fun others =>
    Ensures.pure fun hothers hfirst => ⟨first, others, String.toList_ofList, hfirst, hothers⟩

theorem ensures_name : Ensures name IsName := moves_ignored.after fun _ => ensures_nameHere

theorem ensures_typeRefHere (fuel : Nat) :
    Ensures (typeRefHere fuel) fun t => IsName t.innermost := by
  induction fuel with
  | zero => exact Ensures.failure
  | succ fuel ih =>
    have hmark (a : Char) : Moves (present (literal [a])) :=
      Ensures.map _ ((moves_literal _).optional.mono fun _ _ => trivial)
    refine Ensures.orElse (ensures_nameHere.bind fun name => ?_)
      ((moves_literal _).after fun _ => ih.bind fun item => ?_)
    · exact (hmark '!').after fun _ => Ensures.pure id
    · exact (moves_literal _).after fun _ => (hmark '!').after fun _ => Ensures.pure id

theorem ensures_typeRef : Ensures typeRef fun t => IsName t.innermost :=
  moves_ignored.after fun _ => moves_get.after fun _ => ensures_typeRefHere _

theorem moves_charWhere (p : Char → Bool) : Moves (charWhere p) :=
  (ensures_charWhere p).mono fun _ _ => trivial

theorem Ensures.moves {p : Parser α} {P : α → Prop} (h : Ensures p P) : Moves p :=
  h.mono fun _ _ => trivial

theorem moves_digits : Moves digits :=
  (moves_charWhere _).after fun _ => (ensures_charsWhile _).moves.after fun _ =>
    Ensures.pure trivial

theorem moves_numberText : Moves numberText := by
  have hwhole : Moves wholeDigits :=
    Ensures.orElse ((moves_literal _).after fun _ => Ensures.pure trivial) moves_digits
  have hfraction : Moves fractionPart :=
    (moves_literal _).after fun _ => moves_digits.after fun _ => Ensures.pure trivial
  have hexponent : Moves exponentPart :=
    (moves_charWhere _).after fun _ => (moves_charWhere _).optional.moves.after fun _ =>
      moves_digits.after fun _ => Ensures.pure trivial
  exact (moves_charWhere _).optional.moves.after fun _ => hwhole.after fun _ =>
    hfraction.optional.moves.after fun _ => hexponent.optional.moves.after fun _ =>
      (moves_absent _).after fun _ => Ensures.pure trivial

theorem ensures_number : Ensures number Value.IsWritable := by
  refine moves_numberText.after fun text => ?_
  cases hread : Json.readNumber text with
  | ok result =>
    obtain ⟨n, rest⟩ := result
    exact Ensures.pure (Json.inRange_readNumber hread)
  | error e =>
    cases e with
    | outOfRange rest => exact (ensures_note _).bind fun _ => Ensures.pure fun h => h.elim
    | malformed rest => exact Ensures.failure

theorem moves_string : Moves string := by
  have hunicode : Moves unicodeEscape := by
    intro r c r' he hfault
    rw [unicodeEscape] at he
    split at he
    · split at he
      · cases he
      · cases he
        exact ⟨hfault, trivial⟩
    · cases he
  have hchar : Moves stringChar :=
    Ensures.orElse (moves_charWhere _) (Ensures.orElse ((moves_literal _).after fun _ => hunicode)
      ((moves_literal _).after fun _ => (moves_charWhere _).after fun _ => Ensures.pure trivial))
  have hline : Moves lineString :=
    (moves_literal _).after fun _ => hchar.many.moves.after fun _ =>
      (moves_literal _).after fun _ => Ensures.pure trivial
  have hblock : Moves blockString := by
    refine (moves_literal _).after fun _ r text r' he hfault => ?_
    obtain ⟨⟨raw, rest⟩, -, hpair⟩ := Option.map_eq_some_iff.1 he
    rw [← (Prod.mk.inj hpair).2] at hfault
    exact ⟨hfault, trivial⟩
  exact moves_ignored.after fun _ => Ensures.orElse hblock hline

theorem prefix_of_nameHere {r r' : Reading} {s : String} (h : nameHere r = some (s, r')) :
    s.toList <+: r.rest := by
  obtain ⟨⟨first, mid⟩, hfirst, he⟩ := Option.bind_eq_some_iff.1 h
  rw [charWhere] at hfirst
  split at hfirst
  · next c rest hr =>
    split at hfirst
    · cases hfirst
      cases he
      rw [hr, String.toList_ofList]
      exact List.cons_prefix_cons.2 ⟨rfl, List.takeWhile_prefix _⟩
    · cases hfirst
  · cases hfirst

theorem not_prefix_of_wordValue {r : Reading} (h : wordValue r = none) :
    ∀ word ∈ ["true", "false", "null"], ¬word.toList <+: r.rest := by
  have hword (word : String) (v : Value)
      (he : (literal word.toList >>= fun _ => (pure v : Parser Value)) r = none) :
      ¬word.toList <+: r.rest := by
    rintro ⟨tail, hr⟩
    obtain ⟨rest, fault⟩ := r
    subst hr
    rw [(reads_literal word.toList tail).bind (Reads.pure v tail) fault] at he
    cases he
  rw [wordValue, orElse_apply, orElse_apply, Option.or_eq_none_iff, Option.or_eq_none_iff] at h
  obtain ⟨htrue, hfalse, hnull⟩ := h
  intro word hm
  simp only [List.mem_cons, List.not_mem_nil, or_false] at hm
  rcases hm with rfl | rfl | rfl
  · exact hword _ _ htrue
  · exact hword _ _ hfalse
  · exact hword _ _ hnull

theorem ensures_enumName : Ensures enumName IsEnumName := by
  refine moves_ignored.after fun _ r s r' he hfault => ?_
  obtain ⟨⟨_, mid⟩, habsent, hname⟩ := Option.bind_eq_some_iff.1 he
  rw [absent] at habsent
  split at habsent
  · cases habsent
  · next hnone =>
    cases habsent
    obtain ⟨hr, hs⟩ := ensures_nameHere r s r' hname hfault
    refine ⟨hr, hs, fun word hm hp => ?_⟩
    exact not_prefix_of_wordValue hnone word hm (hp.trans (prefix_of_nameHere hname))

end Leaves

section Values

theorem areItemsWritable_iff {items : List Value} :
    Value.AreItemsWritable items ↔ ∀ v ∈ items, v.IsWritable := by
  induction items with
  | nil => exact ⟨fun _ v hm => absurd hm List.not_mem_nil, fun _ => trivial⟩
  | cons v rest ih => rw [Value.AreItemsWritable, ih, List.forall_mem_cons]

theorem areFieldsWritable_iff {fields : List (String × Value)} :
    Value.AreFieldsWritable fields ↔ ∀ field ∈ fields, IsName field.1 ∧ field.2.IsWritable := by
  induction fields with
  | nil => exact ⟨fun _ field hm => absurd hm List.not_mem_nil, fun _ => trivial⟩
  | cons field rest ih => rw [Value.AreFieldsWritable, ih, List.forall_mem_cons]

theorem isWritable_object {fields : List (String × Value)}
    (h : ∀ field ∈ fields, IsName field.1 ∧ field.2.IsWritable) :
    (Value.object
      (fields.foldl (fun done (name, value) => setEntry name value done) [])).IsWritable := by
  rw [Value.foldl_setEntry]
  refine ⟨(OrderedMap.ofList fields).nodup, areFieldsWritable_iff.2 fun field hm => h field ?_⟩
  exact (OrderedMap.mem_entries_insertAll hm).resolve_left List.not_mem_nil

theorem ensures_named {p : Parser Value} (h : Ensures p Value.IsWritable) :
    Ensures (do
        let name ← name
        symbol ":"
        let value ← p
        return (name, value)) fun field => IsName field.1 ∧ field.2.IsWritable :=
  ensures_name.bind fun _ => (moves_symbol _).after fun _ => h.bind fun _ =>
    Ensures.pure fun hv hn => ⟨hn, hv⟩

theorem ensures_value (fuel : Nat) : Ensures (value fuel) Value.IsWritable := by
  induction fuel with
  | zero => exact Ensures.failure
  | succ fuel ih =>
    have hword : Ensures wordValue Value.IsWritable :=
      Ensures.orElse ((moves_literal _).after fun _ => Ensures.pure trivial)
        (Ensures.orElse ((moves_literal _).after fun _ => Ensures.pure trivial)
          ((moves_literal _).after fun _ => Ensures.pure trivial))
    have hlist : Ensures (do
        symbol "["
        let items ← many (value fuel)
        symbol "]"
        return Value.list items) Value.IsWritable :=
      (moves_symbol _).after fun _ => ih.many.bind fun _ => (moves_symbol _).after fun _ =>
        Ensures.pure areItemsWritable_iff.2
    have hobject : Ensures (do
        symbol "\x7b"
        let fields ← many (do
          let name ← name
          symbol ":"
          let value ← value fuel
          return (name, value))
        symbol "\x7d"
        return Value.object (fields.foldl (fun done (name, value) => setEntry name value done) []))
          Value.IsWritable :=
      (moves_symbol _).after fun _ => (ensures_named ih).many.bind fun _ =>
        (moves_symbol _).after fun _ => Ensures.pure isWritable_object
    exact moves_ignored.after fun _ => Ensures.orElse ensures_number
      (Ensures.orElse (Ensures.map _ (moves_string.mono fun _ _ => trivial))
        (Ensures.orElse hword (Ensures.orElse (Ensures.map _ ensures_enumName)
          (Ensures.orElse hlist hobject))))

theorem ensures_anyValue : Ensures anyValue Value.IsWritable :=
  moves_get.after fun _ => ensures_value _

theorem ensures_argument : Ensures argument fun a => IsName a.1 ∧ a.2.IsWritable :=
  ensures_name.bind fun _ => (moves_symbol _).after fun _ => ensures_anyValue.bind fun _ =>
    Ensures.pure fun hv hn => ⟨hn, hv⟩

theorem ensures_parenthesized {p : Parser α} {P : α → Prop} (h : Ensures p P) :
    Ensures (optional? (do
        symbol "("
        let results ← some' p
        symbol ")"
        return results)) fun o => ∀ a ∈ o.getD [], P a := by
  have hsome : Ensures (do
        symbol "("
        let results ← some' p
        symbol ")"
        return results) fun results => ∀ a ∈ results, P a :=
    (moves_symbol _).after fun _ => h.some.bind fun _ => (moves_symbol _).after fun _ =>
      Ensures.pure fun hr => hr.2
  refine hsome.optional.mono fun o ho => ?_
  cases o with
  | none => exact nofun
  | some results => exact ho results rfl

theorem ensures_directive : Ensures directive Directive.IsWritable :=
  (moves_symbol _).after fun _ => ensures_name.bind fun _ =>
    (ensures_parenthesized ensures_argument).bind fun _ => Ensures.pure fun ha hn => ⟨hn, ha⟩

end Values

section Fields

theorem ensures_directives : Ensures directives fun ds => ∀ d ∈ ds, d.IsWritable :=
  ensures_directive.many

theorem ensures_inputValue : Ensures inputValue InputValue.IsWritable :=
  moves_string.optional.moves.after fun _ => ensures_name.bind fun _ =>
    (moves_symbol _).after fun _ => ensures_typeRef.bind fun _ =>
      Ensures.bind (Ensures.optional ((moves_symbol _).after fun _ => ensures_anyValue)) fun _ =>
        ensures_directives.bind fun _ => Ensures.pure fun hd hv ht hn => ⟨hn, ht, hv, hd⟩

theorem ensures_arguments : Ensures arguments fun vs => ∀ v ∈ vs, v.IsWritable :=
  (ensures_parenthesized ensures_inputValue).bind fun _ => Ensures.pure id

theorem ensures_field : Ensures field Field.IsWritable :=
  moves_string.optional.moves.after fun _ => ensures_name.bind fun _ =>
    ensures_arguments.bind fun _ => (moves_symbol _).after fun _ => ensures_typeRef.bind fun _ =>
      ensures_directives.bind fun _ => Ensures.pure fun hd ht ha hn => ⟨hn, ha, ht, hd⟩

theorem ensures_enumValue : Ensures enumValue EnumValue.IsWritable :=
  moves_string.optional.moves.after fun _ => ensures_enumName.bind fun _ =>
    ensures_directives.bind fun _ => Ensures.pure fun hd hn => ⟨hn, hd⟩

theorem Ensures.braced {p : Parser α} {P : α → Prop} (h : Ensures p P) :
    Ensures (braced p) fun as => as ≠ [] ∧ ∀ a ∈ as, P a :=
  (moves_symbol _).after fun _ => h.some.bind fun _ => (moves_symbol _).after fun _ =>
    Ensures.pure id

theorem ensures_interfaces : Ensures interfaces fun names => names ≠ [] ∧ ∀ n ∈ names, IsName n :=
  (moves_symbol _).after fun _ => ensures_name.separated _

theorem ensures_members : Ensures members fun names => names ≠ [] ∧ ∀ n ∈ names, IsName n :=
  (moves_symbol _).after fun _ => ensures_name.separated _

end Fields

section Types

variable {p : Parser (List α)} {P : α → Prop}

theorem Ensures.directivesAnd (h : Ensures p fun as => as ≠ [] ∧ ∀ a ∈ as, P a) :
    Ensures (directivesAnd p) fun result => (∀ d ∈ result.1, d.IsWritable) ∧
      (result.1 ≠ [] ∨ result.2 ≠ []) ∧ ∀ a ∈ result.2, P a := by
  refine Ensures.orElse (ensures_directives.bind fun _ => h.bind fun _ => Ensures.pure ?_)
    (ensures_directive.some.bind fun _ => Ensures.pure ?_)
  · exact fun ha hd => ⟨hd, .inr ha.1, ha.2⟩
  · exact fun hd => ⟨hd.2, .inl hd.1, nofun⟩

theorem ensures_part (h : Ensures p fun as => as ≠ [] ∧ ∀ a ∈ as, P a) :
    Ensures (optional? p) fun o => ∀ a ∈ o.getD [], P a := by
  refine h.optional.mono fun o ho => ?_
  cases o with
  | none => exact nofun
  | some as => exact (ho as rfl).2

theorem ensures_definitionOf (h : Ensures p fun as => as ≠ [] ∧ ∀ a ∈ as, P a) (keyword : String)
    {body : List α → TypeBody} (hbody : ∀ as, (∀ a ∈ as, P a) → (body as).IsWritable) :
    Ensures (definitionOf keyword p body) TypeDefinition.IsWritable :=
  moves_string.optional.moves.after fun _ => (moves_symbol _).after fun _ =>
    ensures_name.bind fun _ => ensures_directives.bind fun _ => (ensures_part h).bind fun _ =>
      Ensures.pure fun ha hd hn => ⟨hn, hd, hbody _ ha, nofun⟩

theorem ensures_extensionOf (h : Ensures p fun as => as ≠ [] ∧ ∀ a ∈ as, P a) (keyword : String)
    {body : List α → TypeBody} (hbody : ∀ as, (∀ a ∈ as, P a) → (body as).IsWritable)
    (hextends : ∀ as, as ≠ [] → (∀ a ∈ as, P a) → (body as).Extends) :
    Ensures (extensionOf keyword p body) TypeDefinition.IsWritable :=
  (moves_symbol _).after fun _ => (moves_symbol _).after fun _ => ensures_name.bind fun _ =>
    h.directivesAnd.bind fun _ => Ensures.pure fun hd hn =>
      ⟨hn, hd.1, hbody _ hd.2.2, fun _ => ⟨rfl, hd.2.1.imp_right fun hne => hextends _ hne hd.2.2⟩⟩

theorem ensures_names :
    Ensures (optional? interfaces) fun o => ∀ name ∈ o.getD [], IsName name :=
  ensures_part ensures_interfaces

variable {body : List String → List Field → TypeBody}
  (hbody : ∀ names fields, (∀ name ∈ names, IsName name) → (∀ f ∈ fields, f.IsWritable) →
    (body names fields).IsWritable)
include hbody

theorem ensures_fieldsDefinition (keyword : String) :
    Ensures (fieldsDefinition keyword body) TypeDefinition.IsWritable :=
  moves_string.optional.moves.after fun _ => (moves_symbol _).after fun _ =>
    ensures_name.bind fun _ => ensures_names.bind fun _ => ensures_directives.bind fun _ =>
      (ensures_part ensures_field.braced).bind fun _ => Ensures.pure fun hf hd hi hn =>
        ⟨hn, hd, hbody _ _ hi hf, nofun⟩

theorem ensures_fieldsExtension (keyword : String)
    (hextends : ∀ names fields, fields ≠ [] → (body names fields).Extends) :
    Ensures (fieldsExtension keyword body) TypeDefinition.IsWritable :=
  (moves_symbol _).after fun _ => (moves_symbol _).after fun _ => ensures_name.bind fun _ =>
    ensures_names.bind fun _ => ensures_field.braced.directivesAnd.bind fun _ =>
      Ensures.pure fun hd hi hn => ⟨hn, hd.1, hbody _ _ hi hd.2.2,
        fun _ => ⟨rfl, hd.2.1.imp_right (hextends _ _)⟩⟩

omit hbody

theorem ensures_interfacesExtension :
    Ensures interfacesExtension TypeDefinition.IsWritable :=
  (moves_symbol _).after fun _ => (moves_symbol _).after fun _ => ensures_name.bind fun _ =>
    ensures_interfaces.bind fun _ => Ensures.pure fun hi hn =>
      ⟨hn, nofun, ⟨hi.2, nofun⟩, fun _ => ⟨rfl, .inr (.inl hi.1)⟩⟩

theorem ensures_typeDefinition : Ensures typeDefinition TypeDefinition.IsWritable := by
  have hnone : Ensures (failure : Parser (List Unit)) fun as => as ≠ [] ∧ ∀ _a ∈ as, False :=
    Ensures.failure
  have hvalues := ensures_enumValue.braced
  have hinputs := ensures_inputValue.braced
  have hscalar : Ensures scalarType TypeDefinition.IsWritable :=
    Ensures.orElse (ensures_definitionOf hnone _ fun _ _ => trivial)
      (ensures_extensionOf hnone _ (fun _ _ => trivial) fun as hne hall =>
        (List.exists_mem_of_ne_nil as hne).elim hall)
  refine Ensures.orElse hscalar ?_
  have hobject (names) (fields) (hn : ∀ name ∈ names, IsName name)
      (hf : ∀ f ∈ fields, f.IsWritable) : (TypeBody.object names fields).IsWritable := ⟨hn, hf⟩
  have hinterface (names) (fields) (hn : ∀ name ∈ names, IsName name)
      (hf : ∀ f ∈ fields, f.IsWritable) : (TypeBody.interface names fields).IsWritable := ⟨hn, hf⟩
  refine Ensures.orElse (ensures_fieldsDefinition hobject _) ?_
  refine Ensures.orElse (ensures_fieldsExtension hobject _ fun _ _ hne => .inr hne) ?_
  refine Ensures.orElse ensures_interfacesExtension ?_
  refine Ensures.orElse (ensures_fieldsDefinition hinterface _) ?_
  refine Ensures.orElse (ensures_fieldsExtension hinterface _ fun _ _ hne => hne) ?_
  refine Ensures.orElse (ensures_definitionOf ensures_members _ fun _ h => h) ?_
  refine Ensures.orElse
    (ensures_extensionOf ensures_members _ (fun _ h => h) fun _ hne _ => hne) ?_
  refine Ensures.orElse (ensures_definitionOf hvalues _ fun _ h => h) ?_
  refine Ensures.orElse (ensures_extensionOf hvalues _ (fun _ h => h) fun _ hne _ => hne) ?_
  exact Ensures.orElse (ensures_definitionOf hinputs _ fun _ h => h)
    (ensures_extensionOf hinputs _ (fun _ h => h) fun _ hne _ => hne)

end Types

section Schemas

theorem mem_roots {s : SchemaDefinition} {r : Operation × String} :
    r ∈ s.roots ↔ s.root? r.1 = some r.2 := by
  obtain ⟨operation, name⟩ := r
  rw [SchemaDefinition.roots, List.mem_filterMap]
  constructor
  · rintro ⟨other, -, he⟩
    obtain ⟨n, hn, hpair⟩ := Option.map_eq_some_iff.1 he
    cases hpair
    exact hn
  · intro h
    refine ⟨operation, by cases operation <;> decide, ?_⟩
    rw [h]
    rfl

theorem root?_withRoot (s : SchemaDefinition) (operation other : Operation) (name : String) :
    (s.withRoot operation name).root? other =
      if other = operation then some name else s.root? other := by
  cases operation <;> cases other <;> rfl

theorem ensures_root : Ensures root fun r => IsName r.2 := by
  have hoperation : Moves operation :=
    Ensures.orElse ((moves_symbol _).after fun _ => Ensures.pure trivial)
      (Ensures.orElse ((moves_symbol _).after fun _ => Ensures.pure trivial)
        ((moves_symbol _).after fun _ => Ensures.pure trivial))
  exact hoperation.after fun _ => (moves_symbol _).after fun _ => ensures_name.bind fun _ =>
    Ensures.pure id

theorem mem_roots_withRoot {s : SchemaDefinition} {operation : Operation} {name : String}
    {r : Operation × String} (h : r ∈ (s.withRoot operation name).roots) :
    r = (operation, name) ∨ r ∈ s.roots := by
  rw [mem_roots, root?_withRoot] at h
  split at h
  · next he => exact .inl (Prod.ext he (Option.some.inj h).symm)
  · exact .inr (mem_roots.2 h)

theorem roots_withRoot_ne_nil (s : SchemaDefinition) (operation : Operation) (name : String) :
    (s.withRoot operation name).roots ≠ [] := by
  have hm : (operation, name) ∈ (s.withRoot operation name).roots := by
    rw [mem_roots, root?_withRoot, if_pos rfl]
  exact List.ne_nil_of_mem hm

/-- A schema comes from another one by setting roots: all else is kept, and every root is one of
those that were there or are set. -/
structure IsSetFrom (s' s : SchemaDefinition) (roots : List (Operation × String)) : Prop where
  isExtension : s'.isExtension = s.isExtension
  directives : s'.directives = s.directives
  mem_roots : ∀ r ∈ s'.roots, r ∈ s.roots ∨ r ∈ roots
  roots_ne_nil : s.roots ≠ [] ∨ roots ≠ [] → s'.roots ≠ []

theorem isSetFrom_cons {s s' : SchemaDefinition} {operation : Operation} {name : String}
    {rest : List (Operation × String)} (h : IsSetFrom s' (s.withRoot operation name) rest) :
    IsSetFrom s' s ((operation, name) :: rest) where
  isExtension := h.isExtension.trans (by cases operation <;> rfl)
  directives := h.directives.trans (by cases operation <;> rfl)
  mem_roots r hr := by
    rcases h.mem_roots r hr with hm | hm
    · rcases mem_roots_withRoot hm with rfl | hm
      · exact .inr List.mem_cons_self
      · exact .inl hm
    · exact .inr (List.mem_cons_of_mem _ hm)
  roots_ne_nil _ := h.roots_ne_nil (.inl (roots_withRoot_ne_nil s operation name))

theorem ensures_setRoots (s : SchemaDefinition) (roots : List (Operation × String)) :
    Ensures (setRoots s roots) fun s' => IsSetFrom s' s roots := by
  induction roots generalizing s with
  | nil =>
    exact Ensures.pure ⟨rfl, rfl, fun _ hr => .inl hr, fun h => h.resolve_right fun hne => hne rfl⟩
  | cons first rest ih =>
    obtain ⟨operation, name⟩ := first
    have hrest := (ih (s.withRoot operation name)).mono fun _ => isSetFrom_cons
    rw [setRoots]
    split
    · exact (ensures_note _).moves.after fun _ => hrest
    · exact hrest

section Set

variable {s : SchemaDefinition} {ds : List Directive} {roots : List (Operation × String)}
  (hds : ∀ d ∈ ds, d.IsWritable) (hr : ∀ r ∈ roots, IsName r.2)
include hds hr

theorem isWritable_definition (h : IsSetFrom s ⟨false, ds, none, none, none⟩ roots)
    (hquery : s.query.isSome = true) : s.IsWritable where
  directives := h.directives ▸ hds
  roots r hm := hr r ((h.mem_roots r hm).resolve_left List.not_mem_nil)
  definition _ := hquery
  extension he := by
    rw [h.isExtension] at he
    cases he

theorem isWritable_extension (h : IsSetFrom s ⟨true, ds, none, none, none⟩ roots)
    (hsome : ds ≠ [] ∨ roots ≠ []) : s.IsWritable where
  directives := h.directives ▸ hds
  roots r hm := hr r ((h.mem_roots r hm).resolve_left List.not_mem_nil)
  definition he := by
    rw [h.isExtension] at he
    cases he
  extension _ := by
    rw [h.directives]
    exact hsome.imp_right fun hne => h.roots_ne_nil (.inr hne)

end Set

theorem ensures_schemaBody : Ensures schemaBody SchemaDefinition.IsWritable := by
  refine (moves_symbol _).after fun _ => ensures_directives.bind fun ds =>
    ensures_root.braced.bind fun roots => (ensures_setRoots _ roots).bind fun s => ?_
  simp only
  split
  · exact (ensures_note _).bind fun _ => Ensures.pure fun h => h.elim
  · next hquery =>
    exact Ensures.pure fun hs hr hds => isWritable_definition hds hr.2 hs
      (Option.isSome_iff_ne_none.2 fun he => hquery (he ▸ rfl))

theorem ensures_schemaExtension : Ensures schemaExtension SchemaDefinition.IsWritable :=
  (moves_symbol _).after fun _ => (moves_symbol _).after fun _ =>
    ensures_root.braced.directivesAnd.bind fun _ => (ensures_setRoots _ _).mono fun _ hs h =>
      isWritable_extension h.1 h.2.2 hs h.2.1

end Schemas

section Documents

theorem ensures_oneOf (words : List String) : Ensures (oneOf words) fun word => word ∈ words := by
  induction words with
  | nil => exact Ensures.failure
  | cons word others ih =>
    exact Ensures.orElse ((moves_literal _).after fun _ => Ensures.pure List.mem_cons_self)
      (ih.mono fun _ => List.mem_cons_of_mem _)

theorem ensures_directiveDefinition :
    Ensures directiveDefinition DirectiveDefinition.IsWritable := by
  have hlocation : Ensures location fun word => word ∈ locationNames :=
    moves_ignored.after fun _ => ensures_oneOf _
  exact moves_string.optional.moves.after fun _ => (moves_symbol _).after fun _ =>
    (moves_symbol _).after fun _ => ensures_name.bind fun _ => ensures_arguments.bind fun _ =>
      (moves_symbol _).optional.moves.after fun _ => (moves_symbol _).after fun _ =>
        (hlocation.separated _).bind fun _ => Ensures.pure fun hl ha hn => ⟨hn, ha, hl⟩

theorem ensures_definition : Ensures definition Definition.IsWritable :=
  Ensures.orElse (Ensures.map _ (Ensures.orElse ensures_schemaBody ensures_schemaExtension))
    (Ensures.orElse (Ensures.map _ ensures_typeDefinition)
      (Ensures.map _ ensures_directiveDefinition))

theorem ensures_document : Ensures document Document.IsWritable := by
  refine ensures_definition.some.bind fun definitions => moves_ignored.after fun _ =>
    moves_get.after fun reading => ?_
  split
  · exact Ensures.after (Ensures.failure) fun _ => Ensures.pure fun hd => ⟨hd.1, hd.2⟩
  · exact Ensures.pure fun hd => ⟨hd.1, hd.2⟩

end Documents

end Parser

/-- Every document that is read without a fault can be written. -/
theorem Document.isWritable_of_parse {source : String} {d : Document} (h : parse source = .ok d) :
    d.IsWritable := by
  unfold parse at h
  split at h
  · cases h
  · cases h
  · next he =>
    cases h
    exact (Parser.ensures_document _ _ _ he rfl).2

end ApiStack.Sdl
