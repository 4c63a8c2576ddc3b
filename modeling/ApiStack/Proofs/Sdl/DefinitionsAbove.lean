import ApiStack.Proofs.Sdl.ReadsAbove

namespace ApiStack.Sdl

open Sdl.Parser Sdl.Grammar

section Headings

variable {n : Nat} {first follow : List Char → Prop} {keyword word : String} {cs mid : List Char}
  {d : Option String}

/-- A text starts like a definition or extension with a keyword. -/
structure Heads (keyword : String) (cs : List Char) : Prop where
  next : NextIs startsLine cs
  avoids : ∀ word ∈ words, word ≠ keyword → Avoids word cs

theorem Leads.rejects_symbol (h : Leads keyword cs) (hw : word ∈ keywords) (hk : keyword ∈ keywords)
    (hne : word ≠ keyword) : Rejects (symbol word) cs :=
  h.rejects (skipsIgnored_symbol word) fun more => rejects_keyword hw hk hne more

theorem symbol_cases (word : String) (cs : List Char) :
    (∃ mid, Leads word cs ∧ Reads (symbol word) cs () mid) ∨ Rejects (symbol word) cs := by
  by_cases h : Leads word cs
  · obtain ⟨mid, he⟩ := id h
    refine .inl ⟨mid, h, (reads_ignored cs).bind ?_⟩
    rw [← he]
    exact reads_literal _ mid
  · exact .inr (Rejects.bind_right (reads_ignored cs) (rejects_literal h))

theorem readsAbove_extend (follow : List Char → Prop) :
    ReadsAbove 1 (symbol "extend") (symbol "extend") (Leads "extend") follow :=
  readsAbove_symbol (by decide) (by decide) follow

theorem readsAbove_keyword (hk : keyword ∈ words) (follow : List Char → Prop) :
    ReadsAbove 1 (symbol keyword) (symbol keyword) (Leads keyword) follow := by
  have hall : ∀ keyword ∈ words,
      keyword.toList.all (fun c => c ≠ '\n' && Place.text.isPlain c) = true ∧
        1 ≤ keyword.toList.length := by decide
  exact readsAbove_symbol (hall keyword hk).1 (hall keyword hk).2 follow

theorem string_cases (cs : List Char) :
    (∃ a rest, Reads string cs a rest) ∨ Rejects string cs := by
  by_cases hq : nextChar? cs = some '"'
  · obtain ⟨more, he⟩ := List.head?_eq_some_iff.1 hq
    have hall := blockOrLine_cases more
    rw [← he] at hall
    refine hall.imp (fun ⟨a, rest, hr⟩ => ⟨a, rest, (reads_ignored cs).bind hr⟩) fun hr => ?_
    exact Rejects.bind_right (reads_ignored cs) hr
  · exact .inr (rejects_string_of_next hq)

theorem reads_description_of_some {fault : Option Fault} {r : Reading}
    (h : optional? string ⟨cs, fault⟩ = some (d, r)) : ∃ mid, r = ⟨mid, fault⟩ ∧
      Reads (optional? string) cs d mid ∧ (mid = cs ∨ nextChar? cs = some '"') := by
  rcases string_cases cs with ⟨a, mid, hr⟩ | hr
  · rw [hr.optional_some fault] at h
    cases h
    refine ⟨mid, rfl, hr.optional_some, .inr ?_⟩
    by_contra hne
    have hnone := rejects_string_of_next hne none
    rw [hr none] at hnone
    cases hnone
  · rw [Reads.optional_none hr fault] at h
    cases h
    exact ⟨cs, rfl, Reads.optional_none hr, .inl rfl⟩

theorem Leads.nextIs_startsName (h : Leads keyword cs) (hk : keyword ∈ keywords) :
    NextIs startsName cs := by
  obtain ⟨c, more, he, hc, -⟩ := isName_of_keyword hk
  exact h.nextIs (by rw [he]; exact hc)

theorem heads_of_description (hk : keyword ∈ words) (hs : Reads (optional? string) cs d mid)
    (hmid : mid = cs ∨ nextChar? cs = some '"') (hl : Leads keyword mid) : Heads keyword cs := by
  have hplain {word : String} (hw : word ∈ keywords) (hne : word ≠ keyword) :
      Rejects (symbol word) cs := by
    rcases hmid with rfl | hq
    · exact hl.rejects_symbol hw (mem_keywords hk) hne
    · obtain ⟨c, more, he, hc, -⟩ := isName_of_keyword hw
      refine rejects_symbol_of_next he fun hn => ?_
      rw [hq] at hn
      cases hn
      cases hc
  constructor
  · rcases hmid with rfl | hq
    · exact (hl.nextIs_startsName (mem_keywords hk)).imp fun c hc => Bool.or_eq_true_iff.2 (.inl hc)
    · exact ⟨'"', hq, rfl⟩
  · intro word hw hne
    refine ⟨hplain (mem_keywords hw) hne, fun g => ?_, fun g => ?_⟩
    · exact Rejects.bind_right hs
        (hl.rejects_symbol (mem_keywords hw) (mem_keywords hk) hne).bind_left
    · exact (hplain (by decide) (ne_extend hk).symm).bind_left

theorem Leads.rejects_string (h : Leads keyword cs) (hk : keyword ∈ keywords) : Rejects string cs :=
  rejects_string_of_next ((h.nextIs_startsName hk).ne rfl)

theorem heads_of_extension (hk : keyword ∈ words) (he : Leads "extend" cs)
    (hr : Reads (symbol "extend") cs () mid) (hl : Leads keyword mid) : Heads keyword cs := by
  constructor
  · exact (he.nextIs_startsName (by decide)).imp fun c hc => Bool.or_eq_true_iff.2 (.inl hc)
  · intro word hw hne
    have hword := he.rejects_symbol (mem_keywords hw) (by decide) (ne_extend hw)
    refine ⟨hword, fun g => ?_, fun g => ?_⟩
    · exact Rejects.bind_right (Reads.optional_none (he.rejects_string (by decide))) hword.bind_left
    · exact Rejects.bind_right hr
        (hl.rejects_symbol (mem_keywords hw) (mem_keywords hk) hne).bind_left

theorem ReadsAbove.definition {g : Option String → Parser α} (hk : keyword ∈ words)
    (hg : ∀ d, ReadsAbove n (g d) (g d) first follow) :
    ReadsAbove 1 (optional? string >>= fun d => symbol keyword >>= fun _ => g d)
      (optional? string >>= fun d => symbol keyword >>= fun _ => g d) (Heads keyword) follow := by
  have hword := (readsAbove_keyword hk first).starting fun cs h =>
    h.nextIs_startsName (mem_keywords hk)
  have hall := ReadsAbove.described fun d => hword.bind_left fun _ => hg d
  refine hall.starts_of fun cs fault r hr => ?_
  obtain ⟨⟨d, between⟩, hd, hr⟩ := Option.bind_eq_some_iff.1 hr
  obtain ⟨mid, rfl, hs, hmid⟩ := reads_description_of_some hd
  rcases symbol_cases keyword mid with ⟨-, hl, -⟩ | hnone
  · exact heads_of_description hk hs hmid hl
  · cases (hnone.bind_left (f := fun _ => g d) fault).symm.trans hr

theorem ReadsAbove.extension {g : Parser α} (hk : keyword ∈ words)
    (hg : ReadsAbove n g g first follow) :
    ReadsAbove 1 (symbol "extend" >>= fun _ => symbol keyword >>= fun _ => g)
      (symbol "extend" >>= fun _ => symbol keyword >>= fun _ => g)
      (fun cs => Heads keyword cs ∧ Leads "extend" cs) follow := by
  have hall := (readsAbove_extend _).bind_left fun _ => (readsAbove_keyword hk _).bind fun _ => hg
  refine hall.starts_of fun cs fault r hr => ?_
  rcases symbol_cases "extend" cs with ⟨mid, he, hs⟩ | hnone
  · obtain ⟨⟨⟨⟩, between⟩, hd, hr⟩ := Option.bind_eq_some_iff.1 hr
    cases (hs fault).symm.trans hd
    rcases symbol_cases keyword mid with ⟨-, hl, -⟩ | hnone
    · exact ⟨heads_of_extension hk he hs hl, he⟩
    · cases (hnone.bind_left (f := fun _ => g) fault).symm.trans hr
  · cases (hnone.bind_left (f := fun _ => symbol keyword >>= fun _ => g) fault).symm.trans hr

theorem ReadsAbove.heading {g : Parser α} (hk : keyword ∈ words)
    (hg : ReadsAbove n g g first follow) :
    ReadsAbove 1 (symbol keyword >>= fun _ => g) (symbol keyword >>= fun _ => g)
      (Heads keyword) follow :=
  ((readsAbove_keyword hk _).bind_left fun _ => hg).starting fun _ h =>
    heads_of_description hk (Reads.optional_none (h.rejects_string (mem_keywords hk))) (.inl rfl) h

theorem Leads.rejects_definition (h : Leads "extend" cs) (hw : word ∈ words)
    (g : Option String → Parser α) :
    Rejects (optional? string >>= fun d => symbol word >>= fun _ => g d) cs :=
  Rejects.bind_right (Reads.optional_none (h.rejects_string (by decide)))
    (h.rejects_symbol (mem_keywords hw) (by decide) (ne_extend hw)).bind_left

end Headings

section Parts

variable {n : Nat} {p : Parser α} {first follow : List Char → Prop} {cs : List Char}

theorem ReadsAbove.separated {mark : String} {c : Char} (hm : mark.toList = [c])
    (hc : c ≠ '\n' ∧ Place.text.isPlain c = true)
    (hp : ∀ follow, ReadsAbove 1 p p (NextIs startsName) follow) (hn : startsName c = false) :
    ReadsAbove 1 (separated mark p) (separated mark p) (fun _ => True) (NextNot [c]) := by
  have hmark := (readsAbove_mark _ _ hm hc fun _ => True).optional (NextIs startsName) fun cs h =>
    ⟨trivial, rejects_symbol_of_next hm (h.ne hn)⟩
  have hmore := ((readsAbove_mark _ _ hm hc _).bind_left fun _ => hp fun _ => True).many
    (NextNot [c]) (fun _ _ => trivial) fun cs h =>
      ⟨trivial, (rejects_symbol_of_next hm (h.ne List.mem_cons_self)).bind_left⟩
  exact hmark.startingAnyhow.bind_right fun _ =>
    (hp _).bind_left fun _ => hmore.bind fun _ => ReadsAbove.pure _ _

theorem readsAbove_interfaces :
    ReadsAbove 1 interfaces interfaces (Leads "implements") (NextNot ['&']) :=
  (readsAbove_keyword (by decide) _).bind_left fun _ =>
    ReadsAbove.separated rfl (by decide) readsAbove_name rfl

/-- A character that the last part of a definition starts with. -/
def startsPart (c : Char) : Bool := c = '=' || c = '\x7b'

structure IsLastPart (p : Parser (List α)) : Prop where
  reads : ReadsAbove 1 p p (NextIs startsPart) (NextNot continuations)
  rejects : ∀ cs, NextNot continuations cs → Rejects p cs

theorem isLastPart_none : IsLastPart (failure : Parser (List Unit)) :=
  ⟨ReadsAbove.failure, fun _ _ => Rejects.failure _⟩

theorem isLastPart_members : IsLastPart members where
  reads := by
    have hnames : ReadsAbove 1 members members (NextIs (· = '=')) (NextNot ['|']) :=
      (readsAbove_mark "=" '=' rfl (by decide) _).bind_left fun _ =>
        ReadsAbove.separated rfl (by decide) readsAbove_name rfl
    refine (hnames.starting fun _ h => h.imp fun c hc => ?_).followedBy fun _ h =>
      h.mono (by decide)
    exact Bool.or_eq_true_iff.2 (.inl hc)
  rejects _ h := (rejects_symbol_of_next rfl (h.ne (c := '=') (by decide))).bind_left

theorem isLastPart_braced (hp : ReadsAbove 1 p p (NextIs startsLine) (NextNot continuations))
    (hs : SkipsIgnored p) (hend : ∀ more, Rejects p ('\x7d' :: more)) : IsLastPart (braced p) where
  reads := by
    have hall := hp.some (NextIs (· = '\x7d')) (fun _ h => h.nextNot (by decide)) fun _ h =>
      ⟨h.nextNot (by decide), h.rejects hs hend⟩
    have hbraces := ReadsAbove.enclosed "\x7b" "\x7d" rfl (by decide) rfl (by decide) hall id
      (NextNot continuations)
    exact hbraces.starting fun _ h => h.imp fun c hc => Bool.or_eq_true_iff.2 (.inr hc)
  rejects _ h := (rejects_symbol_of_next rfl (h.ne (c := '\x7b') (by decide))).bind_left

theorem isLastPart_fields : IsLastPart (braced field) :=
  isLastPart_braced readsAbove_field Field.skipsIgnored_field fun _ _ => rfl

theorem isLastPart_values : IsLastPart (braced enumValue) :=
  isLastPart_braced readsAbove_enumValue EnumValue.skipsIgnored_enumValue fun _ _ => rfl

theorem isLastPart_inputs : IsLastPart (braced inputValue) :=
  isLastPart_braced readsAbove_inputValue InputValue.skipsIgnored_inputValue fun _ _ => rfl

theorem readsAbove_operation (follow : List Char → Prop) :
    ReadsAbove 1 operation operation (NextIs startsName) follow := by
  have hword (word : String) (hk : word ∈ words) (o : Operation) :
      ReadsAbove 1 (symbol word >>= fun _ => Pure.pure o) (symbol word >>= fun _ => Pure.pure o)
        (Leads word) follow :=
    (readsAbove_keyword hk _).bind_left fun _ => ReadsAbove.pure _ o
  have hmutation := (hword "mutation" (by decide) .mutation).orElse
    (hword "subscription" (by decide) .subscription) fun cs fault _ _ _ h _ _ =>
      (h.rejects_symbol (by decide) (by decide) (by decide)).bind_left fault
  have hall := (hword "query" (by decide) .query).orElse hmutation fun _ fault _ _ _ h _ _ =>
    (h.elim (fun h => h.rejects_symbol (by decide) (by decide) (by decide))
      fun h => h.rejects_symbol (by decide) (by decide) (by decide)).bind_left fault
  refine hall.starting fun cs h => ?_
  rcases h with h | h | h <;> exact h.nextIs_startsName (by decide)

theorem isLastPart_roots : IsLastPart (braced root) := by
  have hroot : ReadsAbove 1 root root (NextIs startsName) (NextNot continuations) :=
    (readsAbove_operation _).bind_left fun _ => (readsAbove_mark ":" ':' rfl (by decide) _).bind
      fun _ => (readsAbove_name _).bind fun _ => ReadsAbove.pure _ _
  have hline (cs : List Char) (h : NextIs startsName cs) : NextIs startsLine cs :=
    h.imp fun c hc => Bool.or_eq_true_iff.2 (.inl hc)
  exact isLastPart_braced (hroot.starting hline) (skipsIgnored_operation.bind _) fun _ _ => rfl

end Parts

section Types

theorem readsAbove_someDirectives :
    ReadsAbove 1 someDirectives someDirectives (NextIs (· = '@')) (NextNot continuations) :=
  readsAbove_directive.some _ (fun _ h => h.nextNot (by decide)) fun _ h =>
    ⟨h.mono (by decide), rejects_directive (h.ne (by decide))⟩

/-- Directives are the same directives where one is required. -/
theorem directives_of_some {cs rest : List Char} {fault fault' : Option Fault} {ds : List Directive}
    (hc : isClosed .text cs = true)
    (h : someDirectives ⟨cs, fault⟩ = some (ds, ⟨rest, fault'⟩)) (hend : Rejects directive rest) :
    directives ⟨cs, fault⟩ = some (ds, ⟨rest, fault'⟩) := by
  obtain ⟨d, others, ⟨mid, fault₁⟩, rfl, hd, ho⟩ := exists_of_some' h
  obtain ⟨hcl, hl, -⟩ := readsAbove_directive cs [] fault d mid fault₁ nofun hc hd
  obtain ⟨-, -, hk, -⟩ :=
    readsAbove_directive.manyUpTo (fun _ h => h.nextNot (by decide))
      (show IsBelow [] from nofun) hcl ho
  have hothers := manyUpTo_of_rejects (m := cs.length) ho (hend fault') (Nat.le_trans hk hl)
  show Parser.manyUpTo directive (cs.length + 1) _ = _
  rw [manyUpTo_succ_apply, hd]
  simp only
  rw [hothers]
  rfl

variable {p : Parser (List α)}

theorem IsLastPart.directivesAnd (hp : IsLastPart p) :
    ReadsAbove 1 (directivesAnd p) (directivesAnd p) (NextIs fun c => c = '@' || startsPart c)
      (NextNot continuations) := by
  intro cs below fault result rest fault' hb hc hr
  have hmark (cs : List Char) (h : NextIs (· = '@') cs ∨ NextIs startsPart cs) :
      NextIs (fun c => c = '@' || startsPart c) cs :=
    h.elim (fun h => h.imp fun c hc => Bool.or_eq_true_iff.2 (.inl hc))
      fun h => h.imp fun c hc => Bool.or_eq_true_iff.2 (.inr hc)
  have hleft := ((readsAbove_directives (NextIs startsPart) fun _ h =>
    h.nextNot (by decide)).starting hmark).bind_right fun ds =>
      hp.reads.bind_left fun part => ReadsAbove.pure _ (ds, part)
  rw [Grammar.directivesAnd, orElse_apply, Option.or_eq_some_iff] at hr
  rw [Grammar.directivesAnd, orElse_apply]
  rcases hr with hr | ⟨-, hr⟩
  · obtain ⟨hcl, hl, h⟩ := hleft cs below fault result rest fault' hb hc hr
    refine ⟨hcl, hl, fun hf => ⟨(h hf).1, ?_⟩⟩
    rw [(h hf).2, Option.some_or]
  · obtain ⟨⟨ds, r⟩, hds, he⟩ := Option.bind_eq_some_iff.1 hr
    cases he
    obtain ⟨hcl, hl, h⟩ := readsAbove_someDirectives cs below fault ds rest fault' hb hc hds
    refine ⟨hcl, hl, fun hf => ⟨hmark _ (.inl (h hf).1), ?_⟩⟩
    -- The first alternative reads the same directives and finds no part behind them.
    have hend := rejects_directive ((hf.of_append hb).ne (c := '@') (by decide))
    have hall := directives_of_some hc hds hend
    obtain ⟨-, -, habove⟩ :=
      readsAbove_lastDirectives cs below fault ds rest fault' hb hc hall
    rw [bind_of_some (habove hf).2, (hp.rejects _ hf).bind_left fault', Option.none_or,
      bind_of_some (h hf).2]
    rfl

/-- What can follow a definition: no mark that goes on with it, and no interfaces. -/
structure FollowsDefinition (cs : List Char) : Prop where
  next : NextNot continuations cs
  implements : Rejects (symbol "implements") cs

theorem Heads.followsDefinition {keyword : String} {cs : List Char} (h : Heads keyword cs)
    (hne : "implements" ≠ keyword) : FollowsDefinition cs :=
  ⟨h.next.nextNot (by decide), (h.avoids _ (by decide) hne).plain⟩

/-- No interfaces go on. -/
structure EndsInterfaces (cs : List Char) : Prop where
  next : NextNot ['&'] cs
  implements : Rejects (symbol "implements") cs

theorem NextIs.endsInterfaces {test : Char → Bool} {cs : List Char} (h : NextIs test cs)
    (ht : ['&', 'i'].any test = false) : EndsInterfaces cs := by
  simp only [List.any_cons, List.any_nil, Bool.or_false, Bool.or_eq_false_iff] at ht
  exact ⟨h.nextNot (by simp [ht.1]), rejects_symbol_of_next (c := 'i') rfl (h.ne ht.2)⟩

theorem FollowsDefinition.endsInterfaces {cs : List Char} (h : FollowsDefinition cs) :
    EndsInterfaces cs :=
  ⟨h.next.mono (by decide), h.implements⟩

theorem IsLastPart.readsAbove_ending (hp : IsLastPart p)
    (g : List Directive → Option (List α) → β) :
    ReadsAbove 0
      (directives >>= fun ds => optional? p >>= fun part => Pure.pure (g ds part))
      (directives >>= fun ds => optional? p >>= fun part => Pure.pure (g ds part))
      EndsInterfaces FollowsDefinition := by
  have hpart := hp.reads.optional FollowsDefinition fun cs h => ⟨h.next, hp.rejects cs h.next⟩
  have hds := readsAbove_directives (fun cs => NextIs startsPart cs ∨ FollowsDefinition cs)
    fun cs h => h.elim (fun h => h.nextNot (by decide)) fun h => h.next.mono (by decide)
  have hall := hds.bind_right fun ds => hpart.bind_left fun part => ReadsAbove.pure _ (g ds part)
  refine hall.starting fun cs h => ?_
  rcases h with h | h | h
  · exact h.endsInterfaces (by decide)
  · exact h.endsInterfaces (by decide)
  · exact h.endsInterfaces

theorem readsAbove_definitionOf {keyword : String} (hk : keyword ∈ words) (hp : IsLastPart p)
    (body : List α → TypeBody) : ReadsAbove 1 (definitionOf keyword p body)
      (definitionOf keyword p body) (Heads keyword) FollowsDefinition :=
  ReadsAbove.definition hk fun d => (readsAbove_name _).bind_left fun name =>
    hp.readsAbove_ending fun ds part => TypeDefinition.mk false d name ds (body (part.getD []))

theorem readsAbove_extensionOf {keyword : String} (hk : keyword ∈ words) (hp : IsLastPart p)
    (body : List α → TypeBody) : ReadsAbove 1 (extensionOf keyword p body)
      (extensionOf keyword p body) (fun cs => Heads keyword cs ∧ Leads "extend" cs)
        (NextNot continuations) :=
  ReadsAbove.extension hk ((readsAbove_name _).bind_left fun name => hp.directivesAnd.bind_left
    fun (ds, part) => ReadsAbove.pure _ (TypeDefinition.mk true none name ds (body part)))

theorem readsAbove_optionalInterfaces :
    ReadsAbove 0 (optional? interfaces) (optional? interfaces) (fun _ => True) EndsInterfaces :=
  (readsAbove_interfaces.optional _ fun _ h => ⟨h.next, h.implements.bind_left⟩).startingAnyhow

variable {keyword : String} {body : List String → List Field → TypeBody}

theorem readsAbove_fieldsDefinition (hk : keyword ∈ words) :
    ReadsAbove 1 (fieldsDefinition keyword body) (fieldsDefinition keyword body) (Heads keyword)
      FollowsDefinition :=
  ReadsAbove.definition hk fun d => (readsAbove_name _).bind_left fun name =>
    readsAbove_optionalInterfaces.bind_right fun names => isLastPart_fields.readsAbove_ending
      fun ds fields => TypeDefinition.mk false d name ds (body (names.getD []) (fields.getD []))

theorem readsAbove_fieldsExtension (hk : keyword ∈ words) :
    ReadsAbove 1 (fieldsExtension keyword body) (fieldsExtension keyword body)
      (fun cs => Heads keyword cs ∧ Leads "extend" cs) FollowsDefinition := by
  have hends : ReadsAbove 1 (Grammar.directivesAnd (braced field))
      (Grammar.directivesAnd (braced field)) EndsInterfaces FollowsDefinition :=
    (isLastPart_fields.directivesAnd.starting fun _ h => h.endsInterfaces (by decide)).followedBy
      fun _ h => h.next
  exact ReadsAbove.extension hk ((readsAbove_name _).bind_left fun name =>
    readsAbove_optionalInterfaces.bind_right fun names => hends.bind_left fun (ds, fields) =>
      ReadsAbove.pure _ (TypeDefinition.mk true none name ds (body (names.getD []) fields)))

theorem readsAbove_interfacesExtension : ReadsAbove 1 interfacesExtension interfacesExtension
    (fun cs => Heads "type" cs ∧ Leads "extend" cs) FollowsDefinition :=
  ReadsAbove.extension (by decide) ((readsAbove_name _).bind_left fun _ =>
    (readsAbove_interfaces.startingAnyhow.followedBy fun _ h => h.next.mono (by decide)).bind_left
      fun _ => ReadsAbove.pure _ _)

theorem IsLastPart.rejects_directivesAnd {cs : List Char} (hp : IsLastPart p)
    (h : NextNot continuations cs) : Rejects (Grammar.directivesAnd p) cs := by
  have hnone := rejects_directive (h.ne (c := '@') (by decide))
  exact (Rejects.bind_right (Reads.many_nil hnone) (hp.rejects cs h).bind_left).orElse
    hnone.bind_left.bind_left

/-- Where there are interfaces and nothing else, the rule for fields fails behind them. -/
theorem fieldsExtension_of_interfaces {cs rest : List Char} {fault fault' : Option Fault}
    {t : TypeDefinition} (hr : interfacesExtension ⟨cs, fault⟩ = some (t, ⟨rest, fault'⟩))
    (hf : FollowsDefinition rest) : fieldsExtension "type" body ⟨cs, fault⟩ = none := by
  obtain ⟨⟨⟨⟩, r₁⟩, hextend, hr⟩ := Option.bind_eq_some_iff.1 hr
  obtain ⟨⟨⟨⟩, r₂⟩, htype, hr⟩ := Option.bind_eq_some_iff.1 hr
  obtain ⟨⟨name, r₃⟩, hname, hr⟩ := Option.bind_eq_some_iff.1 hr
  obtain ⟨⟨names, r₄⟩, hnames, he⟩ := Option.bind_eq_some_iff.1 hr
  cases he
  have hoptional : optional? interfaces r₃ = some (some names, ⟨rest, fault'⟩) := by
    rw [optional?, hnames]
  rw [fieldsExtension, bind_of_some hextend, bind_of_some htype, bind_of_some hname,
    bind_of_some hoptional]
  exact (isLastPart_fields.rejects_directivesAnd hf.next).bind_left fault'

theorem Heads.rejects_rule {other : TypeBody} {cs : List Char} (h : Heads keyword cs)
    (hne : other.kind ≠ keyword) : Rejects other.rule cs :=
  (h.avoids _ other.kind_mem hne).rejects_rule

theorem ReadsAbove.definitionOrExtension {p q : Parser TypeDefinition}
    (hp : ReadsAbove 1 p p (Heads keyword) FollowsDefinition)
    (hq : ReadsAbove 1 q q (fun cs => Heads keyword cs ∧ Leads "extend" cs) FollowsDefinition)
    (hpass : ∀ cs, Leads "extend" cs → Rejects p cs) :
    ReadsAbove 1 (p <|> q) (p <|> q) (Heads keyword) FollowsDefinition :=
  (hp.orElse hq fun cs fault _ _ _ h _ _ => hpass cs h.2 fault).starting fun _ h =>
    h.elim id And.left

theorem readsAbove_rule (body : TypeBody) :
    ReadsAbove 1 body.rule body.rule (Heads body.kind) FollowsDefinition := by
  have hpart {α : Type} {keyword : String} (hk : keyword ∈ words) {p : Parser (List α)}
      (hp : IsLastPart p) (body : List α → TypeBody) : ReadsAbove 1
        (definitionOf keyword p body <|> extensionOf keyword p body)
        (definitionOf keyword p body <|> extensionOf keyword p body) (Heads keyword)
          FollowsDefinition :=
    (readsAbove_definitionOf hk hp body).definitionOrExtension
      ((readsAbove_extensionOf hk hp body).followedBy fun _ h => h.next)
      fun cs h => h.rejects_definition hk _
  cases body with
  | scalar => exact hpart (by decide) isLastPart_none _
  | object _ _ =>
    have hextension := (@readsAbove_fieldsExtension "type" .object (by decide)).orElse
      readsAbove_interfacesExtension fun _ _ _ _ _ _ hf hr => fieldsExtension_of_interfaces hr hf
    exact (readsAbove_fieldsDefinition (by decide)).definitionOrExtension
      (hextension.starting fun _ h => h.elim id id) fun cs h => h.rejects_definition (by decide) _
  | interface _ _ =>
    exact (readsAbove_fieldsDefinition (by decide)).definitionOrExtension
      (readsAbove_fieldsExtension (by decide)) fun cs h => h.rejects_definition (by decide) _
  | union _ => exact hpart (by decide) isLastPart_members _
  | enumeration _ => exact hpart (by decide) isLastPart_values _
  | input _ => exact hpart (by decide) isLastPart_inputs _

/-- A text starts like a definition or extension with one of some keywords. -/
def HeadsOneOf (keywords : List String) (cs : List Char) : Prop :=
  ∃ keyword ∈ keywords, Heads keyword cs

theorem HeadsOneOf.mono {some more : List String} {cs : List Char} (h : HeadsOneOf some cs)
    (hs : some ⊆ more) : HeadsOneOf more cs := by
  obtain ⟨keyword, hk, h⟩ := h
  exact ⟨keyword, hs hk, h⟩

theorem ReadsAbove.orRule {q : Parser TypeDefinition} {kinds : List String} (body : TypeBody)
    (hq : ReadsAbove 1 q q (HeadsOneOf kinds) FollowsDefinition) (hne : body.kind ∉ kinds) :
    ReadsAbove 1 (body.rule <|> q) (body.rule <|> q) (HeadsOneOf (body.kind :: kinds))
      FollowsDefinition := by
  refine ((readsAbove_rule body).orElse hq fun cs fault _ _ _ h _ _ => ?_).starting fun cs h => ?_
  · obtain ⟨keyword, hk, h⟩ := h
    exact h.rejects_rule (fun he => hne (he ▸ hk)) fault
  · rcases h with h | h
    · exact ⟨_, List.mem_cons_self, h⟩
    · exact h.mono (List.subset_cons_self _ _)

theorem readsAbove_typeDefinition : ReadsAbove 1 typeDefinition typeDefinition
    (HeadsOneOf ["scalar", "type", "interface", "union", "enum", "input"]) FollowsDefinition := by
  have hinput : ReadsAbove 1 (TypeBody.input []).rule (TypeBody.input []).rule
      (HeadsOneOf ["input"]) FollowsDefinition :=
    (readsAbove_rule _).starting fun _ h => ⟨_, List.mem_cons_self, h⟩
  have henum := hinput.orRule (.enumeration []) (by decide)
  have hunion := henum.orRule (.union []) (by decide)
  have hinterface := hunion.orRule (.interface [] []) (by decide)
  have hobject := hinterface.orRule (.object [] []) (by decide)
  rw [typeDefinition_eq]
  exact hobject.orRule .scalar (by decide)

theorem readsAbove_setRoots (s : SchemaDefinition) (roots : List (Operation × String)) :
    ReadsAbove 0 (setRoots s roots) (setRoots s roots) first first := by
  induction roots generalizing s with
  | nil => exact ReadsAbove.pure _ s
  | cons root rest ih =>
    obtain ⟨operation, name⟩ := root
    rw [setRoots]
    split
    · exact (ReadsAbove.note _).bind fun _ => ih _
    · exact ih _

theorem readsAbove_schemaBody :
    ReadsAbove 1 schemaBody schemaBody (Heads "schema") FollowsDefinition := by
  have hdirectives := readsAbove_directives (NextIs startsPart) fun _ h => h.nextNot (by decide)
  have hroots : ReadsAbove 1 (braced root) (braced root) (NextIs startsPart) FollowsDefinition :=
    isLastPart_roots.reads.followedBy fun _ h => h.next
  refine ReadsAbove.heading (by decide) (hdirectives.bind_right fun ds => hroots.bind_left
    fun roots => ReadsAbove.bind (n := 0) (readsAbove_setRoots _ roots) fun s => ?_)
  simp only
  split
  · exact (ReadsAbove.note _).bind fun _ => ReadsAbove.pure _ s
  · exact ReadsAbove.pure _ s

theorem readsAbove_schemaExtension : ReadsAbove 1 schemaExtension schemaExtension
    (fun cs => Heads "schema" cs ∧ Leads "extend" cs) FollowsDefinition :=
  ReadsAbove.extension (by decide) ((isLastPart_roots.directivesAnd.followedBy
    fun _ h => h.next).bind_left fun (_, roots) => readsAbove_setRoots _ roots)

theorem readsAbove_directiveDefinition : ReadsAbove 1 directiveDefinition directiveDefinition
    (Heads "directive") FollowsDefinition := by
  have hrepeatable := (readsAbove_keyword (show "repeatable" ∈ words by decide)
    fun _ => True).optional (Leads "on") fun cs h =>
      ⟨trivial, h.rejects_symbol (by decide) (by decide) (by decide)⟩
  have hword : ReadsAbove 0 (optional? (symbol "repeatable")) (optional? (symbol "repeatable"))
      (NextNot ['(']) (Leads "on") := by
    refine hrepeatable.starting fun cs h => ?_
    rcases h with h | h <;> exact (h.nextIs_startsName (by decide)).nextNot (by decide)
  have hlocations : ReadsAbove 1 (separated "|" location) (separated "|" location) (fun _ => True)
      FollowsDefinition :=
    (ReadsAbove.separated rfl (by decide) readsAbove_location rfl).followedBy fun _ h =>
      h.next.mono (by decide)
  exact ReadsAbove.definition (by decide) fun _ =>
    (readsAbove_mark "@" '@' rfl (by decide) _).bind_left fun _ => (readsAbove_name _).bind
      fun _ => readsAbove_arguments.bind fun _ => hword.bind fun _ =>
        (readsAbove_keyword (by decide) _).bind fun _ => hlocations.bind fun _ =>
          ReadsAbove.pure _ _

theorem rejects_typeDefinition_of_heads {cs : List Char} (h : Heads "directive" cs) :
    Rejects typeDefinition cs := by
  refine rejects_typeDefinition fun body => h.avoids _ body.kind_mem ?_
  cases body <;> simp only [TypeBody.kind] <;> decide

theorem readsAbove_definition : ReadsAbove 1 definition definition
    (HeadsOneOf ["schema", "scalar", "type", "interface", "union", "enum", "input", "directive"])
      FollowsDefinition := by
  have hschema := readsAbove_schemaBody.orElse readsAbove_schemaExtension fun _ fault _ _ _ h _ _ =>
    (h.2.rejects_symbol (by decide) (by decide) (by decide)).bind_left fault
  have htype := (readsAbove_typeDefinition.map Definition.type).orElse
    (readsAbove_directiveDefinition.map Definition.directive) fun cs fault _ _ _ h _ _ =>
      (rejects_typeDefinition_of_heads h).map _ fault
  have hkinds (cs : List Char)
      (h : HeadsOneOf ["scalar", "type", "interface", "union", "enum", "input"] cs ∨
        Heads "directive" cs) :
      HeadsOneOf ["scalar", "type", "interface", "union", "enum", "input", "directive"] cs := by
    rcases h with h | h
    · exact h.mono (by decide)
    · exact ⟨"directive", by decide, h⟩
  have hnamed := htype.starting hkinds
  refine ((hschema.map Definition.schema).orElse hnamed fun cs fault _ _ _ h _ _ => ?_).starting
    fun cs h => ?_
  · obtain ⟨keyword, hk, h⟩ := h
    have hne : "schema" ≠ keyword := by
      rintro rfl
      exact absurd hk (by decide)
    exact (h.avoids _ (by decide) hne).rejects_schema.map _ fault
  · rcases h with (h | h) | h
    · exact ⟨"schema", by decide, h⟩
    · exact ⟨"schema", by decide, h.1⟩
    · exact h.mono (by decide)

end Types

end ApiStack.Sdl
