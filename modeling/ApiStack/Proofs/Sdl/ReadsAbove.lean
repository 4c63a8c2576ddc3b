import ApiStack.Proofs.Sdl.Definitions
import ApiStack.Proofs.Sdl.Lines

namespace ApiStack.Sdl

open Sdl.Parser Sdl.Grammar

section Rules

theorem orElse_assoc (p q r : Parser α) : ((p <|> q) <|> r) = (p <|> q <|> r) := by
  funext reading
  rw [orElse_apply, orElse_apply, orElse_apply, orElse_apply, Option.or_assoc]

theorem manyUpTo_of_rejects {p : Parser α} {k m : Nat} {r r' : Reading} {as : List α}
    (h : Parser.manyUpTo p k r = some (as, r')) (hend : p r' = none) (hm : as.length ≤ m) :
    Parser.manyUpTo p m r = some (as, r') := by
  induction k generalizing r as m with
  | zero =>
    cases h
    cases m with
    | zero => rfl
    | succ m => rw [manyUpTo_succ_apply, hend]
  | succ k ih =>
    rw [manyUpTo_succ_apply] at h
    split at h
    · next a between ha =>
      obtain ⟨⟨others, last⟩, ho, hpair⟩ := Option.map_eq_some_iff.1 h
      cases hpair
      cases m with
      | zero => cases hm
      | succ m =>
        rw [manyUpTo_succ_apply, ha]
        simp only
        rw [ih ho (Nat.le_of_succ_le_succ hm)]
        rfl
    · cases h
      cases m with
      | zero => rfl
      | succ m => rw [manyUpTo_succ_apply, hend]

theorem bind_of_some {p : Parser α} {f : α → Parser β} {r r' : Reading} {a : α}
    (h : p r = some (a, r')) : (p >>= f) r = f a r' := by
  rw [bind_apply, h]
  rfl

theorem exists_of_some' {p : Parser α} {r r' : Reading} {as : List α}
    (h : some' p r = some (as, r')) :
    ∃ a others between, as = a :: others ∧ p r = some (a, between) ∧
      many p between = some (others, r') := by
  obtain ⟨⟨a, between⟩, ha, h⟩ := Option.bind_eq_some_iff.1 h
  obtain ⟨⟨others, last⟩, ho, he⟩ := Option.bind_eq_some_iff.1 h
  cases he
  exact ⟨a, others, between, rfl, ha, ho⟩

end Rules

/-- What is read from a text is also read, by a parser that may look further, if there is more below
the text and it can follow; then the text starts as it should. -/
def ReadsAbove (n : Nat) (p p' : Parser α) (first follow : List Char → Prop) : Prop :=
  ∀ cs below fault a rest fault', IsBelow below → isClosed .text cs = true →
    p ⟨cs, fault⟩ = some (a, ⟨rest, fault'⟩) →
      isClosed .text rest = true ∧ rest.length + n ≤ cs.length ∧
        (follow (rest ++ below) → first (cs ++ below) ∧
          p' ⟨cs ++ below, fault⟩ = some (a, ⟨rest ++ below, fault'⟩))

/-- The next character, if there is one, is none of some marks. -/
def NextNot (marks : List Char) (cs : List Char) : Prop := ∀ c ∈ nextChar? cs, c ∉ marks

/-- There is a next character of a kind. -/
def NextIs (test : Char → Bool) (cs : List Char) : Prop := ∃ c ∈ nextChar? cs, test c = true

/-- A word or mark is next. -/
def Leads (word : String) (cs : List Char) : Prop := word.toList <+: skipIgnored false cs

section Next

variable {marks more cs below : List Char} {test : Char → Bool} {word : String} {c : Char}

theorem NextNot.mono (h : NextNot marks cs) (hs : more ⊆ marks) : NextNot more cs :=
  fun c hc hm => h c hc (hs hm)

theorem NextNot.ne (h : NextNot marks cs) (hc : c ∈ marks) : nextChar? cs ≠ some c :=
  fun he => h c he hc

theorem NextIs.nextNot (h : NextIs test cs) (hm : marks.any test = false) : NextNot marks cs := by
  obtain ⟨c, hc, ht⟩ := h
  intro d hd hmem
  rw [Option.mem_unique hd hc] at hmem
  exact List.any_eq_false.1 hm c hmem ht

theorem Leads.nextIs (h : Leads word cs) (hw : word.toList.head?.any test = true) :
    NextIs test cs := by
  obtain ⟨more, he⟩ := h
  obtain ⟨c, hc, ht⟩ := (Option.any_eq_true _ _).1 hw
  refine ⟨c, ?_, ht⟩
  rw [nextChar?, ← he, List.head?_append, hc]
  rfl

theorem Leads.rejects {p : Parser α} (h : Leads word cs) (hs : SkipsIgnored p)
    (hp : ∀ more, Rejects p (word.toList ++ more)) : Rejects p cs := by
  obtain ⟨more, he⟩ := h
  rw [hs.rejects_iff, ← he]
  exact hp more

theorem NextNot.of_append (h : NextNot marks (cs ++ below)) (hb : IsBelow below) :
    NextNot marks cs := by
  intro c hc
  apply h c
  rcases skipIgnored_below false cs hb with ⟨he, -⟩ | ⟨-, he⟩
  · rw [nextChar?, he] at hc
    cases hc
  · rw [nextChar?, he, List.head?_append]
    exact Option.or_eq_some_iff.2 (.inl hc)

end Next

namespace ReadsAbove

variable {m n : Nat} {p p' q q' : Parser α} {f f' : α → Parser β}
  {first first' mid follow follow' stop : List Char → Prop}

theorem shorter (h : ReadsAbove n p p' first follow) (hn : m ≤ n) :
    ReadsAbove m p p' first follow := by
  intro cs below fault a rest fault' hb hc hr
  obtain ⟨hcl, hl, h⟩ := h cs below fault a rest fault' hb hc hr
  exact ⟨hcl, by omega, h⟩

theorem starting (h : ReadsAbove n p p' first follow) (hfirst : ∀ cs, first cs → first' cs) :
    ReadsAbove n p p' first' follow := by
  intro cs below fault a rest fault' hb hc hr
  obtain ⟨hcl, hl, h⟩ := h cs below fault a rest fault' hb hc hr
  exact ⟨hcl, hl, fun hf => (h hf).imp_left (hfirst _)⟩

theorem startingAnyhow (h : ReadsAbove n p p' first follow) :
    ReadsAbove n p p' (fun _ => True) follow :=
  h.starting fun _ _ => trivial

theorem followedBy (h : ReadsAbove n p p' first follow) (hfollow : ∀ cs, follow' cs → follow cs) :
    ReadsAbove n p p' first follow' := by
  intro cs below fault a rest fault' hb hc hr
  obtain ⟨hcl, hl, h⟩ := h cs below fault a rest fault' hb hc hr
  exact ⟨hcl, hl, fun hf => h (hfollow _ hf)⟩

/-- What a text starts with can be told from what is read in it. -/
theorem starts_of (h : ReadsAbove n p p' first follow)
    (hfirst : ∀ cs fault r, p' ⟨cs, fault⟩ = Option.some r → first' cs) :
    ReadsAbove n p p' first' follow := by
  intro cs below fault a rest fault' hb hc hr
  obtain ⟨hcl, hl, h⟩ := h cs below fault a rest fault' hb hc hr
  exact ⟨hcl, hl, fun hf => ⟨hfirst _ _ _ (h hf).2, (h hf).2⟩⟩

theorem starts (h : ReadsAbove n p p' first follow)
    (hfirst : ∀ cs, ¬first' cs → Rejects p' cs) : ReadsAbove n p p' first' follow := by
  refine h.starts_of fun cs fault r hr => ?_
  by_contra hnot
  rw [hfirst cs hnot fault] at hr
  cases hr

theorem pure (first : List Char → Prop) (a : α) : ReadsAbove 0 (pure a) (pure a) first first := by
  intro cs below fault b rest fault' hb hc hr
  cases hr
  exact ⟨hc, Nat.le_refl _, fun hf => ⟨hf, rfl⟩⟩

theorem note (fault : Fault) : ReadsAbove 0 (note fault) (note fault) first first := by
  intro cs below fault b rest fault' hb hc hr
  cases hr
  exact ⟨hc, Nat.le_refl _, fun hf => ⟨hf, rfl⟩⟩

theorem bind (hp : ReadsAbove m p p' first mid) (hf : ∀ a, ReadsAbove n (f a) (f' a) mid follow) :
    ReadsAbove (m + n) (p >>= f) (p' >>= f') first follow := by
  intro cs below fault b rest fault' hb hc hr
  rw [bind_apply, Option.bind_eq_some_iff] at hr
  obtain ⟨⟨a, ⟨between, fault₁⟩⟩, ha, hr⟩ := hr
  obtain ⟨hc₁, hl₁, h₁⟩ := hp cs below fault a between fault₁ hb hc ha
  obtain ⟨hc₂, hl₂, h₂⟩ := hf a between below fault₁ b rest fault' hb hc₁ hr
  refine ⟨hc₂, by omega, fun hfollow => ?_⟩
  obtain ⟨hmid, hb'⟩ := h₂ hfollow
  obtain ⟨hfirst, ha'⟩ := h₁ hmid
  refine ⟨hfirst, ?_⟩
  rw [bind_apply, ha']
  exact hb'

theorem bind_left (hp : ReadsAbove m p p' first mid)
    (hf : ∀ a, ReadsAbove n (f a) (f' a) mid follow) :
    ReadsAbove m (p >>= f) (p' >>= f') first follow :=
  (hp.bind hf).shorter (Nat.le_add_right m n)

theorem bind_right (hp : ReadsAbove m p p' first mid)
    (hf : ∀ a, ReadsAbove n (f a) (f' a) mid follow) :
    ReadsAbove n (p >>= f) (p' >>= f') first follow :=
  (hp.bind hf).shorter (Nat.le_add_left n m)

theorem map (hp : ReadsAbove n p p' first follow) (g : α → β) :
    ReadsAbove n (g <$> p) (g <$> p') first follow :=
  hp.bind fun a => pure _ (g a)

theorem failure : ReadsAbove n (failure : Parser α) p' first follow := by
  intro cs below fault a rest fault' hb hc hr
  cases hr

/-- What the second parser reads, the first one must not read with more below. -/
theorem orElse (hp : ReadsAbove n p p' first follow) (hq : ReadsAbove n q q' first' follow)
    (hpass : ∀ cs fault a rest fault', first' cs → follow rest →
      q' ⟨cs, fault⟩ = some (a, ⟨rest, fault'⟩) → p' ⟨cs, fault⟩ = none) :
    ReadsAbove n (p <|> q) (p' <|> q') (fun cs => first cs ∨ first' cs) follow := by
  intro cs below fault a rest fault' hb hc hr
  rw [orElse_apply, Option.or_eq_some_iff] at hr
  rcases hr with hr | ⟨-, hr⟩
  · obtain ⟨hcl, hl, h⟩ := hp cs below fault a rest fault' hb hc hr
    refine ⟨hcl, hl, fun hf => ⟨.inl (h hf).1, ?_⟩⟩
    rw [orElse_apply, (h hf).2, Option.some_or]
  · obtain ⟨hcl, hl, h⟩ := hq cs below fault a rest fault' hb hc hr
    refine ⟨hcl, hl, fun hf => ⟨.inr (h hf).1, ?_⟩⟩
    rw [orElse_apply, hpass _ _ _ _ _ (h hf).1 hf (h hf).2, Option.none_or]
    exact (h hf).2

theorem optional (hp : ReadsAbove n p p' first follow) (stop : List Char → Prop)
    (hstop : ∀ cs, stop cs → follow cs ∧ Rejects p' cs) :
    ReadsAbove 0 (optional? p) (optional? p') (fun cs => first cs ∨ stop cs) stop := by
  intro cs below fault o rest fault' hb hc hr
  rw [optional?] at hr
  split at hr
  · next a r ha =>
    cases hr
    obtain ⟨hcl, hl, h⟩ := hp cs below fault a rest fault' hb hc ha
    refine ⟨hcl, by omega, fun hs => ?_⟩
    obtain ⟨hfirst, ha'⟩ := h (hstop _ hs).1
    exact ⟨.inl hfirst, by rw [optional?, ha']⟩
  · cases hr
    exact ⟨hc, Nat.le_refl _, fun hs => ⟨.inr hs, by rw [optional?, (hstop _ hs).2 fault]⟩⟩

/-- Results are read one after the other, and then it goes on below the text. -/
theorem manyUpTo (hp : ReadsAbove n p p' first follow) (hnext : ∀ cs, first cs → follow cs)
    {cs below : List Char} {fault fault' : Option Fault} {as : List α} {rest : List Char} {k : Nat}
    (hb : IsBelow below) (hc : isClosed .text cs = true)
    (hr : Parser.manyUpTo p k ⟨cs, fault⟩ = some (as, ⟨rest, fault'⟩)) :
    isClosed .text rest = true ∧ rest.length + as.length * n ≤ cs.length ∧ as.length ≤ k ∧
      (follow (rest ++ below) → (first (cs ++ below) ∨ rest = cs) ∧
        ∀ j, Parser.manyUpTo p' (as.length + j) ⟨cs ++ below, fault⟩ =
          (Parser.manyUpTo p' j ⟨rest ++ below, fault'⟩).map fun (bs, r) => (as ++ bs, r)) := by
  induction k generalizing cs fault as with
  | zero =>
    cases hr
    refine ⟨hc, Nat.le_of_eq (by simp), Nat.le_refl _, fun _ => ⟨.inr rfl, fun j => ?_⟩⟩
    simp
  | succ k ih =>
    rw [manyUpTo_succ_apply] at hr
    split at hr
    · next a r ha =>
      obtain ⟨between, fault₁⟩ := r
      obtain ⟨⟨others, last⟩, ho, hpair⟩ := Option.map_eq_some_iff.1 hr
      cases hpair
      obtain ⟨hc₁, hl₁, h₁⟩ := hp cs below fault a between fault₁ hb hc ha
      obtain ⟨hc₂, hl₂, hk, h₂⟩ := ih hc₁ ho
      refine ⟨hc₂, ?_, Nat.succ_le_succ hk, fun hf => ?_⟩
      · rw [List.length_cons, Nat.succ_mul]
        omega
      · obtain ⟨hstart, hothers⟩ := h₂ hf
        have hfollow : follow (between ++ below) := by
          rcases hstart with hfirst | rfl
          · exact hnext _ hfirst
          · exact hf
        obtain ⟨hfirst, ha'⟩ := h₁ hfollow
        refine ⟨.inl hfirst, fun j => ?_⟩
        rw [List.length_cons, Nat.succ_add, manyUpTo_succ_apply, ha']
        simp only
        rw [hothers, Option.map_map]
        rfl
    · cases hr
      refine ⟨hc, Nat.le_of_eq (by simp), Nat.zero_le _, fun _ => ⟨.inr rfl, fun j => ?_⟩⟩
      simp

theorem many (hp : ReadsAbove n p p' first follow) (stop : List Char → Prop)
    (hnext : ∀ cs, first cs → follow cs) (hstop : ∀ cs, stop cs → follow cs ∧ Rejects p' cs) :
    ReadsAbove 0 (many p) (many p') (fun cs => first cs ∨ stop cs) stop := by
  intro cs below fault as rest fault' hb hc hr
  obtain ⟨hcl, hl, hk, h⟩ := hp.manyUpTo hnext hb hc hr
  refine ⟨hcl, by omega, fun hs => ?_⟩
  obtain ⟨hfollow, hnone⟩ := hstop _ hs
  obtain ⟨hstart, hmany⟩ := h hfollow
  constructor
  · rcases hstart with hfirst | rfl
    · exact .inl hfirst
    · exact .inr hs
  · have hfuel : as.length ≤ (cs ++ below).length + 1 := by
      rw [List.length_append]
      simp only at hk
      omega
    obtain ⟨j, hj⟩ := Nat.exists_eq_add_of_le hfuel
    have hend : Parser.manyUpTo p' j ⟨rest ++ below, fault'⟩ =
        some ([], ⟨rest ++ below, fault'⟩) := by
      cases j with
      | zero => rfl
      | succ j => rw [manyUpTo_succ_apply, hnone fault']
    show Parser.manyUpTo p' ((cs ++ below).length + 1) _ = _
    rw [hj, hmany, hend]
    simp

theorem some (hp : ReadsAbove n p p' first follow) (stop : List Char → Prop)
    (hnext : ∀ cs, first cs → follow cs) (hstop : ∀ cs, stop cs → follow cs ∧ Rejects p' cs) :
    ReadsAbove n (some' p) (some' p') first stop := by
  have hmore := (hp.many stop hnext hstop).starting fun cs h =>
    h.elim (hnext cs) fun hs => (hstop cs hs).1
  exact hp.bind fun _ => hmore.bind fun _ => pure _ _

end ReadsAbove

section Tokens

variable {n : Nat} {p p' : Parser α} {first follow : List Char → Prop} {word : String}

theorem EndsAtLine.readsAbove (h : EndsAtLine .text .text n p) (follow : List Char → Prop) :
    ReadsAbove n p p (fun _ => True) follow := by
  intro cs below fault a rest fault' hb hc hr
  rcases h cs below hb with ⟨b, left, hs, hs', hl, hcl⟩ | ⟨hs, -⟩
  · rw [hs fault] at hr
    cases hr
    exact ⟨hcl hc, hl, fun _ => ⟨trivial, hs' fault⟩⟩
  · rw [hs fault] at hr
    cases hr

theorem ReadsAbove.behind (hp : ReadsAbove (n + 1) p p' first follow) :
    ReadsAbove (n + 1) (ignored >>= fun _ => p) (ignored >>= fun _ => p')
      (fun cs => first (skipIgnored false cs)) follow := by
  intro cs below fault a rest fault' hb hc hr
  obtain ⟨hcl, hl, h⟩ := hp _ below fault a rest fault' hb (isClosed_skipIgnored (b := false) hc) hr
  rcases skipIgnored_below false cs hb with ⟨he, -⟩ | ⟨-, he⟩
  · rw [he] at hl
    cases hl
  · refine ⟨hcl, Nat.le_trans hl (length_skipIgnored_le _ _), fun hf => ?_⟩
    show first (skipIgnored false (cs ++ below)) ∧
      p' ⟨skipIgnored false (cs ++ below), fault⟩ = _
    rw [he]
    exact h hf

theorem readsAbove_symbol (hw : word.toList.all (fun c => c ≠ '\n' && Place.text.isPlain c) = true)
    (hl : 1 ≤ word.toList.length) (follow : List Char → Prop) :
    ReadsAbove 1 (symbol word) (symbol word) (Leads word) follow := by
  have hword := ((endsAtLine_literal hw).mono hl).readsAbove follow
  refine ReadsAbove.starts hword.behind fun cs hnot => ?_
  exact Rejects.bind_right (reads_ignored cs) (rejects_literal hnot)

theorem readsAbove_name (follow : List Char → Prop) :
    ReadsAbove 1 name name (NextIs startsName) follow := by
  refine ReadsAbove.starts (endsAtLine_nameHere.readsAbove follow).behind fun cs hnot => ?_
  refine Rejects.bind_right (reads_ignored cs) (rejects_charWhere fun c hc => ?_).bind_left
  exact Bool.eq_false_iff.2 fun ht => hnot ⟨c, hc, ht⟩

theorem rejects_enumName_of_next {cs : List Char} (h : ∀ c ∈ nextChar? cs, startsName c = false) :
    Rejects enumName cs := by
  refine Rejects.bind_right (reads_ignored cs) fun fault => ?_
  rw [bind_apply, Parser.absent]
  split
  · rfl
  · exact (rejects_charWhere h).bind_left _

theorem readsAbove_enumName (follow : List Char → Prop) :
    ReadsAbove 1 enumName enumName (NextIs startsName) follow :=
  (ReadsAbove.starts (endsAtLine_enumName.readsAbove follow).behind fun _ hnot =>
    rejects_enumName_of_next fun c hc => Bool.eq_false_iff.2 fun ht => hnot ⟨c, hc, ht⟩)

theorem rejects_oneOf {words : List String} {cs : List Char}
    (h : ∀ word ∈ words, ¬word.toList <+: cs) : Rejects (oneOf words) cs := by
  induction words with
  | nil => exact Rejects.failure cs
  | cons word others ih =>
    obtain ⟨hword, hothers⟩ := List.forall_mem_cons.1 h
    exact (rejects_literal hword).bind_left.orElse (ih hothers)

theorem readsAbove_location (follow : List Char → Prop) :
    ReadsAbove 1 location location (NextIs startsName) follow := by
  have hwords := (@endsAtLine_oneOf locationNames (by decide)).readsAbove follow
  refine ReadsAbove.starts hwords.behind fun cs hnot => ?_
  refine Rejects.bind_right (reads_ignored cs) (rejects_oneOf fun word hw hp => hnot ?_)
  obtain ⟨c, more, he, hc, -⟩ := isName_of_location hw
  exact Leads.nextIs hp (by rw [he]; exact hc)

theorem rejects_string_of_next {cs : List Char} (h : nextChar? cs ≠ some '"') :
    Rejects string cs := by
  rw [skipsIgnored_string.rejects_iff]
  exact rejects_string (skipIgnored_skipIgnored false cs) h

theorem readsAbove_string (follow : List Char → Prop) :
    ReadsAbove 2 string string (NextIs (· = '"')) follow := by
  have hquoted : ReadsAbove 2 (blockString <|> lineString) (blockString <|> lineString)
      (fun _ => True) follow := by
    intro cs below fault a rest fault' hb hc hr
    have hquote : cs.head? = some '"' := by
      by_contra hne
      have hnone : Rejects (blockString <|> lineString) cs :=
        (rejects_literal_of_head hne).bind_left.orElse (rejects_literal_of_head hne).bind_left
      rw [hnone fault] at hr
      cases hr
    obtain ⟨more, rfl⟩ := List.head?_eq_some_iff.1 hquote
    rcases quotedString_cases hc hb with ⟨b, left, hs, hs', hl, hcl⟩ | ⟨hs, -⟩
    · rw [hs fault] at hr
      cases hr
      exact ⟨hcl, Nat.succ_le_succ hl, fun _ => ⟨trivial, hs' fault⟩⟩
    · rw [hs fault] at hr
      cases hr
  refine ReadsAbove.starts hquoted.behind fun cs hnot => ?_
  exact rejects_string_of_next fun he => hnot ⟨_, he, by decide⟩

/-- The length of a longer text is more fuel. -/
theorem ReadsAbove.sized {p : Nat → Parser α}
    (hp : ∀ k m, k ≤ m → ReadsAbove n (p k) (p m) first follow) :
    ReadsAbove n (get >>= fun r => p r.rest.length) (get >>= fun r => p r.rest.length)
      first follow := by
  intro cs below fault a rest fault' hb hc hr
  have hle : cs.length ≤ (cs ++ below).length := by
    rw [List.length_append]
    exact Nat.le_add_right _ _
  exact hp _ _ hle cs below fault a rest fault' hb hc hr

theorem readsAbove_literal_head {c : Char}
    (hc : [c].all (fun c => c ≠ '\n' && Place.text.isPlain c) = true) (follow : List Char → Prop) :
    ReadsAbove 1 (literal [c]) (literal [c]) (fun cs => cs.head? = some c) follow :=
  ((endsAtLine_literal hc).readsAbove follow).starts fun _ hnot => rejects_literal_of_head hnot

theorem readsAbove_typeRefHere (k m : Nat) (hk : k ≤ m) (follow : List Char → Prop) :
    ReadsAbove 1 (typeRefHere k) (typeRefHere m) (fun _ => True) follow := by
  induction k generalizing m follow with
  | zero => exact ReadsAbove.failure
  | succ k ih =>
    cases m with
    | zero => cases hk
    | succ m =>
      have hnamed := (endsAtLine_nameHere.readsAbove _).bind fun name =>
        (endsAtLine_requiredMark.readsAbove _).bind fun required =>
          ReadsAbove.pure (fun _ => True) (TypeRef.named name required)
      have hlist := (readsAbove_literal_head (c := '[') (by decide) _).bind fun _ =>
        (ih m (Nat.le_of_succ_le_succ hk) _).bind fun item =>
          (readsAbove_literal_head (c := ']') (by decide) _).bind fun _ =>
            (endsAtLine_requiredMark.readsAbove _).bind fun required =>
              ReadsAbove.pure (fun _ => True) (TypeRef.list item required)
      refine (ReadsAbove.orElse hnamed (hlist.shorter (by decide)) ?_).startingAnyhow.followedBy
        fun _ _ => trivial
      intro cs fault a rest fault' hfirst _ _
      refine Rejects.bind_left (Rejects.bind_left (rejects_charWhere fun c hc => ?_)) fault
      rw [hfirst] at hc
      cases hc
      rfl

theorem readsAbove_typeRef (follow : List Char → Prop) :
    ReadsAbove 1 typeRef typeRef (fun _ => True) follow :=
  (ReadsAbove.sized fun k m hk => readsAbove_typeRefHere k m hk follow).behind

end Tokens

section Values

variable {cs : List Char} {test : Char → Bool}

/-- A character that is not ignored is next if it comes first. -/
theorem nextChar?_of_head {c : Char} (test : Char → Bool)
    (ht : [' ', ',', '\t', Char.ofNat 0xFEFF, '\n', '\r', '#'].any test = false)
    (hc : c ∈ cs.head?) (h : test c = true) : c ∈ nextChar? cs := by
  obtain ⟨more, rfl⟩ := List.head?_eq_some_iff.1 hc
  rw [nextChar?, skipIgnored_cons_of ht h]
  rfl

theorem rejects_number_of_next (h : ∀ c ∈ nextChar? cs, (c = '-' || c.isDigit) = false) :
    Rejects number cs := by
  refine rejects_number fun c hc => ?_
  have hnot : (c = '-' || c.isDigit) = false :=
    Bool.eq_false_iff.2 fun ht => by
      have hnext : c ∈ nextChar? cs :=
        nextChar?_of_head (fun c => c = '-' || c.isDigit) (by decide) hc ht
      rw [h c hnext] at ht
      cases ht
  simpa using hnot

theorem rejects_wordValue_of_head (h : ∀ c ∈ cs.head?, startsName c = false) :
    Rejects wordValue cs := by
  have hword (c : Char) (more : List Char) (hc : startsName c = true) :
      Rejects (literal (c :: more)) cs := by
    refine rejects_literal_of_head fun he => ?_
    rw [h c he] at hc
    cases hc
  exact (hword 't' _ rfl).bind_left.orElse
    ((hword 'f' _ rfl).bind_left.orElse (hword 'n' _ rfl).bind_left)

theorem rejects_wordValue_of_next (h : ∀ c ∈ nextChar? cs, startsName c = false) :
    Rejects wordValue cs := by
  refine rejects_wordValue_of_head fun c hc => Bool.eq_false_iff.2 fun ht => ?_
  rw [h c (nextChar?_of_head startsName (by decide) hc ht)] at ht
  cases ht

/-- A name for a value of an enumeration is no other value. -/
theorem wordValue_of_enumName {fault : Option Fault} {r : String × Reading}
    (h : enumName ⟨cs, fault⟩ = some r) : wordValue ⟨cs, fault⟩ = none := by
  by_cases hs : ∃ c ∈ cs.head?, startsName c = true
  · obtain ⟨c, hc, ht⟩ := hs
    obtain ⟨more, rfl⟩ := List.head?_eq_some_iff.1 hc
    cases hw : wordValue ⟨c :: more, fault⟩ with
    | none => rfl
    | some _ =>
      simp only [enumName, bind_apply, ignored_apply, skipIgnored_of_startsName ht,
        Option.bind_some, Parser.absent, hw] at h
      cases h
  · refine rejects_wordValue_of_head (fun c hc => ?_) fault
    exact Bool.eq_false_iff.2 fun ht => hs ⟨c, hc, ht⟩

theorem ReadsAbove.orElse_next {n : Nat} {p p' q q' : Parser α} {test test' : Char → Bool}
    {follow : List Char → Prop} (hp : ReadsAbove n p p' (NextIs test) follow)
    (hq : ReadsAbove n q q' (NextIs test') follow)
    (hpass : ∀ cs, NextIs test' cs → Rejects p' cs) :
    ReadsAbove n (p <|> q) (p' <|> q') (NextIs fun c => test c || test' c) follow := by
  have hall := hp.orElse hq fun cs fault _ _ _ hnext _ _ => hpass cs hnext fault
  refine hall.starting fun cs h => ?_
  rcases h with ⟨c, hc, ht⟩ | ⟨c, hc, ht⟩
  · exact ⟨c, hc, Bool.or_eq_true_iff.2 (.inl ht)⟩
  · exact ⟨c, hc, Bool.or_eq_true_iff.2 (.inr ht)⟩

theorem readsAbove_number (follow : List Char → Prop) :
    ReadsAbove 1 number number (fun _ => True) follow := by
  refine ReadsAbove.bind (n := 0) (endsAtLine_numberText.readsAbove follow) fun text => ?_
  split
  · exact ReadsAbove.pure _ _
  · exact (ReadsAbove.note _).bind fun _ => ReadsAbove.pure _ _
  · exact ReadsAbove.failure

theorem readsAbove_word (follow : List Char → Prop) :
    ReadsAbove 1 (wordValue <|> Value.enum <$> enumName) (wordValue <|> Value.enum <$> enumName)
      (NextIs startsName) follow := by
  have hword : ReadsAbove 1 wordValue wordValue (NextIs startsName) follow :=
    ((endsAtLine_wordValue.mono (by decide)).readsAbove follow).starts fun cs hnot =>
      rejects_wordValue_of_next fun c hc => Bool.eq_false_iff.2 fun ht => hnot ⟨c, hc, ht⟩
  refine (hword.orElse ((readsAbove_enumName follow).map _) ?_).starting fun _ h => h.elim id id
  intro cs fault a rest fault' _ _ hr
  obtain ⟨⟨name, r⟩, he, -⟩ := Option.bind_eq_some_iff.1 hr
  exact wordValue_of_enumName he

theorem readsAbove_mark (mark : String) (c : Char) (hm : mark.toList = [c])
    (hc : c ≠ '\n' ∧ Place.text.isPlain c = true) (follow : List Char → Prop) :
    ReadsAbove 1 (symbol mark) (symbol mark) (NextIs (· = c)) follow := by
  refine (readsAbove_symbol ?_ ?_ follow).starting fun cs h => h.nextIs ?_
  · rw [hm, List.all_cons, List.all_nil, Bool.and_true, Bool.and_eq_true]
    exact ⟨decide_eq_true hc.1, hc.2⟩
  · rw [hm]
    exact Nat.le_refl 1
  · rw [hm]
    exact decide_eq_true rfl

theorem NextIs.not {test' : Char → Bool} (h : NextIs test cs)
    (hd : ∀ c, test c = true → test' c = false) : ∀ c ∈ nextChar? cs, test' c = false := by
  obtain ⟨c, hc, ht⟩ := h
  intro d hm
  rw [Option.mem_unique hm hc]
  exact hd c ht

theorem NextIs.imp {test' : Char → Bool} (h : NextIs test cs)
    (ht : ∀ c, test c = true → test' c = true) : NextIs test' cs := by
  obtain ⟨c, hc, h⟩ := h
  exact ⟨c, hc, ht c h⟩

theorem NextIs.ne {c : Char} (h : NextIs test cs) (hc : test c = false) :
    nextChar? cs ≠ some c := by
  obtain ⟨d, hd, ht⟩ := h
  intro he
  rw [Option.mem_unique hd he, hc] at ht
  cases ht

theorem NextIs.rejects {p : Parser α} {c : Char} (h : NextIs (· = c) cs) (hs : SkipsIgnored p)
    (hp : ∀ more, Rejects p (c :: more)) : Rejects p cs := by
  obtain ⟨d, hd, hc⟩ := h
  obtain ⟨more, he⟩ := List.head?_eq_some_iff.1 hd
  rw [hs.rejects_iff, he, of_decide_eq_true hc]
  exact hp more

theorem ReadsAbove.enclosed {n : Nat} {p p' : Parser α} {first : List Char → Prop}
    (mark mark' : String) {c c' : Char} (hm : mark.toList = [c])
    (hc : c ≠ '\n' ∧ Place.text.isPlain c = true) (hm' : mark'.toList = [c'])
    (hc' : c' ≠ '\n' ∧ Place.text.isPlain c' = true)
    (hp : ReadsAbove n p p' first (NextIs (· = c'))) (g : α → β) (follow : List Char → Prop) :
    ReadsAbove 1
      (symbol mark >>= fun _ => p >>= fun a => symbol mark' >>= fun _ => Pure.pure (g a))
      (symbol mark >>= fun _ => p' >>= fun a => symbol mark' >>= fun _ => Pure.pure (g a))
      (NextIs (· = c)) follow :=
  (readsAbove_mark _ _ hm hc _).bind_left fun _ => hp.bind fun _ =>
    (readsAbove_mark _ _ hm' hc' _).bind fun _ => ReadsAbove.pure _ _

theorem readsAbove_value (k m : Nat) (hk : k ≤ m) (follow : List Char → Prop) :
    ReadsAbove 1 (value k) (value m) (fun _ => True) follow := by
  induction k generalizing m follow with
  | zero => exact ReadsAbove.failure
  | succ k ih =>
    cases m with
    | zero => cases hk
    | succ m =>
      have hitem (follow) := ih m (Nat.le_of_succ_le_succ hk) follow
      have hnone (more : List Char) : Rejects (value m) (']' :: more) := by
        cases m <;> exact fun _ => rfl
      have hitems := (hitem fun _ => True).many (NextIs (· = ']')) (fun _ _ => trivial)
        fun cs h => ⟨trivial, h.rejects (Value.skipsIgnored_value m) hnone⟩
      have hlist := ReadsAbove.enclosed "[" "]" rfl (by decide) rfl (by decide)
        hitems Value.list follow
      have hfield := (readsAbove_name _).bind fun name =>
        (readsAbove_mark ":" ':' rfl (by decide) _).bind fun _ =>
          (hitem _).bind fun value => ReadsAbove.pure (fun _ => True) (name, value)
      have hfields := hfield.many (NextIs (· = '\x7d')) (fun _ _ => trivial) fun cs h =>
        ⟨trivial, h.rejects (skipsIgnored_name.bind _) fun _ => Rejects.bind_left fun _ => rfl⟩
      have hobject := ReadsAbove.enclosed "\x7b" "\x7d" rfl (by decide) rfl
        (by decide) hfields (fun fields => Value.object
          (fields.foldl (fun done entry => setEntry entry.1 entry.2 done) [])) follow
      have hstring := ((readsAbove_string follow).map Value.str).shorter (Nat.le_succ 1)
      -- from the last alternative on: the next character tells each from those behind it
      have hbrackets := hlist.orElse_next hobject fun cs h =>
        (rejects_symbol_of_next rfl (h.ne (by decide))).bind_left
      have hwords := (readsAbove_word follow).orElse_next hbrackets fun cs h => by
        have hnot : ∀ c ∈ nextChar? cs, startsName c = false := h.not fun c hc => by
          rw [Bool.or_eq_true, decide_eq_true_eq, decide_eq_true_eq] at hc
          rcases hc with rfl | rfl <;> rfl
        exact (rejects_wordValue_of_next hnot).orElse ((rejects_enumName_of_next hnot).map _)
      have hstrings := hstring.orElse_next hwords fun cs h =>
        (rejects_string_of_next (h.ne (by decide))).map _
      have hall := (readsAbove_number follow).orElse hstrings fun cs fault _ _ _ h _ _ =>
        rejects_number_of_next (h.not fun c hc => by
          simp only [Bool.or_eq_true, decide_eq_true_eq] at hc
          rcases hc with rfl | hn | rfl | rfl
          · rfl
          · rw [isDigit_of_startsName hn, Bool.or_false]
            rw [decide_eq_false_iff_not]
            rintro rfl
            cases hn
          · rfl
          · rfl) fault
      rw [orElse_assoc, orElse_assoc] at hall
      exact ReadsAbove.behind (n := 0) hall.startingAnyhow

theorem readsAbove_anyValue (follow : List Char → Prop) :
    ReadsAbove 1 anyValue anyValue (fun _ => True) follow :=
  ReadsAbove.sized (p := fun length => value (length + 1)) fun k m hk =>
    readsAbove_value (k + 1) (m + 1) (Nat.succ_le_succ hk) follow

theorem readsAbove_argument (follow : List Char → Prop) :
    ReadsAbove 1 argument argument (NextIs startsName) follow :=
  (readsAbove_name _).bind_left fun _ => (readsAbove_mark ":" ':' rfl (by decide) _).bind fun _ =>
    (readsAbove_anyValue _).bind fun _ => ReadsAbove.pure _ _

end Values

section Fields

variable {n : Nat} {p : Parser α} {first follow stop : List Char → Prop}

theorem ReadsAbove.parenthesized (hp : ReadsAbove n p p first follow)
    (hnext : ∀ cs, first cs → follow cs)
    (hstop : ∀ cs, NextIs (· = ')') cs → follow cs ∧ Rejects p cs) :
    ReadsAbove 0 (optional? (symbol "(" >>= fun _ => some' p >>= fun as =>
        symbol ")" >>= fun _ => Pure.pure as))
      (optional? (symbol "(" >>= fun _ => some' p >>= fun as =>
        symbol ")" >>= fun _ => Pure.pure as)) (fun _ => True) (NextNot ['(']) := by
  have hall := ReadsAbove.enclosed "(" ")" rfl (by decide) rfl (by decide)
    (hp.some _ hnext hstop) id fun _ => True
  refine (hall.optional _ fun cs h => ⟨trivial, ?_⟩).startingAnyhow
  exact (rejects_symbol_of_next rfl (h.ne (by decide))).bind_left

theorem readsAbove_directive :
    ReadsAbove 1 directive directive (NextIs (· = '@')) (NextNot ['(']) := by
  have harguments := (readsAbove_argument fun _ => True).parenthesized (fun _ _ => trivial)
    fun _ h => ⟨trivial, h.rejects (skipsIgnored_name.bind _) fun _ =>
      Rejects.bind_left fun _ => rfl⟩
  exact (readsAbove_mark "@" '@' rfl (by decide) _).bind_left fun _ =>
    (readsAbove_name _).bind fun _ => harguments.bind fun _ => ReadsAbove.pure _ _

theorem rejects_directive {cs : List Char} (h : nextChar? cs ≠ some '@') : Rejects directive cs :=
  (rejects_symbol_of_next rfl h).bind_left

theorem readsAbove_directives (stop : List Char → Prop)
    (hstop : ∀ cs, stop cs → NextNot ['@', '('] cs) :
    ReadsAbove 0 directives directives (fun cs => NextIs (· = '@') cs ∨ stop cs) stop :=
  readsAbove_directive.many stop (fun _ h => h.nextNot (by decide)) fun cs h =>
    ⟨(hstop cs h).mono (by decide), rejects_directive ((hstop cs h).ne (by decide))⟩

theorem ReadsAbove.described {p p' : Option String → Parser α}
    (hp : ∀ d, ReadsAbove n (p d) (p' d) (NextIs startsName) follow) :
    ReadsAbove n (optional? string >>= p) (optional? string >>= p') (NextIs startsLine) follow := by
  have hstring := (readsAbove_string (NextIs startsName)).optional (NextIs startsName)
    fun cs h => ⟨h, rejects_string_of_next (h.ne rfl)⟩
  refine (hstring.bind_right hp).starting fun cs h => ?_
  rcases h with h | h
  · exact h.imp fun c hc => Bool.or_eq_true_iff.2 (.inr hc)
  · exact h.imp fun c hc => Bool.or_eq_true_iff.2 (.inl hc)

/-- Directives, and then the end of what they are applied to. -/
theorem readsAbove_lastDirectives : ReadsAbove 0 directives directives (fun _ => True)
    (NextNot continuations) :=
  (readsAbove_directives _ fun _ h => h.mono (by decide)).startingAnyhow

theorem readsAbove_inputValue :
    ReadsAbove 1 inputValue inputValue (NextIs startsLine) (NextNot continuations) := by
  have hdefault := ((readsAbove_mark "=" '=' rfl (by decide) _).bind fun _ =>
    readsAbove_anyValue fun _ => True).optional (NextNot ['=']) fun cs h =>
      ⟨trivial, (rejects_symbol_of_next rfl (h.ne (by decide))).bind_left⟩
  have hdirectives : ReadsAbove 0 directives directives (NextNot ['=']) (NextNot continuations) :=
    (readsAbove_directives _ fun _ h => h.mono (by decide)).starting fun _ h =>
      h.elim (·.nextNot (by decide)) (·.mono (by decide))
  exact ReadsAbove.described fun d => (readsAbove_name _).bind_left fun _ =>
    (readsAbove_mark ":" ':' rfl (by decide) _).bind fun _ => (readsAbove_typeRef _).bind fun _ =>
      hdefault.bind fun _ => hdirectives.bind fun _ => ReadsAbove.pure _ _

theorem readsAbove_arguments :
    ReadsAbove 0 arguments arguments (fun _ => True) (NextNot ['(']) :=
  ReadsAbove.bind (n := 0) (readsAbove_inputValue.parenthesized (fun _ h => h.nextNot (by decide))
    fun _ h => ⟨h.nextNot (by decide), h.rejects InputValue.skipsIgnored_inputValue fun _ _ => rfl⟩)
      fun _ => ReadsAbove.pure _ _

theorem readsAbove_field :
    ReadsAbove 1 field field (NextIs startsLine) (NextNot continuations) := by
  have hcolon : ReadsAbove 1 (symbol ":") (symbol ":") (NextNot ['(']) fun _ => True :=
    (readsAbove_mark ":" ':' rfl (by decide) _).starting fun _ h => h.nextNot (by decide)
  exact ReadsAbove.described fun d => (readsAbove_name _).bind_left fun _ =>
    readsAbove_arguments.bind fun _ => hcolon.bind fun _ => (readsAbove_typeRef _).bind fun _ =>
      readsAbove_lastDirectives.bind fun _ => ReadsAbove.pure _ _

theorem readsAbove_enumValue :
    ReadsAbove 1 enumValue enumValue (NextIs startsLine) (NextNot continuations) :=
  ReadsAbove.described fun _ => (readsAbove_enumName _).bind_left fun _ =>
    readsAbove_lastDirectives.bind fun _ => ReadsAbove.pure _ _

end Fields

end ApiStack.Sdl
