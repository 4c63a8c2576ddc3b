import ApiStack.Compile.Functions
import ApiStack.Proofs.Failure
import ApiStack.Proofs.Json.Same
import ApiStack.Proofs.OrderedMap

namespace ApiStack.Compile

theorem run_lift {r r' : Except Failure α} (h : r = r') (fs : Functions) :
    (liftM r : Build α).run fs = (r', fs) :=
  congrArg (·, fs) h

abbrev Definitions := List (String × Json)

def embedAll : Definitions → Build Unit
  | [] => return ()
  | (name, definition) :: rest => do
    embed name definition
    embedAll rest

/-- Definitions are embedded, and then there is a result. -/
def declaring (ds : Definitions) (r : Except Failure α) : Build α := do
  embedAll ds
  r

theorem embedAll_append (ds es : Definitions) :
    embedAll (ds ++ es) = (do embedAll ds; embedAll es) := by
  induction ds with
  | nil => simp only [List.nil_append, embedAll, pure_bind]
  | cons d ds ih => simp only [List.cons_append, embedAll, ih, bind_assoc]

theorem embed_eq_declaring (name : String) (definition : Json) :
    embed name definition = declaring [(name, definition)] (.ok ()) := by
  change embed name definition = (do (do embed name definition; pure ()); pure ())
  simp only [bind_pure_unit]

theorem declaring_ok_bind {ds es : Definitions} {a : α} {f : α → Build β} {r : Except Failure β}
    (hf : f a = declaring es r) : declaring ds (.ok a) >>= f = declaring (ds ++ es) r := by
  have hd : (declaring ds (.ok a) : Build α) = (do embedAll ds; pure a) := rfl
  rw [hd, declaring, embedAll_append, bind_assoc, bind_assoc]
  simp only [pure_bind, hf, declaring]

theorem declaring_error_bind (ds : Definitions) (failure : Failure) (f : α → Build β) :
    declaring ds (.error failure) >>= f = declaring ds (.error failure) := by
  have hd (γ : Type) : (declaring ds (.error failure) : Build γ) =
      (do embedAll ds; throw failure) := rfl
  rw [hd, hd, bind_assoc]
  rfl

/-- A part amounts to embedding definitions and then giving a result; if the names of the
definitions are known, a result that is given has some property. -/
def Settles (known : String → Prop) (b : Build α) (P : α → Prop) : Prop :=
  ∃ ds r, b = declaring ds r ∧ ((∀ d ∈ ds, known d.1) → ∀ a, r = .ok a → P a)

variable {known : String → Prop}

theorem Settles.pure {a : α} {P : α → Prop} (h : P a) : Settles known (Pure.pure a) P := by
  refine ⟨[], .ok a, rfl, ?_⟩
  intro _ a' ha
  cases ha
  exact h

theorem Settles.lift {r : Except Failure α} {P : α → Prop} (h : ∀ a, r = .ok a → P a) :
    Settles known (liftM r) P :=
  ⟨[], r, rfl, fun _ => h⟩

theorem Settles.lift_eq (r : Except Failure α) :
    Settles known (liftM r) fun a => r = .ok a :=
  .lift fun _ h => h

theorem Settles.throw (failure : Failure) (P : α → Prop) :
    Settles known (throw failure) P :=
  ⟨[], .error failure, rfl, fun _ _ h => by cases h⟩

theorem Settles.throw_bind (failure : Failure) (f : α → Build β) (P : β → Prop) :
    Settles known (MonadExcept.throw failure >>= f) P :=
  ⟨[], .error failure, declaring_error_bind [] failure f, fun _ _ h => by cases h⟩

theorem Settles.embed {name : String} {definition : Json} {P : Unit → Prop}
    (h : known name → P ()) : Settles known (embed name definition) P := by
  refine ⟨[(name, definition)], .ok (), embed_eq_declaring name definition, ?_⟩
  intro hk a _
  exact h (hk _ (List.mem_singleton_self _))

theorem Settles.mono {b : Build α} {P Q : α → Prop} (h : Settles known b P)
    (hPQ : ∀ a, P a → Q a) : Settles known b Q := by
  obtain ⟨ds, r, he, hP⟩ := h
  exact ⟨ds, r, he, fun hk a ha => hPQ a (hP hk a ha)⟩

theorem Settles.bind {b : Build α} {f : α → Build β} {P : α → Prop} {Q : β → Prop}
    (hb : Settles known b P) (hf : ∀ a, Settles known (f a) fun c => P a → Q c) :
    Settles known (b >>= f) Q := by
  obtain ⟨ds, r, rfl, hP⟩ := hb
  cases r with
  | error failure =>
    exact ⟨ds, .error failure, declaring_error_bind ds failure f, fun _ _ h => by cases h⟩
  | ok a =>
    obtain ⟨es, r, he, hQ⟩ := hf a
    refine ⟨ds ++ es, r, declaring_ok_bind he, ?_⟩
    intro hk c hc
    have hd : ∀ d ∈ ds, known d.1 := fun d hd => hk d (List.mem_append_left es hd)
    have he' : ∀ d ∈ es, known d.1 := fun d hd => hk d (List.mem_append_right ds hd)
    exact hQ he' c hc (hP hd a rfl)

theorem Settles.map {b : Build α} {P : α → Prop} {Q : β → Prop} {f : α → β}
    (hb : Settles known b P) (hf : ∀ a, P a → Q (f a)) : Settles known (do return f (← b)) Q :=
  hb.bind fun a => .pure (hf a)

theorem Settles.mapM {l : List α} {f : α → Build β} {P : α → β → Prop}
    (h : ∀ a ∈ l, Settles known (f a) (P a)) :
    Settles known (l.mapM f) (List.Forall₂ P l) := by
  induction l with
  | nil => exact .pure .nil
  | cons a l ih =>
    rw [List.mapM_cons]
    apply (h a List.mem_cons_self).bind
    intro b
    apply (ih fun x hx => h x (List.mem_cons_of_mem _ hx)).map
    intro bs hbs hb
    exact .cons hb hbs

theorem run_embed (name : String) (definition : Json) (fs : Functions) :
    (embed name definition).run fs =
      match fs.get? name with
      | some known =>
        if known.same definition then (.ok (), fs)
        else (.error (.misconfigured (.functionTwice name)), fs)
      | none => (.ok (), fs.insert name definition) := by
  have he : (embed name definition).run fs =
      (match fs.get? name with
        | some known =>
          if !known.same definition then throw (.misconfigured (.functionTwice name)) else pure ()
        | none => modify fun fs => fs.insert name definition : Build Unit).run fs := rfl
  rw [he]
  cases fs.get? name with
  | none => rfl
  | some known => cases hs : known.same definition <;> simp only [hs] <;> rfl

/-- The functions after some definitions were embedded: those there were, and under each name of a
definition an equal one that was there or is among them. -/
structure Embeds (fs : Functions) (ds : Definitions) (fs' : Functions) : Prop where
  keeps {name : String} {k : Json} : fs.get? name = some k → fs'.get? name = some k
  holds {name : String} {d : Json} : (name, d) ∈ ds →
    ∃ k, fs'.get? name = some k ∧ k.same d = true
  only {name : String} {k : Json} : fs'.get? name = some k →
    fs.get? name = some k ∨ (name, k) ∈ ds

theorem Embeds.nil (fs : Functions) : Embeds fs [] fs where
  keeps h := h
  holds h := by cases h
  only h := .inl h

theorem Embeds.trans {fs mid fs' : Functions} {ds es : Definitions} (hd : Embeds fs ds mid)
    (he : Embeds mid es fs') : Embeds fs (ds ++ es) fs' where
  keeps h := he.keeps (hd.keeps h)
  holds h := by
    rcases List.mem_append.1 h with h | h
    · obtain ⟨k, hk, hs⟩ := hd.holds h
      exact ⟨k, he.keeps hk, hs⟩
    · exact he.holds h
  only h := by
    rcases he.only h with h | h
    · exact (hd.only h).imp id (List.mem_append_left es)
    · exact .inr (List.mem_append_right ds h)

theorem Embeds.old {fs : Functions} {name : String} {known definition : Json}
    (hk : fs.get? name = some known) (hs : known.same definition = true) :
    Embeds fs [(name, definition)] fs where
  keeps h := h
  holds h := by
    cases List.mem_singleton.1 h
    exact ⟨known, hk, hs⟩
  only h := .inl h

theorem Embeds.new {fs : Functions} {name : String} (hn : fs.get? name = none)
    (definition : Json) : Embeds fs [(name, definition)] (fs.insert name definition) where
  keeps {name'} {k} h := by
    have hne : name' ≠ name := by
      rintro rfl
      rw [hn] at h
      cases h
    rw [OrderedMap.get?_insert, if_neg hne]
    exact h
  holds h := by
    cases List.mem_singleton.1 h
    exact ⟨definition, by rw [OrderedMap.get?_insert, if_pos rfl], definition.same_refl⟩
  only {name'} {k} h := by
    rw [OrderedMap.get?_insert] at h
    by_cases he : name' = name
    · rw [if_pos he] at h
      cases h
      exact .inr (by rw [he]; exact List.mem_singleton_self _)
    · rw [if_neg he] at h
      exact .inl h

theorem Embeds.of_embed {name : String} {definition : Json} {fs fs' : Functions}
    (h : (embed name definition).run fs = (.ok (), fs')) :
    Embeds fs [(name, definition)] fs' := by
  rw [run_embed] at h
  split at h
  · next known hk =>
    split at h
    · next hs =>
      cases h
      exact .old hk hs
    · cases h
  · next hk =>
    cases h
    exact .new hk definition

/-- Every definition that was embedded is there afterwards, and nothing else is new. -/
theorem Embeds.of_embedAll {ds : Definitions} {fs fs' : Functions}
    (h : (embedAll ds).run fs = (.ok (), fs')) : Embeds fs ds fs' := by
  induction ds generalizing fs with
  | nil =>
    cases h
    exact .nil _
  | cons d ds ih =>
    obtain ⟨u, mid, hd, hr⟩ := run_bind_eq_ok_iff.1 h
    exact (Embeds.of_embed hd).trans (ih hr)

theorem Settles.run_eq_ok {b : Build α} {P : α → Prop} {fs fs' : Functions} {a : α}
    (h : Settles known b P) (hr : b.run fs = (.ok a, fs')) :
    ∃ ds, Embeds fs ds fs' ∧ ((∀ d ∈ ds, known d.1) → P a) := by
  obtain ⟨ds, r, rfl, hP⟩ := h
  obtain ⟨u, mid, hu, he⟩ := run_bind_eq_ok_iff.1 hr
  obtain ⟨hr', rfl⟩ := Prod.mk.inj (he : (r, mid) = (.ok a, fs'))
  exact ⟨ds, .of_embedAll hu, fun hk => hP hk a hr'⟩

/-- A part was run and gave a result, and the names that functions had afterwards are known. -/
def Gives (known : String → Prop) (b : Build α) (a : α) : Prop :=
  ∃ fs fs', b.run fs = (.ok a, fs') ∧ ∀ name ∈ fs'.keys, known name

theorem Settles.of_gives {b : Build α} {P : α → Prop} {a : α} (h : Settles known b P)
    (hg : Gives known b a) : P a := by
  obtain ⟨fs, fs', hr, hk⟩ := hg
  obtain ⟨ds, hd, hP⟩ := h.run_eq_ok hr
  apply hP
  rintro ⟨name, d⟩ hm
  obtain ⟨k, hk', -⟩ := hd.holds hm
  exact hk name (OrderedMap.mem_keys_iff.2 ⟨k, hk'⟩)

/-- Of parts that are run one after another, each gives its result. -/
theorem Gives.of_mapM {l : List (Build α)} {as : List α} {fs fs' : Functions}
    (hl : ∀ b ∈ l, Settles known b fun _ => True)
    (hr : (l.mapM id).run fs = (.ok as, fs')) (hk : ∀ name ∈ fs'.keys, known name) :
    List.Forall₂ (Gives known) l as := by
  induction l generalizing fs as with
  | nil =>
    cases hr
    exact .nil
  | cons b l ih =>
    rw [List.mapM_cons] at hr
    obtain ⟨a, mid, hb, hr⟩ := run_bind_eq_ok_iff.1 hr
    obtain ⟨as', mid', hm, he⟩ := run_bind_eq_ok_iff.1 hr
    cases he
    have hl' : ∀ b ∈ l, Settles known b fun _ => True :=
      fun b hb => hl b (List.mem_cons_of_mem _ hb)
    obtain ⟨ds, hd, -⟩ := (Settles.mapM (P := fun _ _ => True) hl').run_eq_ok hm
    refine .cons ⟨fs, mid, hb, ?_⟩ (ih hl' hm)
    intro name hn
    obtain ⟨k, hk'⟩ := OrderedMap.mem_keys_iff.1 hn
    exact hk name (OrderedMap.mem_keys_iff.2 ⟨k, hd.keeps hk'⟩)

/-- Definitions with one name are equal. -/
def Consistent (ds : Definitions) : Prop :=
  ∀ name d e, (name, d) ∈ ds → (name, e) ∈ ds → d.same e = true

theorem Consistent.of_embedAll {ds : Definitions} {fs fs' : Functions}
    (h : (embedAll ds).run fs = (.ok (), fs')) : Consistent ds := by
  intro name d e hd he
  have hb := Embeds.of_embedAll h
  obtain ⟨k, hk, hkd⟩ := hb.holds hd
  obtain ⟨k', hk', hke⟩ := hb.holds he
  cases hk.symm.trans hk'
  exact Json.same_trans (Json.same_symm hkd) hke

/-- Consistent definitions that agree with those there are can be embedded. -/
theorem Consistent.exists_run {ds : Definitions} {fs : Functions} (hc : Consistent ds)
    (hf : ∀ name k d, fs.get? name = some k → (name, d) ∈ ds → k.same d = true) :
    ∃ fs', (embedAll ds).run fs = (.ok (), fs') := by
  induction ds generalizing fs with
  | nil => exact ⟨fs, rfl⟩
  | cons head ds ih =>
    obtain ⟨name, d⟩ := head
    have hc' : Consistent ds := fun n a b ha hb =>
      hc n a b (List.mem_cons_of_mem _ ha) (List.mem_cons_of_mem _ hb)
    obtain ⟨mid, hm⟩ : ∃ mid, (embed name d).run fs = (.ok (), mid) := by
      rw [run_embed]
      cases hk : fs.get? name with
      | none => exact ⟨_, rfl⟩
      | some known => exact ⟨fs, if_pos (hf name known d hk List.mem_cons_self)⟩
    -- what is there now was there before or is the first definition
    have hf' : ∀ n k e, mid.get? n = some k → (n, e) ∈ ds → k.same e = true := by
      intro n k e hk he
      rcases (Embeds.of_embed hm).only hk with hk | hk
      · exact hf n k e hk (List.mem_cons_of_mem _ he)
      · cases List.mem_singleton.1 hk
        exact hc name d e List.mem_cons_self (List.mem_cons_of_mem _ he)
    obtain ⟨fs', h⟩ := ih hc' hf'
    exact ⟨fs', run_bind_eq_ok_iff.2 ⟨(), mid, hm, h⟩⟩

theorem exists_run_embedAll_iff {ds : Definitions} :
    (∃ fs, (embedAll ds).run .empty = (.ok (), fs)) ↔ Consistent ds := by
  constructor
  · rintro ⟨fs, h⟩
    exact .of_embedAll h
  · intro h
    apply h.exists_run
    intro name k d hk
    cases hk

/-- Embedding the same definitions in another order makes the same names stand for equal
definitions. -/
theorem get?_of_perm {ds es : Definitions} {fs fs' : Functions} (hp : ds.Perm es)
    (hd : (embedAll ds).run .empty = (.ok (), fs)) (he : (embedAll es).run .empty = (.ok (), fs'))
    (name : String) :
    match fs.get? name, fs'.get? name with
    | some d, some e => d.same e = true
    | none, none => True
    | _, _ => False := by
  have hbd := Embeds.of_embedAll hd
  have hbe := Embeds.of_embedAll he
  cases hk : fs.get? name with
  | some d =>
    have hm : (name, d) ∈ es := hp.mem_iff.1 ((hbd.only hk).resolve_left nofun)
    obtain ⟨e, hek, hs⟩ := hbe.holds hm
    rw [hek]
    exact Json.same_symm hs
  | none =>
    cases hk' : fs'.get? name with
    | none => trivial
    | some e =>
      have hm : (name, e) ∈ ds := hp.mem_iff.2 ((hbe.only hk').resolve_left nofun)
      obtain ⟨d, hdk, hs⟩ := hbd.holds hm
      rw [hk] at hdk
      cases hdk

end ApiStack.Compile
