import ApiStack.Proofs.Sdl.DefinitionsAbove
import ApiStack.Proofs.Sdl.WellFormed

namespace ApiStack.Sdl

open Sdl.Parser Sdl.Grammar

theorem document_eq_some_iff {r r' : Reading} {d : Document} : document r = some (d, r') ↔
    ∃ last, some' definition r = some (d, last) ∧ skipIgnored false last.rest = [] ∧
      r' = ⟨[], last.fault⟩ := by
  have hget (r : Reading) : (get : Parser Reading) r = some (r, r) := rfl
  rw [document, bind_apply, Option.bind_eq_some_iff]
  constructor
  · rintro ⟨⟨a, last⟩, ha, he⟩
    simp only [bind_apply, ignored_apply, Option.bind_some, hget] at he
    split at he
    · cases he
    · next hempty =>
      have hrest : skipIgnored false last.rest = [] := by simpa using hempty
      rw [hrest] at he
      cases he
      exact ⟨last, ha, hrest, rfl⟩
  · rintro ⟨last, ha, hrest, rfl⟩
    refine ⟨(d, last), ha, ?_⟩
    simp only [bind_apply, ignored_apply, Option.bind_some, hget, hrest]
    rfl

theorem parse_eq_ok_iff {source : String} {d : Document} : parse source = .ok d ↔
    ∃ rest, some' definition ⟨source.toList, none⟩ = some (d, ⟨rest, none⟩) ∧
      skipIgnored false rest = [] := by
  unfold parse
  constructor
  · intro h
    split at h
    · cases h
    · cases h
    · next he =>
      cases h
      obtain ⟨⟨rest, fault⟩, hr, hrest, heq⟩ := document_eq_some_iff.1 he
      cases heq
      exact ⟨rest, hr, hrest⟩
  · rintro ⟨rest, hr, hrest⟩
    rw [document_eq_some_iff.2 ⟨_, hr, hrest, rfl⟩]

section Following

variable {cs cs' : List Char}

theorem FollowsDefinition.of_skip (h : FollowsDefinition cs)
    (he : skipIgnored false cs' = skipIgnored false cs) : FollowsDefinition cs' := by
  refine ⟨fun c hc => h.next c ?_, ?_⟩
  · rwa [nextChar?, he] at hc
  · rw [(skipsIgnored_symbol _).rejects_iff, he, ← (skipsIgnored_symbol _).rejects_iff]
    exact h.implements

theorem followsDefinition_nil : FollowsDefinition [] := ⟨nofun, fun _ => rfl⟩

theorem HeadsOneOf.followsDefinition {keywords : List String} (h : HeadsOneOf keywords cs)
    (hk : "implements" ∉ keywords) : FollowsDefinition cs := by
  obtain ⟨keyword, hmem, h⟩ := h
  exact h.followsDefinition fun he => hk (he ▸ hmem)

theorem rejects_definition_of_blank (h : skipIgnored false cs = []) : Rejects definition cs := by
  rw [Document.skipsIgnored_definition.rejects_iff, h]
  exact fun _ => rfl

end Following

/-- The definitions of a text are read above other text as well, where it goes on with them. -/
theorem definitions_above {cs rest below : List Char} {fault fault' : Option Fault} {d : Document}
    (hb : IsBelow below) (hc : isClosed .text cs = true)
    (h : some' definition ⟨cs, fault⟩ = some (d, ⟨rest, fault'⟩))
    (hf : FollowsDefinition (rest ++ below)) :
    d.length ≤ cs.length ∧ FollowsDefinition (cs ++ below) ∧ ∃ k, below.length < k ∧
      some' definition ⟨cs ++ below, fault⟩ =
        (Parser.manyUpTo definition k ⟨rest ++ below, fault'⟩).map
          fun (more, r) => (d ++ more, r) := by
  have hnext (cs : List Char) (h : HeadsOneOf ["schema", "scalar", "type", "interface", "union",
      "enum", "input", "directive"] cs) : FollowsDefinition cs := h.followsDefinition (by decide)
  obtain ⟨x, others, ⟨mid, fault₁⟩, rfl, hx, ho⟩ := exists_of_some' h
  obtain ⟨hcl, hl, hfirst⟩ := readsAbove_definition cs below fault x mid fault₁ hb hc hx
  obtain ⟨-, hcount, -, hothers⟩ := readsAbove_definition.manyUpTo hnext hb hcl ho
  obtain ⟨hstart, hmany⟩ := hothers hf
  have hmid : FollowsDefinition (mid ++ below) := by
    rcases hstart with hs | rfl
    · exact hnext _ hs
    · exact hf
  obtain ⟨hhead, hx'⟩ := hfirst hmid
  have hfuel : others.length + below.length < (mid ++ below).length + 1 := by
    rw [List.length_append]
    omega
  obtain ⟨k, hk⟩ := Nat.exists_eq_add_of_lt hfuel
  refine ⟨by rw [List.length_cons]; omega, hnext _ hhead, below.length + k + 1, by omega, ?_⟩
  have hlength : (mid ++ below).length + 1 = others.length + (below.length + k + 1) := by omega
  rw [some', bind_of_some hx', bind_apply, Parser.many, hlength, hmany]
  cases Parser.manyUpTo definition (below.length + k + 1) ⟨rest ++ below, fault'⟩ <;> rfl

/-- A text is a document, and can stand behind a definition. -/
structure IsDocument (cs : List Char) (d : Document) : Prop where
  reads : ∃ rest, some' definition ⟨cs, none⟩ = some (d, ⟨rest, none⟩) ∧ skipIgnored false rest = []
  length : d.length ≤ cs.length
  follows : FollowsDefinition cs

theorem isDocument_of_parse {source : String} {d : Document} (h : parse source = .ok d)
    (hc : isClosed .text source.toList = true) : IsDocument source.toList d := by
  obtain ⟨rest, hr, he⟩ := parse_eq_ok_iff.1 h
  have hrest : FollowsDefinition (rest ++ []) := by
    rw [List.append_nil]
    exact followsDefinition_nil.of_skip he
  obtain ⟨hl, hf, -⟩ := definitions_above (show IsBelow [] from nofun) hc hr hrest
  rw [List.append_nil] at hf
  exact ⟨⟨rest, hr, he⟩, hl, hf⟩

theorem IsDocument.parse {source : String} {d : Document} (h : IsDocument source.toList d) :
    parse source = .ok d :=
  parse_eq_ok_iff.2 h.reads

/-- A document stays the same, and goes on with another one that stands below it. -/
theorem IsDocument.append {cs below : List Char} {d d' : Document} (h : IsDocument cs d)
    (hc : isClosed .text cs = true) (h' : IsDocument below d') :
    IsDocument (cs ++ '\n' :: below) (d ++ d') := by
  obtain ⟨rest, hr, he⟩ := h.reads
  obtain ⟨rest', hr', he'⟩ := h'.reads
  have hb : IsBelow ('\n' :: below) := by
    rintro c ⟨⟩
    rfl
  have hskip : skipIgnored false (rest ++ '\n' :: below) = skipIgnored false below := by
    rcases skipIgnored_below false rest hb with ⟨-, hs⟩ | ⟨hne, -⟩
    · exact hs
    · exact (hne he).elim
  obtain ⟨hl, hf, k, hk, hall⟩ := definitions_above hb hc hr (h'.follows.of_skip hskip)
  obtain ⟨x, others, mid, rfl, hx, ho⟩ := exists_of_some' hr'
  refine ⟨⟨rest', ?_, he'⟩, ?_, hf⟩
  · have hx' : definition ⟨rest ++ '\n' :: below, none⟩ = some (x, mid) := by
      rw [Document.skipsIgnored_definition, hskip, ← Document.skipsIgnored_definition]
      exact hx
    cases k with
    | zero => cases hk
    | succ k =>
      have hl' := h'.length
      rw [List.length_cons] at hl' hk
      have hothers := manyUpTo_of_rejects (m := k) ho (rejects_definition_of_blank he' none)
        (by omega)
      rw [hall, manyUpTo_succ_apply, hx']
      simp only
      rw [hothers]
      rfl
  · have hl' := h'.length
    simp only [List.length_append, List.length_cons] at hl' ⊢
    omega

theorem IsDocument.flatten {cs : List Char} {d : Document} {texts : List (List Char)}
    {documents : List Document} (h : IsDocument cs d) (hc : isClosed .text cs = true)
    (hall : List.Forall₂ (fun cs d => IsDocument cs d ∧ isClosed .text cs = true) texts documents) :
    IsDocument (cs ++ texts.flatMap fun text => '\n' :: text) (d ++ documents.flatten) := by
  induction hall generalizing cs d with
  | nil =>
    rw [List.flatMap_nil, List.flatten_nil, List.append_nil, List.append_nil]
    exact h
  | cons hfirst _ ih =>
    rw [List.flatMap_cons, List.flatten_cons, List.cons_append]
    exact h.append hc (ih hfirst.1 hfirst.2)

end ApiStack.Sdl
