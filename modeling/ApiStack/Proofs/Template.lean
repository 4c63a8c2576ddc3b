import ApiStack.Proofs.OrderedMap
import ApiStack.Template
import Mathlib

namespace ApiStack.Template

/-- The text is a name that can stand in a token. -/
structure IsName (name : String) : Prop where
  ne_nil : name.toList ≠ []
  chars : ∀ c ∈ name.toList, isNameChar c = true

instance (name : String) : Decidable (IsName name) :=
  decidable_of_iff (name.toList ≠ [] ∧ ∀ c ∈ name.toList, isNameChar c = true)
    ⟨fun h => ⟨h.1, h.2⟩, fun h => ⟨h.1, h.2⟩⟩

/-- The declared names whose tokens a text begins with. -/
def declaredAt (values : OrderedMap Json) (cs : List Char) : List String :=
  values.keys.filter fun name => IsName name ∧ (tokenText name).toList <+: cs

/-- The declared names whose tokens are in a text, as often as they are and in order. -/
def declaredIn (values : OrderedMap Json) (cs : List Char) : List String :=
  cs.tails.flatMap (declaredAt values)

/-- No declared name has a token in the text. -/
def IsPlain (values : OrderedMap Json) (text : String) : Prop :=
  ∀ name ∈ values.keys, IsName name → ¬(tokenText name).toList <:+: text.toList

/-- A declared name, its value and the literal behind its token. -/
structure Turn where
  name : String
  value : Json
  behind : String

/-- The token, with its value when it is deployed, and the literal. -/
def Turn.parts (t : Turn) : List Json :=
  [Intrinsic.sub (tokenText t.name) (.obj [(t.name, t.value)]), .str t.behind]

/-- The token and the literal as they stand in the template. -/
def Turn.text (t : Turn) : String := tokenText t.name ++ t.behind

/-- Literals and values in turns, a literal first and last. -/
def alternate (first : String) (turns : List Turn) : List Json :=
  .str first :: turns.flatMap Turn.parts

/-- The template is a literal and turns for all tokens of declared names, and no literal has a token
of one. -/
structure Consists (values : OrderedMap Json) (template first : String) (turns : List Turn) :
    Prop where
  text : template = first ++ String.join (turns.map Turn.text)
  names : turns.map Turn.name = declaredIn values template.toList
  value : ∀ t ∈ turns, values.get? t.name = some t.value
  first : IsPlain values first
  behind : ∀ t ∈ turns, IsPlain values t.behind

variable {values : OrderedMap Json} {cs rest : List Char}

theorem toList_tokenText (name : String) :
    (tokenText name).toList = '$' :: '{' :: (name.toList ++ ['}']) := by
  simp [tokenText]

theorem tokenAt?_eq_some_iff {name : List Char} : tokenAt? cs = some (name, rest) ↔
    name ≠ [] ∧ (∀ c ∈ name, isNameChar c = true) ∧
      cs = '$' :: '{' :: (name ++ '}' :: rest) := by
  constructor
  · intro h
    unfold tokenAt? at h
    split at h
    · next inner =>
      split at h
      · next c more ht hd =>
        cases h
        refine ⟨List.cons_ne_nil _ _, ?_, ?_⟩
        · intro c' hc
          rw [← ht] at hc
          exact List.mem_takeWhile_imp hc
        · rw [← ht, ← hd, List.takeWhile_append_dropWhile]
      · cases h
    · cases h
  · rintro ⟨hne, hchars, rfl⟩
    have hbrace : isNameChar '}' = false := by decide
    obtain ⟨c, more, rfl⟩ := List.exists_cons_of_ne_nil hne
    have htake : ((c :: more) ++ '}' :: rest).takeWhile isNameChar = c :: more := by
      rw [List.takeWhile_append_of_pos hchars, List.takeWhile_cons_of_neg (by simp [hbrace]),
        List.append_nil]
    have hdrop : ((c :: more) ++ '}' :: rest).dropWhile isNameChar = '}' :: rest := by
      rw [List.dropWhile_append_of_pos hchars, List.dropWhile_cons_of_neg (by simp [hbrace])]
    simp only [tokenAt?, htake, hdrop]

theorem isName_and_prefix_iff {name : String} :
    IsName name ∧ (tokenText name).toList <+: cs ↔ ∃ rest, tokenAt? cs = some (name.toList, rest) := by
  simp only [tokenAt?_eq_some_iff, toList_tokenText]
  constructor
  · rintro ⟨⟨hne, hchars⟩, rest, rfl⟩
    exact ⟨rest, hne, hchars, by simp⟩
  · rintro ⟨rest, hne, hchars, rfl⟩
    exact ⟨⟨hne, hchars⟩, rest, by simp⟩

theorem declaredAt_of_tokenAt?_eq_none (h : tokenAt? cs = none) : declaredAt values cs = [] := by
  apply List.filter_eq_nil_iff.2
  intro name _ hname
  obtain ⟨rest, hrest⟩ := isName_and_prefix_iff.1 (of_decide_eq_true hname)
  cases h.symm.trans hrest

theorem declaredAt_of_tokenAt?_eq_some {name : List Char} (h : tokenAt? cs = some (name, rest)) :
    declaredAt values cs =
      if values.contains (String.ofList name) then [String.ofList name] else [] := by
  have hiff (name' : String) :
      IsName name' ∧ (tokenText name').toList <+: cs ↔ name' = String.ofList name := by
    rw [isName_and_prefix_iff, h]
    simp only [Option.some.injEq, Prod.mk.injEq, exists_and_left, exists_eq', and_true]
    rw [eq_comm, ← String.toList_inj, String.toList_ofList]
  simp only [declaredAt, hiff]
  rw [List.filter_eq, List.Nodup.count (l := values.keys) values.nodup]
  simp only [OrderedMap.contains_iff]
  split <;> rfl

theorem declaredIn_cons (c : Char) (cs : List Char) :
    declaredIn values (c :: cs) = declaredAt values (c :: cs) ++ declaredIn values cs := by
  rw [declaredIn, List.tails_cons, List.flatMap_cons]
  rfl

theorem declaredIn_nil : declaredIn values [] = [] := by
  rw [declaredIn, List.tails, List.flatMap_singleton]
  exact declaredAt_of_tokenAt?_eq_none rfl

/-- A token is not begun where there is no dollar sign. -/
theorem declaredIn_append_of_notMem {front : List Char} (h : '$' ∉ front) :
    declaredIn values (front ++ rest) = declaredIn values rest := by
  induction front with
  | nil => rfl
  | cons c front ih =>
    obtain ⟨hc, hfront⟩ := not_or.1 (mt List.mem_cons.2 h)
    have hnone : tokenAt? (c :: (front ++ rest)) = none := by
      rw [tokenAt?]
      rintro _ he
      exact hc (List.cons.inj he).1.symm
    rw [List.cons_append, declaredIn_cons, declaredAt_of_tokenAt?_eq_none hnone, ih hfront]
    rfl

def Piece.chars : Piece → List Char
  | .char c => [c]
  | .token name => (tokenText name).toList

def Piece.declared? (values : OrderedMap Json) : Piece → Option String
  | .char _ => none
  | .token name => if values.contains name then some name else none

theorem pieces_of_tokenAt?_eq_some {name : List Char} (h : tokenAt? cs = some (name, rest)) :
    pieces cs = .token (String.ofList name) :: pieces rest := by
  rw [pieces]
  split
  · next he =>
    cases he.symm.trans h
    rfl
  · next he => cases he.symm.trans h

theorem pieces_cons_of_tokenAt?_eq_none {c : Char} (h : tokenAt? (c :: rest) = none) :
    pieces (c :: rest) = .char c :: pieces rest := by
  rw [pieces]
  split
  · next he => cases he.symm.trans h
  · rfl

theorem pieces_nil : pieces [] = [] := by
  rw [pieces]
  rfl

theorem eq_of_tokenAt?_eq_some {name : List Char} (h : tokenAt? cs = some (name, rest)) :
    cs = (tokenText (String.ofList name)).toList ++ rest := by
  rw [(tokenAt?_eq_some_iff.1 h).2.2, toList_tokenText, String.toList_ofList]
  simp

theorem flatMap_chars_pieces (cs : List Char) : (pieces cs).flatMap Piece.chars = cs := by
  induction cs using pieces.induct with
  | case1 cs name rest h ih =>
    rw [pieces_of_tokenAt?_eq_some h, List.flatMap_cons, ih]
    exact (eq_of_tokenAt?_eq_some h).symm
  | case2 => rw [pieces_nil, List.flatMap_nil]
  | case3 c rest h ih =>
    rw [pieces_cons_of_tokenAt?_eq_none h, List.flatMap_cons, ih]
    rfl

/-- The declared names are those of the pieces: what a token holds begins no other token. -/
theorem declaredIn_eq_filterMap (cs : List Char) :
    declaredIn values cs = (pieces cs).filterMap (Piece.declared? values) := by
  induction cs using pieces.induct with
  | case1 cs name rest h ih =>
    obtain ⟨-, hchars, rfl⟩ := tokenAt?_eq_some_iff.1 h
    have hinside : '$' ∉ '{' :: (name ++ ['}']) := by
      have hdollar : isNameChar '$' = false := by decide
      have hname : '$' ∉ name := fun hm => by cases hdollar.symm.trans (hchars _ hm)
      simp [hname]
    have hbehind : declaredIn values ('{' :: (name ++ '}' :: rest)) = declaredIn values rest := by
      rw [← @declaredIn_append_of_notMem values rest _ hinside]
      simp
    rw [declaredIn_cons, declaredAt_of_tokenAt?_eq_some h, hbehind, ih,
      pieces_of_tokenAt?_eq_some h, List.filterMap_cons, Piece.declared?]
    split <;> rfl
  | case2 => rw [pieces_nil, declaredIn_nil, List.filterMap_nil]
  | case3 c rest h ih =>
    rw [pieces_cons_of_tokenAt?_eq_none h, declaredIn_cons, declaredAt_of_tokenAt?_eq_none h, ih]
    rfl

theorem isPlain_iff {text : String} : IsPlain values text ↔ declaredIn values text.toList = [] := by
  simp only [IsPlain, declaredIn, declaredAt, List.flatMap_eq_nil_iff, List.filter_eq_nil_iff,
    decide_eq_true_eq, List.mem_tails, not_and, List.infix_iff_prefix_suffix, not_exists]
  constructor
  · intro h suffix hs name hn hname hp
    exact h name hn hname suffix hp hs
  · intro h name hn hname suffix hp hs
    exact h suffix hs name hn hname hp

/-- Segments are literals and values in turns, with the text and the declared names of the pieces. -/
theorem segments_eq_alternate (literal : List Char) (ps : List Piece) : ∃ first turns,
    segments values literal ps = alternate first turns ∧
    first.toList ++ turns.flatMap (fun t => t.text.toList) =
      literal.reverse ++ ps.flatMap Piece.chars ∧
    turns.map Turn.name = ps.filterMap (Piece.declared? values) ∧
    ∀ t ∈ turns, values.get? t.name = some t.value := by
  induction ps generalizing literal with
  | nil => exact ⟨String.ofList literal.reverse, [], rfl, by simp, rfl, nofun⟩
  | cons p rest ih =>
    cases p with
    | char c =>
      obtain ⟨first, turns, hs, ht, hn, hv⟩ := ih (c :: literal)
      refine ⟨first, turns, hs, ?_, hn, hv⟩
      rw [ht]
      simp [Piece.chars]
    | token name =>
      rw [segments]
      split
      · next value hvalue =>
        obtain ⟨first, turns, hs, ht, hn, hv⟩ := ih []
        refine ⟨String.ofList literal.reverse, ⟨name, value, first⟩ :: turns, ?_, ?_, ?_, ?_⟩
        · rw [hs]
          rfl
        · rw [List.reverse_nil, List.nil_append] at ht
          simp [Turn.text, Piece.chars, ← ht]
        · simp [Piece.declared?, OrderedMap.contains_eq_isSome, hvalue, hn]
        · exact List.forall_mem_cons.2 ⟨hvalue, hv⟩
      · next hvalue =>
        obtain ⟨first, turns, hs, ht, hn, hv⟩ := ih ((tokenText name).toList.reverse ++ literal)
        refine ⟨first, turns, hs, ?_, ?_, hv⟩
        · rw [ht]
          simp [Piece.chars]
        · simp [Piece.declared?, OrderedMap.contains_eq_isSome, hvalue, hn]

theorem declaredAt_sublist_append (front behind : List Char) :
    (declaredAt values front).Sublist (declaredAt values (front ++ behind)) := by
  apply List.monotone_filter_right
  intro name h
  simp only [decide_eq_true_eq] at h ⊢
  exact ⟨h.1, h.2.trans (List.prefix_append _ _)⟩

theorem declaredIn_append_sublist (front behind : List Char) :
    (declaredIn values front ++ declaredIn values behind).Sublist
      (declaredIn values (front ++ behind)) := by
  induction front with
  | nil =>
    rw [declaredIn_nil]
    exact List.Sublist.refl _
  | cons c front ih =>
    rw [List.cons_append, declaredIn_cons, declaredIn_cons, List.append_assoc]
    exact (declaredAt_sublist_append (c :: front) behind).append ih

theorem declaredIn_tokenText {name : String} (hn : IsName name) (hc : values.contains name = true) :
    declaredIn values (tokenText name).toList = [name] := by
  obtain ⟨rest, hrest⟩ := isName_and_prefix_iff.1 ⟨hn, List.prefix_refl (tokenText name).toList⟩
  have hnil : rest = [] := by
    have he := eq_of_tokenAt?_eq_some hrest
    rw [String.ofList_toList] at he
    exact List.self_eq_append_right.1 he
  rw [declaredIn_eq_filterMap, pieces_of_tokenAt?_eq_some hrest, hnil, pieces_nil,
    String.ofList_toList]
  simp [Piece.declared?, hc]

theorem mem_declaredIn {name : String} (h : name ∈ declaredIn values cs) :
    IsName name ∧ values.contains name = true := by
  obtain ⟨suffix, -, hm⟩ := List.mem_flatMap.1 h
  obtain ⟨hk, hname⟩ := List.mem_filter.1 hm
  exact ⟨(of_decide_eq_true hname).1, OrderedMap.contains_iff.2 hk⟩

/-- All declared names of turns and of the literals in them are found in their text. -/
theorem declaredIn_turns_sublist {turns : List Turn}
    (h : ∀ t ∈ turns, IsName t.name ∧ values.contains t.name = true) :
    (turns.flatMap fun t => t.name :: declaredIn values t.behind.toList).Sublist
      (declaredIn values (turns.flatMap fun t => t.text.toList)) := by
  induction turns with
  | nil => exact List.nil_sublist _
  | cons t turns ih =>
    obtain ⟨⟨hn, hc⟩, hturns⟩ := List.forall_mem_cons.1 h
    have htext := @declaredIn_append_sublist values (tokenText t.name).toList t.behind.toList
    rw [declaredIn_tokenText hn hc] at htext
    rw [List.flatMap_cons, List.flatMap_cons, Turn.text, String.toList_append]
    exact (htext.append (ih hturns)).trans (declaredIn_append_sublist _ _)

theorem length_flatMap_cons {α β : Type} (head : α → β) (f : α → List β) (l : List α) :
    (l.flatMap fun a => head a :: f a).length = l.length + (l.flatMap f).length := by
  induction l with
  | nil => rfl
  | cons a l ih =>
    simp only [List.flatMap_cons, List.length_append, List.length_cons, ih]
    omega

/-- Where the turns have all declared names of a text, the literals have none: the names of both
are found in the text, and there are no more than those of the turns. -/
theorem isPlain_literals {first : String} {turns : List Turn}
    (h : turns.map Turn.name =
      declaredIn values (first.toList ++ turns.flatMap fun t => t.text.toList)) :
    IsPlain values first ∧ ∀ t ∈ turns, IsPlain values t.behind := by
  have hdeclared : ∀ t ∈ turns, IsName t.name ∧ values.contains t.name = true := by
    intro t ht
    apply mem_declaredIn
    rw [← h]
    exact List.mem_map_of_mem ht
  have hlength := (((declaredIn_turns_sublist hdeclared).append_left
    (declaredIn values first.toList)).trans (declaredIn_append_sublist _ _)).length_le
  rw [← h, List.length_map, List.length_append, length_flatMap_cons] at hlength
  have hfirst : (declaredIn values first.toList).length = 0 := by omega
  have hbehind : (turns.flatMap fun t => declaredIn values t.behind.toList).length = 0 := by omega
  constructor
  · exact isPlain_iff.2 (List.length_eq_zero_iff.1 hfirst)
  · intro t ht
    exact isPlain_iff.2 (List.flatMap_eq_nil_iff.1 (List.length_eq_zero_iff.1 hbehind) t ht)

theorem get?_mergeValues (api entity : OrderedMap Json) (name : String) :
    (mergeValues api entity).get? name = (entity.get? name).or (api.get? name) := by
  rw [mergeValues, OrderedMap.get?_insertAll]
  congr 1
  apply lookup_perm
  · rw [List.map_reverse]
    exact List.nodup_reverse.2 entity.nodup
  · exact List.reverse_perm _

theorem isDeclared_eq_isSome (p : Piece) : p.isDeclared values = (p.declared? values).isSome := by
  cases p with
  | char c => rfl
  | token name =>
    rw [Piece.isDeclared, Piece.declared?]
    cases values.contains name <;> rfl

theorem any_isDeclared_iff {template : String} :
    (pieces template.toList).any (Piece.isDeclared values) = true ↔ ¬IsPlain values template := by
  rw [isPlain_iff, declaredIn_eq_filterMap, List.filterMap_eq_nil_iff]
  simp only [List.any_eq_true, isDeclared_eq_isSome, Option.isSome_iff_ne_none, not_forall,
    exists_prop, ne_eq]

theorem substitute_of_isPlain {template : String} (h : IsPlain values template) :
    substitute template values = .str template := by
  rw [substitute]
  exact if_neg fun hany => any_isDeclared_iff.1 hany h

theorem substitute_of_not_isPlain {template : String} (h : ¬IsPlain values template) :
    ∃ first turns, turns ≠ [] ∧
      substitute template values =
        .obj [("Fn::Join", .arr [.str "", .arr (alternate first turns)])] ∧
      Consists values template first turns := by
  obtain ⟨first, turns, hs, ht, hn, hv⟩ := @segments_eq_alternate values [] (pieces template.toList)
  rw [List.reverse_nil, List.nil_append, flatMap_chars_pieces] at ht
  rw [← declaredIn_eq_filterMap] at hn
  obtain ⟨hfirst, hbehind⟩ := isPlain_literals (hn.trans (congrArg _ ht.symm))
  refine ⟨first, turns, ?_, ?_, ⟨?_, hn, hv, hfirst, hbehind⟩⟩
  · rintro rfl
    exact h (isPlain_iff.2 hn.symm)
  · rw [substitute, ← hs]
    exact if_pos (any_isDeclared_iff.2 h)
  · rw [← String.toList_inj, String.toList_append, String.toList_join, List.flatMap_map, ht]

def apiValues : OrderedMap Json := .ofList [("table", .str "users"), ("log-level", .str "ALL")]

def resolverValues : OrderedMap Json := .ofList [("table", .str "teams")]

/-- A token where another one would have its name. -/
def nestedToken : String := "$\x7b$\x7btable\x7d\x7d"

example : substitute nestedToken (mergeValues apiValues resolverValues) =
    .obj [("Fn::Join", .arr [.str "", .arr [.str "$\x7b",
      .obj [("Fn::Sub", .arr [.str "$\x7btable\x7d", .obj [("table", .str "teams")]])],
      .str "\x7d"]])] := by
  cbv

theorem pieces_nestedToken :
    pieces nestedToken.toList = [.char '$', .char '{', .token "table", .char '}'] := by
  cbv

end ApiStack.Template
