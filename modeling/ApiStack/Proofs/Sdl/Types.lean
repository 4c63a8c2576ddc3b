import ApiStack.Proofs.Sdl.Fields
import ApiStack.Sdl.Merge

namespace ApiStack.Sdl

open Sdl.Parser Sdl.Grammar

/-- The words that start definitions, or parts of them. -/
def words : List String :=
  ["schema", "scalar", "type", "interface", "union", "enum", "input", "directive", "implements",
    "query", "mutation", "subscription", "repeatable", "on"]

def keywords : List String := "extend" :: words

section Keywords

variable {word keyword : String} {cs rest : List Char}

theorem isName_of_all {s : String}
    (h : (s.toList.head?.any startsName && s.toList.tail.all insideName) = true) : IsName s := by
  rw [Bool.and_eq_true] at h
  cases he : s.toList with
  | nil =>
    rw [he] at h
    cases h.1
  | cons c more =>
    rw [he] at h
    exact ⟨c, more, he, h.1, h.2⟩

theorem isName_of_keyword (h : keyword ∈ keywords) : IsName keyword := by
  have hall : ∀ keyword ∈ keywords, (keyword.toList.head?.any startsName &&
      keyword.toList.tail.all insideName) = true := by decide
  exact isName_of_all (hall keyword h)

theorem reads_keyword (h : keyword ∈ keywords) (cs : List Char) :
    Reads (symbol keyword) (keyword.toList ++ cs) () cs :=
  Reads.token (skipIgnored_name (isName_of_keyword h) cs) (reads_literal _ _)

theorem rejects_keyword (hw : word ∈ keywords) (hk : keyword ∈ keywords) (hne : word ≠ keyword)
    (cs : List Char) : Rejects (symbol word) (keyword.toList ++ cs) := by
  have hall : ∀ word ∈ keywords, ∀ keyword ∈ keywords, word ≠ keyword →
      word.toList.isPrefixOf keyword.toList = false := by decide
  refine Rejects.bind_right (reads_ignored _) (rejects_literal fun hp => ?_)
  rw [skipIgnored_name (isName_of_keyword hk)] at hp
  -- Two fronts of one text, so one of them is the front of the other.
  rcases List.prefix_or_prefix_of_prefix hp (List.prefix_append _ cs) with h | h
  · rw [← List.isPrefixOf_iff_prefix, hall word hw keyword hk hne] at h
    cases h
  · rw [← List.isPrefixOf_iff_prefix, hall keyword hk word hw hne.symm] at h
    cases h

/-- A text does not start with a word, nor is it a definition or extension that does. -/
structure Avoids (word : String) (cs : List Char) : Prop where
  plain : Rejects (symbol word) cs
  definition : ∀ {β : Type} (g : Option String → Parser β),
    Rejects (optional? string >>= fun d => symbol word >>= fun _ => g d) cs
  extension : ∀ {β : Type} (g : Parser β),
    Rejects (symbol "extend" >>= fun _ => symbol word >>= fun _ => g) cs

theorem rejects_keyword_behind {d : Option String} (hw : word ∈ keywords)
    (h : Rejects (symbol word) cs) :
    Rejects (symbol word) ((Printer.description "" d).toList ++ cs) := by
  cases d with
  | none => exact h
  | some text =>
    obtain ⟨more, he⟩ := exists_description_eq "" text
    obtain ⟨c, others, hword, hc, -⟩ := isName_of_keyword hw
    rw [he]
    refine rejects_symbol_of_next hword fun hq => ?_
    cases hq
    cases hc

theorem mem_keywords (h : word ∈ words) : word ∈ keywords := List.mem_cons_of_mem _ h

theorem ne_extend (h : word ∈ words) : word ≠ "extend" := by
  rintro rfl
  exact absurd h (by decide)

theorem avoids_definition (hw : word ∈ words) (hk : keyword ∈ words) (hne : word ≠ keyword)
    (d : Option String) (cs : List Char) :
    Avoids word ((Printer.description "" d).toList ++ (keyword.toList ++ cs)) where
  plain := rejects_keyword_behind (mem_keywords hw)
    (rejects_keyword (mem_keywords hw) (mem_keywords hk) hne cs)
  definition _ := Parser.Rejects.described (fun _ => (skipsIgnored_symbol _).bind _) rfl
    ((isName_of_keyword (mem_keywords hk)).rejects_string cs)
    (rejects_keyword (mem_keywords hw) (mem_keywords hk) hne cs).bind_left
  extension _ := (rejects_keyword_behind (by decide)
    (rejects_keyword (by decide) (mem_keywords hk) (ne_extend hk).symm cs)).bind_left

theorem rejects_definition_of_extension (hw : word ∈ words) (g : Option String → Parser β)
    (cs : List Char) : Rejects (optional? string >>= fun d => symbol word >>= fun _ => g d)
      ("extend".toList ++ cs) :=
  Rejects.bind_right (Reads.optional_none ((isName_of_keyword (by decide)).rejects_string _))
    (rejects_keyword (mem_keywords hw) (by decide) (ne_extend hw) _).bind_left

theorem avoids_extension (hw : word ∈ words) (hk : keyword ∈ words) (hne : word ≠ keyword)
    (cs : List Char) : Avoids word ("extend".toList ++ ' ' :: (keyword.toList ++ cs)) where
  plain := rejects_keyword (mem_keywords hw) (by decide) (ne_extend hw) _
  definition g := rejects_definition_of_extension hw g _
  extension _ := Rejects.bind_right (reads_keyword (by decide) _)
    ((skipsIgnored_symbol word).rejects [' '] rfl
      (rejects_keyword (mem_keywords hw) (mem_keywords hk) hne cs)).bind_left

end Keywords

/-- A text does not go on a definition in front of it. -/
structure EndsDefinition (cs : List Char) : Prop extends Closes cs where
  implements : Rejects (symbol "implements") cs

/-- A text is how a rule of the grammar writes the last part of a definition; an empty part has no
text. -/
structure IsPart (p : Parser (List α)) (text : List Char) (result : List α) : Prop where
  shape : result = [] ∧ text = [] ∨
    result ≠ [] ∧ ∃ c more, text = ' ' :: c :: more ∧ c ∈ ['=', '\x7b']
  reads : result ≠ [] → ∀ rest, Closes rest → Reads p (text ++ rest) result rest
  rejects : ∀ rest, Closes rest → Rejects p rest

namespace IsPart

variable {p : Parser (List α)} {text rest : List Char} {result : List α} {ds : List Directive}

theorem endsWord (h : IsPart p text result) (hrest : Closes rest) : EndsWord (text ++ rest) := by
  rcases h.shape with ⟨-, rfl⟩ | ⟨-, c, more, rfl, -⟩
  · exact hrest.endsWord
  · exact endsWord_cons rfl

theorem nextChar?_mark {c : Char} (h : c ∈ ['=', '\x7b']) (cs : List Char) :
    nextChar? (' ' :: c :: cs) = some c := by
  have hmark : ∀ c ∈ ['=', '\x7b'], isIgnored c = false ∧ c ≠ '#' :=
    List.all_iff_forall_prop.1 (by decide)
  obtain ⟨hi, hc⟩ := hmark c h
  rw [← List.singleton_append, nextChar?_append rfl, nextChar?, skipIgnored_cons hi hc]
  rfl

theorem next (h : IsPart p text result) (hrest : Closes rest) :
    ∀ c ∈ nextChar? (text ++ rest), c ∈ ['=', '\x7b'] ∨ c ∉ continuations := by
  rcases h.shape with ⟨-, rfl⟩ | ⟨-, c, more, rfl, hc⟩
  · exact fun c hm => .inr (hrest.next c hm)
  · intro d hd
    rw [List.cons_append, List.cons_append, nextChar?_mark hc] at hd
    cases hd
    exact .inl hc

theorem next_ne (h : IsPart p text result) (hrest : Closes rest) {c : Char}
    (hc : c ∈ continuations) (hn : c ∉ ['=', '\x7b']) : nextChar? (text ++ rest) ≠ some c :=
  fun he => (h.next hrest c he).elim hn fun hm => hm hc

theorem rejects_implements (h : IsPart p text result) (hrest : EndsDefinition rest) :
    Rejects (symbol "implements") (text ++ rest) := by
  rcases h.shape with ⟨-, rfl⟩ | ⟨-, c, more, rfl, hc⟩
  · exact hrest.implements
  · refine rejects_symbol_of_next (c := 'i') rfl ?_
    rw [List.cons_append, List.cons_append, nextChar?_mark hc]
    rintro he
    cases he
    exact absurd hc (by decide)

theorem text_eq_nil (h : IsPart p text result) (he : result = []) : text = [] := by
  rcases h.shape with ⟨-, htext⟩ | ⟨hne, -⟩
  · exact htext
  · exact (hne he).elim

theorem reads_optional (h : IsPart p text result) (hrest : Closes rest) :
    ∃ part, part.getD [] = result ∧ Reads (optional? p) (text ++ rest) part rest := by
  by_cases he : result = []
  · rw [h.text_eq_nil he]
    exact ⟨none, he.symm, Reads.optional_none (h.rejects rest hrest)⟩
  · exact ⟨some result, rfl, Reads.optional_some (h.reads he rest hrest)⟩

theorem reads_directives (h : IsPart p text result) (hds : ∀ d ∈ ds, d.IsWritable)
    (hrest : Closes rest) : Reads directives (ds.flatMap Directive.text ++ (text ++ rest))
      (ds.map Directive.reread) (text ++ rest) := by
  refine Directive.reads_directives hds (h.endsWord hrest) fun c hc => ?_
  constructor <;> rintro rfl
  · exact h.next_ne hrest (by decide) (by decide) hc
  · exact h.next_ne hrest (by decide) (by decide) hc

theorem reads_directivesAnd (h : IsPart p text result) (hds : ∀ d ∈ ds, d.IsWritable)
    (hsome : ds ≠ [] ∨ result ≠ []) (hrest : Closes rest) :
    Reads (directivesAnd p) (ds.flatMap Directive.text ++ (text ++ rest))
      (ds.map Directive.reread, result) rest := by
  by_cases he : result = []
  · -- The first alternative reads all directives, finds no part behind them, and gives up; the
    -- second one reads the directives again.
    have hne : ds ≠ [] := hsome.resolve_right fun hr => hr he
    have hboth := h.reads_directives hds hrest
    have hsome := Directive.reads_someDirectives hne hds hrest.endsWord hrest.ends_directives
    rw [h.text_eq_nil he, List.nil_append] at hboth ⊢
    rw [he]
    exact Reads.orElse_right (Rejects.bind_right hboth (h.rejects rest hrest).bind_left)
      (hsome.bind (.pure _ _))
  · exact Reads.orElse_left ((h.reads_directives hds hrest).bind
      ((h.reads he rest hrest).bind (.pure _ _)))

theorem rejects_directivesAnd (h : IsPart p text result) (hrest : Closes rest) :
    Rejects (directivesAnd p) rest := by
  have hnone : Rejects directive rest :=
    (rejects_symbol_of_next rfl (hrest.next_ne (c := '@') (by decide))).bind_left
  exact Rejects.orElse
    (Rejects.bind_right (Reads.many_nil hnone) (h.rejects rest hrest).bind_left)
    hnone.bind_left.bind_left

end IsPart

section Parts

theorem isPart_none : IsPart (failure : Parser (List Unit)) [] [] where
  shape := .inl ⟨rfl, rfl⟩
  reads h := (h rfl).elim
  rejects _ _ := Rejects.failure _

def blockText (lines : List (List Char)) : List Char :=
  if lines = [] then [] else ' ' :: '\x7b' :: '\n' :: (['\n'].intercalate lines ++ ['\n', '\x7d'])

theorem toList_block (lines : List String) :
    (Printer.block lines).toList = blockText (lines.map String.toList) := by
  rw [Printer.block, blockText]
  by_cases h : lines = []
  · simp [h]
  · simp [h, String.toList_intercalate]

theorem isPart_block {p : Parser β} {line : α → List Char} {f : α → β} {items : List α}
    (hskips : SkipsIgnored p)
    (hread : ∀ a ∈ items, ∀ rest, Closes rest → Reads p (line a ++ rest) (f a) rest)
    (hline : ∀ a ∈ items, ∀ rest, ∀ c ∈ nextChar? (line a ++ rest), startsLine c = true)
    (hend : ∀ rest, Rejects p ('\x7d' :: rest)) :
    IsPart (braced p) (blockText (items.map line)) (items.map f) where
  shape := by
    simp only [blockText, List.map_eq_nil_iff, Ne]
    split
    · next he => exact .inl ⟨he, rfl⟩
    · next hne => exact .inr ⟨hne, _, _, rfl, by decide⟩
  reads hne rest hrest := by
    rw [Ne, List.map_eq_nil_iff] at hne
    have hcloses : Closes ('\n' :: '\x7d' :: rest) :=
      closes_of_next ['\n'] rfl (endsWord_cons rfl) rfl (by decide)
    have hitems := Reads.some_intercalate Closes ['\n'] hskips rfl
      (List.cons_ne_nil _ _) hne hread
      (fun a ha tail => closes_of_startsLine [] rfl rfl (hline a ha tail)) hcloses
      (hskips.rejects ['\n'] rfl (hend rest))
    have hopen (cs : List Char) : Reads (symbol "\x7b") (' ' :: '\x7b' :: cs) () cs := fun _ => rfl
    have hclose : Reads (symbol "\x7d") ('\n' :: '\x7d' :: rest) () rest := fun _ => rfl
    have hlines := (hskips.bind _).reads ['\n'] rfl hitems
    rw [blockText, if_neg (by rwa [List.map_eq_nil_iff])]
    simp only [List.cons_append, List.append_assoc, List.nil_append] at hlines ⊢
    exact (hopen _).bind (hlines.bind (hclose.bind (.pure _ _)))
  rejects rest hrest :=
    (rejects_symbol_of_next rfl (hrest.next_ne (c := '\x7b') (by decide))).bind_left

def namesText (mark : Char) (names : List String) : List Char :=
  [' ', mark].intercalate (names.map fun name => ' ' :: name.toList)

theorem namesText_eq {mark : Char} {names : List String} (h : names ≠ []) :
    namesText mark names = ' ' :: [' ', mark, ' '].intercalate (names.map String.toList) := by
  obtain ⟨first, others, rfl⟩ := List.exists_cons_of_ne_nil h
  simp [namesText, intercalate_cons, List.flatMap_map]

theorem reads_marked (mark : String) (c : Char) {q : Parser String} (hskips : SkipsIgnored q)
    {names : List String} {rest : List Char} (hm : mark.toList = [c]) (hc : c ∈ ['&', '|'])
    (hne : names ≠ []) (h : ∀ name ∈ names, IsName name)
    (hread : ∀ name ∈ names, ∀ tail, EndsWord tail → Reads q (name.toList ++ tail) name tail)
    (hrest : EndsWord rest) (hnext : nextChar? rest ≠ some c) :
    Reads (separated mark q) (namesText c names ++ rest) names rest := by
  have hmark : ∀ c ∈ ['&', '|'], startsLine c = false ∧ isIgnored c = false ∧ c ≠ '#' :=
    List.all_iff_forall_prop.1 (by decide)
  obtain ⟨hline, hi, hn⟩ := hmark c hc
  have hreads := Reads.separated (fun name : String => ' ' :: name.toList) EndsWord [' ', c] hne
    (fun name hname tail ht => hskips.reads [' '] rfl (hread name hname tail ht))
    (fun name hname tail => rejects_symbol_of_next hm fun he => ?_)
    (fun name hname tail => ?_) (List.cons_ne_nil _ _) (fun _ _ _ => endsWord_cons rfl)
    hrest (rejects_symbol_of_next hm hnext)
  · rwa [List.map_id'] at hreads
  · rw [List.cons_append, ← List.singleton_append, nextChar?_append rfl] at he
    rw [startsLine_of_name (h name hname) tail c he] at hline
    cases hline
  · have hliteral := reads_literal mark.toList (' ' :: name.toList ++ tail)
    rw [hm] at hliteral
    have htoken := Reads.token (skipIgnored_cons hi hn _) hliteral
    rw [← hm] at htoken
    exact (skipsIgnored_symbol mark).reads [' '] rfl htoken

theorem reads_names {mark : String} {c : Char} {names : List String} {rest : List Char}
    (hm : mark.toList = [c]) (hc : c ∈ ['&', '|']) (hne : names ≠ [])
    (h : ∀ name ∈ names, IsName name) (hrest : EndsWord rest) (hnext : nextChar? rest ≠ some c) :
    Reads (separated mark name) (namesText c names ++ rest) names rest :=
  reads_marked mark c skipsIgnored_name hm hc hne h
    (fun n hn _ ht => reads_name (h n hn) ht.insideName) hrest hnext

def membersText (names : List String) : List Char :=
  if names = [] then [] else ' ' :: '=' :: namesText '|' names

theorem isPart_members {names : List String} (h : ∀ name ∈ names, IsName name) :
    IsPart members (membersText names) names where
  shape := by
    rw [membersText]
    split
    · next he => exact .inl ⟨he, rfl⟩
    · next hne => exact .inr ⟨hne, _, _, rfl, by decide⟩
  reads hne rest hrest := by
    have hequals (cs : List Char) : Reads (symbol "=") (' ' :: '=' :: cs) () cs := fun _ => rfl
    rw [membersText, if_neg hne]
    exact (hequals _).bind (reads_names rfl (by decide) hne h hrest.endsWord
      (hrest.next_ne (by decide)))
  rejects rest hrest :=
    (rejects_symbol_of_next rfl (hrest.next_ne (c := '=') (by decide))).bind_left

def interfacesText (names : List String) : List Char :=
  if names = [] then [] else ' ' :: ("implements".toList ++ namesText '&' names)

theorem endsWord_interfacesText (names : List String) {rest : List Char} (hrest : EndsWord rest) :
    EndsWord (interfacesText names ++ rest) := by
  unfold interfacesText
  split
  · exact hrest
  · exact endsWord_cons rfl

theorem reads_interfaces {names : List String} {rest : List Char} (hne : names ≠ [])
    (h : ∀ name ∈ names, IsName name) (hrest : EndsWord rest) (hnext : nextChar? rest ≠ some '&') :
    Reads interfaces (interfacesText names ++ rest) names rest := by
  have hword := (skipsIgnored_symbol "implements").reads [' '] rfl
    (reads_keyword (by decide) (namesText '&' names ++ rest))
  rw [interfacesText, if_neg hne, List.cons_append, List.append_assoc]
  exact hword.bind (reads_names rfl (by decide) hne h hrest hnext)

theorem reads_optional_interfaces {names : List String} {rest : List Char}
    (h : ∀ name ∈ names, IsName name) (hrest : EndsWord rest) (hnext : nextChar? rest ≠ some '&')
    (hword : Rejects (symbol "implements") rest) :
    ∃ o, o.getD [] = names ∧
      Reads (optional? interfaces) (interfacesText names ++ rest) o rest := by
  by_cases hne : names = []
  · subst hne
    exact ⟨none, rfl, Reads.optional_none hword.bind_left⟩
  · exact ⟨some names, rfl, Reads.optional_some (reads_interfaces hne h hrest hnext)⟩

end Parts

section Rules

variable {keyword name : String} {ds : List Directive} {p : Parser (List α)} {part : List Char}
  {result : List α} {rest : List Char} (hk : keyword ∈ keywords) (hname : IsName name)
  (hds : ∀ d ∈ ds, d.IsWritable) (hpart : IsPart p part result)
include hk hname hds hpart

theorem reads_definitionOf (hrest : Closes rest) (d : Option String) (body : List α → TypeBody) :
    Reads (definitionOf keyword p body)
      ((Printer.description "" d).toList ++ (keyword.toList ++ ' ' :: (name.toList ++
        (ds.flatMap Directive.text ++ (part ++ rest)))))
      ⟨false, d.map (rereadDescription ""), name, ds.map Directive.reread, body result⟩ rest := by
  have hends := Directive.endsWord_directives ds (hpart.endsWord hrest)
  have hreadName := skipsIgnored_name.reads [' '] rfl
    (reads_name hname hends.insideName)
  obtain ⟨o, ho, hoptional⟩ := hpart.reads_optional hrest
  refine Parser.Reads.described (fun _ => (skipsIgnored_symbol _).bind _) rfl
    ((isName_of_keyword hk).rejects_string _) ?_
  rw [← ho]
  exact (reads_keyword hk _).bind (hreadName.bind
    ((hpart.reads_directives hds hrest).bind (hoptional.bind (.pure _ _))))

theorem reads_extensionOf (hrest : Closes rest) (hsome : ds ≠ [] ∨ result ≠ [])
    (body : List α → TypeBody) :
    Reads (extensionOf keyword p body)
      ("extend".toList ++ ' ' :: (keyword.toList ++ ' ' :: (name.toList ++
        (ds.flatMap Directive.text ++ (part ++ rest)))))
      ⟨true, none, name, ds.map Directive.reread, body result⟩ rest := by
  have hends := Directive.endsWord_directives ds (hpart.endsWord hrest)
  have hreadName := skipsIgnored_name.reads [' '] rfl
    (reads_name hname hends.insideName)
  have hword := (skipsIgnored_symbol keyword).reads [' '] rfl (reads_keyword hk
    (' ' :: (name.toList ++ (ds.flatMap Directive.text ++ (part ++ rest)))))
  exact (reads_keyword (by decide) _).bind (hword.bind (hreadName.bind
    ((hpart.reads_directivesAnd hds hsome hrest).bind (.pure _ _))))

end Rules

section FieldRules

variable {keyword name : String} {names : List String} {ds : List Directive} {fields : List Field}
  {rest : List Char} (hk : keyword ∈ keywords) (hname : IsName name)
  (hnames : ∀ name ∈ names, IsName name) (hds : ∀ d ∈ ds, d.IsWritable)
  (hfields : ∀ f ∈ fields, f.IsWritable)

variable (fields) in
include hfields in
theorem isPart_fields :
    IsPart (braced field) (blockText (fields.map Field.line)) (fields.map Field.reread) :=
  isPart_block Field.skipsIgnored_field (fun f hf _ ht => (hfields f hf).reads_line ht)
    (fun f hf tail => (hfields f hf).startsLine tail) fun _ _ => rfl

include hfields in
theorem next_ne_of_fields (hrest : Closes rest) : nextChar? (ds.flatMap Directive.text ++
    (blockText (fields.map Field.line) ++ rest)) ≠ some '&' := by
  rw [Directive.nextChar?_directives]
  split
  · exact (isPart_fields fields hfields).next_ne hrest (by decide) (by decide)
  · exact fun he => by cases he

include hname hnames hfields

variable (ds fields) in
theorem reads_head (hrest : EndsDefinition rest) : ∃ o, o.getD [] = names ∧
    Reads Grammar.name (' ' :: (name.toList ++ (interfacesText names ++
      (ds.flatMap Directive.text ++ (blockText (fields.map Field.line) ++ rest))))) name
      (interfacesText names ++ (ds.flatMap Directive.text ++
        (blockText (fields.map Field.line) ++ rest))) ∧
    Reads (optional? interfaces) (interfacesText names ++ (ds.flatMap Directive.text ++
      (blockText (fields.map Field.line) ++ rest))) o
      (ds.flatMap Directive.text ++ (blockText (fields.map Field.line) ++ rest)) := by
  have hpart := isPart_fields fields hfields
  have hends := Directive.endsWord_directives ds (hpart.endsWord hrest.toCloses)
  have hword : Rejects (symbol "implements") (ds.flatMap Directive.text ++
      (blockText (fields.map Field.line) ++ rest)) := by
    cases ds with
    | nil => exact hpart.rejects_implements hrest
    | cons d ds => exact rejects_symbol_of_next (c := 'i') rfl fun he => by cases he
  obtain ⟨o, ho, hinterfaces⟩ := reads_optional_interfaces hnames hends
    (next_ne_of_fields hfields hrest.toCloses) hword
  exact ⟨o, ho, skipsIgnored_name.reads [' '] rfl
    (reads_name hname (endsWord_interfacesText names hends).insideName), hinterfaces⟩

omit hfields in
theorem reads_interfacesExtension (hrest : EndsDefinition rest) (hne : names ≠ []) :
    Rejects (fieldsExtension "type" .object)
        ("extend".toList ++ ' ' :: ("type".toList ++ ' ' :: (name.toList ++
          (interfacesText names ++ rest)))) ∧
      Reads interfacesExtension
        ("extend".toList ++ ' ' :: ("type".toList ++ ' ' :: (name.toList ++
          (interfacesText names ++ rest)))) ⟨true, none, name, [], .object names []⟩ rest := by
  obtain ⟨o, -, hreadName, hoptional⟩ :=
    reads_head [] [] hname hnames nofun hrest
  have hinterfaces := reads_interfaces hne hnames hrest.endsWord (hrest.next_ne (by decide))
  have hword := (skipsIgnored_symbol "type").reads [' '] rfl
    (reads_keyword (by decide) (' ' :: (name.toList ++ (interfacesText names ++ rest))))
  have hnothing : Rejects (directivesAnd (braced field)) rest :=
    (isPart_fields [] nofun).rejects_directivesAnd hrest.toCloses
  constructor
  · exact Rejects.bind_right (reads_keyword (by decide) _) (Rejects.bind_right hword
      (Rejects.bind_right hreadName (Rejects.bind_right hoptional hnothing.bind_left)))
  · exact (reads_keyword (by decide) _).bind (hword.bind (hreadName.bind
      (hinterfaces.bind (.pure _ _))))

include hk hds

theorem reads_fieldsDefinition (hrest : EndsDefinition rest) (d : Option String)
    (body : List String → List Field → TypeBody) :
    Reads (fieldsDefinition keyword body)
      ((Printer.description "" d).toList ++ (keyword.toList ++ ' ' :: (name.toList ++
        (interfacesText names ++ (ds.flatMap Directive.text ++
          (blockText (fields.map Field.line) ++ rest))))))
      ⟨false, d.map (rereadDescription ""), name, ds.map Directive.reread,
        body names (fields.map Field.reread)⟩ rest := by
  have hpart := isPart_fields fields hfields
  obtain ⟨interfaces, rfl, hreadName, hinterfaces⟩ :=
    reads_head ds fields hname hnames hfields hrest
  obtain ⟨o, ho, hoptional⟩ := hpart.reads_optional hrest.toCloses
  refine Parser.Reads.described (fun _ => (skipsIgnored_symbol _).bind _) rfl
    ((isName_of_keyword hk).rejects_string _) ?_
  rw [← ho]
  exact (reads_keyword hk _).bind (hreadName.bind (hinterfaces.bind
    ((hpart.reads_directives hds hrest.toCloses).bind (hoptional.bind (.pure _ _)))))

theorem reads_fieldsExtension (hrest : EndsDefinition rest) (hsome : ds ≠ [] ∨ fields ≠ [])
    (body : List String → List Field → TypeBody) :
    Reads (fieldsExtension keyword body)
      ("extend".toList ++ ' ' :: (keyword.toList ++ ' ' :: (name.toList ++
        (interfacesText names ++ (ds.flatMap Directive.text ++
          (blockText (fields.map Field.line) ++ rest))))))
      ⟨true, none, name, ds.map Directive.reread, body names (fields.map Field.reread)⟩ rest := by
  have hpart := isPart_fields fields hfields
  obtain ⟨interfaces, rfl, hreadName, hinterfaces⟩ :=
    reads_head ds fields hname hnames hfields hrest
  have hboth := hpart.reads_directivesAnd hds
    (hsome.imp_right fun hne he => hne (List.map_eq_nil_iff.1 he)) hrest.toCloses
  exact (reads_keyword (by decide) _).bind (((skipsIgnored_symbol keyword).reads [' '] rfl
    (reads_keyword hk _)).bind (hreadName.bind (hinterfaces.bind (hboth.bind (.pure _ _)))))

end FieldRules

namespace TypeBody

def interfaceNames : TypeBody → List String
  | .object names _ | .interface names _ => names
  | _ => []

def partText : TypeBody → List Char
  | .scalar => []
  | .object _ fields | .interface _ fields => blockText (fields.map Field.line)
  | .union members => membersText members
  | .enumeration values => blockText (values.map EnumValue.line)
  | .input fields => blockText (fields.map (InputValue.line Printer.indent))

def reread : TypeBody → TypeBody
  | .scalar => .scalar
  | .object names fields => .object names (fields.map Field.reread)
  | .interface names fields => .interface names (fields.map Field.reread)
  | .union members => .union members
  | .enumeration values => .enumeration (values.map EnumValue.reread)
  | .input fields => .input (fields.map (InputValue.reread Printer.indent))

def IsWritable : TypeBody → Prop
  | .scalar => True
  | .object names fields | .interface names fields =>
    (∀ name ∈ names, IsName name) ∧ ∀ f ∈ fields, f.IsWritable
  | .union members => ∀ name ∈ members, IsName name
  | .enumeration values => ∀ v ∈ values, v.IsWritable
  | .input fields => ∀ v ∈ fields, v.IsWritable

/-- A type has something that can stand in an extension without directives. -/
def Extends : TypeBody → Prop
  | .scalar => False
  | .object names fields => names ≠ [] ∨ fields ≠ []
  | .interface _ fields => fields ≠ []
  | .union members => members ≠ []
  | .enumeration values => values ≠ []
  | .input fields => fields ≠ []

theorem kind_mem (body : TypeBody) : body.kind ∈ words := by
  cases body <;> simp only [kind] <;> decide

end TypeBody

namespace TypeDefinition

def reread (t : TypeDefinition) : TypeDefinition :=
  ⟨t.isExtension, t.description.map (rereadDescription ""), t.name,
    t.directives.map Directive.reread, t.body.reread⟩

/-- The text of a definition can be read. An extension has no description, and extends something. -/
structure IsWritable (t : TypeDefinition) : Prop where
  name : IsName t.name
  directives : ∀ d ∈ t.directives, d.IsWritable
  body : t.body.IsWritable
  extension : t.isExtension = true →
    t.description = none ∧ (t.directives ≠ [] ∨ t.body.Extends)

def headText (t : TypeDefinition) : List Char :=
  t.body.kind.toList ++ ' ' :: (t.name.toList ++ (interfacesText t.body.interfaceNames ++
    (t.directives.flatMap Directive.text ++ t.body.partText)))

def text (t : TypeDefinition) : List Char :=
  (Printer.description "" t.description).toList ++
    if t.isExtension then "extend".toList ++ ' ' :: t.headText else t.headText

theorem toList_interfaces (names : List String) :
    (Printer.interfaces names).toList = interfacesText names := by
  rw [Printer.interfaces, interfacesText]
  by_cases h : names = []
  · simp [h]
  · simp [h, String.toList_intercalate, namesText_eq h]

theorem toList_members (names : List String) :
    (if names.isEmpty then "" else " = " ++ " | ".intercalate names).toList =
      membersText names := by
  rw [membersText]
  by_cases h : names = []
  · simp [h]
  · simp [h, String.toList_intercalate, namesText_eq h]

theorem toList_lines {print : α → String} {line : α → List Char}
    (h : ∀ a, (print a).toList = line a) (items : List α) :
    (Printer.block (items.map print)).toList = blockText (items.map line) := by
  rw [toList_block, List.map_map]
  exact congrArg blockText (List.map_congr_left fun a _ => h a)

theorem text_eq (t : TypeDefinition) : t.text = (Printer.description "" t.description).toList ++
    ((if t.isExtension then "extend ".toList else []) ++ t.headText) := by
  have hextend : "extend ".toList = "extend".toList ++ [' '] := rfl
  rw [text, hextend]
  cases t.isExtension <;> simp

theorem toList_typeDefinition (t : TypeDefinition) :
    (Printer.typeDefinition t).toList = t.text := by
  obtain ⟨isExtension, description, name, directives, body⟩ := t
  have hextension : (Printer.extension isExtension).toList =
      if isExtension then "extend ".toList else [] := by
    cases isExtension <;> rfl
  have hbody (body : String) (head : List Char) (h : body.toList = head) :
      (Printer.description "" description ++ Printer.extension isExtension ++ body).toList =
        (Printer.description "" description).toList ++
          ((if isExtension then "extend ".toList else []) ++ head) := by
    rw [String.toList_append, String.toList_append, hextension, h, List.append_assoc]
  rw [text_eq]
  refine hbody _ _ ?_
  have hnone : interfacesText [] = [] := rfl
  have hscalar : "scalar ".toList = "scalar".toList ++ [' '] := rfl
  have htype : "type ".toList = "type".toList ++ [' '] := rfl
  have hinterface : "interface ".toList = "interface".toList ++ [' '] := rfl
  have hunion : "union ".toList = "union".toList ++ [' '] := rfl
  have henum : "enum ".toList = "enum".toList ++ [' '] := rfl
  have hinput : "input ".toList = "input".toList ++ [' '] := rfl
  cases body <;>
    simp only [headText, TypeBody.kind, TypeBody.interfaceNames, TypeBody.partText,
      hnone, String.toList_append, toList_interfaces, toList_members,
      toList_lines Field.toList_field, toList_lines EnumValue.toList_enumValue,
      toList_lines (InputValue.toList_inputLine Printer.indent), Directive.toList_directives,
      hscalar, htype, hinterface, hunion, henum, hinput, List.append_assoc, List.cons_append,
      List.nil_append, List.append_nil]

variable {t : TypeDefinition} {word : String} {rest : List Char}

theorem IsWritable.avoids (h : t.IsWritable) (hw : word ∈ words) (hne : word ≠ t.body.kind)
    (rest : List Char) : Avoids word (t.text ++ rest) := by
  rw [text, headText]
  cases hext : t.isExtension with
  | false =>
    rw [if_neg Bool.false_ne_true, List.append_assoc, List.append_assoc]
    exact avoids_definition hw t.body.kind_mem hne _ _
  | true =>
    have hnone : (Printer.description "" t.description).toList = [] := by
      rw [(h.extension hext).1]
      rfl
    rw [if_pos rfl, hnone, List.nil_append, List.append_assoc, List.cons_append, List.append_assoc]
    exact avoids_extension hw t.body.kind_mem hne _

end TypeDefinition

section Alternatives

variable {cs rest : List Char} {t : TypeDefinition}

/-- The rules of the grammar for one kind of type. -/
def TypeBody.rule : TypeBody → Parser TypeDefinition
  | .scalar => scalarType
  | .object _ _ =>
    fieldsDefinition "type" .object <|> fieldsExtension "type" .object <|> interfacesExtension
  | .interface _ _ =>
    fieldsDefinition "interface" .interface <|> fieldsExtension "interface" .interface
  | .union _ => definitionOf "union" members .union <|> extensionOf "union" members .union
  | .enumeration _ =>
    definitionOf "enum" (braced enumValue) .enumeration
      <|> extensionOf "enum" (braced enumValue) .enumeration
  | .input _ =>
    definitionOf "input" (braced inputValue) .input
      <|> extensionOf "input" (braced inputValue) .input

theorem Avoids.rejects_rule {body : TypeBody} (h : Avoids body.kind cs) :
    Rejects body.rule cs := by
  cases body with
  | object _ _ =>
    exact Rejects.orElse (h.definition _) (Rejects.orElse (h.extension _) (h.extension _))
  | _ => exact Rejects.orElse (h.definition _) (h.extension _)

theorem typeDefinition_eq : typeDefinition = (TypeBody.scalar.rule <|>
    (TypeBody.object [] []).rule <|> (TypeBody.interface [] []).rule <|>
      (TypeBody.union []).rule <|> (TypeBody.enumeration []).rule <|>
        (TypeBody.input []).rule) := by
  have hassoc (a b c : Parser TypeDefinition) : ((a <|> b) <|> c) = (a <|> b <|> c) := by
    funext r
    rw [orElse_apply, orElse_apply, orElse_apply, orElse_apply, Option.or_assoc]
  simp only [TypeBody.rule, typeDefinition, hassoc]

theorem rejects_typeDefinition (h : ∀ body : TypeBody, Avoids body.kind cs) :
    Rejects typeDefinition cs := by
  have hrule (body : TypeBody) := (h body).rejects_rule
  rw [typeDefinition_eq]
  exact Rejects.orElse (hrule _) (Rejects.orElse (hrule _) (Rejects.orElse (hrule _)
    (Rejects.orElse (hrule _) (Rejects.orElse (hrule _) (hrule _)))))

/-- A text that avoids the words of all other types is read by the rule of its own. -/
theorem reads_typeDefinition {body : TypeBody}
    (h : ∀ other : TypeBody, other.kind ≠ body.kind → Avoids other.kind cs)
    (hr : Reads body.rule cs t rest) : Reads typeDefinition cs t rest := by
  have hpass (other : TypeBody) (hne : other.kind ≠ body.kind) {q : Parser TypeDefinition}
      (hq : Reads q cs t rest) : Reads (other.rule <|> q) cs t rest :=
    Reads.orElse_right (h other hne).rejects_rule hq
  have hs {q} := hpass .scalar (q := q)
  have ho {q} := hpass (.object [] []) (q := q)
  have hi {q} := hpass (.interface [] []) (q := q)
  have hu {q} := hpass (.union []) (q := q)
  have he {q} := hpass (.enumeration []) (q := q)
  rw [typeDefinition_eq]
  cases body with
  | scalar => exact Reads.orElse_left hr
  | object _ _ =>
    simp only [TypeBody.kind] at hs
    exact hs (by decide) (Reads.orElse_left hr)
  | interface _ _ =>
    simp only [TypeBody.kind] at hs ho
    exact hs (by decide) (ho (by decide) (Reads.orElse_left hr))
  | union _ =>
    simp only [TypeBody.kind] at hs ho hi
    exact hs (by decide) (ho (by decide) (hi (by decide) (Reads.orElse_left hr)))
  | enumeration _ =>
    simp only [TypeBody.kind] at hs ho hi hu
    exact hs (by decide) (ho (by decide) (hi (by decide) (hu (by decide) (Reads.orElse_left hr))))
  | input _ =>
    simp only [TypeBody.kind] at hs ho hi hu he
    exact hs (by decide) (ho (by decide) (hi (by decide) (hu (by decide) (he (by decide) hr))))

end Alternatives

namespace TypeDefinition

variable {t : TypeDefinition} {rest : List Char}

theorem isPart_values {values : List EnumValue} (h : ∀ v ∈ values, v.IsWritable) :
    IsPart (braced enumValue) (blockText (values.map EnumValue.line))
      (values.map EnumValue.reread) :=
  isPart_block EnumValue.skipsIgnored_enumValue (fun v hv _ ht => (h v hv).reads_line ht)
    (fun v hv tail => (h v hv).startsLine tail) fun _ _ => rfl

theorem isPart_inputs {fields : List InputValue} (h : ∀ v ∈ fields, v.IsWritable) :
    IsPart (braced inputValue) (blockText (fields.map (InputValue.line Printer.indent)))
      (fields.map (InputValue.reread Printer.indent)) :=
  isPart_block InputValue.skipsIgnored_inputValue (fun v hv _ ht => (h v hv).reads_line rfl ht)
    (fun v hv tail => (h v hv).startsLine rfl tail) fun _ _ => rfl

theorem text_definition (t : TypeDefinition) (h : t.isExtension = false) (rest : List Char) :
    t.text ++ rest = (Printer.description "" t.description).toList ++
      (t.body.kind.toList ++ ' ' :: (t.name.toList ++ (interfacesText t.body.interfaceNames ++
        (t.directives.flatMap Directive.text ++ (t.body.partText ++ rest))))) := by
  rw [text, headText, h]
  simp only [Bool.false_eq_true, if_false, List.append_assoc, List.cons_append]

theorem text_extension (t : TypeDefinition) (h : t.isExtension = true) (hd : t.description = none)
    (rest : List Char) : t.text ++ rest = "extend".toList ++ ' ' :: (t.body.kind.toList ++
      ' ' :: (t.name.toList ++ (interfacesText t.body.interfaceNames ++
        (t.directives.flatMap Directive.text ++ (t.body.partText ++ rest))))) := by
  have hnone : (Printer.description "" none).toList = [] := rfl
  rw [text, headText, h, hd, hnone]
  simp only [if_true, List.append_assoc, List.cons_append, List.nil_append]

theorem IsWritable.reads_definition (h : t.IsWritable) (ht : t.isExtension = false)
    (hrest : EndsDefinition rest) : Reads t.body.rule (t.text ++ rest) t.reread rest := by
  have hc := hrest.toCloses
  rw [t.text_definition ht]
  obtain ⟨hname, hds, hbody, -⟩ := h
  obtain ⟨isExtension, description, name, ds, body⟩ := t
  cases ht
  cases body with
  | scalar =>
    exact Reads.orElse_left
      (reads_definitionOf (by decide) hname hds isPart_none hc description _)
  | object names fields =>
    exact Reads.orElse_left
      (reads_fieldsDefinition (by decide) hname hbody.1 hds hbody.2 hrest description _)
  | interface names fields =>
    exact Reads.orElse_left
      (reads_fieldsDefinition (by decide) hname hbody.1 hds hbody.2 hrest description _)
  | union names =>
    exact Reads.orElse_left
      (reads_definitionOf (by decide) hname hds (isPart_members hbody) hc description _)
  | enumeration values =>
    exact Reads.orElse_left
      (reads_definitionOf (by decide) hname hds (isPart_values hbody) hc description _)
  | input fields =>
    exact Reads.orElse_left
      (reads_definitionOf (by decide) hname hds (isPart_inputs hbody) hc description _)

theorem IsWritable.reads_extension (h : t.IsWritable) (ht : t.isExtension = true)
    (hrest : EndsDefinition rest) : Reads t.body.rule (t.text ++ rest) t.reread rest := by
  have hc := hrest.toCloses
  obtain ⟨hname, hds, hbody, hextension⟩ := h
  obtain ⟨hnone, hsome⟩ := hextension ht
  rw [t.text_extension ht hnone]
  obtain ⟨isExtension, description, name, ds, body⟩ := t
  cases ht
  cases hnone
  have hmap {α β : Type} {f : α → β} {items : List α} (hne : items ≠ []) : items.map f ≠ [] :=
    fun he => hne (List.map_eq_nil_iff.1 he)
  cases body with
  | scalar =>
    exact Reads.orElse_right (rejects_definition_of_extension (by decide) _ _)
      (reads_extensionOf (by decide) hname hds isPart_none hc (.inl (hsome.resolve_right id)) _)
  | object names fields =>
    refine Reads.orElse_right (rejects_definition_of_extension (by decide) _ _) ?_
    by_cases hparts : ds ≠ [] ∨ fields ≠ []
    · exact Reads.orElse_left
        (reads_fieldsExtension (by decide) hname hbody.1 hds hbody.2 hrest hparts _)
    · -- With interfaces alone the rule for fields fails only behind them.
      rw [not_or, not_not, not_not] at hparts
      obtain ⟨rfl, rfl⟩ := hparts
      have hne : names ≠ [] := (hsome.resolve_left fun hd => hd rfl).resolve_right fun hf => hf rfl
      obtain ⟨hrejects, hreads⟩ := reads_interfacesExtension hname hbody.1 hrest hne
      exact Reads.orElse_right hrejects hreads
  | interface names fields =>
    exact Reads.orElse_right (rejects_definition_of_extension (by decide) _ _)
      (reads_fieldsExtension (by decide) hname hbody.1 hds hbody.2 hrest hsome _)
  | union names =>
    exact Reads.orElse_right (rejects_definition_of_extension (by decide) _ _)
      (reads_extensionOf (by decide) hname hds (isPart_members hbody) hc hsome _)
  | enumeration values =>
    exact Reads.orElse_right (rejects_definition_of_extension (by decide) _ _)
      (reads_extensionOf (by decide) hname hds (isPart_values hbody) hc (hsome.imp_right hmap) _)
  | input fields =>
    exact Reads.orElse_right (rejects_definition_of_extension (by decide) _ _)
      (reads_extensionOf (by decide) hname hds (isPart_inputs hbody) hc (hsome.imp_right hmap) _)

theorem IsWritable.reads (h : t.IsWritable) (hrest : EndsDefinition rest) :
    Reads typeDefinition (t.text ++ rest) t.reread rest := by
  refine reads_typeDefinition (fun other hne => h.avoids other.kind_mem hne rest) ?_
  cases ht : t.isExtension with
  | false => exact h.reads_definition ht hrest
  | true => exact h.reads_extension ht hrest

end TypeDefinition

end ApiStack.Sdl
