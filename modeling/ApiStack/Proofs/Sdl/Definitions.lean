import ApiStack.Proofs.Sdl.Types

namespace ApiStack.Sdl

open Sdl.Parser Sdl.Grammar

section Roots

variable {rest : List Char}

def rootLine (root : Operation × String) : List Char :=
  Printer.indent.toList ++ (root.1.word.toList ++ ':' :: ' ' :: root.2.toList)

theorem word_mem (operation : Operation) : operation.word ∈ words := by
  cases operation <;> simp only [Operation.word] <;> decide

theorem reads_operation (operation : Operation) (cs : List Char) :
    Reads Grammar.operation (operation.word.toList ++ cs) operation cs := by
  have hread := reads_keyword (mem_keywords (word_mem operation)) cs
  have hne (word : String) (hw : word ∈ words) (hne : word ≠ operation.word) :=
    rejects_keyword (mem_keywords hw) (mem_keywords (word_mem operation)) hne cs
  cases operation with
  | query => exact Reads.orElse_left (hread.bind (.pure _ _))
  | mutation =>
    have hq := hne "query" (by decide) (show "query" ≠ "mutation" by decide)
    exact Reads.orElse_right hq.bind_left (Reads.orElse_left (hread.bind (.pure _ _)))
  | subscription =>
    have hq := hne "query" (by decide) (show "query" ≠ "subscription" by decide)
    have hm := hne "mutation" (by decide) (show "mutation" ≠ "subscription" by decide)
    exact Reads.orElse_right hq.bind_left (Reads.orElse_right hm.bind_left (hread.bind (.pure _ _)))

theorem skipsIgnored_operation : SkipsIgnored operation :=
  ((skipsIgnored_symbol _).bind _).orElse
    (((skipsIgnored_symbol _).bind _).orElse ((skipsIgnored_symbol _).bind _))

theorem reads_root {r : Operation × String} (h : IsName r.2) (hrest : Closes rest) :
    Reads root (rootLine r ++ rest) r rest := by
  have hcolon (cs : List Char) : Reads (symbol ":") (':' :: ' ' :: cs) () (' ' :: cs) :=
    fun _ => rfl
  have hname := skipsIgnored_name.reads [' '] rfl
    (reads_name h hrest.endsWord.insideName)
  have hoperation := skipsIgnored_operation.reads Printer.indent.toList rfl
    (reads_operation r.1 (':' :: ' ' :: (r.2.toList ++ rest)))
  simp only [rootLine, List.append_assoc, List.cons_append]
  exact hoperation.bind ((hcolon _).bind (hname.bind (.pure _ _)))

theorem startsLine_rootLine (r : Operation × String) (rest : List Char) :
    ∀ c ∈ nextChar? (rootLine r ++ rest), startsLine c = true := by
  rw [rootLine, List.append_assoc, List.append_assoc, nextChar?_append rfl]
  exact startsLine_of_name (isName_of_keyword (mem_keywords (word_mem r.1))) _

theorem isPart_roots {roots : List (Operation × String)} (h : ∀ r ∈ roots, IsName r.2) :
    IsPart (braced root) (blockText (roots.map rootLine)) roots := by
  have hread (r) (hr : r ∈ roots) (rest : List Char) (ht : Closes rest) :
      Reads root (rootLine r ++ rest) (id r) rest := reads_root (h r hr) ht
  have hpart := isPart_block (skipsIgnored_operation.bind _) hread
    (fun r _ tail => startsLine_rootLine r tail) fun _ _ => rfl
  rwa [List.map_id] at hpart

end Roots

namespace SchemaDefinition

def roots (s : SchemaDefinition) : List (Operation × String) :=
  [Operation.query, .mutation, .subscription].filterMap fun operation =>
    (s.root? operation).map fun name => (operation, name)

def reread (s : SchemaDefinition) : SchemaDefinition :=
  { s with directives := s.directives.map Directive.reread }

/-- The text of a schema can be read. A definition has a root for queries, and an extension has
something to extend with. -/
structure IsWritable (s : SchemaDefinition) : Prop where
  directives : ∀ d ∈ s.directives, d.IsWritable
  roots : ∀ r ∈ s.roots, IsName r.2
  definition : s.isExtension = false → s.query.isSome = true
  extension : s.isExtension = true → s.directives ≠ [] ∨ s.roots ≠ []

def text (s : SchemaDefinition) : List Char :=
  (if s.isExtension then "extend".toList ++ [' '] else []) ++ ("schema".toList ++
    (s.directives.flatMap Directive.text ++ blockText (s.roots.map rootLine)))

theorem toList_schemaDefinition (s : SchemaDefinition) :
    (Printer.schemaDefinition s).toList = s.text := by
  have hextension : (Printer.extension s.isExtension).toList =
      if s.isExtension then "extend".toList ++ [' '] else [] := by
    cases s.isExtension <;> rfl
  have hroot (operation : Operation) : (Printer.root s operation).map String.toList =
      ((s.root? operation).map fun name => (operation, name)).map rootLine := by
    rw [Printer.root, Option.map_map, Option.map_map]
    refine congrArg (fun f => (s.root? operation).map f) (funext fun name => ?_)
    simp [rootLine]
  have hroots : ([Operation.query, .mutation, .subscription].filterMap (Printer.root s)).map
      String.toList = s.roots.map rootLine := by
    simp only [roots, List.map_filterMap, hroot]
  rw [Printer.schemaDefinition, text]
  simp only [String.toList_append, hextension, toList_block, hroots, Directive.toList_directives,
    List.append_assoc]

variable {s : SchemaDefinition} {rest : List Char}

theorem reads_setRoots (s : SchemaDefinition) (cs : List Char) :
    Reads (setRoots ⟨s.isExtension, s.directives, none, none, none⟩ s.roots) cs s cs := by
  obtain ⟨isExtension, directives, query, mutation, subscription⟩ := s
  cases query <;> cases mutation <;> cases subscription <;> exact fun _ => rfl

theorem IsWritable.reads_schemaBody (h : s.IsWritable) (hs : s.isExtension = false)
    (hrest : Closes rest) : Reads schemaBody (s.text ++ rest) s.reread rest := by
  have hpart := isPart_roots h.roots
  have hset := reads_setRoots s.reread rest
  have hquery := h.definition hs
  obtain ⟨hds, -, -, -⟩ := h
  obtain ⟨isExtension, ds, query, mutation, subscription⟩ := s
  cases hs
  cases query with
  | none => cases hquery
  | some name =>
    rw [text]
    simp only [Bool.false_eq_true, if_false, List.nil_append, List.append_assoc]
    exact (reads_keyword (by decide) _).bind ((hpart.reads_directives hds hrest).bind
      ((hpart.reads (List.cons_ne_nil _ _) rest hrest).bind (hset.bind fun _ => rfl)))

theorem IsWritable.reads_schemaExtension (h : s.IsWritable) (hs : s.isExtension = true)
    (hrest : Closes rest) : Rejects schemaBody (s.text ++ rest) ∧
      Reads schemaExtension (s.text ++ rest) s.reread rest := by
  have hpart := isPart_roots h.roots
  have hset := reads_setRoots s.reread rest
  have hsome := h.extension hs
  obtain ⟨hds, -, -, -⟩ := h
  obtain ⟨isExtension, ds, query, mutation, subscription⟩ := s
  cases hs
  rw [text]
  simp only [if_true, List.append_assoc, List.cons_append, List.nil_append]
  constructor
  · exact (rejects_keyword (by decide) (by decide) (by decide) _).bind_left
  · have hword (cs : List Char) : Reads (symbol "schema") (' ' :: ("schema".toList ++ cs)) () cs :=
      (skipsIgnored_symbol "schema").reads [' '] rfl (reads_keyword (by decide) cs)
    exact (reads_keyword (by decide) _).bind ((hword _).bind
      ((hpart.reads_directivesAnd hds hsome hrest).bind hset))

end SchemaDefinition

section Locations

variable {words : List String} {word : String} {rest : List Char}

/-- The first word that stands in a text is taken, so no word may be the front of a later one. -/
theorem reads_oneOf (hpair : words.Pairwise fun a b => ¬a.toList <+: b.toList)
    (hall : ∀ word ∈ words, word.toList.all insideName = true) (hw : word ∈ words)
    (hrest : EndsWord rest) : Reads (oneOf words) (word.toList ++ rest) word rest := by
  induction words with
  | nil => cases hw
  | cons first others ih =>
    obtain ⟨hfirst, hothers⟩ := List.pairwise_cons.1 hpair
    obtain ⟨hname, hnames⟩ := List.forall_mem_cons.1 hall
    rcases List.mem_cons.1 hw with rfl | hm
    · exact Reads.orElse_left ((reads_literal _ _).bind (.pure _ _))
    · have hnone := rejects_literal (not_prefix_append (hfirst word hm) hname hrest)
      exact Reads.orElse_right hnone.bind_left (ih hothers hnames hm)

theorem isName_of_location (h : word ∈ locationNames) : IsName word := by
  have hall : ∀ word ∈ locationNames, (word.toList.head?.any startsName &&
      word.toList.tail.all insideName) = true := by decide
  exact isName_of_all (hall word h)

theorem reads_location (h : word ∈ locationNames) (hrest : EndsWord rest) :
    Reads location (word.toList ++ rest) word rest :=
  Reads.token (skipIgnored_name (isName_of_location h) rest)
    (reads_oneOf (by decide) (by decide) h hrest)

end Locations

namespace DirectiveDefinition

def reread (d : DirectiveDefinition) : DirectiveDefinition :=
  ⟨d.description.map (rereadDescription ""), d.name,
    d.arguments.map (InputValue.reread Printer.indent), d.locations⟩

structure IsWritable (d : DirectiveDefinition) : Prop where
  name : IsName d.name
  arguments : ∀ v ∈ d.arguments, v.IsWritable
  locations : d.locations ≠ [] ∧ ∀ word ∈ d.locations, word ∈ locationNames

def text (d : DirectiveDefinition) : List Char :=
  (Printer.description "" d.description).toList ++ ("directive".toList ++ ' ' :: '@' ::
    (d.name.toList ++ (InputValue.argumentsText "" d.arguments ++ ' ' :: ("repeatable".toList ++
      ' ' :: ("on".toList ++ namesText '|' d.locations)))))

theorem toList_directiveDefinition (d : DirectiveDefinition) (h : d.locations ≠ []) :
    (Printer.directiveDefinition d).toList = d.text := by
  have hdirective : "directive @".toList = "directive".toList ++ [' ', '@'] := rfl
  have hon : " repeatable on ".toList =
      ' ' :: ("repeatable".toList ++ ' ' :: ("on".toList ++ [' '])) := rfl
  have hmark : " | ".toList = [' ', '|', ' '] := rfl
  rw [Printer.directiveDefinition, text, namesText_eq h]
  simp only [String.toList_append, String.toList_intercalate, InputValue.toList_arguments,
    hdirective, hon, hmark, List.append_assoc, List.cons_append, List.nil_append]

variable {d : DirectiveDefinition} {rest : List Char}

theorem IsWritable.reads (h : d.IsWritable) (hrest : Closes rest) :
    Reads directiveDefinition (d.text ++ rest) d.reread rest := by
  have hat (cs : List Char) : Reads (symbol "@") (' ' :: '@' :: cs) () cs := fun _ => rfl
  have hword (word : String) (hw : word ∈ keywords) (cs : List Char) :
      Reads (symbol word) (' ' :: (word.toList ++ cs)) () cs :=
    (skipsIgnored_symbol word).reads [' '] rfl (reads_keyword hw cs)
  have hends (cs : List Char) : EndsWord (InputValue.argumentsText "" d.arguments ++
      ' ' :: ("repeatable".toList ++ cs)) :=
    InputValue.endsWord_argumentsText _ _ (endsWord_cons rfl)
  have hlevel : "".toList.all isIgnored = true := rfl
  have hnext (cs : List Char) : nextChar? (' ' :: ("repeatable".toList ++ cs)) ≠ some '(' :=
    fun he => by cases he
  have harguments (cs : List Char) := InputValue.reads_arguments h.arguments hlevel (hnext cs)
  have hlocations := reads_marked "|" '|' (skipsIgnored_bind_ignored _) rfl
    (by decide) h.locations.1 (fun word hw => isName_of_location (h.locations.2 word hw))
    (fun word hw _ ht => reads_location (h.locations.2 word hw) ht) hrest.endsWord
    (hrest.next_ne (by decide))
  simp only [text, List.append_assoc, List.cons_append]
  refine Parser.Reads.described (fun _ => (skipsIgnored_symbol _).bind _) rfl
    ((isName_of_keyword (by decide)).rejects_string _) ?_
  refine (reads_keyword (by decide) _).bind ((hat _).bind
    ((reads_name h.name (hends _).insideName).bind ((harguments _).bind ?_)))
  exact (Reads.optional_some (hword "repeatable" (by decide) _)).bind
    ((hword "on" (by decide) _).bind (hlocations.bind (.pure _ _)))

end DirectiveDefinition

theorem Avoids.rejects_schema {cs : List Char} (h : Avoids "schema" cs) :
    Rejects (schemaBody <|> schemaExtension) cs :=
  Rejects.orElse h.plain.bind_left (h.extension _)

namespace Definition

def reread : Definition → Definition
  | .schema s => .schema s.reread
  | .type t => .type t.reread
  | .directive d => .directive d.reread

def IsWritable : Definition → Prop
  | .schema s => s.IsWritable
  | .type t => t.IsWritable
  | .directive d => d.IsWritable

def text (d : Definition) : List Char := (Printer.definition d).toList

variable {d : Definition} {rest : List Char}

theorem IsWritable.startsLine (h : d.IsWritable) (rest : List Char) :
    (∀ c ∈ nextChar? (d.text ++ rest), startsLine c = true) ∧
      Rejects (symbol "implements") (d.text ++ rest) := by
  have hkeyword (keyword : String) (hk : keyword ∈ keywords) (cs : List Char) :=
    startsLine_of_name (isName_of_keyword hk) cs
  cases d with
  | schema s =>
    rw [text, Printer.definition, s.toList_schemaDefinition, SchemaDefinition.text]
    cases s.isExtension <;> simp only [Bool.false_eq_true, if_false, if_true, List.nil_append,
      List.append_assoc]
    · exact ⟨hkeyword _ (by decide) _, rejects_keyword (by decide) (by decide) (by decide) _⟩
    · exact ⟨hkeyword _ (by decide) _, rejects_keyword (by decide) (by decide) (by decide) _⟩
  | type t =>
    rw [text, Printer.definition, t.toList_typeDefinition]
    have hne : "implements" ≠ t.body.kind := by
      cases t.body <;> simp only [TypeBody.kind] <;> decide
    refine ⟨?_, (TypeDefinition.IsWritable.avoids h (by decide) hne rest).plain⟩
    rw [TypeDefinition.text, TypeDefinition.headText, List.append_assoc]
    refine startsLine_of_description "" rfl _ ?_
    cases t.isExtension <;> simp only [Bool.false_eq_true, if_false, if_true, List.append_assoc]
    · exact hkeyword _ (mem_keywords t.body.kind_mem) _
    · exact hkeyword _ (by decide) _
  | directive d =>
    rw [text, Printer.definition, d.toList_directiveDefinition h.locations.1,
      DirectiveDefinition.text, List.append_assoc, List.append_assoc]
    exact ⟨startsLine_of_description "" rfl _ (hkeyword _ (by decide) _),
      (avoids_definition (by decide) (by decide) (by decide) _ _).plain⟩

theorem IsWritable.endsDefinition (h : d.IsWritable) (rest : List Char) :
    EndsDefinition ('\n' :: '\n' :: (d.text ++ rest)) where
  toCloses := closes_of_startsLine ['\n'] rfl rfl (h.startsLine rest).1
  implements := (skipsIgnored_symbol _).rejects ['\n', '\n'] rfl (h.startsLine rest).2

theorem IsWritable.reads (h : d.IsWritable) (hrest : EndsDefinition rest) :
    Reads definition (d.text ++ rest) d.reread rest := by
  have hc := hrest.toCloses
  cases d with
  | schema s =>
    rw [text, Printer.definition, s.toList_schemaDefinition]
    cases hs : s.isExtension with
    | false =>
      exact Reads.orElse_left ((Reads.orElse_left
        (SchemaDefinition.IsWritable.reads_schemaBody h hs hc)).map _)
    | true =>
      obtain ⟨hrejects, hreads⟩ := SchemaDefinition.IsWritable.reads_schemaExtension h hs hc
      exact Reads.orElse_left ((Reads.orElse_right hrejects hreads).map _)
  | type t =>
    rw [text, Printer.definition, t.toList_typeDefinition]
    have hne : "schema" ≠ t.body.kind := by
      cases t.body <;> simp only [TypeBody.kind] <;> decide
    have hschema := TypeDefinition.IsWritable.avoids h (show "schema" ∈ words by decide) hne rest
    exact Reads.orElse_right (hschema.rejects_schema.map _)
      (Reads.orElse_left ((TypeDefinition.IsWritable.reads h hrest).map _))
  | directive d =>
    have havoid (word : String) (hw : word ∈ words) (hne : word ≠ "directive") :
        Avoids word (d.text ++ rest) := by
      rw [DirectiveDefinition.text, List.append_assoc, List.append_assoc]
      exact avoids_definition hw (by decide) hne _ _
    have htype : Rejects typeDefinition (d.text ++ rest) :=
      rejects_typeDefinition fun body => havoid body.kind body.kind_mem
        (by cases body <;> simp only [TypeBody.kind] <;> decide)
    rw [text, Printer.definition, d.toList_directiveDefinition h.locations.1]
    exact Reads.orElse_right ((havoid "schema" (by decide) (by decide)).rejects_schema.map _)
      (Reads.orElse_right (htype.map _)
        ((DirectiveDefinition.IsWritable.reads h hc).map _))

end Definition

namespace Document

def reread (d : Document) : Document := d.map Definition.reread

structure IsWritable (d : Document) : Prop where
  nonempty : d ≠ []
  definitions : ∀ definition ∈ d, definition.IsWritable

theorem skipsIgnored_definition : SkipsIgnored definition := by
  have hdefinition {β : Type} (word : String) (g : Option String → Parser β) :
      SkipsIgnored (optional? string >>= fun d => symbol word >>= fun _ => g d) :=
    skipsIgnored_string.optional_bind ((skipsIgnored_symbol _).bind _)
  have hextension {β : Type} (g : Parser β) : SkipsIgnored (symbol "extend" >>= fun _ => g) :=
    (skipsIgnored_symbol _).bind _
  have hrule (body : TypeBody) : SkipsIgnored body.rule := by
    cases body with
    | object _ _ =>
      exact (hdefinition _ _).orElse ((hextension _).orElse (hextension _))
    | _ => exact (hdefinition _ _).orElse (hextension _)
  have htype : SkipsIgnored typeDefinition := by
    rw [typeDefinition_eq]
    exact (hrule _).orElse ((hrule _).orElse ((hrule _).orElse ((hrule _).orElse
      ((hrule _).orElse (hrule _)))))
  have hschema : SkipsIgnored (schemaBody <|> schemaExtension) :=
    ((skipsIgnored_symbol _).bind _).orElse (hextension _)
  exact (hschema.map _).orElse ((htype.map _).orElse ((hdefinition _ _).map _))

theorem IsWritable.parse_render {d : Document} (h : d.IsWritable) :
    parse (render d) = .ok (reread d) := by
  have htext : (render d).toList = ['\n', '\n'].intercalate (d.map Definition.text) := by
    rw [render, String.toList_intercalate, List.map_map]
    rfl
  have hend : EndsDefinition [] := ⟨⟨nofun, nofun⟩, fun _ => rfl⟩
  have hread := Reads.some_intercalate EndsDefinition ['\n', '\n']
    skipsIgnored_definition rfl (List.cons_ne_nil _ _) h.nonempty
    (fun a ha _ ht => (h.definitions a ha).reads ht)
    (fun a ha tail => (h.definitions a ha).endsDefinition tail) hend (fun _ => rfl)
  have hdocument : Reads document (render d).toList (reread d) [] := by
    rw [htext, ← List.append_nil (List.intercalate _ _)]
    exact hread.bind fun _ => rfl
  unfold parse
  rw [hdocument none]

end Document

end ApiStack.Sdl
