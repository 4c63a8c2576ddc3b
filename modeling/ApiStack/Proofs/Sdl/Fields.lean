import ApiStack.Proofs.Sdl.Values

namespace ApiStack.Sdl

open Sdl.Parser Sdl.Grammar

section Lines

variable {level : String} {blank cs rest : List Char} {c : Char}

theorem nextChar?_append (h : blank.all isIgnored = true) (cs : List Char) :
    nextChar? (blank ++ cs) = nextChar? cs := by
  rw [nextChar?, skipIgnored_append h, nextChar?]

theorem Closes.next_ne (h : Closes cs) (hc : c ∈ continuations) : nextChar? cs ≠ some c :=
  fun he => h.next c he hc

theorem Closes.ends_directives (h : Closes cs) : ∀ c ∈ nextChar? cs, c ≠ '@' ∧ c ≠ '(' := by
  intro c hc
  constructor <;> rintro rfl
  · exact h.next_ne (by decide) hc
  · exact h.next_ne (by decide) hc

/-- A character that a line with a name starts with, or its description. -/
def startsLine (c : Char) : Bool := startsName c || c = '"'

theorem exists_description_eq (level text : String) : ∃ more,
    (Printer.description level (some text)).toList = level.toList ++ '"' :: more := by
  cases h : text.toList.contains '\n' with
  | true => exact ⟨_, toList_description_block h⟩
  | false => exact ⟨_, toList_description_line h⟩

theorem startsLine_of_description (level : String) (hl : level.toList.all isIgnored = true)
    (d : Option String) (hcs : ∀ c ∈ nextChar? cs, startsLine c = true) :
    ∀ c ∈ nextChar? ((Printer.description level d).toList ++ cs), startsLine c = true := by
  cases d with
  | none => exact hcs
  | some text =>
    obtain ⟨more, he⟩ := exists_description_eq level text
    rw [he, List.append_assoc, nextChar?_append hl]
    intro c hc
    cases hc
    rfl

theorem startsLine_of_name {s : String} (h : IsName s) (rest : List Char) :
    ∀ c ∈ nextChar? (s.toList ++ rest), startsLine c = true := by
  obtain ⟨d, cs, he, hd, -⟩ := h
  intro c hc
  rw [he, List.cons_append, nextChar?, skipIgnored_of_startsName hd] at hc
  cases hc
  rw [startsLine, hd, Bool.true_or]

theorem startsLine_of_line (hl : level.toList.all isIgnored = true) (d : Option String) {s : String}
    (h : IsName s) (rest : List Char) : ∀ c ∈ nextChar?
      ((Printer.description level d).toList ++ (level.toList ++ (s.toList ++ rest))),
        startsLine c = true := by
  refine startsLine_of_description level hl d ?_
  rw [nextChar?_append hl]
  exact startsLine_of_name h rest

theorem closes_of_startsLine (blank : List Char) (hb : (c :: blank).all isIgnored = true)
    (he : endsWord c = true) (h : ∀ c ∈ nextChar? cs, startsLine c = true) :
    Closes (c :: blank ++ cs) where
  endsWord := endsWord_cons he
  next := by
    intro d hd hm
    have hall : ∀ d ∈ continuations, startsLine d = false :=
      List.all_iff_forall_prop.1 (by decide)
    rw [nextChar?_append hb] at hd
    have hline := h d hd
    rw [hall d hm] at hline
    cases hline

theorem closes_of_next (blank : List Char) (hb : blank.all isIgnored = true)
    (he : EndsWord (blank ++ c :: cs)) (hi : isIgnored c = false)
    (hc : c ∉ '#' :: continuations) : Closes (blank ++ c :: cs) where
  endsWord := he
  next := by
    rw [List.mem_cons, not_or] at hc
    rw [nextChar?_append hb, nextChar?, skipIgnored_cons hi hc.1]
    intro d hd
    cases hd
    exact hc.2

end Lines

variable {level : String} {cs rest : List Char}

namespace InputValue

/-- The input that is read where an input is written at some level. -/
def reread (level : String) (v : InputValue) : InputValue :=
  ⟨v.description.map (rereadDescription level), v.name, v.type, v.default.map Value.reread,
    v.directives.map Directive.reread⟩

structure IsWritable (v : InputValue) : Prop where
  name : IsName v.name
  type : IsName v.type.innermost
  default : ∀ d ∈ v.default, d.IsWritable
  directives : ∀ d ∈ v.directives, d.IsWritable

def defaultText (v : InputValue) : List Char :=
  match v.default with
  | none => []
  | some d => ' ' :: '=' :: ' ' :: d.text

def text (v : InputValue) : List Char :=
  v.name.toList ++ ':' :: ' ' :: ((Printer.typeRef v.type).toList ++
    (v.defaultText ++ v.directives.flatMap Directive.text))

def line (level : String) (v : InputValue) : List Char :=
  (Printer.description level v.description).toList ++ (level.toList ++ v.text)

theorem toList_inputValue (v : InputValue) : (Printer.inputValue v).toList = v.text := by
  rw [Printer.inputValue, text, defaultText]
  cases v.default <;> simp [Directive.toList_directives, Value.text]

theorem toList_inputLine (level : String) (v : InputValue) :
    (Printer.inputLine level v).toList = v.line level := by
  simp [Printer.inputLine, line, toList_inputValue]

variable {v : InputValue}

theorem IsWritable.reads_default (h : v.IsWritable) (hrest : Closes rest) :
    Reads (optional? (do
        symbol "="
        anyValue))
      (v.defaultText ++ (v.directives.flatMap Directive.text ++ rest))
      (v.default.map Value.reread) (v.directives.flatMap Directive.text ++ rest) := by
  have hends := Directive.endsWord_directives v.directives hrest.endsWord
  unfold defaultText
  split
  · next he =>
    have hnext : nextChar? (v.directives.flatMap Directive.text ++ rest) ≠ some '=' := by
      rw [Directive.nextChar?_directives]
      split
      · exact hrest.next_ne (by decide)
      · exact fun he => by cases he
    rw [he]
    exact Reads.optional_none (rejects_symbol_of_next rfl hnext).bind_left
  · next d he =>
    have hequals : Reads (symbol "=")
        (' ' :: '=' :: ' ' :: (d.text ++ (v.directives.flatMap Directive.text ++ rest))) ()
        (' ' :: (d.text ++ (v.directives.flatMap Directive.text ++ rest))) := fun _ => rfl
    have hvalue := (h.default d he).isReadBack.reads_anyValue [' '] rfl hends
    rw [he]
    exact Reads.optional_some (hequals.bind hvalue)

theorem IsWritable.reads_line (h : v.IsWritable) (hl : level.toList.all isIgnored = true)
    (hrest : Closes rest) : Reads inputValue (v.line level ++ rest) (v.reread level) rest := by
  have hcolon (cs : List Char) : Reads (symbol ":") (':' :: ' ' :: cs) () (' ' :: cs) :=
    fun _ => rfl
  have hdefault := h.reads_default hrest
  have hdirectives := Directive.reads_directives h.directives hrest.endsWord hrest.ends_directives
  have hends : EndsWord (v.defaultText ++ (v.directives.flatMap Directive.text ++ rest)) := by
    unfold defaultText
    split
    · exact Directive.endsWord_directives _ hrest.endsWord
    · exact endsWord_cons rfl
  have htype := skipsIgnored_typeRef.reads [' '] rfl (reads_typeRef h.type hends)
  have htext : v.text ++ rest = v.name.toList ++ (':' :: ' ' :: ((Printer.typeRef v.type).toList ++
      (v.defaultText ++ (v.directives.flatMap Directive.text ++ rest)))) := by
    simp only [text, List.append_assoc, List.cons_append]
  have hword : EndsWord (':' :: ' ' :: ((Printer.typeRef v.type).toList ++
      (v.defaultText ++ (v.directives.flatMap Directive.text ++ rest)))) := endsWord_cons rfl
  have hname := reads_name h.name hword.insideName
  rw [line, List.append_assoc, List.append_assoc, htext]
  refine Parser.Reads.described (fun _ => skipsIgnored_name.bind _) hl
    (skipsIgnored_string.rejects _ hl (h.name.rejects_string _)) ?_
  exact (skipsIgnored_name.reads _ hl hname).bind ((hcolon _).bind (htype.bind
    (hdefault.bind (hdirectives.bind (.pure _ _)))))

theorem skipsIgnored_inputValue : SkipsIgnored inputValue :=
  skipsIgnored_string.optional_bind (skipsIgnored_name.bind _)

theorem IsWritable.startsLine (h : v.IsWritable) (hl : level.toList.all isIgnored = true)
    (rest : List Char) : ∀ c ∈ nextChar? (v.line level ++ rest), startsLine c = true := by
  rw [line, text, List.append_assoc, List.append_assoc, List.append_assoc]
  exact startsLine_of_line hl _ h.name _

section Many

variable {vs : List InputValue}

theorem reads_lines (level : String) (c : Char) (blank : List Char)
    (hb : (c :: blank).all isIgnored = true) (hc : endsWord c = true) (hne : vs ≠ [])
    (h : ∀ v ∈ vs, v.IsWritable) (hl : level.toList.all isIgnored = true) (hrest : Closes rest)
    (hend : Rejects inputValue rest) :
    Reads (some' inputValue) ((c :: blank).intercalate (vs.map (line level)) ++ rest)
      (vs.map (reread level)) rest :=
  Reads.some_intercalate Closes _ skipsIgnored_inputValue hb (List.cons_ne_nil _ _) hne
    (fun v hv _ ht => (h v hv).reads_line hl ht)
    (fun v hv tail => closes_of_startsLine blank hb hc ((h v hv).startsLine hl tail)) hrest hend

def argumentsText (level : String) (vs : List InputValue) : List Char :=
  if vs = [] then []
  else if vs.all fun v => v.description.isNone then
    '(' :: ([',', ' '].intercalate (vs.map text) ++ [')'])
  else '(' :: '\n' :: (['\n'].intercalate (vs.map (line (level ++ Printer.indent))) ++
    '\n' :: (level.toList ++ [')']))

theorem toList_arguments (level : String) (vs : List InputValue) :
    (Printer.arguments level vs).toList = argumentsText level vs := by
  have htext : (vs.map Printer.inputValue).map String.toList = vs.map text := by
    rw [List.map_map]
    exact List.map_congr_left fun v _ => toList_inputValue v
  have hlines : (vs.map (Printer.inputLine (level ++ Printer.indent))).map String.toList =
      vs.map (line (level ++ Printer.indent)) := by
    rw [List.map_map]
    exact List.map_congr_left fun v _ => toList_inputLine _ v
  rw [Printer.arguments, argumentsText]
  by_cases hne : vs = []
  · simp [hne]
  · simp only [List.isEmpty_iff, hne, if_false]
    split
    · simp [String.toList_intercalate, htext]
    · simp [String.toList_intercalate, hlines]

theorem endsWord_argumentsText (level : String) (vs : List InputValue) (hrest : EndsWord rest) :
    EndsWord (argumentsText level vs ++ rest) := by
  unfold argumentsText
  split
  · exact hrest
  · split
    · exact endsWord_cons rfl
    · exact endsWord_cons rfl

theorem reads_arguments (h : ∀ v ∈ vs, v.IsWritable) (hl : level.toList.all isIgnored = true)
    (hrest : nextChar? rest ≠ some '(') : Reads arguments (argumentsText level vs ++ rest)
      (vs.map (reread (level ++ Printer.indent))) rest := by
  unfold argumentsText
  split
  · next he =>
    subst he
    exact (Reads.optional_none (rejects_symbol_of_next rfl hrest).bind_left).bind (.pure _ _)
  · next hne =>
    have hopen (cs : List Char) : Reads (symbol "(") ('(' :: cs) () cs := fun _ => rfl
    have hclose : Reads (symbol ")") (')' :: rest) () rest := fun _ => rfl
    have hend : Rejects inputValue (')' :: rest) := fun _ => rfl
    split
    · next hall =>
      have hnone : ∀ v ∈ vs, v.description = none := fun v hv =>
        Option.isNone_iff_eq_none.1 (List.all_eq_true.1 hall v hv)
      have htext : vs.map text = vs.map (line "") :=
        List.map_congr_left fun v hv => by rw [line, hnone v hv]; rfl
      have hread : vs.map (reread (level ++ Printer.indent)) = vs.map (reread "") :=
        List.map_congr_left fun v hv => by simp only [reread, hnone v hv, Option.map_none]
      have hcloses : Closes (')' :: rest) :=
        closes_of_next [] rfl (endsWord_cons rfl) rfl (by decide)
      have hvalues := reads_lines "" ',' [' '] rfl rfl hne h rfl hcloses hend
      rw [htext, hread, List.cons_append, List.append_assoc]
      refine Reads.bind (a := some (vs.map (reread ""))) (Reads.optional_some ?_) (.pure _ _)
      exact (hopen _).bind (hvalues.bind (hclose.bind (.pure _ _)))
    · have hindent : (level ++ Printer.indent).toList.all isIgnored = true := by
        rw [String.toList_append, List.all_append, hl]
        rfl
      have hblank : ('\n' :: level.toList).all isIgnored = true := by
        rw [List.all_cons, hl]
        rfl
      have hcloses : Closes ('\n' :: level.toList ++ ')' :: rest) :=
        closes_of_next _ hblank (endsWord_cons rfl) rfl (by decide)
      have hvalues := reads_lines _ '\n' [] rfl rfl hne h hindent hcloses
        (skipsIgnored_inputValue.rejects _ hblank hend)
      have hlines := (skipsIgnored_inputValue.bind _).reads ['\n'] rfl hvalues
      have hclose' := (skipsIgnored_symbol ")").reads _ hblank hclose
      simp only [List.cons_append, List.append_assoc, List.nil_append] at hlines hclose' ⊢
      refine Reads.bind (a := some (vs.map (reread (level ++ Printer.indent))))
        (Reads.optional_some ?_) (.pure _ _)
      exact (hopen _).bind (hlines.bind (hclose'.bind (.pure _ _)))

end Many

end InputValue

namespace Field

def reread (f : Field) : Field :=
  ⟨f.description.map (rereadDescription Printer.indent), f.name,
    f.arguments.map (InputValue.reread (Printer.indent ++ Printer.indent)), f.type,
    f.directives.map Directive.reread⟩

structure IsWritable (f : Field) : Prop where
  name : IsName f.name
  arguments : ∀ v ∈ f.arguments, v.IsWritable
  type : IsName f.type.innermost
  directives : ∀ d ∈ f.directives, d.IsWritable

def text (f : Field) : List Char :=
  f.name.toList ++ (InputValue.argumentsText Printer.indent f.arguments ++
    ':' :: ' ' :: ((Printer.typeRef f.type).toList ++ f.directives.flatMap Directive.text))

def line (f : Field) : List Char :=
  (Printer.description Printer.indent f.description).toList ++ (Printer.indent.toList ++ f.text)

theorem toList_field (f : Field) : (Printer.field f).toList = f.line := by
  simp [Printer.field, line, text, InputValue.toList_arguments, Directive.toList_directives]

variable {f : Field}

theorem skipsIgnored_field : SkipsIgnored field :=
  skipsIgnored_string.optional_bind (skipsIgnored_name.bind _)

theorem IsWritable.reads_line (h : f.IsWritable) (hrest : Closes rest) :
    Reads field (f.line ++ rest) f.reread rest := by
  have hl : Printer.indent.toList.all isIgnored = true := rfl
  have hcolon (cs : List Char) : Reads (symbol ":") (':' :: ' ' :: cs) () (' ' :: cs) :=
    fun _ => rfl
  have hdirectives :=
    Directive.reads_directives h.directives hrest.endsWord hrest.ends_directives
  have htype := skipsIgnored_typeRef.reads [' '] rfl
    (reads_typeRef h.type (Directive.endsWord_directives f.directives hrest.endsWord))
  have hnext : nextChar? (':' :: ' ' :: ((Printer.typeRef f.type).toList ++
      (f.directives.flatMap Directive.text ++ rest))) ≠ some '(' := fun he => by cases he
  have harguments := InputValue.reads_arguments h.arguments hl hnext
  have hends : EndsWord (InputValue.argumentsText Printer.indent f.arguments ++ (':' :: ' ' ::
      ((Printer.typeRef f.type).toList ++ (f.directives.flatMap Directive.text ++ rest)))) :=
    InputValue.endsWord_argumentsText _ _ (endsWord_cons rfl)
  have hname := reads_name h.name hends.insideName
  simp only [line, text, List.append_assoc, List.cons_append]
  refine Parser.Reads.described (fun _ => skipsIgnored_name.bind _) hl
    (skipsIgnored_string.rejects _ hl (h.name.rejects_string _)) ?_
  exact (skipsIgnored_name.reads _ hl hname).bind (harguments.bind ((hcolon _).bind
    (htype.bind (hdirectives.bind (.pure _ _)))))

theorem IsWritable.startsLine (h : f.IsWritable) (rest : List Char) :
    ∀ c ∈ nextChar? (f.line ++ rest), startsLine c = true := by
  rw [line, text, List.append_assoc, List.append_assoc, List.append_assoc]
  exact startsLine_of_line rfl _ h.name _

end Field

namespace EnumValue

def reread (v : EnumValue) : EnumValue :=
  ⟨v.description.map (rereadDescription Printer.indent), v.name,
    v.directives.map Directive.reread⟩

structure IsWritable (v : EnumValue) : Prop where
  name : IsEnumName v.name
  directives : ∀ d ∈ v.directives, d.IsWritable

def line (v : EnumValue) : List Char :=
  (Printer.description Printer.indent v.description).toList ++
    (Printer.indent.toList ++ (v.name.toList ++ v.directives.flatMap Directive.text))

theorem toList_enumValue (v : EnumValue) : (Printer.enumValue v).toList = v.line := by
  simp [Printer.enumValue, line, Directive.toList_directives]

variable {v : EnumValue}

theorem skipsIgnored_enumValue : SkipsIgnored enumValue :=
  skipsIgnored_string.optional_bind (skipsIgnored_enumName.bind _)

theorem IsWritable.reads_line (h : v.IsWritable) (hrest : Closes rest) :
    Reads enumValue (v.line ++ rest) v.reread rest := by
  have hl : Printer.indent.toList.all isIgnored = true := rfl
  have hdirectives :=
    Directive.reads_directives h.directives hrest.endsWord hrest.ends_directives
  have hname := h.name.reads_enumName (Directive.endsWord_directives v.directives hrest.endsWord)
  simp only [line, List.append_assoc]
  refine Parser.Reads.described (fun _ => skipsIgnored_enumName.bind _) hl
    (skipsIgnored_string.rejects _ hl (h.name.1.rejects_string _)) ?_
  exact (skipsIgnored_enumName.reads _ hl hname).bind (hdirectives.bind (.pure _ _))

theorem IsWritable.startsLine (h : v.IsWritable) (rest : List Char) :
    ∀ c ∈ nextChar? (v.line ++ rest), startsLine c = true := by
  rw [line, List.append_assoc, List.append_assoc, List.append_assoc]
  exact startsLine_of_line rfl _ h.name.1 _

end EnumValue

end ApiStack.Sdl
