import ApiStack.Proofs.OrderedMap
import ApiStack.Proofs.Sdl.Numbers
import ApiStack.Proofs.Sdl.Strings

namespace ApiStack.Sdl

open Sdl.Parser Sdl.Grammar

/-- A name that no word for a value starts. -/
def IsEnumName (s : String) : Prop :=
  IsName s ∧ ∀ word ∈ ["true", "false", "null"], ¬word.toList <+: s.toList

/-- What ends a word does not turn its front into another word. -/
theorem not_prefix_append {word cs rest : List Char} (h : ¬word <+: cs)
    (hword : word.all insideName = true) (hrest : EndsWord rest) : ¬word <+: cs ++ rest := by
  intro hp
  rcases List.prefix_or_prefix_of_prefix hp (List.prefix_append cs rest) with hle | ⟨more, rfl⟩
  · exact h hle
  · rw [List.prefix_append_right_inj] at hp
    cases more with
    | nil => exact h (by rw [List.append_nil])
    | cons c more =>
      obtain ⟨tail, rfl⟩ := hp
      have hc := hrest.insideName c rfl
      rw [List.all_append, List.all_cons, hc, Bool.false_and, Bool.and_false] at hword
      cases hword

section Names

variable {s : String} {cs rest : List Char}

theorem rejects_number (h : ∀ c ∈ cs.head?, c ≠ '-' ∧ c.isDigit = false) : Rejects number cs := by
  have hminus : Rejects (charWhere (· = '-')) cs :=
    rejects_charWhere fun c hc => decide_eq_false (h c hc).1
  have hzero : Rejects (literal ['0']) cs :=
    rejects_literal_of_head fun hc => by cases (h '0' hc).2
  have hdigits : Rejects digits cs := (rejects_charWhere fun c hc => (h c hc).2).bind_left
  exact (Rejects.bind_right (Reads.optional_none hminus)
    (Rejects.orElse hzero.bind_left hdigits).bind_left).bind_left

theorem rejects_string (hskip : skipIgnored false cs = cs) (h : cs.head? ≠ some '"') :
    Rejects string cs := by
  refine Rejects.bind_right (reads_ignored cs) (Rejects.orElse ?_ ?_) <;> rw [hskip]
  · exact (rejects_literal_of_head h).bind_left
  · exact (rejects_literal_of_head h).bind_left

theorem IsName.rejects_number (h : IsName s) (rest : List Char) :
    Rejects number (s.toList ++ rest) := by
  obtain ⟨c, cs, he, hc, -⟩ := h
  rw [he]
  refine Sdl.rejects_number fun d hd => ?_
  cases hd
  refine ⟨?_, isDigit_of_startsName hc⟩
  rintro rfl
  cases hc

theorem IsName.rejects_string (h : IsName s) (rest : List Char) :
    Rejects string (s.toList ++ rest) := by
  refine Sdl.rejects_string (skipIgnored_name h rest) ?_
  obtain ⟨c, cs, he, hc, -⟩ := h
  rw [he]
  intro hq
  cases hq
  cases hc

theorem IsEnumName.rejects_wordValue (h : IsEnumName s) (hrest : EndsWord rest) :
    Rejects wordValue (s.toList ++ rest) := by
  have hword (word : String) (hm : word ∈ ["true", "false", "null"])
      (hall : word.toList.all insideName = true) :
      Rejects (literal word.toList) (s.toList ++ rest) :=
    rejects_literal (not_prefix_append (h.2 word hm) hall hrest)
  exact Rejects.orElse (hword "true" (by decide) (by decide)).bind_left
    (Rejects.orElse (hword "false" (by decide) (by decide)).bind_left
      (hword "null" (by decide) (by decide)).bind_left)

theorem IsEnumName.reads_enumName (h : IsEnumName s) (hrest : EndsWord rest) :
    Reads enumName (s.toList ++ rest) s rest :=
  Reads.token (skipIgnored_name h.1 rest) ((Reads.absent (h.rejects_wordValue hrest)).bind
    (reads_nameHere h.1 hrest.insideName))

end Names

namespace Value

mutual

def reread : Value → Value
  | .null => .null
  | .bool b => .bool b
  | .num n => .num n.reread
  | .str s => .str (rereadString s)
  | .enum name => .enum name
  | .list items => .list (rereadItems items)
  | .object fields => .object (rereadFields fields)
termination_by structural v => v

def rereadItems : List Value → List Value
  | [] => []
  | v :: rest => v.reread :: rereadItems rest
termination_by structural items => items

def rereadFields : List (String × Value) → List (String × Value)
  | [] => []
  | (name, v) :: rest => (name, v.reread) :: rereadFields rest
termination_by structural fields => fields

end

mutual

/-- The text of a value can be read: its numbers are in range, its names are names, and no object
has a field twice. -/
def IsWritable : Value → Prop
  | .num n => n.InRange
  | .enum name => IsEnumName name
  | .list items => AreItemsWritable items
  | .object fields => (fields.map Prod.fst).Nodup ∧ AreFieldsWritable fields
  | .null | .bool _ | .str _ => True
termination_by structural v => v

def AreItemsWritable : List Value → Prop
  | [] => True
  | v :: rest => v.IsWritable ∧ AreItemsWritable rest
termination_by structural items => items

def AreFieldsWritable : List (String × Value) → Prop
  | [] => True
  | (name, v) :: rest => (IsName name ∧ v.IsWritable) ∧ AreFieldsWritable rest
termination_by structural fields => fields

end

theorem rereadItems_eq_map (items : List Value) : rereadItems items = items.map reread := by
  induction items with
  | nil => rfl
  | cons v rest ih => rw [rereadItems, ih, List.map_cons]

theorem rereadFields_eq_map (fields : List (String × Value)) :
    rereadFields fields = fields.map fun field => (field.1, field.2.reread) := by
  induction fields with
  | nil => rfl
  | cons field rest ih =>
    obtain ⟨name, v⟩ := field
    rw [rereadFields, ih, List.map_cons]

def text (v : Value) : List Char := (Printer.value v).toList

def namedText (field : String × Value) : List Char :=
  field.1.toList ++ ':' :: ' ' :: field.2.text

theorem text_list (items : List Value) :
    text (.list items) = '[' :: ([',', ' '].intercalate (items.map text) ++ [']']) := by
  have hitems : (Printer.valueItems items).map String.toList = items.map text := by
    induction items with
    | nil => rfl
    | cons v rest ih =>
      rw [Printer.valueItems, List.map_cons, ih]
      rfl
  rw [text, Printer.value]
  simp [String.toList_intercalate, hitems]

theorem text_object (fields : List (String × Value)) :
    text (.object fields) =
      '\x7b' :: ([',', ' '].intercalate (fields.map namedText) ++ ['\x7d']) := by
  have hfields : (Printer.valueFields fields).map String.toList = fields.map namedText := by
    induction fields with
    | nil => rfl
    | cons field rest ih =>
      obtain ⟨name, v⟩ := field
      rw [Printer.valueFields, List.map_cons, ih]
      simp [namedText, text]
  rw [text, Printer.value]
  simp [String.toList_intercalate, hfields]

/-- A value is read where it is written. -/
def IsReadBack (v : Value) : Prop := ∀ fuel rest, v.text.length < fuel → EndsWord rest →
  Reads (value fuel) (v.text ++ rest) v.reread rest

theorem skipsIgnored_value (fuel : Nat) : SkipsIgnored (value fuel) := by
  cases fuel with
  | zero => exact fun _ _ => rfl
  | succ fuel => exact skipsIgnored_bind_ignored _

variable {cs rest : List Char} {c : Char}

theorem isReadBack_num {n : Json.Number} (h : n.InRange) : IsReadBack (.num n) := by
  intro fuel rest hfuel hrest
  cases fuel with
  | zero => cases hfuel
  | succ fuel =>
    obtain ⟨hskip, hread⟩ := h.reads hrest
    exact Reads.token hskip (Reads.orElse_left hread)

theorem isReadBack_str (s : String) : IsReadBack (.str s) := by
  intro fuel rest hfuel hrest
  cases fuel with
  | zero => cases hfuel
  | succ fuel =>
    have hhead : text (.str s) = '"' :: (s.toList.flatMap Printer.escapeInValue ++ ['"']) := by
      rw [text, Printer.value, toList_quotedValue]
    have hskip : skipIgnored false (text (.str s) ++ rest) = text (.str s) ++ rest := by
      rw [hhead]
      rfl
    refine Reads.token hskip (Reads.orElse_right (rejects_number ?_) (Reads.orElse_left ?_))
    · rw [hhead]
      rintro c hc
      cases hc
      decide
    · exact (reads_quotedValue s hrest).map Value.str

theorem isReadBack_word {v : Value} {word : String} (hw : IsName word) (ht : v.text = word.toList)
    (h : ∀ rest, Reads wordValue (word.toList ++ rest) v.reread rest) : IsReadBack v := by
  intro fuel rest hfuel hrest
  cases fuel with
  | zero => cases hfuel
  | succ fuel =>
    rw [ht]
    refine Reads.token (skipIgnored_name hw rest) (Reads.orElse_right (hw.rejects_number rest) ?_)
    exact Reads.orElse_right ((hw.rejects_string rest).map _) (Reads.orElse_left (h rest))

theorem reads_word (word : String) (v : Value) (rest : List Char) :
    Reads (do literal word.toList; return v) (word.toList ++ rest) v rest :=
  (reads_literal word.toList rest).bind (.pure v rest)

theorem isReadBack_null : IsReadBack .null :=
  isReadBack_word ⟨'n', "ull".toList, rfl, rfl, rfl⟩ rfl fun rest =>
    .orElse_right (fun _ => rfl) (.orElse_right (fun _ => rfl) (reads_word "null" .null rest))

theorem isReadBack_bool : ∀ b : Bool, IsReadBack (.bool b)
  | true => isReadBack_word ⟨'t', "rue".toList, rfl, rfl, rfl⟩ rfl fun rest =>
    .orElse_left (reads_word "true" (.bool true) rest)
  | false => isReadBack_word ⟨'f', "alse".toList, rfl, rfl, rfl⟩ rfl fun rest =>
    .orElse_right (fun _ => rfl) (.orElse_left (reads_word "false" (.bool false) rest))

theorem isReadBack_enum {name : String} (h : IsEnumName name) : IsReadBack (.enum name) := by
  intro fuel rest hfuel hrest
  cases fuel with
  | zero => cases hfuel
  | succ fuel =>
    have hskip := skipIgnored_name h.1 rest
    refine Reads.token hskip (Reads.orElse_right (h.1.rejects_number rest)
      (Reads.orElse_right ((h.1.rejects_string rest).map _) ?_))
    exact Reads.orElse_right (h.rejects_wordValue hrest)
      (Reads.orElse_left ((h.reads_enumName hrest).map _))

theorem IsReadBack.text_ne_nil {v : Value} (h : v.IsReadBack) : v.text ≠ [] := by
  intro he
  have hread := h 1 [] (by rw [he]; exact Nat.one_pos) nofun
  rw [he] at hread
  cases hread none

theorem length_le_intercalate (sep : List Char) {texts : List (List Char)} (h : cs ∈ texts) :
    cs.length ≤ (sep.intercalate texts).length := by
  obtain ⟨before, after, rfl⟩ := List.append_of_mem h
  cases before with
  | nil => simp [intercalate_cons]
  | cons first before =>
    simp only [List.cons_append, intercalate_cons, List.flatMap_append, List.flatMap_cons,
      List.length_append]
    omega

theorem isReadBack_list {items : List Value} (h : ∀ v ∈ items, IsReadBack v) :
    IsReadBack (.list items) := by
  intro fuel rest hfuel hrest
  cases fuel with
  | zero => cases hfuel
  | succ fuel =>
    rw [text_list, List.length_cons, List.length_append] at hfuel
    have hlength : ∀ v ∈ items, v.text.length < fuel := by
      intro v hv
      have hle := length_le_intercalate [',', ' '] (List.mem_map_of_mem (f := text) hv)
      omega
    have hend : Rejects (value fuel) (']' :: rest) := by
      cases fuel <;> exact fun _ => rfl
    have hitems : Reads (many (value fuel)) ([',', ' '].intercalate (items.map text) ++ ']' :: rest)
        (items.map reread) (']' :: rest) :=
      Reads.many_intercalate EndsWord (skipsIgnored_value fuel) rfl
        (List.cons_ne_nil _ _) (fun v hv tail ht => h v hv fuel tail (hlength v hv) ht)
        (fun v hv => ⟨(h v hv).text_ne_nil, fun _ => endsWord_cons rfl⟩) (endsWord_cons rfl) hend
    rw [text_list, List.cons_append, List.append_assoc, List.singleton_append, reread,
      rereadItems_eq_map]
    refine Reads.token rfl (Reads.orElse_right (fun _ => rfl) (Reads.orElse_right (fun _ => rfl)
      (Reads.orElse_right (fun _ => rfl) (Reads.orElse_right (fun _ => rfl)
        (Reads.orElse_left ?_)))))
    have hopen (cs : List Char) : Reads (symbol "[") ('[' :: cs) () cs := fun _ => rfl
    have hclose : Reads (symbol "]") (']' :: rest) () rest := fun _ => rfl
    exact (hopen _).bind (hitems.bind (hclose.bind (.pure _ _)))

theorem foldl_setEntry (fields : List (String × Value)) :
    fields.foldl (fun done (name, value) => setEntry name value done) [] =
      (OrderedMap.ofList fields).entries := by
  have hall (m : OrderedMap Value) : (m.insertAll fields).entries =
      fields.foldl (fun done (name, value) => setEntry name value done) m.entries := by
    induction fields generalizing m with
    | nil => rfl
    | cons field rest ih => exact ih (m.insert field.1 field.2)
  exact (hall OrderedMap.empty).symm

theorem reads_named {fuel : Nat} {field : String × Value} (hname : IsName field.1)
    (h : field.2.IsReadBack) (hfuel : field.2.text.length < fuel) (hrest : EndsWord rest) :
    Reads (do
        let name ← name
        symbol ":"
        let value ← value fuel
        return (name, value))
      (namedText field ++ rest) (field.1, field.2.reread) rest := by
  have hcolon : Reads (symbol ":") (':' :: ' ' :: (field.2.text ++ rest)) ()
      (' ' :: (field.2.text ++ rest)) := fun _ => rfl
  have hvalue := (skipsIgnored_value fuel).reads [' '] rfl (h fuel rest hfuel hrest)
  rw [namedText, List.append_assoc, List.cons_append, List.cons_append]
  refine (reads_name hname ?_).bind (hcolon.bind (hvalue.bind (.pure _ _)))
  intro c hc
  cases hc
  rfl

theorem isReadBack_object {fields : List (String × Value)}
    (hn : (fields.map Prod.fst).Nodup) (h : ∀ field ∈ fields, IsName field.1 ∧ IsReadBack field.2) :
    IsReadBack (.object fields) := by
  intro fuel rest hfuel hrest
  cases fuel with
  | zero => cases hfuel
  | succ fuel =>
    rw [text_object, List.length_cons, List.length_append] at hfuel
    have hlength : ∀ field ∈ fields, field.2.text.length < fuel := by
      intro field hm
      have hle := length_le_intercalate [',', ' ']
        (List.mem_map_of_mem (f := namedText) hm)
      rw [namedText, List.length_append, List.length_cons, List.length_cons] at hle
      omega
    have hend : Rejects name ('\x7d' :: rest) := fun _ => rfl
    have hfields : Reads (many (do
          let name ← name
          symbol ":"
          let value ← value fuel
          return (name, value)))
        ([',', ' '].intercalate (fields.map namedText) ++ '\x7d' :: rest)
        (fields.map fun field => (field.1, field.2.reread)) ('\x7d' :: rest) :=
      Reads.many_intercalate EndsWord (skipsIgnored_name.bind _) rfl
        (List.cons_ne_nil _ _)
        (fun field hm tail ht => reads_named (h field hm).1 (h field hm).2 (hlength field hm) ht)
        (fun field hm => ⟨List.append_ne_nil_of_right_ne_nil _ (List.cons_ne_nil _ _),
          fun _ => endsWord_cons rfl⟩) (endsWord_cons rfl) hend.bind_left
    have hset : (fields.map fun field => (field.1, field.2.reread)).foldl
        (fun done (name, value) => setEntry name value done) [] =
          fields.map fun field => (field.1, field.2.reread) := by
      rw [foldl_setEntry]
      refine OrderedMap.entries_ofList ?_
      rw [List.map_map]
      exact hn
    rw [text_object, List.cons_append, List.append_assoc, List.singleton_append, reread,
      rereadFields_eq_map]
    refine Reads.token rfl (Reads.orElse_right (fun _ => rfl) (Reads.orElse_right (fun _ => rfl)
      (Reads.orElse_right (fun _ => rfl) (Reads.orElse_right (fun _ => rfl)
        (Reads.orElse_right (fun _ => rfl) ?_)))))
    have hopen : Reads (symbol "\x7b")
        ('\x7b' :: ([',', ' '].intercalate (fields.map namedText) ++ '\x7d' :: rest)) ()
        ([',', ' '].intercalate (fields.map namedText) ++ '\x7d' :: rest) := fun _ => rfl
    have hclose : Reads (symbol "\x7d") ('\x7d' :: rest) () rest := fun _ => rfl
    refine hopen.bind (hfields.bind (hclose.bind ?_))
    rw [hset]
    exact .pure _ _

mutual

theorem IsWritable.isReadBack (v : Value) (h : v.IsWritable) : v.IsReadBack :=
  match v, h with
  | .null, _ => isReadBack_null
  | .bool b, _ => isReadBack_bool b
  | .num _, h => isReadBack_num h
  | .str s, _ => isReadBack_str s
  | .enum _, h => isReadBack_enum h
  | .list items, h => isReadBack_list (areReadBack_items items h)
  | .object fields, h => isReadBack_object h.1 (areReadBack_fields fields h.2)
termination_by structural v

theorem areReadBack_items (items : List Value) (h : AreItemsWritable items) :
    ∀ v ∈ items, IsReadBack v :=
  match items, h with
  | [], _ => nofun
  | v :: rest, h =>
    List.forall_mem_cons.2 ⟨IsWritable.isReadBack v h.1, areReadBack_items rest h.2⟩
termination_by structural items

theorem areReadBack_fields (fields : List (String × Value)) (h : AreFieldsWritable fields) :
    ∀ field ∈ fields, IsName field.1 ∧ IsReadBack field.2 :=
  match fields, h with
  | [], _ => nofun
  | (_, v) :: rest, h =>
    List.forall_mem_cons.2 ⟨⟨h.1.1, IsWritable.isReadBack v h.1.2⟩, areReadBack_fields rest h.2⟩
termination_by structural fields

end

/-- The length of the text is enough fuel, also with blanks in front. -/
theorem IsReadBack.reads_anyValue {v : Value} (h : v.IsReadBack) (blank : List Char)
    (hb : blank.all isIgnored = true) (hrest : EndsWord rest) :
    Reads anyValue (blank ++ (v.text ++ rest)) v.reread rest := by
  intro fault
  have hfuel : v.text.length < (blank ++ (v.text ++ rest)).length + 1 := by
    simp only [List.length_append]
    omega
  exact (skipsIgnored_value _).reads blank hb (h _ rest hfuel hrest) fault

end Value

namespace Directive

def reread (d : Directive) : Directive :=
  ⟨d.name, d.arguments.map fun a => (a.1, a.2.reread)⟩

structure IsWritable (d : Directive) : Prop where
  name : IsName d.name
  arguments : ∀ a ∈ d.arguments, IsName a.1 ∧ a.2.IsWritable

def argumentsText (d : Directive) : List Char :=
  if d.arguments = [] then []
  else '(' :: ([',', ' '].intercalate (d.arguments.map Value.namedText) ++ [')'])

def text (d : Directive) : List Char := ' ' :: '@' :: (d.name.toList ++ d.argumentsText)

theorem toList_argument (a : String × Value) : (Printer.argument a).toList = Value.namedText a := by
  simp [Printer.argument, Value.namedText, Value.text]

theorem toList_directive (d : Directive) : (Printer.directive d).toList = d.text := by
  have hmap : (d.arguments.map Printer.argument).map String.toList =
      d.arguments.map Value.namedText := by
    rw [List.map_map]
    exact List.map_congr_left fun a _ => toList_argument a
  rw [Printer.directive, text, argumentsText]
  by_cases h : d.arguments = []
  · simp [h]
  · simp [h, String.toList_intercalate, hmap]

theorem toList_directives (ds : List Directive) :
    (Printer.directives ds).toList = ds.flatMap text := by
  rw [Printer.directives, String.toList_join, List.flatMap_map]
  simp only [toList_directive]

variable {d : Directive} {cs rest : List Char}

theorem reads_argument {a : String × Value} (hname : IsName a.1) (h : a.2.IsWritable)
    (hrest : EndsWord rest) :
    Reads argument (Value.namedText a ++ rest) (a.1, a.2.reread) rest := by
  have hcolon : Reads (symbol ":") (':' :: ' ' :: (a.2.text ++ rest)) ()
      (' ' :: (a.2.text ++ rest)) := fun _ => rfl
  have hvalue := (h.isReadBack).reads_anyValue [' '] rfl hrest
  rw [Value.namedText, List.append_assoc, List.cons_append, List.cons_append]
  refine (reads_name hname ?_).bind (hcolon.bind (hvalue.bind (.pure _ _)))
  intro c hc
  cases hc
  rfl

theorem IsWritable.reads_arguments (h : d.IsWritable) (hrest : nextChar? rest ≠ some '(') :
    Reads (optional? (do
        symbol "("
        let arguments ← some' argument
        symbol ")"
        return arguments))
      (d.argumentsText ++ rest)
      (if d.arguments = [] then none else some d.reread.arguments) rest := by
  unfold argumentsText
  split
  · exact Reads.optional_none (rejects_symbol_of_next rfl hrest).bind_left
  · next hne =>
    have harguments : Reads (some' argument)
        ([',', ' '].intercalate (d.arguments.map Value.namedText) ++ ')' :: rest)
        d.reread.arguments (')' :: rest) :=
      Reads.some_intercalate EndsWord _ (skipsIgnored_name.bind _) rfl
        (List.cons_ne_nil _ _) hne
        (fun a ha tail ht => reads_argument (h.arguments a ha).1 (h.arguments a ha).2 ht)
        (fun _ _ _ => endsWord_cons rfl) (endsWord_cons rfl)
        (Rejects.bind_left (fun _ => rfl))
    have hopen : Reads (symbol "(")
        ('(' :: ([',', ' '].intercalate (d.arguments.map Value.namedText) ++ ')' :: rest)) ()
        ([',', ' '].intercalate (d.arguments.map Value.namedText) ++ ')' :: rest) := fun _ => rfl
    have hclose : Reads (symbol ")") (')' :: rest) () rest := fun _ => rfl
    rw [List.cons_append, List.append_assoc, List.singleton_append]
    exact Reads.optional_some (hopen.bind (harguments.bind (hclose.bind (.pure _ _))))

theorem IsWritable.reads (h : d.IsWritable) (hrest : EndsWord rest)
    (hnext : nextChar? rest ≠ some '(') : Reads directive (d.text ++ rest) d.reread rest := by
  have hat : Reads (symbol "@") (' ' :: '@' :: (d.name.toList ++ (d.argumentsText ++ rest))) ()
      (d.name.toList ++ (d.argumentsText ++ rest)) := fun _ => rfl
  have hends : EndsWord (d.argumentsText ++ rest) := by
    unfold argumentsText
    split
    · exact hrest
    · exact endsWord_cons rfl
  have hd : d.reread = ⟨d.name,
      (if d.arguments = [] then none else some d.reread.arguments).getD []⟩ := by
    by_cases he : d.arguments = [] <;> simp [reread, he]
  rw [text, List.cons_append, List.cons_append, List.append_assoc, hd]
  exact hat.bind ((reads_name h.name hends.insideName).bind
    ((h.reads_arguments hnext).bind (.pure _ _)))

theorem reads_directives {ds : List Directive} (h : ∀ d ∈ ds, d.IsWritable) (hrest : EndsWord rest)
    (hnext : ∀ c ∈ nextChar? rest, c ≠ '@' ∧ c ≠ '(') :
    Reads directives (ds.flatMap text ++ rest) (ds.map reread) rest := by
  refine Reads.many (fun cs => EndsWord cs ∧ nextChar? cs ≠ some '(')
    (fun d hd tail ht => (h d hd).reads ht.1 ht.2)
    (fun d _ => ⟨List.cons_ne_nil _ _, fun tail => ⟨endsWord_cons rfl, ?_⟩⟩)
    ⟨hrest, fun he => (hnext '(' he).2 rfl⟩ ?_
  · exact fun he => by cases he
  · exact (rejects_symbol_of_next rfl fun he => (hnext '@' he).1 rfl).bind_left

theorem endsWord_directives (ds : List Directive) (hrest : EndsWord rest) :
    EndsWord (ds.flatMap text ++ rest) := by
  cases ds with
  | nil => exact hrest
  | cons d ds => exact endsWord_cons rfl

theorem nextChar?_directives (ds : List Directive) (rest : List Char) :
    nextChar? (ds.flatMap text ++ rest) = if ds = [] then nextChar? rest else some '@' := by
  cases ds with
  | nil => rfl
  | cons d ds => rfl

theorem reads_someDirectives {ds : List Directive} (hne : ds ≠ []) (h : ∀ d ∈ ds, d.IsWritable)
    (hrest : EndsWord rest) (hnext : ∀ c ∈ nextChar? rest, c ≠ '@' ∧ c ≠ '(') :
    Reads someDirectives (ds.flatMap text ++ rest) (ds.map reread) rest := by
  obtain ⟨d, ds, rfl⟩ := List.exists_cons_of_ne_nil hne
  obtain ⟨hd, hds⟩ := List.forall_mem_cons.1 h
  have hparen : nextChar? (ds.flatMap text ++ rest) ≠ some '(' := by
    rw [nextChar?_directives]
    split
    · exact fun he => (hnext '(' he).2 rfl
    · exact fun he => by cases he
  rw [List.flatMap_cons, List.append_assoc]
  exact (hd.reads (endsWord_directives ds hrest) hparen).bind
    ((reads_directives hds hrest hnext).bind (.pure _ _))

end Directive

end ApiStack.Sdl
