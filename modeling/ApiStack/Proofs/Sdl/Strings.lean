import ApiStack.Proofs.Sdl.Tokens

namespace ApiStack.Sdl

open Sdl.Parser Sdl.Grammar Printer

/-- A text in a string on one line stands for a character. -/
def SpellsChar (text : List Char) (c : Char) : Prop :=
  ∀ rest, Reads stringChar (text ++ rest) c rest

/-- The character that is read where a character of a value is written. The number of a control
character is written to the base ten and read to the base sixteen. -/
def rereadChar (c : Char) : Char :=
  if isControl c && !(c = '\r' || c = '\n' || c = '\t') then
    ((Json.hexUnit? (fourDigits c.toNat)).map fun (unit, _) => Char.ofNat unit).getD c
  else c

def rereadString (s : String) : String := String.ofList (s.toList.map rereadChar)

variable {c : Char} {cs rest : List Char}

theorem spellsChar_self (hq : c ≠ '"') (hb : c ≠ '\\') (he : endsLine c = false) :
    SpellsChar [c] c := by
  intro rest
  refine Reads.orElse_left (reads_charWhere ?_ rest)
  simp [hq, hb, he]

theorem spellsChar_escaped {d : Char} (hu : c ≠ 'u') (h : Json.escapedChar? c = some d) :
    SpellsChar ['\\', c] d := by
  intro rest
  have hplain : Rejects (charWhere fun c => !(c = '"' || c = '\\' || endsLine c))
      ('\\' :: c :: rest) := by
    refine rejects_charWhere fun e he => ?_
    cases he
    rfl
  have hunicode : Rejects (literal ['\\', 'u']) ('\\' :: c :: rest) := by
    refine rejects_literal fun hp => hu ?_
    obtain ⟨more, he⟩ := hp
    simp only [List.cons_append, List.nil_append, List.cons.injEq] at he
    exact he.2.1.symm
  have hsome : (Json.escapedChar? c).isSome = true := by rw [h]; rfl
  refine Reads.orElse_right hplain (Reads.orElse_right hunicode.bind_left ?_)
  refine (reads_literal ['\\'] _).bind ((reads_charWhere hsome rest).bind ?_)
  rw [h]
  exact .pure d rest

/-- Four digits are read, whatever is behind them. -/
theorem hexUnit?_eq_some {unit : Nat} {rest : List Char}
    (h : Json.hexUnit? cs = some (unit, rest)) :
    ∃ digits, cs = digits ++ rest ∧ digits.length = 4 ∧
      digits.all (fun c => (Json.hexDigit? c).isSome) = true ∧
      ∀ more, Json.hexUnit? (digits ++ more) = some (unit, more) := by
  match cs, h with
  | a :: b :: c :: d :: tail, h =>
    simp only [Json.hexUnit?, Option.bind_eq_bind, Option.bind_eq_some_iff, Option.some.injEq,
      Prod.mk.injEq] at h
    obtain ⟨a', ha, b', hb, c', hc, d', hd, hu, rfl⟩ := h
    refine ⟨[a, b, c, d], rfl, rfl, by simp [ha, hb, hc, hd], fun more => ?_⟩
    simp [Json.hexUnit?, ha, hb, hc, hd, ← hu]
  | [], h | [_], h | [_, _], h | [_, _, _], h => cases h

theorem hexUnit?_append {unit : Nat} (h : Json.hexUnit? cs = some (unit, [])) (rest : List Char) :
    Json.hexUnit? (cs ++ rest) = some (unit, rest) := by
  obtain ⟨digits, rfl, -, -, hread⟩ := hexUnit?_eq_some h
  rw [List.append_nil]
  exact hread rest

theorem spellsChar_unicode {unit : Nat} (h : Json.hexUnit? cs = some (unit, []))
    (hu : ¬(0xD800 ≤ unit ∧ unit ≤ 0xDFFF)) :
    SpellsChar ('\\' :: 'u' :: cs) (Char.ofNat unit) := by
  intro rest
  have hplain : Rejects (charWhere fun c => !(c = '"' || c = '\\' || endsLine c))
      ('\\' :: 'u' :: (cs ++ rest)) := by
    refine rejects_charWhere fun e he => ?_
    cases he
    rfl
  refine Reads.orElse_right hplain (Reads.orElse_left ?_)
  refine (reads_literal ['\\', 'u'] (cs ++ rest)).bind fun fault => ?_
  have hb : (decide (0xD800 ≤ unit) && decide (unit ≤ 0xDFFF)) = false := by
    rw [← Bool.decide_and]
    exact decide_eq_false hu
  simp only [unicodeEscape, hexUnit?_append h, hb, Bool.false_eq_true, if_false]

theorem hexUnit?_fourDigits {n : Nat} (h : n < 160) :
    ∃ unit < 0xD800, Json.hexUnit? (fourDigits n) = some (unit, []) := by
  have hall : ∀ n < 160, ((Json.hexUnit? (fourDigits n)).any fun (unit, rest) =>
      decide (unit < 0xD800) && rest.isEmpty) = true := by decide +kernel
  obtain ⟨⟨unit, rest⟩, he, hu⟩ := (Option.any_eq_true _ _).1 (hall n h)
  rw [Bool.and_eq_true, decide_eq_true_eq, List.isEmpty_iff] at hu
  exact ⟨unit, hu.1, by rw [he, hu.2]⟩

theorem spellsChar_escapeInValue (c : Char) : SpellsChar (escapeInValue c) (rereadChar c) := by
  by_cases hr : c = '\r'
  · subst hr
    exact spellsChar_escaped (by decide) rfl
  by_cases hn : c = '\n'
  · subst hn
    exact spellsChar_escaped (by decide) rfl
  by_cases ht : c = '\t'
  · subst ht
    exact spellsChar_escaped (by decide) rfl
  by_cases hq : c = '"'
  · subst hq
    exact spellsChar_escaped (by decide) rfl
  by_cases hb : c = '\\'
  · subst hb
    exact spellsChar_escaped (by decide) rfl
  by_cases hc : isControl c = true
  · have hlt : c.toNat < 160 := by
      simp only [isControl, Bool.or_eq_true, Bool.and_eq_true, decide_eq_true_eq] at hc
      omega
    obtain ⟨unit, hu, he⟩ := hexUnit?_fourDigits hlt
    have hread : rereadChar c = Char.ofNat unit := by simp [rereadChar, hc, hr, hn, ht, he]
    have htext : escapeInValue c = '\\' :: 'u' :: fourDigits c.toNat := by
      simp [escapeInValue, hr, hn, ht, hq, hb, hc]
    rw [hread, htext]
    exact spellsChar_unicode he (by omega)
  · have hread : rereadChar c = c := by simp [rereadChar, hc]
    have htext : escapeInValue c = [c] := by simp [escapeInValue, hr, hn, ht, hq, hb, hc]
    rw [hread, htext]
    exact spellsChar_self hq hb (by simp [endsLine, hn, hr])

theorem spellsChar_escapeInDescription (h : c ≠ '\n') : SpellsChar (escapeInDescription c) c := by
  by_cases hq : c = '"'
  · subst hq
    exact spellsChar_escaped (by decide) rfl
  by_cases hb : c = '\\'
  · subst hb
    exact spellsChar_escaped (by decide) rfl
  by_cases ht : c = '\t'
  · subst ht
    exact spellsChar_escaped (by decide) rfl
  by_cases hr : c = '\r'
  · subst hr
    exact spellsChar_escaped (by decide) rfl
  have htext : escapeInDescription c = [c] := by simp [escapeInDescription, hr, ht, hq, hb]
  rw [htext]
  exact spellsChar_self hq hb (by simp [endsLine, h, hr])

theorem rejects_stringChar_quote (rest : List Char) : Rejects stringChar ('"' :: rest) :=
  fun _ => rfl

theorem SpellsChar.exists_cons {text : List Char} (h : SpellsChar text c) :
    ∃ d more, text = d :: more ∧ d ≠ '"' := by
  cases text with
  | nil =>
    have hread := h []
    cases hread none
  | cons d more =>
    refine ⟨d, more, rfl, ?_⟩
    rintro rfl
    have hread := h [] none
    rw [List.append_nil, rejects_stringChar_quote more none] at hread
    cases hread

section OneLine

variable {escape : Char → List Char} {result : Char → Char}

theorem reads_lineString (h : ∀ c ∈ cs, SpellsChar (escape c) (result c)) (rest : List Char) :
    Reads lineString ('"' :: (cs.flatMap escape ++ '"' :: rest)) (String.ofList (cs.map result))
      rest := by
  have hmany : Reads (many stringChar) (cs.flatMap escape ++ '"' :: rest) (cs.map result)
      ('"' :: rest) := by
    refine Reads.many (fun _ => True) (fun c hc tail _ => h c hc tail)
      (fun c hc => ⟨?_, fun _ => trivial⟩) trivial (rejects_stringChar_quote rest)
    obtain ⟨d, more, he, -⟩ := (h c hc).exists_cons
    rw [he]
    exact List.cons_ne_nil d more
  exact (reads_literal ['"'] _).bind (hmany.bind ((reads_literal ['"'] rest).bind (.pure _ _)))

theorem reads_string_line (h : ∀ c ∈ cs, SpellsChar (escape c) (result c)) (hrest : EndsWord rest) :
    Reads string ('"' :: (cs.flatMap escape ++ '"' :: rest)) (String.ofList (cs.map result))
      rest := by
  have hblock : Rejects blockString ('"' :: (cs.flatMap escape ++ '"' :: rest)) := by
    refine (rejects_literal ?_).bind_left
    rintro ⟨more, he⟩
    -- A second quote can only be the end of an empty string, and then no third one comes behind it.
    cases cs with
    | nil =>
      simp only [List.cons_append, List.nil_append, List.flatMap_nil, List.cons.injEq,
        true_and] at he
      exact hrest.ne (d := '"') rfl (by rw [← he]; rfl)
    | cons c others =>
      obtain ⟨d, text, hd, hne⟩ := (h c List.mem_cons_self).exists_cons
      simp only [List.cons_append, List.nil_append, List.flatMap_cons, hd, List.cons.injEq,
        true_and] at he
      exact hne he.1.symm
  exact Reads.token rfl (Reads.orElse_right hblock (reads_lineString h rest))

end OneLine

theorem toList_quotedValue (s : String) :
    (quotedValue s).toList = '"' :: (s.toList.flatMap escapeInValue ++ ['"']) := by
  simp [quotedValue]

theorem reads_quotedValue (s : String) (hrest : EndsWord rest) :
    Reads string ((quotedValue s).toList ++ rest) (rereadString s) rest := by
  rw [toList_quotedValue, List.cons_append, List.append_assoc, List.singleton_append]
  exact reads_string_line (fun c _ => spellsChar_escapeInValue c) hrest

section Blocks

/-- A text inside a block does not end it, and does not hide the end of it. -/
def StaysInBlock (cs : List Char) : Prop :=
  ∀ rest, blockText (cs ++ rest) = (blockText rest).map fun (text, tail) => (cs ++ text, tail)

theorem staysInBlock_nil : StaysInBlock [] := by
  intro rest
  cases h : blockText rest <;> simp [h]

theorem StaysInBlock.append {cs' : List Char} (h : StaysInBlock cs) (h' : StaysInBlock cs') :
    StaysInBlock (cs ++ cs') := by
  intro rest
  rw [List.append_assoc, h, h']
  cases blockText rest <;> simp

theorem staysInBlock_flatMap {items : List α} {text : α → List Char}
    (h : ∀ a ∈ items, StaysInBlock (text a)) : StaysInBlock (items.flatMap text) := by
  induction items with
  | nil => exact staysInBlock_nil
  | cons a others ih =>
    obtain ⟨ha, ho⟩ := List.forall_mem_cons.1 h
    rw [List.flatMap_cons]
    exact ha.append (ih ho)

theorem blockText_cons (hq : c = '"' → ¬['"', '"'] <+: rest)
    (hb : c = '\\' → ¬['"', '"', '"'] <+: rest) :
    blockText (c :: rest) = (blockText rest).map fun (text, tail) => (c :: text, tail) := by
  rw [blockText]
  · rintro tail rfl rfl
    exact hq rfl ⟨tail, rfl⟩
  · rintro tail rfl rfl
    exact hb rfl ⟨tail, rfl⟩

theorem staysInBlock_plain (hq : c ≠ '"') (hb : c ≠ '\\') : StaysInBlock [c] :=
  fun _ => blockText_cons (fun h => (hq h).elim) (fun h => (hb h).elim)

theorem escapeTripleQuotes_cons (h : c = '"' → ¬['"', '"'] <+: cs) :
    escapeTripleQuotes (c :: cs) = c :: escapeTripleQuotes cs := by
  rw [escapeTripleQuotes]
  rintro tail rfl rfl
  exact h rfl ⟨tail, rfl⟩

theorem head?_escapeTripleQuotes (h : (escapeTripleQuotes cs ++ '\n' :: rest).head? = some '"') :
    cs.head? = some '"' := by
  cases cs with
  | nil => cases h
  | cons c line =>
    by_cases hc : c = '"'
    · rw [hc, List.head?_cons]
    · rw [escapeTripleQuotes_cons fun he => (hc he).elim] at h
      exact h

/-- Escaping does not put quotes next to each other. -/
theorem two_quotes_of_escapeTripleQuotes
    (h : ['"', '"'] <+: escapeTripleQuotes cs ++ '\n' :: rest) : ['"', '"'] <+: cs := by
  cases cs with
  | nil =>
    obtain ⟨tail, he⟩ := h
    cases he
  | cons c line =>
    by_cases htriple : c = '"' → ¬['"', '"'] <+: line
    · rw [escapeTripleQuotes_cons htriple, List.cons_append, List.cons_prefix_cons] at h
      obtain ⟨rfl, tail, he⟩ := h
      have hquote : (escapeTripleQuotes line ++ '\n' :: rest).head? = some '"' := by rw [← he]; rfl
      have hhead := head?_escapeTripleQuotes hquote
      cases line with
      | nil => cases hhead
      | cons d line =>
        obtain rfl := Option.some.inj hhead
        exact ⟨line, rfl⟩
    · push Not at htriple
      obtain ⟨rfl, tail, rfl⟩ := htriple
      exact ⟨'"' :: tail, rfl⟩

theorem not_three_quotes_escapeTripleQuotes :
    ¬['"', '"', '"'] <+: escapeTripleQuotes cs ++ '\n' :: rest := by
  intro h
  cases cs with
  | nil =>
    obtain ⟨tail, he⟩ := h
    cases he
  | cons c line =>
    by_cases htriple : c = '"' → ¬['"', '"'] <+: line
    · rw [escapeTripleQuotes_cons htriple, List.cons_append, List.cons_prefix_cons] at h
      exact htriple h.1.symm (two_quotes_of_escapeTripleQuotes h.2)
    · push Not at htriple
      obtain ⟨rfl, tail, rfl⟩ := htriple
      obtain ⟨more, he⟩ := h
      cases he

theorem staysInBlock_line (line : List Char) :
    StaysInBlock (escapeTripleQuotes line ++ ['\n']) := by
  fun_induction escapeTripleQuotes line with
  | case1 line ih =>
    -- Three quotes are read back from four characters.
    intro rest
    rw [List.cons_append, List.cons_append, List.cons_append, List.cons_append, List.cons_append,
      List.cons_append, List.cons_append, List.cons_append, blockText, ih]
    cases blockText rest <;> rfl
  | case2 c line h ih =>
    -- Any other character stands for itself, if what is escaped behind it makes no quotes with it.
    intro rest
    have hall : escapeTripleQuotes line ++ ['\n'] ++ rest =
        escapeTripleQuotes line ++ '\n' :: rest := by simp
    rw [List.cons_append, List.cons_append, blockText_cons, ih]
    · cases blockText rest <;> rfl
    · rw [hall]
      rintro rfl hp
      obtain ⟨tail, rfl⟩ := two_quotes_of_escapeTripleQuotes hp
      exact h tail rfl rfl
    · rw [hall]
      exact fun _ => not_three_quotes_escapeTripleQuotes
  | case3 => exact staysInBlock_plain (by decide) (by decide)

end Blocks

section Descriptions

def blockRaw (level : String) (text : String) : List Char :=
  let lines := (textLines text.toList).map fun line =>
    if line.isEmpty then [] else level.toList ++ escapeTripleQuotes line
  '\n' :: (['\n'].intercalate lines ++ '\n' :: level.toList)

def rereadDescription (level : String) (text : String) : String :=
  if text.toList.contains '\n' then String.ofList (blockValue (blockRaw level text)) else text

variable {level : String} {text : String}

theorem toList_description_block (h : text.toList.contains '\n' = true) :
    (description level (some text)).toList =
      level.toList ++ '"' :: '"' :: '"' :: (blockRaw level text ++ ['"', '"', '"', '\n']) := by
  have hlines : ((textLines text.toList).map fun line =>
      if line.isEmpty then "" else level ++ String.ofList (escapeTripleQuotes line)).map
        String.toList = (textLines text.toList).map fun line =>
          if line.isEmpty then [] else level.toList ++ escapeTripleQuotes line := by
    rw [List.map_map]
    apply List.map_congr_left
    intro line _
    cases line <;> simp
  rw [description, if_pos h]
  simp only [String.toList_append, String.toList_intercalate, hlines, blockRaw]
  simp

theorem toList_description_line (h : text.toList.contains '\n' = false) :
    (description level (some text)).toList =
      level.toList ++ '"' :: (text.toList.flatMap escapeInDescription ++ ['"', '\n']) := by
  rw [description, if_neg (by rw [h]; exact Bool.false_ne_true)]
  simp

theorem staysInBlock_blank (h : cs.all isIgnored = true) : StaysInBlock cs := by
  have hall : ∀ d ∈ [' ', ',', '\t', Char.ofNat 0xFEFF, '\n', '\r'], d ≠ '"' ∧ d ≠ '\\' :=
    List.all_iff_forall_prop.1 (by decide)
  have hchars : ∀ c ∈ cs, StaysInBlock [c] := by
    intro c hc
    obtain ⟨hq, hb⟩ := hall c (isIgnored_cases (List.all_eq_true.1 h c hc))
    exact staysInBlock_plain hq hb
  have hmap := staysInBlock_flatMap hchars
  rwa [List.flatMap_singleton'] at hmap

theorem intercalate_append_sep {sep : List Char} {lines : List (List Char)} (h : lines ≠ []) :
    sep.intercalate lines ++ sep = lines.flatMap (· ++ sep) := by
  obtain ⟨first, others, rfl⟩ := List.exists_cons_of_ne_nil h
  rw [intercalate_cons]
  induction others generalizing first with
  | nil => simp
  | cons second others ih => simp [ih second]

theorem staysInBlock_blockRaw (hl : level.toList.all isIgnored = true) :
    StaysInBlock (blockRaw level text) := by
  have hline : StaysInBlock ['\n'] := staysInBlock_plain (by decide) (by decide)
  have hlevel := staysInBlock_blank hl
  have hbody (lines : List (List Char)) (h : ∀ line ∈ lines, StaysInBlock (line ++ ['\n'])) :
      StaysInBlock (['\n'].intercalate lines ++ ['\n']) := by
    by_cases hne : lines = []
    · subst hne
      exact hline
    · rw [intercalate_append_sep hne]
      exact staysInBlock_flatMap h
  have hall := hbody ((textLines text.toList).map fun line =>
    if line.isEmpty then [] else level.toList ++ escapeTripleQuotes line) (by
      intro line hm
      obtain ⟨line, -, rfl⟩ := List.mem_map.1 hm
      by_cases he : line.isEmpty = true
      · rw [if_pos he]
        exact hline
      · rw [if_neg he, List.append_assoc]
        exact hlevel.append (staysInBlock_line line))
  have happend := hline.append (hall.append hlevel)
  simpa [blockRaw] using happend

theorem reads_blockString {raw : List Char} (h : StaysInBlock raw) (rest : List Char) :
    Reads blockString ('"' :: '"' :: '"' :: (raw ++ '"' :: '"' :: '"' :: rest))
      (String.ofList (blockValue raw)) rest := by
  refine (reads_literal ['"', '"', '"'] _).bind fun fault => ?_
  have hend : blockText ('"' :: '"' :: '"' :: rest) = some ([], rest) := rfl
  show (blockText (raw ++ '"' :: '"' :: '"' :: rest)).map _ = _
  rw [h, hend]
  simp

theorem reads_description (hl : level.toList.all isIgnored = true) (rest : List Char) :
    Reads string ((description level (some text)).toList ++ rest) (rereadDescription level text)
      ('\n' :: rest) := by
  cases h : text.toList.contains '\n' with
  | true =>
    have hread : rereadDescription level text =
        String.ofList (blockValue (blockRaw level text)) := by
      rw [rereadDescription, if_pos h]
    rw [toList_description_block h, hread, List.append_assoc]
    refine skipsIgnored_string.reads _ hl (Reads.token rfl (Reads.orElse_left ?_))
    simpa using reads_blockString (staysInBlock_blockRaw hl) ('\n' :: rest)
  | false =>
    have hread : rereadDescription level text = text := by
      rw [rereadDescription, if_neg (by rw [h]; exact Bool.false_ne_true)]
    have hchars : ∀ c ∈ text.toList, SpellsChar (escapeInDescription c) (id c) := by
      intro c hc
      refine spellsChar_escapeInDescription fun he => ?_
      subst he
      simp [hc] at h
    have hends : EndsWord ('\n' :: rest) := by
      intro c hc
      cases hc
      rfl
    have hline := reads_string_line hchars hends
    rw [List.map_id, String.ofList_toList] at hline
    rw [toList_description_line h, hread, List.append_assoc]
    refine skipsIgnored_string.reads _ hl ?_
    simpa using hline

variable {g : Option String → Parser β} {b : β} {d : Option String}

theorem Parser.Reads.described (hg : ∀ d, SkipsIgnored (g d))
    (hl : level.toList.all isIgnored = true) (hcs : Rejects string cs)
    (h : Reads (g (d.map (rereadDescription level))) cs b rest) :
    Reads (optional? string >>= g) ((description level d).toList ++ cs) b rest := by
  cases d with
  | none => exact (Reads.optional_none hcs).bind h
  | some text =>
    refine (Reads.optional_some (reads_description hl cs)).bind ?_
    exact (hg _).reads ['\n'] rfl h

theorem Parser.Rejects.described (hg : ∀ d, SkipsIgnored (g d))
    (hl : level.toList.all isIgnored = true) (hcs : Rejects string cs)
    (h : Rejects (g (d.map (rereadDescription level))) cs) :
    Rejects (optional? string >>= g) ((description level d).toList ++ cs) := by
  cases d with
  | none => exact Rejects.bind_right (Reads.optional_none hcs) h
  | some text =>
    refine Rejects.bind_right (Reads.optional_some (reads_description hl cs)) ?_
    exact (hg _).rejects ['\n'] rfl h

end Descriptions

end ApiStack.Sdl
