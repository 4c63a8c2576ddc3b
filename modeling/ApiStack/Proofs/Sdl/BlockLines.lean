import ApiStack.Proofs.Sdl.Strings
import Mathlib.Data.List.DropRight
import Mathlib.Data.List.Infix

namespace ApiStack.Sdl

open Sdl.Parser Sdl.Grammar Printer

section Lines

variable {cs line : List Char} {c : Char}

theorem endsLine_of_mem_lines (h : line ∈ lines cs) : ∀ c ∈ line, endsLine c = false := by
  fun_induction lines cs generalizing line with
  | case1 =>
    cases List.mem_singleton.1 h
    exact nofun
  | case2 rest ih =>
    rcases List.mem_cons.1 h with rfl | h
    · exact nofun
    · exact ih h
  | case3 c rest _ he ih =>
    rcases List.mem_cons.1 h with rfl | h
    · exact nofun
    · exact ih h
  | case4 c rest _ he first others hl ih =>
    rw [hl] at ih
    rcases List.mem_cons.1 h with rfl | h
    · exact List.forall_mem_cons.2 ⟨Bool.eq_false_iff.2 he, ih List.mem_cons_self⟩
    · exact ih (List.mem_cons_of_mem _ h)
  | case5 c rest _ he hl ih =>
    cases List.mem_singleton.1 h
    exact List.forall_mem_singleton.2 (Bool.eq_false_iff.2 he)

/-- Without carriage returns the lines are what stands between line feeds. -/
theorem lines_eq_splitOn (h : '\r' ∉ cs) : lines cs = cs.splitOn '\n' := by
  fun_induction lines cs with
  | case1 => rfl
  | case2 rest ih => exact absurd List.mem_cons_self h
  | case3 c rest _ he ih =>
    have hc : c = '\n' := by
      simp only [List.mem_cons, not_or] at h
      simpa [endsLine, Ne.symm h.1] using he
    rw [ih fun hm => h (List.mem_cons_of_mem _ hm), List.splitOn_cons_eq_if_modifyHead]
    simp [hc]
  | case4 c rest _ he first others hl ih =>
    have hc : c ≠ '\n' := by
      rintro rfl
      exact he rfl
    rw [hl] at ih
    rw [List.splitOn_cons_eq_if_modifyHead, ← ih fun hm => h (List.mem_cons_of_mem _ hm)]
    simp [hc]
  | case5 c rest _ he hl ih =>
    rw [hl] at ih
    exact absurd (ih fun hm => h (List.mem_cons_of_mem _ hm)).symm (List.splitOn_ne_nil _ _)

/-- Lines without the empty ones at both ends. -/
def trimmed (all : List (List Char)) : List (List Char) :=
  (all.dropWhile isEmptyLine).rdropWhile isEmptyLine

theorem trimmed_map {f : List Char → List Char} (all : List (List Char)) :
    ((((all.map fun line => (line, f line)).dropWhile fun e => isEmptyLine e.1).reverse.dropWhile
      fun e => isEmptyLine e.1).reverse).map Prod.snd = (trimmed all).map f := by
  rw [List.dropWhile_map, ← List.map_reverse, List.dropWhile_map, ← List.map_reverse, List.map_map]
  rfl

/-- The first line of a block, if it is empty, does not count. -/
theorem blockValue_cons (body : List Char) : blockValue ('\n' :: body) = ['\n'].intercalate
    ((trimmed (lines body)).map (dedent (commonIndent (lines body)))) := by
  have hlines : lines ('\n' :: body) = [] :: lines body := rfl
  have hzip (all : List (List Char)) (f : List Char → List Char) :
      all.zip (all.map f) = all.map fun line => (line, f line) := by
    rw [← List.zip_map', List.map_id']
  simp only [blockValue, hlines, List.drop_succ_cons, List.drop_zero, List.zip_cons_cons, hzip]
  rw [List.dropWhile_cons_of_pos rfl, trimmed_map]

theorem trimmed_sublist (all : List (List Char)) : (trimmed all).Sublist all :=
  (List.rdropWhile_prefix _ _).sublist.trans (List.dropWhile_sublist _)

theorem mem_of_mem_intercalate {sep : List Char} {all : List (List Char)}
    (h : c ∈ sep.intercalate all) : c ∈ sep ∨ ∃ line ∈ all, c ∈ line := by
  by_cases hne : all = []
  · rw [hne] at h
    cases h
  · have hm := List.mem_append_left sep h
    rw [intercalate_append_sep hne] at hm
    obtain ⟨line, hl, hc⟩ := List.mem_flatMap.1 hm
    exact (List.mem_append.1 hc).symm.imp id fun hc => ⟨line, hl, hc⟩

theorem mem_of_mem_dedent {indent : Nat} (h : c ∈ dedent indent line) : c ∈ line := by
  unfold dedent at h
  split at h
  · exact List.mem_of_mem_drop h
  · exact h

theorem notMem_blockValue (body : List Char) : '\r' ∉ blockValue ('\n' :: body) := by
  rw [blockValue_cons]
  intro hm
  rcases mem_of_mem_intercalate hm with hm | ⟨_, hmap, hm⟩
  · cases List.mem_singleton.1 hm
  · obtain ⟨line, hl, rfl⟩ := List.mem_map.1 hmap
    have hend := endsLine_of_mem_lines ((trimmed_sublist _).subset hl) _ (mem_of_mem_dedent hm)
    cases hend

theorem trimmed_eq_self_iff {all : List (List Char)} : trimmed all = all ↔
    (∀ line ∈ all.head?, isEmptyLine line = false) ∧
      ∀ line ∈ all.getLast?, isEmptyLine line = false := by
  have hfirst : all.dropWhile isEmptyLine = all ↔
      ∀ line ∈ all.head?, isEmptyLine line = false := by
    cases all with
    | nil => simp
    | cons line rest => simp [List.dropWhile_eq_self_iff]
  have hlast : all.rdropWhile isEmptyLine = all ↔
      ∀ line ∈ all.getLast?, isEmptyLine line = false := by
    rw [List.rdropWhile_eq_self_iff]
    constructor
    · intro h line hm
      obtain ⟨hne, rfl⟩ := List.mem_getLast?_eq_getLast hm
      exact Bool.eq_false_iff.2 (h hne)
    · intro h hne
      exact Bool.eq_false_iff.1 (h _ (List.getLast_mem_getLast? hne))
  rw [← hfirst, ← hlast]
  constructor
  · intro h
    have hdrop : all.dropWhile isEmptyLine = all := by
      apply (List.dropWhile_sublist _).eq_of_length_le
      have hle := (List.rdropWhile_prefix isEmptyLine (all.dropWhile isEmptyLine)).length_le
      rwa [← trimmed, h] at hle
    rw [trimmed, hdrop] at h
    exact ⟨hdrop, h⟩
  · rintro ⟨hdrop, hrdrop⟩
    rw [trimmed, hdrop, hrdrop]

theorem trimmed_append_singleton (all : List (List Char)) (h : isEmptyLine line = true) :
    trimmed (all ++ [line]) = trimmed all := by
  rw [trimmed, List.dropWhile_append]
  split
  · next hnil =>
    rw [trimmed, List.isEmpty_iff.1 hnil, List.dropWhile_cons_of_pos h]
    rfl
  · rw [List.rdropWhile_concat_pos _ _ _ h]
    rfl

/-- The indentation that lines share is that of one of those that have something in them, and none
of these has less. -/
theorem commonIndent_spec {all : List (List Char)} (h : ∃ line ∈ all, isEmptyLine line = false) :
    (∃ line ∈ all, isEmptyLine line = false ∧
      commonIndent all = (line.takeWhile isIndent).length) ∧
    ∀ line ∈ all, isEmptyLine line = false →
      commonIndent all ≤ (line.takeWhile isIndent).length := by
  obtain ⟨line, hl, he⟩ := h
  cases hm : ((all.filter fun line => !isEmptyLine line).map fun line =>
      (line.takeWhile isIndent).length).min? with
  | none =>
    have hfilter : line ∈ all.filter fun line => !isEmptyLine line :=
      List.mem_filter.2 ⟨hl, by rw [he]; rfl⟩
    rw [List.min?_eq_none_iff, List.map_eq_nil_iff] at hm
    rw [hm] at hfilter
    cases hfilter
  | some indent =>
    have hindent : commonIndent all = indent := by rw [commonIndent, hm]; rfl
    obtain ⟨hmem, hle⟩ := List.min?_eq_some_iff.1 hm
    rw [hindent]
    constructor
    · obtain ⟨line, hfilter, rfl⟩ := List.mem_map.1 hmem
      obtain ⟨hl, he⟩ := List.mem_filter.1 hfilter
      exact ⟨line, hl, by simpa using he, rfl⟩
    · intro line hl he
      exact hle _ (List.mem_map.2 ⟨line, List.mem_filter.2 ⟨hl, by rw [he]; rfl⟩, rfl⟩)

end Lines

section Escapes

variable {cs : List Char}

theorem isEmptyLine_escapeTripleQuotes (cs : List Char) :
    isEmptyLine (escapeTripleQuotes cs) = isEmptyLine cs := by
  fun_induction escapeTripleQuotes cs with
  | case1 rest ih => rfl
  | case2 c rest h ih => exact congrArg (isIndent c && ·) ih
  | case3 => rfl

theorem takeWhile_escapeTripleQuotes (cs : List Char) :
    (escapeTripleQuotes cs).takeWhile isIndent = cs.takeWhile isIndent := by
  fun_induction escapeTripleQuotes cs with
  | case1 rest ih => rfl
  | case2 c rest h ih => rw [List.takeWhile_cons, List.takeWhile_cons, ih]
  | case3 => rfl

/-- A line is written as it is if and only if no three quotes stand next to each other in it. -/
theorem escapeTripleQuotes_eq_self_iff :
    escapeTripleQuotes cs = cs ↔ ¬['"', '"', '"'] <:+: cs := by
  fun_induction escapeTripleQuotes cs with
  | case1 rest ih =>
    constructor
    · intro h
      cases h
    · intro h
      exact absurd ⟨[], rest, rfl⟩ h
  | case2 c rest h ih =>
    rw [List.cons.injEq, ih, List.infix_cons_iff]
    have hfront : ¬['"', '"', '"'] <+: c :: rest := by
      rintro ⟨tail, he⟩
      cases he
      exact h tail rfl rfl
    simp [hfront]
  | case3 => simp

end Escapes

section Written

variable {level line : List Char} {texts all : List (List Char)}

def blockLine (level line : List Char) : List Char :=
  if line.isEmpty then [] else level ++ escapeTripleQuotes line

/-- Lines with nothing to lose in a block: without three quotes next to each other, with something
in the first and in the last, and one of them without indentation. -/
structure AreKept (all : List (List Char)) : Prop where
  quotes : ∀ line ∈ all, ¬['"', '"', '"'] <:+: line
  first : ∀ line ∈ all.head?, isEmptyLine line = false
  last : ∀ line ∈ all.getLast?, isEmptyLine line = false
  flush : ∃ line ∈ all, ∃ c ∈ line.head?, isIndent c = false

instance (all : List (List Char)) : Decidable (AreKept all) :=
  decidable_of_iff ((∀ line ∈ all, ¬['"', '"', '"'] <:+: line) ∧
      (∀ line ∈ all.head?, isEmptyLine line = false) ∧
      (∀ line ∈ all.getLast?, isEmptyLine line = false) ∧
      ∃ line ∈ all, line.head?.any (!isIndent ·) = true) <| by
    simp only [Option.any_eq_true, Bool.not_eq_true']
    exact ⟨fun ⟨q, f, l, i⟩ => ⟨q, f, l, i⟩, fun ⟨q, f, l, i⟩ => ⟨q, f, l, i⟩⟩

/-- The lines that are read where lines are written, with the quotes behind them. -/
def rereadLines (level : List Char) (texts : List (List Char)) : List (List Char) :=
  let all := texts.map (blockLine level) ++ [level]
  (trimmed all).map (dedent (commonIndent all))

theorem blockLine_of_nonempty (h : isEmptyLine line = false) :
    blockLine level line = level ++ escapeTripleQuotes line := by
  cases line with
  | nil => cases h
  | cons c line => rfl

theorem dedent_blockLine (line : List Char) :
    dedent level.length (blockLine level line) = escapeTripleQuotes line := by
  cases line with
  | nil => simp [dedent, blockLine, escapeTripleQuotes]
  | cons c rest => simp [dedent, blockLine]

theorem isIndent_head_of_dedent (he : isEmptyLine line = false)
    (h : dedent (level.length + (line.takeWhile isIndent).length) (blockLine level line) = line) :
    ∃ c ∈ line.head?, isIndent c = false := by
  have hsplit := List.takeWhile_append_dropWhile (p := isIndent) (l := escapeTripleQuotes line)
  rw [takeWhile_escapeTripleQuotes] at hsplit
  have hdrop : (escapeTripleQuotes line).dropWhile isIndent = line := by
    rw [blockLine_of_nonempty he, ← hsplit, dedent, if_pos (by simp), ← List.append_assoc,
      ← List.length_append, List.drop_left] at h
    exact h
  cases line with
  | nil => cases he
  | cons c rest =>
    have hhead := List.head?_dropWhile_not isIndent (escapeTripleQuotes (c :: rest))
    rw [hdrop] at hhead
    exact ⟨c, rfl, hhead⟩

variable (hl : isEmptyLine level = true)
include hl

theorem isEmptyLine_blockLine (line : List Char) :
    isEmptyLine (blockLine level line) = isEmptyLine line := by
  cases line with
  | nil => rfl
  | cons c rest =>
    have hsame := isEmptyLine_escapeTripleQuotes (c :: rest)
    simp only [isEmptyLine] at hl hsame ⊢
    simp only [blockLine, List.isEmpty_cons, Bool.false_eq_true, if_false, List.all_append, hl,
      hsame, Bool.true_and]

theorem takeWhile_blockLine (h : isEmptyLine line = false) :
    (blockLine level line).takeWhile isIndent = level ++ line.takeWhile isIndent := by
  rw [blockLine_of_nonempty h, List.takeWhile_append_of_pos (List.all_eq_true.1 hl),
    takeWhile_escapeTripleQuotes]

theorem commonIndent_written (h : ∃ line ∈ texts, isEmptyLine line = false) :
    (∃ line ∈ texts, isEmptyLine line = false ∧
      commonIndent (texts.map (blockLine level) ++ [level]) =
        level.length + (line.takeWhile isIndent).length) ∧
    ∀ line ∈ texts, isEmptyLine line = false →
      commonIndent (texts.map (blockLine level) ++ [level]) ≤
        level.length + (line.takeWhile isIndent).length := by
  have hmem {line : List Char} (hm : line ∈ texts) :
      blockLine level line ∈ texts.map (blockLine level) ++ [level] :=
    List.mem_append_left _ (List.mem_map_of_mem hm)
  have hlength {line : List Char} (he : isEmptyLine line = false) :
      ((blockLine level line).takeWhile isIndent).length =
        level.length + (line.takeWhile isIndent).length := by
    rw [takeWhile_blockLine hl he, List.length_append]
  obtain ⟨line, hm, he⟩ := h
  obtain ⟨⟨shared, hshared, hse, hs⟩, hle⟩ :=
    commonIndent_spec ⟨_, hmem hm, (isEmptyLine_blockLine hl line).trans he⟩
  constructor
  · rcases List.mem_append.1 hshared with hshared | hshared
    · obtain ⟨line, hm, rfl⟩ := List.mem_map.1 hshared
      rw [isEmptyLine_blockLine hl] at hse
      exact ⟨line, hm, hse, hs.trans (hlength hse)⟩
    · cases List.mem_singleton.1 hshared
      cases hl.symm.trans hse
  · intro line hm he
    rw [← hlength he]
    exact hle _ (hmem hm) ((isEmptyLine_blockLine hl line).trans he)

theorem trimmed_written_iff : trimmed (texts.map (blockLine level)) = texts.map (blockLine level) ↔
    (∀ line ∈ texts.head?, isEmptyLine line = false) ∧
      ∀ line ∈ texts.getLast?, isEmptyLine line = false := by
  rw [trimmed_eq_self_iff, List.head?_map, List.getLast?_map]
  simp only [Option.mem_def, Option.map_eq_some_iff, forall_exists_index, and_imp,
    forall_apply_eq_imp_iff₂, isEmptyLine_blockLine hl]

theorem commonIndent_of_flush (h : ∃ line ∈ texts, ∃ c ∈ line.head?, isIndent c = false) :
    commonIndent (texts.map (blockLine level) ++ [level]) = level.length := by
  obtain ⟨line, hm, c, hc, hi⟩ := h
  cases line with
  | nil => cases hc
  | cons d rest =>
    cases hc
    have he : isEmptyLine (c :: rest) = false := by simp [isEmptyLine, hi]
    obtain ⟨⟨_, -, -, hs⟩, hle⟩ := commonIndent_written hl ⟨_, hm, he⟩
    have hle := hle _ hm he
    rw [List.takeWhile_cons_of_neg (by simp [hi])] at hle
    simp only [List.length_nil] at hle
    omega

/-- Lines are read as they are written if and only if they have nothing to lose. -/
theorem rereadLines_eq_iff (hne : all ≠ []) (ht : texts = all ∨ texts.length < all.length) :
    rereadLines level texts = all ↔ texts = all ∧ AreKept all := by
  rw [rereadLines, trimmed_append_singleton _ hl]
  constructor
  · intro h
    have hsub := trimmed_sublist (texts.map (blockLine level))
    have hlength : all.length = (trimmed (texts.map (blockLine level))).length := by
      rw [← h, List.length_map]
    have hle := hsub.length_le
    rw [← hlength, List.length_map] at hle
    obtain rfl : texts = all := ht.resolve_right (Nat.not_lt.2 hle)
    have htrimmed : trimmed (texts.map (blockLine level)) = texts.map (blockLine level) :=
      hsub.eq_of_length (by rw [← hlength, List.length_map])
    obtain ⟨hfirst, hlast⟩ := (trimmed_written_iff hl).1 htrimmed
    have hsome : ∃ line ∈ texts, isEmptyLine line = false := by
      obtain ⟨line, hm⟩ := Option.isSome_iff_exists.1 (List.isSome_head?.2 hne)
      exact ⟨line, List.mem_of_mem_head? hm, hfirst line hm⟩
    rw [htrimmed, List.map_map] at h
    have hline : ∀ line ∈ texts,
        dedent (commonIndent (texts.map (blockLine level) ++ [level])) (blockLine level line) =
          line :=
      List.map_inj_left.1 (h.trans (List.map_id texts).symm)
    obtain ⟨⟨line, hm, he, hs⟩, -⟩ := commonIndent_written hl hsome
    have hflush : ∃ line ∈ texts, ∃ c ∈ line.head?, isIndent c = false :=
      ⟨line, hm, isIndent_head_of_dedent he (hs ▸ hline line hm)⟩
    rw [commonIndent_of_flush hl hflush] at hline
    refine ⟨rfl, fun line hm => ?_, hfirst, hlast, hflush⟩
    exact escapeTripleQuotes_eq_self_iff.1 ((dedent_blockLine line).symm.trans (hline line hm))
  · rintro ⟨rfl, hk⟩
    rw [(trimmed_written_iff hl).2 ⟨hk.first, hk.last⟩, commonIndent_of_flush hl hk.flush,
      List.map_map]
    refine (List.map_congr_left fun line hm => ?_).trans (List.map_id texts)
    exact (dedent_blockLine line).trans (escapeTripleQuotes_eq_self_iff.2 (hk.quotes line hm))

end Written

section Texts

variable {level : List Char} {level' text : String} {cs : List Char} {all : List (List Char)}

/-- A text with more than one line that has nothing to lose in a block. -/
structure Survives (text : String) : Prop where
  noReturn : '\r' ∉ text.toList
  lines : AreKept (text.toList.splitOn '\n')

instance (text : String) : Decidable (Survives text) :=
  decidable_of_iff ('\r' ∉ text.toList ∧ AreKept (text.toList.splitOn '\n'))
    ⟨fun ⟨r, l⟩ => ⟨r, l⟩, fun ⟨r, l⟩ => ⟨r, l⟩⟩

theorem dropReturn_of_notMem (h : '\r' ∉ cs) : dropReturn cs = cs := by
  rw [dropReturn, if_neg]
  exact fun hr => h (List.mem_of_mem_getLast? hr)

theorem endsLine_of_mem_splitOn (hr : '\r' ∉ cs) {line : List Char} (h : line ∈ cs.splitOn '\n') :
    ∀ c ∈ line, endsLine c = false := by
  rw [← lines_eq_splitOn hr] at h
  exact endsLine_of_mem_lines h

/-- A line feed at the end of a text does not begin another line. -/
theorem textLines_cases (hr : '\r' ∉ cs) :
    textLines cs = cs.splitOn '\n' ∨
      textLines cs = (cs.splitOn '\n').dropLast ∧ (cs.splitOn '\n').getLast? = some [] := by
  have hreturn : (cs.splitOn '\n').dropLast.map dropReturn = (cs.splitOn '\n').dropLast := by
    refine (List.map_congr_left fun line hm => dropReturn_of_notMem fun hc => ?_).trans
      (List.map_id _)
    have hend := endsLine_of_mem_splitOn hr ((List.dropLast_sublist _).subset hm) _ hc
    cases hend
  unfold textLines
  split
  · exact .inr ⟨rfl, rfl⟩
  · simp only [hreturn]
    split
    · next hlast => exact .inr ⟨rfl, hlast⟩
    · left
      rw [List.getLast?_eq_some_getLast (List.splitOn_ne_nil '\n' cs), Option.getD_some]
      exact List.dropLast_append_getLast _

theorem textLines_ne_nil (hr : '\r' ∉ cs) (hn : '\n' ∈ cs) : textLines cs ≠ [] := by
  intro h
  rcases textLines_cases hr with he | ⟨he, -⟩ <;> rw [he] at h
  · exact List.splitOn_ne_nil _ _ h
  · -- A text with one line only has no line feed.
    have hone : (cs.splitOn '\n').length ≤ 1 := by
      have hlength := congrArg List.length h
      rw [List.length_dropLast, List.length_nil] at hlength
      omega
    obtain ⟨line, hl⟩ := List.length_eq_one_iff.1 (Nat.le_antisymm hone
      (List.length_pos_iff.2 (List.splitOn_ne_nil '\n' cs)))
    have hcs : ['\n'].intercalate (cs.splitOn '\n') = cs := List.intercalate_splitOn '\n'
    rw [hl, List.intercalate_singleton] at hcs
    have hend := endsLine_of_mem_splitOn hr (hl ▸ List.mem_cons_self) '\n' (hcs ▸ hn)
    cases hend

theorem mem_escapeTripleQuotes {c : Char} (h : c ∈ escapeTripleQuotes cs) :
    c = '\\' ∨ c ∈ cs := by
  fun_induction escapeTripleQuotes cs with
  | case1 rest ih => grind
  | case2 d rest _ ih => grind
  | case3 => cases h

theorem endsLine_of_isEmptyLine {line : List Char} (h : isEmptyLine line = true) :
    ∀ c ∈ line, endsLine c = false := by
  intro c hc
  have hi := List.all_eq_true.1 h c hc
  simp only [isIndent, Bool.or_eq_true, decide_eq_true_eq] at hi
  rcases hi with rfl | rfl <;> rfl

theorem endsLine_of_mem_blockLine {line : List Char} (hl : isEmptyLine level = true)
    (h : ∀ c ∈ line, endsLine c = false) : ∀ c ∈ blockLine level line, endsLine c = false := by
  intro c hc
  unfold blockLine at hc
  split at hc
  · cases hc
  · rcases List.mem_append.1 hc with hc | hc
    · exact endsLine_of_isEmptyLine hl c hc
    · rcases mem_escapeTripleQuotes hc with rfl | hc
      · rfl
      · exact h c hc

theorem lines_written (hl : isEmptyLine level = true) (hne : all ≠ [])
    (h : ∀ line ∈ all, ∀ c ∈ line, endsLine c = false) :
    lines (['\n'].intercalate (all.map (blockLine level)) ++ '\n' :: level) =
      all.map (blockLine level) ++ [level] := by
  have hends : ∀ line ∈ all.map (blockLine level) ++ [level], ∀ c ∈ line, endsLine c = false := by
    intro line hm
    rcases List.mem_append.1 hm with hm | hm
    · obtain ⟨text, ht, rfl⟩ := List.mem_map.1 hm
      exact endsLine_of_mem_blockLine hl (h text ht)
    · cases List.mem_singleton.1 hm
      exact endsLine_of_isEmptyLine hl
  have hbody : ['\n'].intercalate (all.map (blockLine level)) ++ '\n' :: level =
      ['\n'].intercalate (all.map (blockLine level) ++ [level]) := by
    refine List.append_cancel_right (?_ : _ ++ ['\n'] = _ ++ ['\n'])
    rw [intercalate_append_sep (by simp), List.flatMap_append, ← intercalate_append_sep (by simpa)]
    simp
  rw [hbody, lines_eq_splitOn, List.splitOn_intercalate _ _ (by simp)]
  · intro line hm hc
    cases hends line hm _ hc
  · intro hc
    rcases mem_of_mem_intercalate hc with hc | ⟨line, hm, hc⟩
    · cases List.mem_singleton.1 hc
    · cases hends line hm _ hc

theorem endsLine_of_mem_textLines (hr : '\r' ∉ cs) {line : List Char}
    (h : line ∈ textLines cs) : ∀ c ∈ line, endsLine c = false := by
  apply endsLine_of_mem_splitOn hr
  rcases textLines_cases hr with he | ⟨he, -⟩ <;> rw [he] at h
  · exact h
  · exact (List.dropLast_sublist _).subset h

theorem notMem_rereadLines (hl : isEmptyLine level = true)
    (h : ∀ line ∈ all, ∀ c ∈ line, endsLine c = false) :
    ∀ line ∈ rereadLines level all, '\n' ∉ line := by
  intro line hm hc
  rw [rereadLines, trimmed_append_singleton _ hl] at hm
  obtain ⟨written, hw, rfl⟩ := List.mem_map.1 hm
  obtain ⟨text, ht, rfl⟩ := List.mem_map.1 ((trimmed_sublist _).subset hw)
  cases endsLine_of_mem_blockLine hl (h text ht) _ (mem_of_mem_dedent hc)

theorem blockValue_blockRaw (hl : isEmptyLine level'.toList = true) (hr : '\r' ∉ text.toList)
    (hn : '\n' ∈ text.toList) : blockValue (blockRaw level' text) =
      ['\n'].intercalate (rereadLines level'.toList (textLines text.toList)) := by
  have hlines := lines_written hl (textLines_ne_nil hr hn) fun _ => endsLine_of_mem_textLines hr
  change blockValue ('\n' :: (['\n'].intercalate ((textLines text.toList).map
    (blockLine level'.toList)) ++ '\n' :: level'.toList)) = _
  rw [blockValue_cons, hlines]
  rfl

theorem intercalate_eq_iff (hn : '\n' ∈ cs) (h : ∀ line ∈ all, '\n' ∉ line) :
    ['\n'].intercalate all = cs ↔ all = cs.splitOn '\n' := by
  constructor
  · rintro rfl
    have hne : all ≠ [] := by
      rintro rfl
      cases hn
    exact (List.splitOn_intercalate '\n' h hne).symm
  · rintro rfl
    exact List.intercalate_splitOn '\n'

theorem rereadLines_textLines_iff (hl : isEmptyLine level = true) (hr : '\r' ∉ cs) :
    rereadLines level (textLines cs) = cs.splitOn '\n' ↔ AreKept (cs.splitOn '\n') := by
  have hne := List.splitOn_ne_nil '\n' cs
  rcases textLines_cases hr with he | ⟨he, hlast⟩ <;> rw [he]
  · rw [rereadLines_eq_iff hl hne (.inl rfl), and_iff_right rfl]
  · have hlength : (cs.splitOn '\n').dropLast.length < (cs.splitOn '\n').length := by
      rw [List.length_dropLast]
      exact Nat.sub_one_lt (List.length_pos_iff.2 hne).ne'
    rw [rereadLines_eq_iff hl hne (.inr hlength)]
    constructor
    · exact And.right
    · intro h
      cases h.last [] hlast

/-- A description with more than one line is read as it is written if and only if it has nothing to
lose in a block. -/
theorem rereadDescription_eq_self_iff (hl : isEmptyLine level'.toList = true)
    (hn : '\n' ∈ text.toList) : rereadDescription level' text = text ↔ Survives text := by
  rw [rereadDescription, if_pos (List.contains_iff_mem.2 hn), ← String.toList_inj,
    String.toList_ofList]
  by_cases hr : '\r' ∈ text.toList
  · constructor
    · intro h
      exact absurd (h ▸ hr) (notMem_blockValue _)
    · intro h
      exact absurd hr h.noReturn
  · have hlines := notMem_rereadLines hl fun _ => endsLine_of_mem_textLines hr
    rw [blockValue_blockRaw hl hr hn, intercalate_eq_iff hn hlines, rereadLines_textLines_iff hl hr]
    exact ⟨fun h => ⟨hr, h⟩, Survives.lines⟩

example : Survives "a\n b" ∧ ¬Survives " a\n b" ∧ ¬Survives "a\n" := by
  decide +kernel

end Texts

end ApiStack.Sdl
