import ApiStack.Proofs.Sdl.Strings

namespace ApiStack.Sdl

open Sdl.Parser Sdl.Grammar

/-- Where in a text something stands. -/
inductive Place where
  | text
  | comment
  | line
  | escape
  | block

/-- Every block string in a text is closed. -/
def isClosed : Place → List Char → Bool
  | .block, '"' :: '"' :: '"' :: rest => isClosed .text rest
  | .block, '\\' :: '"' :: '"' :: '"' :: rest => isClosed .block rest
  | .block, _ :: rest => isClosed .block rest
  | .block, [] => false
  | .text, '"' :: '"' :: '"' :: rest => isClosed .block rest
  | .text, '"' :: rest => isClosed .line rest
  | .text, '#' :: rest => isClosed .comment rest
  | .text, _ :: rest => isClosed .text rest
  | .comment, c :: rest => isClosed (if endsLine c then .text else .comment) rest
  | .line, '"' :: rest => isClosed .text rest
  | .line, '\\' :: rest => isClosed .escape rest
  | .line, _ :: rest => isClosed .line rest
  | .escape, _ :: rest => isClosed .line rest
  | _, [] => true

/-- There is nothing in a text, or it starts on a new line. -/
def IsBelow (cs : List Char) : Prop := ∀ c ∈ cs.head?, c = '\n'

/-- A character that does not open or close anything at its place. -/
def Place.isPlain : Place → Char → Bool
  | .text, c => c ≠ '"' && c ≠ '#'
  | .line, c => c ≠ '"' && c ≠ '\\'
  | _, _ => false

theorem isClosed_cons {place : Place} {c : Char} (h : place.isPlain c = true) (rest : List Char) :
    isClosed place (c :: rest) = isClosed place rest := by
  cases place with
  | text =>
    simp only [Place.isPlain, Bool.and_eq_true, decide_eq_true_eq] at h
    rw [isClosed]
    · rintro _ rfl
      exact absurd rfl h.1
    · rintro rfl
      exact absurd rfl h.1
    · rintro rfl
      exact absurd rfl h.2
  | line =>
    simp only [Place.isPlain, Bool.and_eq_true, decide_eq_true_eq] at h
    rw [isClosed]
    · rintro rfl
      exact absurd rfl h.1
    · rintro rfl
      exact absurd rfl h.2
  | comment => cases h
  | escape => cases h
  | block => cases h

theorem isClosed_append {place : Place} {cs : List Char} (h : cs.all place.isPlain = true)
    (rest : List Char) : isClosed place (cs ++ rest) = isClosed place rest := by
  induction cs with
  | nil => rfl
  | cons c cs ih =>
    rw [List.all_cons, Bool.and_eq_true] at h
    rw [List.cons_append, isClosed_cons h.1, ih h.2]

section Ignored

variable {cs below : List Char} {b : Bool}

theorem skipIgnored_below (b : Bool) (cs : List Char) (hb : IsBelow below) :
    skipIgnored b cs = [] ∧ skipIgnored b (cs ++ below) = skipIgnored false below ∨
      skipIgnored b cs ≠ [] ∧ skipIgnored b (cs ++ below) = skipIgnored b cs ++ below := by
  induction cs generalizing b with
  | nil =>
    refine .inl ⟨rfl, ?_⟩
    cases below with
    | nil => rfl
    | cons c rest =>
      cases hb c rfl
      cases b <;> rfl
  | cons c rest ih =>
    rw [List.cons_append, skipIgnored, skipIgnored]
    split
    · exact ih _
    · split
      · exact ih _
      · split
        · exact ih _
        · exact .inr ⟨List.cons_ne_nil _ _, rfl⟩

theorem isClosed_skipIgnored (h : isClosed (if b then .comment else .text) cs = true) :
    isClosed .text (skipIgnored b cs) = true := by
  induction cs generalizing b with
  | nil => rfl
  | cons c rest ih =>
    rw [skipIgnored]
    cases b with
    | true =>
      apply ih
      rw [if_pos rfl, isClosed] at h
      cases hc : endsLine c <;> simpa [hc] using h
    | false =>
      rw [if_neg Bool.false_ne_true] at h
      rw [if_neg Bool.false_ne_true]
      split
      · next hi =>
        have hblank : [' ', ',', '\t', Char.ofNat 0xFEFF, '\n', '\r'].all Place.text.isPlain := by
          decide
        rw [isClosed_cons (List.all_eq_true.1 hblank c (isIgnored_cases hi))] at h
        exact ih h
      · split
        · next hc =>
          subst hc
          exact ih h
        · exact h

end Ignored

/-- A parser does the same whatever is below a text. What it takes has at least some length and goes
on from one place to another one. -/
def EndsAtLine (here there : Place) (n : Nat) (p : Parser α) : Prop :=
  ∀ cs below, IsBelow below →
    (∃ a rest, Reads p cs a rest ∧ Reads p (cs ++ below) a (rest ++ below) ∧
      rest.length + n ≤ cs.length ∧ (isClosed here cs = true → isClosed there rest = true)) ∨
    Rejects p cs ∧ Rejects p (cs ++ below)

namespace EndsAtLine

variable {here mid there : Place} {m n : Nat} {p q : Parser α} {f : α → Parser β}

theorem mono (hp : EndsAtLine here there n p) (h : m ≤ n) : EndsAtLine here there m p := by
  intro cs below hb
  rcases hp cs below hb with ⟨a, rest, hr, hr', hl, hc⟩ | hr
  · exact .inl ⟨a, rest, hr, hr', by omega, hc⟩
  · exact .inr hr

theorem pure (a : α) : EndsAtLine here here 0 (pure a) := fun cs _ _ =>
  .inl ⟨a, cs, .pure a cs, .pure a _, Nat.le_refl _, id⟩

theorem bind (hp : EndsAtLine here mid m p) (hf : ∀ a, EndsAtLine mid there n (f a)) :
    EndsAtLine here there (m + n) (p >>= f) := by
  intro cs below hb
  rcases hp cs below hb with ⟨a, rest, hr, hr', hl, hc⟩ | ⟨hr, hr'⟩
  · rcases hf a rest below hb with ⟨b, rest', hs, hs', hl', hc'⟩ | ⟨hs, hs'⟩
    · exact .inl ⟨b, rest', hr.bind hs, hr'.bind hs', by omega, hc' ∘ hc⟩
    · exact .inr ⟨.bind_right hr hs, .bind_right hr' hs'⟩
  · exact .inr ⟨hr.bind_left, hr'.bind_left⟩

theorem map (hp : EndsAtLine here there n p) (g : α → β) : EndsAtLine here there n (g <$> p) :=
  hp.bind fun a => pure (g a)

theorem orElse (hp : EndsAtLine here there n p) (hq : EndsAtLine here there n q) :
    EndsAtLine here there n (p <|> q) := by
  intro cs below hb
  rcases hp cs below hb with ⟨a, rest, hr, hr', h⟩ | ⟨hr, hr'⟩
  · exact .inl ⟨a, rest, hr.orElse_left, hr'.orElse_left, h⟩
  · rcases hq cs below hb with ⟨a, rest, hs, hs', h⟩ | ⟨hs, hs'⟩
    · exact .inl ⟨a, rest, .orElse_right hr hs, .orElse_right hr' hs', h⟩
    · exact .inr ⟨hr.orElse hs, hr'.orElse hs'⟩

theorem failure : EndsAtLine here there n (failure : Parser α) := fun _ _ _ =>
  .inr ⟨.failure _, .failure _⟩

theorem optional (hp : EndsAtLine here here n p) : EndsAtLine here here 0 (optional? p) := by
  intro cs below hb
  rcases hp.mono (Nat.zero_le n) cs below hb with ⟨a, rest, hr, hr', h⟩ | ⟨hr, hr'⟩
  · exact .inl ⟨some a, rest, hr.optional_some, hr'.optional_some, h⟩
  · exact .inl ⟨none, cs, .optional_none hr, .optional_none hr', Nat.le_refl _, id⟩

theorem present (hp : EndsAtLine here here n p) : EndsAtLine here here 0 (present p) :=
  hp.optional.map _

theorem absent (hp : EndsAtLine here there n p) : EndsAtLine mid mid 0 (absent p) := by
  intro cs below hb
  rcases hp cs below hb with ⟨a, rest, hr, hr', -⟩ | ⟨hr, hr'⟩
  · exact .inr ⟨fun fault => by rw [Parser.absent, hr fault],
      fun fault => by rw [Parser.absent, hr' fault]⟩
  · exact .inl ⟨(), cs, .absent hr, .absent hr', Nat.le_refl _, id⟩

theorem manyUpTo (hp : EndsAtLine here here 1 p) {cs below : List Char} (hb : IsBelow below)
    {k m : Nat} (hk : cs.length < k) (hm : (cs ++ below).length < m) :
    ∃ as rest, Reads (Parser.manyUpTo p k) cs as rest ∧
      Reads (Parser.manyUpTo p m) (cs ++ below) as (rest ++ below) ∧
        rest.length ≤ cs.length ∧ (isClosed here cs = true → isClosed here rest = true) := by
  induction k generalizing cs m with
  | zero => cases hk
  | succ k ih =>
    cases m with
    | zero => cases hm
    | succ m =>
      rcases hp cs below hb with ⟨a, mid, hr, hr', hl, hc⟩ | ⟨hr, hr'⟩
      · rw [List.length_append] at hm
        have hm' : (mid ++ below).length < m := by
          rw [List.length_append]
          omega
        obtain ⟨as, rest, hs, hs', hl', hc'⟩ := @ih mid m (by omega) hm'
        refine ⟨a :: as, rest, fun fault => ?_, fun fault => ?_, by omega, hc' ∘ hc⟩
        · rw [manyUpTo_succ_apply, hr fault]
          simp only
          rw [hs fault]
          rfl
        · rw [manyUpTo_succ_apply, hr' fault]
          simp only
          rw [hs' fault]
          rfl
      · refine ⟨[], cs, fun fault => ?_, fun fault => ?_, Nat.le_refl _, id⟩
        · rw [manyUpTo_succ_apply, hr fault]
        · rw [manyUpTo_succ_apply, hr' fault]

theorem many (hp : EndsAtLine here here 1 p) : EndsAtLine here here 0 (many p) := by
  intro cs below hb
  exact .inl (hp.manyUpTo hb (Nat.lt_succ_self _) (Nat.lt_succ_self _))

section Characters

variable {test : Char → Bool} (hline : test '\n' = false)
include hline

theorem charWhere (h : ∀ c rest, test c = true → isClosed here (c :: rest) = isClosed there rest) :
    EndsAtLine here there 1 (charWhere test) := by
  intro cs below hb
  cases cs with
  | nil =>
    refine .inr ⟨rejects_charWhere nofun, rejects_charWhere fun c hc => ?_⟩
    rw [hb c hc]
    exact hline
  | cons c rest =>
    cases hc : test c with
    | true =>
      refine .inl ⟨c, rest, reads_charWhere hc rest, reads_charWhere hc _, Nat.le_refl _, ?_⟩
      rw [h c rest hc]
      exact id
    | false =>
      have hnone : ∀ d ∈ (c :: rest).head?, test d = false := by
        rintro d ⟨⟩
        exact hc
      exact .inr ⟨rejects_charWhere hnone, rejects_charWhere hnone⟩

theorem charsWhile (h : ∀ c, test c = true → here.isPlain c = true) :
    EndsAtLine here here 0 (charsWhile test) := by
  intro cs below hb
  have htake : (cs.takeWhile test).all test = true := List.all_takeWhile
  have hdrop : ∀ c ∈ (cs.dropWhile test ++ below).head?, test c = false := by
    intro c hc
    cases hd : cs.dropWhile test with
    | nil =>
      rw [hd, List.nil_append] at hc
      rw [hb c hc]
      exact hline
    | cons d rest =>
      have hnot := List.head?_dropWhile_not test cs
      rw [hd] at hc hnot
      cases hc
      simpa using hnot
  have hcs : cs.takeWhile test ++ cs.dropWhile test = cs := List.takeWhile_append_dropWhile
  have hread := reads_charsWhile htake hdrop
  rw [← List.append_assoc, hcs] at hread
  refine .inl ⟨cs.takeWhile test, cs.dropWhile test, fun _ => rfl, hread,
    (List.dropWhile_suffix test).length_le, fun hc => ?_⟩
  rw [← hcs, isClosed_append] at hc
  · exact hc
  · exact List.all_eq_true.2 fun c hc => h c (List.all_eq_true.1 htake c hc)

end Characters

theorem literal {word : List Char} (hline : '\n' ∉ word) (h : word.all here.isPlain = true) :
    EndsAtLine here here word.length (literal word) := by
  induction word with
  | nil => exact pure ()
  | cons c rest ih =>
    rw [List.all_cons, Bool.and_eq_true] at h
    rw [List.mem_cons, not_or] at hline
    have hchar : EndsAtLine here here 1 (Parser.charWhere (· = c)) :=
      charWhere (decide_eq_false hline.1) fun d _ hd =>
        isClosed_cons (of_decide_eq_true hd ▸ h.1) _
    exact (hchar.bind fun _ => ih hline.2 h.2).mono (Nat.le_of_eq (Nat.add_comm _ _))

end EndsAtLine

section Tokens

/-- A test that quotes and comments fail is one for plain characters. -/
theorem isPlain_of {test : Char → Bool} (h : ['"', '#'].any test = false) (c : Char)
    (hc : test c = true) : Place.text.isPlain c = true := by
  rw [List.any_eq_false] at h
  simp only [Place.isPlain, Bool.and_eq_true, decide_eq_true_eq, Ne]
  constructor <;> rintro rfl
  · exact h '"' (by decide) hc
  · exact h '#' (by decide) hc

variable {test : Char → Bool}

theorem endsAtLine_charWhere (h : ['\n', '"', '#'].any test = false) :
    EndsAtLine .text .text 1 (charWhere test) := by
  rw [List.any_cons, Bool.or_eq_false_iff] at h
  exact .charWhere h.1 fun c _ hc => isClosed_cons (isPlain_of h.2 c hc) _

theorem endsAtLine_charsWhile (h : ['\n', '"', '#'].any test = false) :
    EndsAtLine .text .text 0 (charsWhile test) := by
  rw [List.any_cons, Bool.or_eq_false_iff] at h
  exact .charsWhile h.1 (isPlain_of h.2)

theorem endsAtLine_literal {word : List Char}
    (h : word.all (fun c => c ≠ '\n' && Place.text.isPlain c) = true) :
    EndsAtLine .text .text word.length (literal word) := by
  refine .literal (fun hm => ?_) (List.all_eq_true.2 fun c hc => ?_)
  · have hline := List.all_eq_true.1 h _ hm
    cases hline
  · have hplain := List.all_eq_true.1 h c hc
    rw [Bool.and_eq_true] at hplain
    exact hplain.2

theorem endsAtLine_nameHere : EndsAtLine .text .text 1 nameHere :=
  (endsAtLine_charWhere (by decide)).bind fun _ =>
    (endsAtLine_charsWhile (by decide)).bind fun _ => .pure _

theorem endsAtLine_requiredMark : EndsAtLine .text .text 0 (present (literal ['!'])) :=
  (endsAtLine_literal (by decide)).present

theorem endsAtLine_digits : EndsAtLine .text .text 1 digits :=
  (endsAtLine_charWhere (by decide)).bind fun _ =>
    (endsAtLine_charsWhile (by decide)).bind fun _ => .pure _

theorem endsAtLine_wholeDigits : EndsAtLine .text .text 1 wholeDigits :=
  .orElse ((endsAtLine_literal (by decide)).bind fun _ => .pure _) endsAtLine_digits

theorem endsAtLine_fractionPart : EndsAtLine .text .text 2 fractionPart :=
  (endsAtLine_literal (by decide)).bind fun _ => endsAtLine_digits.bind fun _ => .pure _

theorem endsAtLine_exponentPart : EndsAtLine .text .text 2 exponentPart :=
  (endsAtLine_charWhere (by decide)).bind fun _ =>
    (endsAtLine_charWhere (by decide)).optional.bind fun _ =>
      endsAtLine_digits.bind fun _ => .pure _

theorem endsAtLine_numberText : EndsAtLine .text .text 1 numberText :=
  ((endsAtLine_charWhere (by decide)).optional.bind fun _ => endsAtLine_wholeDigits.bind fun _ =>
    endsAtLine_fractionPart.optional.bind fun _ => endsAtLine_exponentPart.optional.bind fun _ =>
      (endsAtLine_charWhere (by decide)).absent.bind fun _ => .pure _)

theorem endsAtLine_wordValue : EndsAtLine .text .text 4 wordValue :=
  .orElse ((endsAtLine_literal (by decide)).bind fun _ => .pure _)
    (.orElse (((endsAtLine_literal (by decide)).bind fun _ => .pure _).mono (by decide))
      ((endsAtLine_literal (by decide)).bind fun _ => .pure _))

theorem endsAtLine_enumName :
    EndsAtLine .text .text 1 (absent wordValue >>= fun _ => nameHere) :=
  endsAtLine_wordValue.absent.bind fun _ => endsAtLine_nameHere

theorem endsAtLine_oneOf {words : List String} (h : words.all (fun word =>
      1 ≤ word.toList.length && word.toList.all fun c => c ≠ '\n' && Place.text.isPlain c) = true) :
    EndsAtLine .text .text 1 (oneOf words) := by
  induction words with
  | nil => exact .failure
  | cons word others ih =>
    rw [List.all_cons, Bool.and_eq_true, Bool.and_eq_true] at h
    refine .orElse ?_ (ih h.2)
    exact ((endsAtLine_literal h.1.2).bind fun _ => .pure _).mono (of_decide_eq_true h.1.1)

end Tokens

section Strings

variable {cs below : List Char}

theorem hexUnit?_below (h : Json.hexUnit? cs = none) (hb : IsBelow below) :
    Json.hexUnit? (cs ++ below) = none := by
  refine Option.eq_none_iff_forall_ne_some.2 fun ⟨unit, rest⟩ he => ?_
  obtain ⟨digits, hd, -, hall, hread⟩ := hexUnit?_eq_some he
  rcases List.append_eq_append_iff.1 hd with ⟨more, rfl, rfl⟩ | ⟨more, rfl, -⟩
  · cases more with
    | nil =>
      have hr := hread []
      rw [List.append_nil, List.append_nil, h] at hr
      cases hr
    | cons c more =>
      -- The digits would go on behind the end of the line.
      cases hb c rfl
      simp only [List.all_append, List.all_cons, Bool.and_eq_true] at hall
      cases hall.2.1
  · rw [hread] at h
    cases h

theorem endsAtLine_unicodeEscape : EndsAtLine .line .line 4 unicodeEscape := by
  intro cs below hb
  cases h : Json.hexUnit? cs with
  | none =>
    have h' := hexUnit?_below h hb
    exact .inr ⟨fun _ => by simp only [unicodeEscape, h], fun _ => by simp only [unicodeEscape, h']⟩
  | some result =>
    obtain ⟨unit, rest⟩ := result
    obtain ⟨digits, rfl, hl, hall, hread⟩ := hexUnit?_eq_some h
    have h' := hread (rest ++ below)
    rw [← List.append_assoc] at h'
    cases hs : (decide (0xD800 ≤ unit) && decide (unit ≤ 0xDFFF)) with
    | true =>
      exact .inr ⟨fun _ => by simp only [unicodeEscape, h, hs, if_true],
        fun _ => by simp only [unicodeEscape, h', hs, if_true]⟩
    | false =>
      have hplain : digits.all Place.line.isPlain = true := by
        refine List.all_eq_true.2 fun c hd => ?_
        have hdigit := List.all_eq_true.1 hall c hd
        simp only [Place.isPlain, Bool.and_eq_true, decide_eq_true_eq, Ne]
        constructor <;> rintro rfl <;> cases hdigit
      refine .inl ⟨Char.ofNat unit, rest, fun _ => ?_, fun _ => ?_, ?_, fun hc => ?_⟩
      · simp only [unicodeEscape, h, hs, Bool.false_eq_true, if_false]
      · simp only [unicodeEscape, h', hs, Bool.false_eq_true, if_false]
      · rw [List.length_append, hl]
        omega
      · rw [isClosed_append hplain] at hc
        exact hc

theorem endsAtLine_stringChar : EndsAtLine .line .line 1 stringChar := by
  have hplain : EndsAtLine .line .line 1
      (charWhere fun c => !(c = '"' || c = '\\' || endsLine c)) := by
    refine .charWhere (by decide) fun c _ hc => isClosed_cons ?_ _
    simp only [Bool.not_eq_true', Bool.or_eq_false_iff, decide_eq_false_iff_not] at hc
    simp [Place.isPlain, hc]
  have hbackslash : EndsAtLine .line .escape 1 (charWhere (· = '\\')) :=
    .charWhere (by decide) fun c rest hc => by rw [of_decide_eq_true hc]; rfl
  have hescaped {test : Char → Bool} (h : test '\n' = false) :
      EndsAtLine .escape .line 1 (charWhere test) := .charWhere h fun _ _ _ => rfl
  refine .orElse hplain (.orElse (.mono ?_ (Nat.le_add_left 1 5)) (.mono ?_ (Nat.le_add_left 1 1)))
  · exact (hbackslash.bind fun _ => (hescaped (by decide)).bind fun _ => .pure _).bind fun _ =>
      endsAtLine_unicodeEscape
  · exact (hbackslash.bind fun _ => .pure _).bind fun _ =>
      (hescaped (by decide)).bind fun _ => .pure _

theorem endsAtLine_lineString :
    EndsAtLine .line .text 1 (many stringChar >>= fun chars => literal ['"'] >>= fun _ =>
      pure (String.ofList chars)) := by
  have hquote : EndsAtLine .line .text 1 (charWhere (· = '"')) :=
    .charWhere (by decide) fun c rest hc => by rw [of_decide_eq_true hc]; rfl
  exact endsAtLine_stringChar.many.bind fun _ =>
    (hquote.bind fun _ => .pure _).bind fun _ => .pure _

theorem isClosed_blockText : isClosed .block cs =
    (blockText cs).any fun (_, rest) => isClosed .text rest := by
  induction cs using blockText.induct with
  | case1 rest => rfl
  | case2 rest ih =>
    rw [blockText, isClosed, ih]
    cases blockText rest <;> rfl
  | case3 c rest hq hb ih =>
    rw [blockText, isClosed, ih]
    · cases blockText rest <;> rfl
    all_goals assumption
  | case4 => rfl

theorem length_blockText {text rest : List Char} (h : blockText cs = some (text, rest)) :
    rest.length + 3 ≤ cs.length := by
  induction cs using blockText.induct generalizing text with
  | case1 more =>
    cases h
    exact Nat.le_refl _
  | case2 more ih =>
    rw [blockText] at h
    obtain ⟨⟨taken, left⟩, hr, he⟩ := Option.map_eq_some_iff.1 h
    cases he
    exact Nat.le_trans (ih hr) (Nat.le_add_right _ 4)
  | case3 c more hq hb ih =>
    rw [blockText] at h
    · obtain ⟨⟨taken, left⟩, hr, he⟩ := Option.map_eq_some_iff.1 h
      cases he
      exact Nat.le_succ_of_le (ih hr)
    all_goals assumption
  | case4 => cases h

theorem blockText_append {text rest : List Char} (h : blockText cs = some (text, rest))
    (below : List Char) : blockText (cs ++ below) = some (text, rest ++ below) := by
  induction cs using blockText.induct generalizing text with
  | case1 more =>
    cases h
    rfl
  | case2 more ih =>
    rw [blockText] at h
    obtain ⟨⟨taken, left⟩, hr, he⟩ := Option.map_eq_some_iff.1 h
    cases he
    have hmore := ih hr
    rw [List.cons_append, List.cons_append, List.cons_append, List.cons_append, blockText, hmore]
    rfl
  | case3 c more hq hb ih =>
    rw [blockText] at h
    · obtain ⟨⟨taken, left⟩, hr, he⟩ := Option.map_eq_some_iff.1 h
      cases he
      have hlength := Nat.le_trans (Nat.le_add_left 3 _) (length_blockText hr)
      have hfront {front : List Char} (hl : front.length ≤ 3) (hp : front <+: more ++ below) :
          front <+: more :=
        List.prefix_of_prefix_length_le hp (List.prefix_append _ _) (Nat.le_trans hl hlength)
      rw [List.cons_append, blockText_cons, ih hr]
      · rfl
      · rintro rfl hp
        obtain ⟨tail, rfl⟩ := hfront (by decide) hp
        exact hq tail rfl rfl
      · rintro rfl hp
        obtain ⟨tail, rfl⟩ := hfront (by decide) hp
        exact hb tail rfl rfl
    all_goals assumption
  | case4 => cases h

theorem length_skipIgnored_le (b : Bool) (cs : List Char) :
    (skipIgnored b cs).length ≤ cs.length := by
  induction cs generalizing b with
  | nil => exact Nat.le_refl _
  | cons c rest ih =>
    have hrest (b : Bool) := Nat.le_succ_of_le (ih b)
    rw [skipIgnored]
    split
    · exact hrest _
    · split
      · exact hrest _
      · split
        · exact hrest _
        · exact Nat.le_refl _

theorem not_quotes_append (h : ¬['"', '"'] <+: cs) (hb : IsBelow below) :
    ¬['"', '"'] <+: cs ++ below := by
  have hhead : below.head? ≠ some '"' := by
    intro he
    cases hb '"' he
  rintro ⟨tail, he⟩
  match cs, h with
  | [], _ => exact hhead (congrArg List.head? he).symm
  | [c], _ => exact hhead (congrArg (List.head? ∘ List.tail) he).symm
  | c :: d :: more, h =>
    cases he
    exact h ⟨more, rfl⟩

theorem reads_blockText {text rest : List Char} (h : blockText cs = some (text, rest)) :
    Reads blockString ('"' :: '"' :: '"' :: cs) (String.ofList (blockValue text)) rest := by
  refine (reads_literal ['"', '"', '"'] cs).bind fun fault => ?_
  show (blockText cs).map _ = _
  rw [h]
  rfl

theorem rejects_blockString (h : ¬['"', '"'] <+: cs) : Rejects blockString ('"' :: cs) :=
  (rejects_literal fun hp => h (List.cons_prefix_cons.1 hp).2).bind_left

theorem blockOrLine_cases (cs : List Char) :
    (∃ a rest, Reads (blockString <|> lineString) ('"' :: cs) a rest) ∨
      Rejects (blockString <|> lineString) ('"' :: cs) := by
  have hblock : (∃ a rest, Reads blockString ('"' :: cs) a rest) ∨
      Rejects blockString ('"' :: cs) := by
    by_cases hq : ['"', '"'] <+: cs
    · obtain ⟨raw, rfl⟩ := hq
      cases hr : blockText raw with
      | none =>
        refine .inr (Rejects.bind_right (reads_literal ['"', '"', '"'] raw) fun fault => ?_)
        show (blockText raw).map _ = none
        rw [hr]
        rfl
      | some result => exact .inl ⟨_, _, reads_blockText hr⟩
    · exact .inr (rejects_blockString hq)
  rcases hblock with ⟨a, rest, hr⟩ | hnone
  · exact .inl ⟨a, rest, hr.orElse_left⟩
  · rcases endsAtLine_lineString cs [] nofun with ⟨a, rest, hr, -⟩ | ⟨hr, -⟩
    · exact .inl ⟨a, rest, .orElse_right hnone ((reads_literal ['"'] cs).bind hr)⟩
    · exact .inr (hnone.orElse (.bind_right (reads_literal ['"'] cs) hr))

theorem quotedString_cases (hc : isClosed .text ('"' :: cs) = true) (hb : IsBelow below) :
    (∃ a rest, Reads (blockString <|> lineString) ('"' :: cs) a rest ∧
      Reads (blockString <|> lineString) ('"' :: cs ++ below) a (rest ++ below) ∧
      rest.length + 1 ≤ cs.length ∧ isClosed .text rest = true) ∨
    Rejects (blockString <|> lineString) ('"' :: cs) ∧
      Rejects (blockString <|> lineString) ('"' :: cs ++ below) := by
  by_cases hq : ['"', '"'] <+: cs
  · obtain ⟨raw, rfl⟩ := hq
    have hraw : isClosed .block raw = true := hc
    rw [isClosed_blockText] at hraw
    obtain ⟨⟨text, rest⟩, hr, hrest⟩ := (Option.any_eq_true _ _).1 hraw
    have hlength := length_blockText hr
    refine .inl ⟨_, rest, (reads_blockText hr).orElse_left,
      (reads_blockText (blockText_append hr below)).orElse_left, ?_, hrest⟩
    show rest.length + 1 ≤ raw.length + 2
    omega
  · have hline : isClosed .line cs = true := by
      rwa [isClosed] at hc
      rintro tail rfl
      exact hq ⟨tail, rfl⟩
    have hquote (cs : List Char) := reads_literal ['"'] cs
    rcases endsAtLine_lineString cs below hb with ⟨a, rest, hr, hr', hl, hcl⟩ | ⟨hr, hr'⟩
    · exact .inl ⟨a, rest, .orElse_right (rejects_blockString hq) ((hquote cs).bind hr),
        .orElse_right (rejects_blockString (not_quotes_append hq hb)) ((hquote _).bind hr'), hl,
        hcl hline⟩
    · exact .inr ⟨(rejects_blockString hq).orElse (.bind_right (hquote cs) hr),
        (rejects_blockString (not_quotes_append hq hb)).orElse (.bind_right (hquote _) hr')⟩

end Strings

end ApiStack.Sdl
