import ApiStack.Proofs.Sdl.Reading
import ApiStack.Sdl.Printer
import Mathlib.Data.Bool.AllAny

namespace ApiStack.Sdl

open Sdl.Parser Sdl.Grammar

/-- A character that cannot go on a word, a number, a string or a type. -/
def endsWord (c : Char) : Bool :=
  !(insideName c || c = '.' || c = '!' || c = '"')

/-- A text does not go on a word in front of it. -/
def EndsWord (cs : List Char) : Prop := ∀ c ∈ cs.head?, endsWord c = true

def nextChar? (cs : List Char) : Option Char := (skipIgnored false cs).head?

/-- What a definition can go on with behind a name, a type, a value or directives. -/
def continuations : List Char := ['@', '(', '=', '&', '|', '\x7b', '!', ':']

/-- A text does not go on a part of a definition in front of it. -/
structure Closes (cs : List Char) : Prop where
  endsWord : EndsWord cs
  next : ∀ c ∈ nextChar? cs, c ∉ continuations

def IsName (s : String) : Prop :=
  ∃ c cs, s.toList = c :: cs ∧ startsName c = true ∧ cs.all insideName = true

theorem endsWord_cons {c : Char} {cs : List Char} (h : endsWord c = true) : EndsWord (c :: cs) := by
  intro d hd
  cases hd
  exact h

theorem EndsWord.insideName {rest : List Char} (h : EndsWord rest) :
    ∀ c ∈ rest.head?, insideName c = false := by
  intro c hc
  have he := h c hc
  simp only [Sdl.endsWord, Bool.not_eq_true', Bool.or_eq_false_iff] at he
  exact he.1.1.1

theorem EndsWord.ne {rest : List Char} {d : Char} (h : EndsWord rest)
    (hd : Sdl.endsWord d = false) : rest.head? ≠ some d := by
  intro he
  rw [h d he] at hd
  cases hd

namespace Parser

theorem skipsIgnored_symbol (mark : String) : SkipsIgnored (symbol mark) :=
  skipsIgnored_bind_ignored _

theorem skipsIgnored_name : SkipsIgnored name := skipsIgnored_bind_ignored _

theorem skipsIgnored_string : SkipsIgnored string := skipsIgnored_bind_ignored _

theorem skipsIgnored_typeRef : SkipsIgnored typeRef := skipsIgnored_bind_ignored _

theorem skipsIgnored_enumName : SkipsIgnored enumName := skipsIgnored_bind_ignored _

variable {c : Char} {cs rest : List Char} {p : Char → Bool}

theorem reads_charWhere (h : p c = true) (rest : List Char) :
    Reads (charWhere p) (c :: rest) c rest := by
  intro fault
  simp only [charWhere, h, if_true]

theorem rejects_charWhere (h : ∀ c ∈ cs.head?, p c = false) : Rejects (charWhere p) cs := by
  intro fault
  cases cs with
  | nil => rfl
  | cons c rest =>
    have hc := h c rfl
    simp [charWhere, hc]

theorem reads_charsWhile (h : cs.all p = true) (hrest : ∀ c ∈ rest.head?, p c = false) :
    Reads (charsWhile p) (cs ++ rest) cs rest := by
  have hall : ∀ c ∈ cs, p c = true := List.all_eq_true.1 h
  have htake : rest.takeWhile p = [] := by
    cases rest with
    | nil => rfl
    | cons c _ => rw [List.takeWhile_cons, hrest c rfl]; rfl
  have hdrop : rest.dropWhile p = rest := by
    cases rest with
    | nil => rfl
    | cons c _ => rw [List.dropWhile_cons, hrest c rfl]; rfl
  intro fault
  show some ((cs ++ rest).takeWhile p, (⟨(cs ++ rest).dropWhile p, fault⟩ : Reading)) = _
  rw [List.takeWhile_append_of_pos hall, List.dropWhile_append_of_pos hall, htake, hdrop,
    List.append_nil]

theorem reads_literal (cs rest : List Char) : Reads (literal cs) (cs ++ rest) () rest := by
  induction cs with
  | nil => exact .pure () rest
  | cons c cs ih => exact (reads_charWhere (decide_eq_true rfl) _).bind ih

theorem rejects_literal (h : ¬ cs <+: rest) : Rejects (literal cs) rest := by
  induction cs generalizing rest with
  | nil => exact (h List.nil_prefix).elim
  | cons c cs ih =>
    cases rest with
    | nil => exact (rejects_charWhere fun _ he => by cases he).bind_left
    | cons d rest =>
      by_cases hd : d = c
      · subst hd
        exact Rejects.bind_right (reads_charWhere (decide_eq_true rfl) rest)
          (ih fun hp => h (List.cons_prefix_cons.2 ⟨rfl, hp⟩))
      · refine (rejects_charWhere fun e he => ?_).bind_left
        cases he
        exact decide_eq_false hd

theorem rejects_symbol_of_next {mark : String} {c : Char} {more : List Char}
    (hm : mark.toList = c :: more) (h : nextChar? cs ≠ some c) : Rejects (symbol mark) cs := by
  refine Rejects.bind_right (reads_ignored cs) (rejects_literal fun hp => h ?_)
  obtain ⟨tail, he⟩ := hp
  rw [nextChar?, ← he, hm]
  rfl

theorem reads_nameHere {s : String} (h : IsName s)
    (hrest : ∀ c ∈ rest.head?, insideName c = false) :
    Reads nameHere (s.toList ++ rest) s rest := by
  obtain ⟨c, cs, he, hc, hcs⟩ := h
  have hs : String.ofList (c :: cs) = s := by rw [← he, String.ofList_toList]
  rw [he, List.cons_append, ← hs]
  exact (reads_charWhere hc _).bind ((reads_charsWhile hcs hrest).bind (.pure _ _))

theorem isIgnored_cases {c : Char} (h : isIgnored c = true) :
    c ∈ [' ', ',', '\t', Char.ofNat 0xFEFF, '\n', '\r'] := by
  simp only [isIgnored, endsLine, Bool.or_eq_true, decide_eq_true_eq] at h
  have hmark (he : c.toNat = 0xFEFF) : c = Char.ofNat 0xFEFF := by rw [← he, Char.ofNat_toNat]
  simp only [List.mem_cons, List.not_mem_nil, or_false]
  tauto

/-- A character that has something in common with no blank and no comment is not skipped. -/
theorem skipIgnored_cons_of {c : Char}
    (hp : [' ', ',', '\t', Char.ofNat 0xFEFF, '\n', '\r', '#'].any p = false) (h : p c = true)
    (cs : List Char) : skipIgnored false (c :: cs) = c :: cs := by
  rw [List.any_eq_false] at hp
  refine skipIgnored_cons ?_ ?_ cs
  · by_contra hi
    have hcases := isIgnored_cases (by simpa using hi)
    exact hp c (List.mem_append_left ['#'] hcases) h
  · rintro rfl
    exact hp '#' (by decide) h

theorem skipIgnored_of_startsName {c : Char} (h : startsName c = true) (cs : List Char) :
    skipIgnored false (c :: cs) = c :: cs :=
  skipIgnored_cons_of (by decide) h cs

theorem skipIgnored_name {s : String} (h : IsName s) (rest : List Char) :
    skipIgnored false (s.toList ++ rest) = s.toList ++ rest := by
  obtain ⟨c, cs, he, hc, -⟩ := h
  rw [he]
  exact skipIgnored_of_startsName hc _

theorem isDigit_of_startsName {c : Char} (h : startsName c = true) : c.isDigit = false := by
  unfold startsName Char.isAlpha Char.isUpper Char.isLower at h
  unfold Char.isDigit
  simp only [Bool.or_eq_true, Bool.and_eq_true, decide_eq_true_eq, Bool.and_eq_false_iff,
    decide_eq_false_iff_not] at h ⊢
  rcases h with (⟨hl, -⟩ | ⟨hl, -⟩) | rfl
  · exact .inr fun hd => absurd (UInt32.le_trans hl hd) (by decide)
  · exact .inr fun hd => absurd (UInt32.le_trans hl hd) (by decide)
  · exact .inr (by decide)

theorem Reads.token {p : Parser α} {a : α} (hcs : skipIgnored false cs = cs)
    (hp : Reads p cs a rest) : Reads (ignored >>= fun _ => p) cs a rest := by
  have hskip := reads_ignored cs
  rw [hcs] at hskip
  exact hskip.bind hp

theorem reads_name {s : String} (h : IsName s)
    (hrest : ∀ c ∈ rest.head?, insideName c = false) : Reads name (s.toList ++ rest) s rest :=
  Reads.token (skipIgnored_name h rest) (reads_nameHere h hrest)

theorem rejects_literal_of_head {cs' : List Char} (h : rest.head? ≠ some c) :
    Rejects (literal (c :: cs')) rest := by
  refine rejects_literal fun hp => h ?_
  obtain ⟨more, rfl⟩ := hp
  rfl

def requiredMark (required : Bool) : List Char := if required then ['!'] else []

theorem reads_requiredMark (required : Bool) (hrest : EndsWord rest) :
    Reads (present (literal ['!'])) (requiredMark required ++ rest) required rest := by
  cases required with
  | true => exact (Reads.optional_some (reads_literal ['!'] rest)).map _
  | false =>
    have hnone : Rejects (literal ['!']) rest := rejects_literal_of_head (hrest.ne rfl)
    exact (Reads.optional_none hnone).map _

theorem insideName_requiredMark (required : Bool) (hrest : EndsWord rest) :
    ∀ c ∈ (requiredMark required ++ rest).head?, insideName c = false := by
  cases required with
  | true =>
    intro c hc
    cases hc
    rfl
  | false => exact hrest.insideName

end Parser

theorem toList_typeRef_named (name : String) (required : Bool) :
    (Printer.typeRef (.named name required)).toList = name.toList ++ requiredMark required := by
  cases required <;> simp [Printer.typeRef, requiredMark]

theorem toList_typeRef_list (item : TypeRef) (required : Bool) :
    (Printer.typeRef (.list item required)).toList =
      '[' :: ((Printer.typeRef item).toList ++ ']' :: requiredMark required) := by
  cases required <;> simp [Printer.typeRef, requiredMark]

namespace Parser

theorem reads_typeRefHere {t : TypeRef} (h : IsName t.innermost) {fuel : Nat}
    (hfuel : (Printer.typeRef t).toList.length ≤ fuel) (hrest : EndsWord rest) :
    Reads (typeRefHere fuel) ((Printer.typeRef t).toList ++ rest) t rest := by
  induction t generalizing fuel rest with
  | named name required =>
    rw [toList_typeRef_named] at hfuel ⊢
    cases fuel with
    | zero =>
      obtain ⟨c, cs, he, -⟩ := h
      change name.toList = _ at he
      rw [he] at hfuel
      cases hfuel
    | succ fuel =>
      rw [List.append_assoc]
      exact Reads.orElse_left ((reads_nameHere h (insideName_requiredMark required hrest)).bind
        ((reads_requiredMark required hrest).bind (.pure _ _)))
  | list item required ih =>
    rw [toList_typeRef_list] at hfuel ⊢
    cases fuel with
    | zero => cases hfuel
    | succ fuel =>
      have hlength : (Printer.typeRef item).toList.length ≤ fuel := by
        rw [List.length_cons, List.length_append] at hfuel
        omega
      have hmark : EndsWord (']' :: (requiredMark required ++ rest)) := by
        intro c hc
        cases hc
        rfl
      rw [List.cons_append, List.append_assoc, List.cons_append]
      refine Reads.orElse_right (Rejects.bind_left (Rejects.bind_left (rejects_charWhere ?_))) ?_
      · intro c hc
        cases hc
        rfl
      · exact (reads_literal ['['] _).bind ((ih h hlength hmark).bind
          ((reads_literal [']'] _).bind ((reads_requiredMark required hrest).bind (.pure _ _))))

theorem reads_typeRef {t : TypeRef} (h : IsName t.innermost) (hrest : EndsWord rest) :
    Reads typeRef ((Printer.typeRef t).toList ++ rest) t rest := by
  have hskip : skipIgnored false ((Printer.typeRef t).toList ++ rest) =
      (Printer.typeRef t).toList ++ rest := by
    cases t with
    | named name required =>
      rw [toList_typeRef_named, List.append_assoc]
      exact skipIgnored_name h _
    | list item required =>
      rw [toList_typeRef_list]
      rfl
  have hfuel : (Printer.typeRef t).toList.length ≤ ((Printer.typeRef t).toList ++ rest).length := by
    rw [List.length_append]
    omega
  refine Reads.token hskip fun fault => ?_
  exact reads_typeRefHere h hfuel hrest fault

end Parser

end ApiStack.Sdl
