import ApiStack.Proofs.Json.Range
import ApiStack.Proofs.Sdl.Tokens

namespace ApiStack

open Sdl Sdl.Parser Sdl.Grammar

theorem Sdl.EndsWord.endsDigits {rest : List Char} (h : EndsWord rest) : Json.EndsDigits rest := by
  intro c hc
  have hi := h.insideName c hc
  simp only [Grammar.insideName, Char.isAlphanum, Bool.or_eq_false_iff] at hi
  exact hi.1.2

theorem Sdl.EndsWord.not_startsName {rest : List Char} (h : EndsWord rest) :
    ∀ c ∈ rest.head?, startsName c = false := by
  intro c hc
  have hi := h.insideName c hc
  simp only [Grammar.insideName, Char.isAlphanum, Bool.or_eq_false_iff] at hi
  rw [startsName, hi.1.1, hi.2]
  rfl

namespace Json.Numeral

variable {n : Numeral} {rest : List Char}

theorem reads_digits {cs : List Char} (hne : cs ≠ []) (h : cs.all Char.isDigit = true)
    (hrest : EndsDigits rest) : Reads digits (cs ++ rest) cs rest := by
  obtain ⟨c, cs, rfl⟩ := List.exists_cons_of_ne_nil hne
  rw [List.all_cons, Bool.and_eq_true] at h
  exact (reads_charWhere h.1 _).bind ((reads_charsWhile h.2 hrest).bind (.pure _ _))

theorem IsWellFormed.reads_whole (h : n.IsWellFormed) (hrest : EndsDigits rest) :
    Reads wholeDigits (n.whole ++ rest) n.whole rest := by
  rcases h.whole with he | ⟨c, cs, he, hz, hc, hcs⟩
  · rw [he]
    exact Reads.orElse_left ((reads_literal ['0'] rest).bind (.pure _ _))
  · have hzero : Rejects (literal ['0']) (c :: cs ++ rest) :=
      rejects_literal_of_head fun hh => hz (Option.some.inj hh)
    have hall : (c :: cs).all Char.isDigit = true := by rw [List.all_cons, hc, hcs]; rfl
    rw [he]
    exact Reads.orElse_right hzero.bind_left (reads_digits (List.cons_ne_nil c cs) hall hrest)

theorem IsWellFormed.reads_fraction (h : n.IsWellFormed) (hrest : EndsWord rest) :
    Reads (optional? fractionPart) (n.fractionText ++ (n.exponentText ++ rest))
      (if n.fraction = [] then none else some n.fractionText) (n.exponentText ++ rest) := by
  by_cases hf : n.fraction = []
  · have htext : n.fractionText = [] := by rw [fractionText, if_pos hf]
    have hnone : Rejects (literal ['.']) (n.exponentText ++ rest) := by
      refine rejects_literal_of_head ?_
      unfold exponentText
      split
      · exact hrest.ne rfl
      · exact fun he => absurd (Option.some.inj he) (by decide)
    rw [if_pos hf, htext, List.nil_append]
    exact Reads.optional_none hnone.bind_left
  · have htext : n.fractionText = '.' :: n.fraction := by rw [fractionText, if_neg hf]
    rw [if_neg hf, htext]
    have hdigits := reads_digits hf h.fraction (n.endsDigits_exponentText hrest.endsDigits)
    exact Reads.optional_some ((reads_literal ['.'] _).bind (hdigits.bind (.pure _ _)))

theorem IsWellFormed.reads_exponent (h : n.IsWellFormed) (hrest : EndsWord rest) :
    Reads (optional? exponentPart) (n.exponentText ++ rest)
      (n.exponent.map fun _ => n.exponentText) rest := by
  cases he : n.exponent with
  | none =>
    have htext : n.exponentText = [] := by rw [exponentText, he]
    have hnone : Rejects (charWhere fun c => c = 'e' || c = 'E') rest := by
      refine rejects_charWhere fun c hc => ?_
      have hs := hrest.not_startsName c hc
      by_contra hmark
      rw [Bool.not_eq_false, Bool.or_eq_true, decide_eq_true_eq, decide_eq_true_eq] at hmark
      rcases hmark with rfl | rfl <;> cases hs
    rw [htext]
    exact Reads.optional_none hnone.bind_left
  | some e =>
    obtain ⟨grows, ds⟩ := e
    obtain ⟨hne, hds⟩ := h.exponent (grows, ds) he
    have htext : n.exponentText = 'e' :: (if grows then '+' else '-') :: ds := by
      rw [exponentText, he]
    have hsign : ((fun c => c = '+' || c = '-') (if grows then '+' else '-') : Bool) = true := by
      cases grows <;> rfl
    rw [htext]
    refine Reads.optional_some ((reads_charWhere rfl _).bind ?_)
    refine (Reads.optional_some (reads_charWhere hsign _)).bind ?_
    exact (reads_digits hne hds hrest.endsDigits).bind (.pure _ _)

theorem IsWellFormed.skipIgnored_text (h : n.IsWellFormed) (rest : List Char) :
    skipIgnored false (n.text ++ rest) = n.text ++ rest := by
  have hsome : ∃ c cs, n.text = c :: cs ∧ (c = '-' || c.isDigit) = true := by
    unfold text
    split
    · exact ⟨'-', _, rfl, rfl⟩
    · rcases h.whole with he | ⟨c, cs, he, -, hc, -⟩
      · exact ⟨'0', _, by rw [unsignedText, he]; rfl, rfl⟩
      · exact ⟨c, _, by rw [unsignedText, he]; rfl, by rw [hc, Bool.or_true]⟩
  obtain ⟨c, cs, he, hc⟩ := hsome
  rw [he]
  exact skipIgnored_cons_of (p := fun c => c = '-' || c.isDigit) (by decide) hc _

theorem IsWellFormed.reads_numberText (h : n.IsWellFormed) (hrest : EndsWord rest) :
    Reads numberText (n.text ++ rest) n.text rest := by
  have hparts : ∀ minus : Option Char, Reads (do
      let whole ← wholeDigits
      let fraction ← optional? fractionPart
      let exponent ← optional? exponentPart
      absent (charWhere startsName)
      return minus.toList ++ whole ++ fraction.getD [] ++ exponent.getD [])
        (n.unsignedText ++ rest) (minus.toList ++ n.unsignedText) rest := by
    intro minus
    have hfraction : (if n.fraction = [] then none else some n.fractionText).getD [] =
        n.fractionText := by
      by_cases hf : n.fraction = [] <;> simp [fractionText, hf]
    have hexponent : (n.exponent.map fun _ => n.exponentText).getD [] = n.exponentText := by
      cases he : n.exponent <;> simp [exponentText, he]
    rw [unsignedText, List.append_assoc, List.append_assoc]
    refine (h.reads_whole (n.endsDigits_fractionText hrest.endsDigits)).bind ?_
    refine (h.reads_fraction hrest).bind ((h.reads_exponent hrest).bind ?_)
    refine (Reads.absent (rejects_charWhere hrest.not_startsName)).bind ?_
    rw [hfraction, hexponent, List.append_assoc, List.append_assoc]
    exact .pure _ _
  cases hn : n.negative with
  | true =>
    have htext : n.text = '-' :: n.unsignedText := by rw [text, if_pos hn]
    rw [htext]
    exact (Reads.optional_some (reads_charWhere rfl _)).bind (hparts (some '-'))
  | false =>
    have htext : n.text = n.unsignedText := by
      rw [text, if_neg (by rw [hn]; exact Bool.false_ne_true)]
    -- the optional sign must not take the first digit
    have hminus : Rejects (charWhere (· = '-')) (n.unsignedText ++ rest) := by
      refine rejects_charWhere fun c hc => decide_eq_false ?_
      rintro rfl
      rw [unsignedText] at hc
      rcases h.whole with he | ⟨d, ds, he, -, hd, -⟩
      · rw [he] at hc
        cases hc
      · rw [he] at hc
        cases hc
        cases hd
    rw [htext]
    exact (Reads.optional_none hminus).bind (hparts none)

end Json.Numeral

theorem Json.Number.InRange.reads {n : Json.Number} {rest : List Char} (h : n.InRange)
    (hrest : EndsWord rest) :
    skipIgnored false (n.render.toList ++ rest) = n.render.toList ++ rest ∧
      Reads number (n.render.toList ++ rest) (.num n.reread) rest := by
  obtain ⟨k, hwell, htext, hok⟩ := h.exists_numeral
  rw [← htext]
  refine ⟨hwell.skipIgnored_text rest, (hwell.reads_numberText hrest).bind fun fault => ?_⟩
  rw [Number.reread, ← htext]
  cases hread : Json.readNumber k.text with
  | ok result => rfl
  | error e =>
    rw [hread] at hok
    cases hok

end ApiStack
