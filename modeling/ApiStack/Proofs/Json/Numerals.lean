import ApiStack.Json.Printer
import ApiStack.Json.Reader
import Mathlib.Data.Nat.Digits.Defs

namespace ApiStack.Json

/-- The parts of the text of a number: digits in front of the point and behind it, and an exponent
with its sign. -/
structure Numeral where
  negative : Bool
  whole : List Char
  fraction : List Char
  exponent : Option (Bool × List Char)

namespace Numeral

def fractionText (n : Numeral) : List Char :=
  if n.fraction = [] then [] else '.' :: n.fraction

def exponentText (n : Numeral) : List Char :=
  match n.exponent with
  | none => []
  | some (grows, digits) => 'e' :: (if grows then '+' else '-') :: digits

def unsignedText (n : Numeral) : List Char := n.whole ++ (n.fractionText ++ n.exponentText)

def text (n : Numeral) : List Char :=
  if n.negative then '-' :: n.unsignedText else n.unsignedText

/-- All parts are digits where they have to be, and no zero stands in front of other digits. -/
structure IsWellFormed (n : Numeral) : Prop where
  whole : n.whole = ['0'] ∨
    ∃ c cs, n.whole = c :: cs ∧ c ≠ '0' ∧ c.isDigit = true ∧ cs.all Char.isDigit = true
  fraction : n.fraction.all Char.isDigit = true
  exponent : ∀ e ∈ n.exponent, e.2 ≠ [] ∧ e.2.all Char.isDigit = true

end Numeral

/-- A text does not go on digits in front of it. -/
def EndsDigits (cs : List Char) : Prop := ∀ c ∈ cs.head?, c.isDigit = false

theorem endsDigits_nil : EndsDigits [] := nofun

/-- A text does not go on an integer in front of it. -/
def EndsNumber (cs : List Char) : Prop :=
  ∀ c ∈ cs.head?, c.isDigit = false ∧ c ≠ '.' ∧ c ≠ 'e' ∧ c ≠ 'E'

theorem endsNumber_nil : EndsNumber [] := nofun

theorem EndsNumber.endsDigits {cs : List Char} (h : EndsNumber cs) : EndsDigits cs :=
  fun c hc => (h c hc).1

section EndsDigits

variable {rest : List Char}

namespace Numeral

theorem endsDigits_exponentText (n : Numeral) (h : EndsDigits rest) :
    EndsDigits (n.exponentText ++ rest) := by
  unfold exponentText
  split
  · exact h
  · intro c hc
    cases hc
    rfl

theorem endsDigits_fractionText (n : Numeral) (h : EndsDigits rest) :
    EndsDigits (n.fractionText ++ (n.exponentText ++ rest)) := by
  unfold fractionText
  split
  · exact n.endsDigits_exponentText h
  · intro c hc
    cases hc
    rfl

end Numeral

end EndsDigits

section Digits

variable {ds rest : List Char}

theorem le_ofDigitChars (ds : List Char) (n : Nat) : n ≤ Nat.ofDigitChars 10 ds n := by
  rw [Nat.ofDigitChars_eq_ofDigitChars_zero]
  have hpos : 1 ≤ 10 ^ ds.length := Nat.one_le_pow _ _ (by decide)
  calc n = 1 * n := (Nat.one_mul n).symm
    _ ≤ 10 ^ ds.length * n := Nat.mul_le_mul_right n hpos
    _ ≤ _ := Nat.le_add_right _ _

theorem takeDigits_append {significand : Nat} (count : Nat) (h : ds.all Char.isDigit = true)
    (hle : Nat.ofDigitChars 10 ds significand ≤ greatestWord) (hrest : EndsDigits rest) :
    takeDigits significand count (ds ++ rest) =
      (Nat.ofDigitChars 10 ds significand, count + ds.length, rest) := by
  induction ds generalizing significand count with
  | nil =>
    rw [List.nil_append, Nat.ofDigitChars_nil, List.length_nil, Nat.add_zero]
    cases rest with
    | nil => rfl
    | cons c tail =>
      have hc : ¬c.isDigit = true := by rw [hrest c rfl]; exact Bool.false_ne_true
      rw [takeDigits, if_neg hc]
  | cons c ds ih =>
    rw [List.all_cons, Bool.and_eq_true] at h
    rw [Nat.ofDigitChars_cons] at hle ⊢
    have hnext := Nat.le_trans (le_ofDigitChars ds _) hle
    rw [List.cons_append, takeDigits, if_pos h.1]
    simp only
    rw [if_neg (Nat.not_lt.2 hnext), ih (count + 1) h.2 hle, List.length_cons]
    congr 2
    omega

theorem takeExponent_of_le {exponent : Nat} (h : ds.all Char.isDigit = true)
    (hle : Nat.ofDigitChars 10 ds exponent ≤ Nat.pow 2 31 - 1) :
    takeExponent exponent ds = (Nat.ofDigitChars 10 ds exponent, true, []) := by
  induction ds generalizing exponent with
  | nil => rfl
  | cons c ds ih =>
    rw [List.all_cons, Bool.and_eq_true] at h
    rw [Nat.ofDigitChars_cons] at hle ⊢
    have hnext := Nat.le_trans (le_ofDigitChars ds _) hle
    rw [takeExponent, if_pos h.1]
    simp only
    rw [if_neg (Nat.not_lt.2 hnext), ih h.2 hle]

theorem dropWhile_isDigit (h : EndsDigits rest) : rest.dropWhile Char.isDigit = rest := by
  cases rest with
  | nil => rfl
  | cons c tail => rw [List.dropWhile_cons, h c rfl]; rfl

theorem takeWhile_isDigit (h : EndsDigits rest) : rest.takeWhile Char.isDigit = [] := by
  cases rest with
  | nil => rfl
  | cons c tail => rw [List.takeWhile_cons, h c rfl]; rfl

end Digits

namespace Numeral

variable {n : Numeral}

def significand (n : Numeral) : Nat := Nat.ofDigitChars 10 (n.whole ++ n.fraction) 0

theorem IsWellFormed.whole_all (h : n.IsWellFormed) : n.whole.all Char.isDigit = true := by
  rcases h.whole with he | ⟨c, cs, he, -, hc, hcs⟩
  · rw [he]
    rfl
  · rw [he, List.all_cons, hc, hcs]
    rfl

theorem endsDigits_exponentText_nil (n : Numeral) : EndsDigits n.exponentText := by
  have h := n.endsDigits_exponentText endsDigits_nil
  rwa [List.append_nil] at h

theorem endsDigits_fractionText_nil (n : Numeral) :
    EndsDigits (n.fractionText ++ n.exponentText) := by
  have h := n.endsDigits_fractionText endsDigits_nil
  rwa [List.append_nil] at h

theorem IsWellFormed.readUnsigned_whole (h : n.IsWellFormed) {significand : Nat}
    {tail : List Char} (hs : Nat.ofDigitChars 10 n.whole 0 = significand)
    (hle : significand ≤ greatestWord) : EndsDigits tail →
    readUnsigned n.negative (n.whole ++ tail) =
      match tail with
      | '.' :: rest => readFraction n.negative significand 0 rest
      | 'e' :: rest => readExponent n.negative significand 0 rest
      | 'E' :: rest => readExponent n.negative significand 0 rest
      | rest =>
        if !n.negative then .ok (.int (Int.ofNat significand), rest)
        else if significand = 0 || Nat.pow 2 63 < significand then
          .ok (.float (Binary64.ofNat significand).negate, rest)
        else .ok (.int (-Int.ofNat significand), rest) := by
  intro hends
  have htake := takeDigits_append 0 h.whole_all (hs.symm ▸ hle) hends
  rw [hs] at htake
  have hfirst : ∃ c cs, n.whole = c :: cs ∧ c.isDigit = true ∧
      (c = '0' && (cs ++ tail).head?.any Char.isDigit) = false := by
    rcases h.whole with he | ⟨c, cs, he, hz, hc, -⟩
    · refine ⟨'0', [], he, rfl, ?_⟩
      cases tail with
      | nil => rfl
      | cons c more => simpa using hends c rfl
    · exact ⟨c, cs, he, hc, by rw [decide_eq_false hz, Bool.false_and]⟩
  obtain ⟨c, cs, he, hc, hzero⟩ := hfirst
  rw [he, List.cons_append] at htake ⊢
  rw [readUnsigned, if_neg (by rw [hc]; exact Bool.false_ne_true), hzero,
    if_neg Bool.false_ne_true, htake]
  simp only [takeWhile_isDigit hends, dropWhile_isDigit hends]
  rfl

theorem IsWellFormed.readUnsigned_scale (h : n.IsWellFormed) (hs : n.significand ≤ greatestWord)
    (hp : n.fraction ≠ [] ∨ n.exponent ≠ none) :
    readUnsigned n.negative n.unsignedText =
      readScale n.negative n.significand (-Int.ofNat n.fraction.length) n.exponentText := by
  have hwhole : n.significand = Nat.ofDigitChars 10 n.fraction (Nat.ofDigitChars 10 n.whole 0) :=
    Nat.ofDigitChars_append 0
  have hle := Nat.le_trans (hwhole ▸ le_ofDigitChars n.fraction _) hs
  rw [unsignedText, h.readUnsigned_whole rfl hle n.endsDigits_fractionText_nil]
  by_cases hf : n.fraction = []
  · have hsame : Nat.ofDigitChars 10 n.whole 0 = n.significand := by rw [hwhole, hf]; rfl
    obtain ⟨⟨grows, ds⟩, he⟩ := Option.ne_none_iff_exists'.1 (hp.resolve_left (not_not_intro hf))
    have hexponent : n.exponentText = 'e' :: (if grows then '+' else '-') :: ds := by
      rw [exponentText, he]
    have hfraction : n.fractionText = [] := by rw [fractionText, if_pos hf]
    rw [hfraction, hexponent, hsame, hf]
    rfl
  · have hfraction : n.fractionText = '.' :: n.fraction := by rw [fractionText, if_neg hf]
    obtain ⟨c, cs, hc⟩ := List.exists_cons_of_ne_nil hf
    have htake := takeDigits_append 0 h.fraction (hwhole ▸ hs) n.endsDigits_exponentText_nil
    have hdigit : ¬(!c.isDigit) = true := by
      have hall := h.fraction
      rw [hc, List.all_cons, Bool.and_eq_true] at hall
      rw [hall.1]
      exact Bool.false_ne_true
    rw [← hwhole, hc, List.cons_append] at htake
    rw [hfraction, hc, List.cons_append, List.cons_append]
    simp only [readFraction]
    rw [if_neg hdigit, htake]
    simp only [dropWhile_isDigit n.endsDigits_exponentText_nil]
    congr 1
    simp

theorem IsWellFormed.readUnsigned_int (h : n.IsWellFormed) (hs : n.significand ≤ greatestWord)
    (hf : n.fraction = []) (he : n.exponent = none) {rest : List Char} (hends : EndsNumber rest) :
    readUnsigned n.negative (n.unsignedText ++ rest) =
      if !n.negative then .ok (.int (Int.ofNat n.significand), rest)
      else if n.significand = 0 || Nat.pow 2 63 < n.significand then
        .ok (.float (Binary64.ofNat n.significand).negate, rest)
      else .ok (.int (-Int.ofNat n.significand), rest) := by
  have hwhole : Nat.ofDigitChars 10 n.whole 0 = n.significand := by
    rw [significand, hf, List.append_nil]
  have htext : n.unsignedText = n.whole := by
    rw [unsignedText, exponentText, he, fractionText, if_pos hf]
    simp
  rw [htext, h.readUnsigned_whole hwhole hs hends.endsDigits]
  split
  · exact absurd rfl (hends '.' rfl).2.1
  · exact absurd rfl (hends 'e' rfl).2.2.1
  · exact absurd rfl (hends 'E' rfl).2.2.2
  · rfl

theorem readNumber_text_append (n : Numeral) (h : n.IsWellFormed) (rest : List Char) :
    readNumber (n.text ++ rest) = readUnsigned n.negative (n.unsignedText ++ rest) := by
  cases hn : n.negative with
  | true =>
    rw [text, if_pos hn]
    rfl
  | false =>
    rw [text, if_neg (by rw [hn]; exact Bool.false_ne_true), readNumber]
    rintro behind he
    rcases h.whole with hw | ⟨c, cs, hw, -, hc, -⟩
    · rw [unsignedText, hw] at he
      cases he
    · rw [unsignedText, hw, List.cons_append, List.cons_append] at he
      cases he
      cases hc

theorem readNumber_text (n : Numeral) (h : n.IsWellFormed) :
    readNumber n.text = readUnsigned n.negative n.unsignedText := by
  simpa using n.readNumber_text_append h []

end Numeral

section Integers

theorem toDigits_all_isDigit (n : Nat) : (Nat.toDigits 10 n).all Char.isDigit = true :=
  List.all_eq_true.2 fun _ hc => Nat.isDigit_of_mem_toDigits (by decide) (by decide) hc

theorem exists_toDigits_eq_cons {n : Nat} (h : 0 < n) :
    ∃ c cs, Nat.toDigits 10 n = c :: cs ∧ c ≠ '0' := by
  induction n using Nat.strongRecOn with
  | ind n ih =>
    by_cases hn : n < 10
    · have hdigit : ∀ n < 10, 0 < n → n.digitChar ≠ '0' := by decide
      exact ⟨n.digitChar, [], Nat.toDigits_of_lt_base hn, hdigit n hn h⟩
    · obtain ⟨c, cs, he, hc⟩ := ih (n / 10) (by omega) (by omega)
      refine ⟨c, cs ++ [(n % 10).digitChar], ?_, hc⟩
      rw [Nat.toDigits_of_base_le (by decide) (by omega), he, List.cons_append]

namespace Numeral

def ofInt (n : Int) : Numeral := ⟨n < 0, Nat.toDigits 10 n.natAbs, [], none⟩

theorem text_ofInt (n : Int) : (ofInt n).text = (toString n).toList := by
  cases n with
  | ofNat n =>
    have hneg : ¬decide (Int.ofNat n < 0) = true := by simp
    have hs : toString (Int.ofNat n) = toString n := rfl
    rw [text, ofInt, if_neg hneg, unsignedText, fractionText, exponentText, hs,
      Nat.toString_eq_ofList_toDigits]
    simp
  | negSucc n =>
    have hneg : decide (Int.negSucc n < 0) = true := decide_eq_true (Int.negSucc_lt_zero n)
    have hs : toString (Int.negSucc n) = "-" ++ toString (n + 1) := rfl
    rw [text, ofInt, if_pos hneg, unsignedText, fractionText, exponentText, hs,
      Nat.toString_eq_ofList_toDigits]
    simp

theorem isWellFormed_toDigits (negative : Bool) (n : Nat) :
    IsWellFormed ⟨negative, Nat.toDigits 10 n, [], none⟩ where
  whole := by
    rcases Nat.eq_zero_or_pos n with rfl | hn
    · exact .inl rfl
    · obtain ⟨c, cs, he, hc⟩ := exists_toDigits_eq_cons hn
      have hall := toDigits_all_isDigit n
      rw [he, List.all_cons, Bool.and_eq_true] at hall
      exact .inr ⟨c, cs, he, hc, hall.1, hall.2⟩
  fraction := rfl
  exponent := nofun

/-- Integers of 64 bits are read as they are written. -/
theorem readNumber_ofInt_append {n : Int} (hl : -((Nat.pow 2 63 : Nat) : Int) ≤ n)
    (hg : n ≤ (greatestWord : Int)) {rest : List Char} (hends : EndsNumber rest) :
    readNumber ((ofInt n).text ++ rest) = .ok (.int n, rest) := by
  have h : (ofInt n).IsWellFormed := isWellFormed_toDigits (decide (n < 0)) n.natAbs
  have hs : (ofInt n).significand = n.natAbs := by
    rw [significand, ofInt, List.append_nil]
    exact Nat.ofDigitChars_ten_toDigits
  have hpow : Nat.pow 2 63 ≤ greatestWord := by decide
  have hle : (ofInt n).significand ≤ greatestWord := by
    rw [hs]
    omega
  have hnegative : (ofInt n).negative = decide (n < 0) := rfl
  rw [readNumber_text_append _ h, h.readUnsigned_int hle rfl rfl hends, hs, hnegative]
  by_cases hn : n < 0
  · have hzero : (decide (n.natAbs = 0) || decide (Nat.pow 2 63 < n.natAbs)) = false := by
      rw [Bool.or_eq_false_iff, decide_eq_false_iff_not, decide_eq_false_iff_not]
      omega
    have habs : -Int.ofNat n.natAbs = n := by
      rw [Int.ofNat_eq_natCast]
      omega
    rw [decide_eq_true hn, hzero, habs]
    rfl
  · have habs : Int.ofNat n.natAbs = n := by
      rw [Int.ofNat_eq_natCast]
      omega
    rw [decide_eq_false hn, habs]
    rfl

theorem readNumber_ofInt {n : Int} (hl : -((Nat.pow 2 63 : Nat) : Int) ≤ n)
    (hg : n ≤ (greatestWord : Int)) : readNumber (ofInt n).text = .ok (.int n, []) := by
  simpa using readNumber_ofInt_append hl hg endsNumber_nil

end Numeral

end Integers

end ApiStack.Json
