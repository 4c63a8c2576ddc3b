import ApiStack.Time.Duration
import Mathlib.Tactic.Common

namespace ApiStack.Duration

def TimeUnit.millis : TimeUnit → Nat
  | .year => 365 * 86400000
  | .quarter => 91 * 86400000
  | .month => 30 * 86400000
  | .week => 7 * 86400000
  | .day => 86400000
  | .hour => 3600000
  | .minute => 60000
  | .second => 1000
  | .milli => 1

theorem greatest_eq : greatest = 9223372036854775807 := rfl

section Bounds

variable {m n millis : Nat} {unit : TimeUnit} {text : String}

theorem product?_eq_some_iff {a : Nat} :
    product? m n = some a ↔ m * n ≤ greatest ∧ m * n = a := by
  rw [product?, Option.ite_none_right_eq_some, Option.some.injEq]

theorem ofSeconds?_eq_some_iff :
    ofSeconds? n = some millis ↔ n * 1000 ≤ greatest ∧ n * 1000 = millis := by
  rw [ofSeconds?, Option.ite_none_right_eq_some, Option.some.injEq,
    Nat.le_div_iff_mul_le (by decide)]

theorem bind_product?_eq_some_iff {f : Nat → Option Nat} {k : Nat} (hk : 0 < k)
    (hf : ∀ a, f a = some millis ↔ a * k ≤ greatest ∧ a * k = millis) :
    (product? m n >>= f) = some millis ↔ m * (n * k) ≤ greatest ∧ m * (n * k) = millis := by
  simp only [Option.bind_eq_bind, Option.bind_eq_some_iff, product?_eq_some_iff, ← Nat.mul_assoc]
  constructor
  · rintro ⟨a, ⟨-, rfl⟩, h⟩
    exact (hf _).1 h
  · rintro ⟨hle, he⟩
    have hproduct : m * n ≤ greatest := Nat.le_trans (Nat.le_mul_of_pos_right _ hk) hle
    exact ⟨m * n, ⟨hproduct, rfl⟩, (hf _).2 ⟨hle, he⟩⟩

theorem ofDays?_eq_some_iff :
    ofDays? n = some millis ↔ n * 86400000 ≤ greatest ∧ n * 86400000 = millis :=
  bind_product?_eq_some_iff (by decide) fun _ => ofSeconds?_eq_some_iff

theorem inMillis?_eq_some_iff (hn : n ≤ greatest) : inMillis? n unit = some millis ↔
    n * unit.millis ≤ greatest ∧ n * unit.millis = millis := by
  have hdays (a : Nat) := @ofDays?_eq_some_iff a millis
  have hseconds (a : Nat) := @ofSeconds?_eq_some_iff a millis
  cases unit with
  | year => exact bind_product?_eq_some_iff (by decide) hdays
  | quarter => exact bind_product?_eq_some_iff (by decide) hdays
  | month => exact bind_product?_eq_some_iff (by decide) hdays
  | week => exact bind_product?_eq_some_iff (by decide) hdays
  | day => exact bind_product?_eq_some_iff (by decide) hdays
  | hour => exact bind_product?_eq_some_iff (by decide) hseconds
  | minute => exact bind_product?_eq_some_iff (by decide) hseconds
  | second => exact ofSeconds?_eq_some_iff
  | milli =>
    rw [inMillis?, Option.some.injEq, TimeUnit.millis, Nat.mul_one]
    exact (and_iff_right hn).symm

theorem millis_pos (unit : TimeUnit) : 0 < unit.millis := by
  cases unit <;> decide

theorem ofUnit_eq_ok_iff : ofUnit n unit = .ok millis ↔
    n * unit.millis ≤ greatest ∧ n * unit.millis = millis := by
  have hle : n * unit.millis ≤ greatest → n ≤ greatest :=
    Nat.le_trans (Nat.le_mul_of_pos_right n (millis_pos unit))
  by_cases hn : n ≤ greatest
  · rw [ofUnit, if_pos hn, ← inMillis?_eq_some_iff hn]
    cases inMillis? n unit <;> simp
  · rw [ofUnit, if_neg hn]
    exact iff_of_false nofun fun h => hn (hle h.1)

theorem ofUnit_cases (n : Nat) (unit : TimeUnit) : (∃ millis, ofUnit n unit = .ok millis) ∨
    ofUnit n unit = .error (.duration (toString n ++ unit.letters)) := by
  unfold ofUnit
  split
  · exact .inl ⟨_, rfl⟩
  · exact .inr rfl

end Bounds

/-- What is written is an amount of a unit: hours as a number, or a text of digits that may have the
letters of a unit behind them. -/
inductive Names : Duration → Nat → TimeUnit → Prop where
  | hours (n : Nat) : Names (.hours n) n .hour
  | digits {ds : List Char} (hne : ds ≠ []) (hd : ∀ c ∈ ds, c.isDigit = true) :
      Names (.text (String.ofList ds)) (Nat.ofDigitChars 10 ds 0) .hour
  | digitsUnit {ds : List Char} (hne : ds ≠ []) (hd : ∀ c ∈ ds, c.isDigit = true)
      (unit : TimeUnit) :
      Names (.text (String.ofList (ds ++ unit.letters.toList))) (Nat.ofDigitChars 10 ds 0) unit

section Texts

variable {ds letters : List Char} {unit : TimeUnit} {n : Nat} {s : String}

theorem isDecimalDigit_of_isDigit {c : Char} (h : c.isDigit = true) :
    Text.isDecimalDigit c = true := by
  obtain ⟨hleast, hmost⟩ := Char.isDigit_iff_toNat.1 h
  have hnext : ¬58 ≤ c.toNat := by
    have hnine : '9'.toNat = 57 := rfl
    omega
  have hzero : 48 ≤ c.toNat := hleast
  have hone : (Text.decimalDigitBoundaries.takeWhile (· ≤ c.toNat)) = [48] := by
    rw [Text.decimalDigitBoundaries, List.takeWhile_cons_of_pos (by simpa using hzero),
      List.takeWhile_cons_of_neg (by simpa using hnext)]
  rw [Text.isDecimalDigit, Text.inRanges, hone]
  rfl

theorem takeWhile_letters (unit : TimeUnit) :
    unit.letters.toList.takeWhile Text.isDecimalDigit = [] := by
  cases unit <;> decide +kernel

theorem unitOf?_letters (unit : TimeUnit) : unitOf? unit.letters.toList = some unit := by
  cases unit <;> decide +kernel

theorem unitOf?_eq_some (h : unitOf? letters = some unit) :
    (letters = [] ∧ unit = .hour) ∨ letters = unit.letters.toList := by
  unfold unitOf? at h
  split at h
  · next he =>
    cases h
    exact .inl ⟨List.isEmpty_iff.1 he, rfl⟩
  · have hfound := List.find?_some h
    exact .inr (of_decide_eq_true hfound).symm

theorem split?_ofList (hne : ds ≠ []) (hd : ∀ c ∈ ds, Text.isDecimalDigit c = true)
    (hl : letters.takeWhile Text.isDecimalDigit = []) :
    split? (String.ofList (ds ++ letters)) = (unitOf? letters).map fun u => (ds, u) := by
  have hrest : letters.dropWhile Text.isDecimalDigit = letters := by
    have happend := @List.takeWhile_append_dropWhile _ Text.isDecimalDigit letters
    rwa [hl, List.nil_append] at happend
  have hempty : ¬ds.isEmpty = true := fun h => hne (List.isEmpty_iff.1 h)
  rw [split?, String.toList_ofList, List.takeWhile_append_of_pos hd,
    List.dropWhile_append_of_pos hd, hl, hrest, List.append_nil]
  exact if_neg hempty

theorem amount?_eq_some_iff : amount? ds = some n ↔
    (∀ c ∈ ds, c.isDigit = true) ∧ Nat.ofDigitChars 10 ds 0 < Nat.pow 2 64 ∧
      Nat.ofDigitChars 10 ds 0 = n := by
  have hvalue : Rfc3339.digitsValue ds = Nat.ofDigitChars 10 ds 0 := rfl
  rw [amount?, Option.ite_none_right_eq_some, List.all_eq_true, hvalue]
  simp only [Option.ite_none_right_eq_some, Option.some.injEq]

theorem amount?_eq_none (h : Nat.pow 2 64 ≤ Nat.ofDigitChars 10 ds 0) : amount? ds = none := by
  cases ha : amount? ds with
  | none => rfl
  | some n => exact absurd (amount?_eq_some_iff.1 ha).2.1 (Nat.not_lt.2 h)

theorem millis_ofList_eq_ok_iff (hne : ds ≠ []) (hd : ∀ c ∈ ds, c.isDigit = true)
    (hl : letters.takeWhile Text.isDecimalDigit = []) (hu : unitOf? letters = some unit) :
    Duration.millis (.text (String.ofList (ds ++ letters))) = .ok n ↔
      Nat.ofDigitChars 10 ds 0 * unit.millis ≤ greatest ∧
        Nat.ofDigitChars 10 ds 0 * unit.millis = n := by
  rw [millis, split?_ofList hne (fun c hc => isDecimalDigit_of_isDigit (hd c hc)) hl, hu]
  by_cases hword : Nat.ofDigitChars 10 ds 0 < Nat.pow 2 64
  · simp only [Option.map_some, amount?_eq_some_iff.2 ⟨hd, hword, rfl⟩]
    exact ofUnit_eq_ok_iff
  · have hbig := Nat.not_lt.1 hword
    have hpow : Nat.pow 2 64 = 18446744073709551616 := rfl
    simp only [Option.map_some, amount?_eq_none hbig]
    refine iff_of_false nofun fun h => ?_
    have hamount := Nat.le_trans (Nat.le_mul_of_pos_right _ (millis_pos unit)) h.1
    rw [greatest_eq] at hamount
    omega

theorem millis_ofList (hne : ds ≠ []) (hd : ∀ c ∈ ds, c.isDigit = true)
    (hl : letters.takeWhile Text.isDecimalDigit = []) (hu : unitOf? letters = some unit)
    (hle : Nat.ofDigitChars 10 ds 0 * unit.millis ≤ greatest) :
    Duration.millis (.text (String.ofList (ds ++ letters))) =
      .ok (Nat.ofDigitChars 10 ds 0 * unit.millis) :=
  (millis_ofList_eq_ok_iff hne hd hl hu).2 ⟨hle, rfl⟩

theorem split?_eq_some {digits : List Char} (h : split? s = some (digits, unit)) :
    s.toList.takeWhile Text.isDecimalDigit = digits ∧ digits ≠ [] ∧
      (s = String.ofList digits ∧ unit = .hour ∨
        s = String.ofList (digits ++ unit.letters.toList)) := by
  simp only [split?, Option.ite_none_left_eq_some, Option.map_eq_some_iff, Prod.mk.injEq] at h
  obtain ⟨hne, u, hu, rfl, rfl⟩ := h
  have hs : s = String.ofList (s.toList.takeWhile Text.isDecimalDigit
      ++ s.toList.dropWhile Text.isDecimalDigit) := by
    rw [List.takeWhile_append_dropWhile, String.ofList_toList]
  refine ⟨rfl, fun he => hne (List.isEmpty_iff.2 he), ?_⟩
  rcases unitOf?_eq_some hu with ⟨he, rfl⟩ | he
  · rw [he, List.append_nil] at hs
    exact .inl ⟨hs, rfl⟩
  · rw [he] at hs
    exact .inr hs

/-- Digits of any script, with nothing or the letters of a unit behind them. -/
inductive HasForm : String → Prop where
  | digits {ds : List Char} (hne : ds ≠ []) (hd : ∀ c ∈ ds, Text.isDecimalDigit c = true) :
      HasForm (String.ofList ds)
  | digitsUnit {ds : List Char} (hne : ds ≠ []) (hd : ∀ c ∈ ds, Text.isDecimalDigit c = true)
      (unit : TimeUnit) : HasForm (String.ofList (ds ++ unit.letters.toList))

theorem isWellFormed_iff : isWellFormed s = true ↔ HasForm s := by
  constructor
  · intro h
    obtain ⟨⟨digits, unit⟩, hs⟩ := Option.isSome_iff_exists.1 h
    obtain ⟨htake, hne, hform⟩ := split?_eq_some hs
    have hd : digits.all Text.isDecimalDigit = true := htake ▸ List.all_takeWhile
    rw [List.all_eq_true] at hd
    obtain ⟨rfl, -⟩ | rfl := hform
    · exact .digits hne hd
    · exact .digitsUnit hne hd unit
  · rintro (⟨hne, hd⟩ | ⟨hne, hd, unit⟩)
    · have hs := split?_ofList hne hd List.takeWhile_nil
      rw [List.append_nil] at hs
      rw [isWellFormed, hs]
      rfl
    · rw [isWellFormed, split?_ofList hne hd (takeWhile_letters unit), unitOf?_letters]
      rfl

theorem names_of_split? {digits : List Char} (h : split? s = some (digits, unit))
    (hd : ∀ c ∈ digits, c.isDigit = true) :
    Names (.text s) (Nat.ofDigitChars 10 digits 0) unit := by
  obtain ⟨-, hne, ⟨rfl, rfl⟩ | rfl⟩ := split?_eq_some h
  · exact .digits hne hd
  · exact .digitsUnit hne hd unit

theorem names_of_millis_text (h : millis (.text s) = .ok n) :
    ∃ m unit, Names (.text s) m unit ∧ m * unit.millis ≤ greatest ∧ m * unit.millis = n := by
  simp only [millis] at h
  split at h
  · cases h
  · next digits unit hs =>
    split at h
    · cases h
    · next m ha =>
      obtain ⟨hd, -, rfl⟩ := amount?_eq_some_iff.1 ha
      exact ⟨_, unit, names_of_split? hs hd, ofUnit_eq_ok_iff.1 h⟩

theorem Names.has_millis_iff {d : Duration} {millis : Nat} (h : d.Names n unit) :
    d.millis = .ok millis ↔ n * unit.millis ≤ greatest ∧ n * unit.millis = millis := by
  cases h with
  | hours n => exact ofUnit_eq_ok_iff
  | digits hne hd =>
    have hm := @millis_ofList_eq_ok_iff _ [] _ millis hne hd List.takeWhile_nil rfl
    rwa [List.append_nil] at hm
  | digitsUnit hne hd unit =>
    exact millis_ofList_eq_ok_iff hne hd (takeWhile_letters unit) (unitOf?_letters unit)

/-- The digits of a text are plain ones, not those of other scripts. -/
def HasPlainDigits : Duration → Prop
  | .hours _ => True
  | .text s => ∀ c ∈ s.toList.takeWhile Text.isDecimalDigit, c.isDigit = true

/-- A text of the right form is an amount of a unit if its digits are plain ones. -/
theorem exists_names_of_isWellFormed (h : isWellFormed s = true)
    (hd : HasPlainDigits (.text s)) : ∃ n unit, Names (.text s) n unit := by
  obtain ⟨⟨digits, unit⟩, hs⟩ := Option.isSome_iff_exists.1 h
  obtain ⟨htake, -⟩ := split?_eq_some hs
  rw [HasPlainDigits, htake] at hd
  exact ⟨_, unit, names_of_split? hs hd⟩

theorem millis_cases (d : Duration) :
    (∃ millis, d.millis = .ok millis) ∨ ∃ text, d.millis = .error (.duration text) := by
  cases d with
  | hours n => exact (ofUnit_cases n .hour).imp_right fun h => ⟨_, h⟩
  | text s =>
    simp only [Duration.millis]
    split
    · exact .inr ⟨_, rfl⟩
    · split
      · exact .inr ⟨_, rfl⟩
      · exact (ofUnit_cases _ _).imp_right fun h => ⟨_, h⟩

theorem eq_duration_of_millis_eq_error {d : Duration} {failure : Failure}
    (h : d.millis = .error failure) : ∃ text, failure = .duration text := by
  rcases d.millis_cases with ⟨millis, hm⟩ | ⟨text, hm⟩
  · cases hm.symm.trans h
  · cases hm.symm.trans h
    exact ⟨text, rfl⟩

end Texts

/-- A length of time has milliseconds just if it is an amount of a unit and they fit a signed word
of 64 bits, and then they are the product of the two. Everything else is refused. -/
theorem millis_eq_ok_iff (d : Duration) :
    (∀ millis, d.millis = .ok millis ↔ ∃ n unit, d.Names n unit ∧
      n * unit.millis ≤ Nat.pow 2 63 - 1 ∧ n * unit.millis = millis) ∧
    ((∃ millis, d.millis = .ok millis) ∨ ∃ text, d.millis = .error (.duration text)) := by
  refine ⟨fun millis => ⟨?_, ?_⟩, millis_cases d⟩
  · intro h
    cases d with
    | hours n => exact ⟨n, .hour, .hours n, ofUnit_eq_ok_iff.1 h⟩
    | text s => exact names_of_millis_text h
  · rintro ⟨n, unit, hn, hle, rfl⟩
    cases hn with
    | hours n => exact ofUnit_eq_ok_iff.2 ⟨hle, rfl⟩
    | digits hne hd =>
      have hm := millis_ofList hne hd List.takeWhile_nil (rfl : unitOf? [] = some .hour) hle
      rwa [List.append_nil] at hm
    | digitsUnit hne hd unit =>
      exact millis_ofList hne hd (takeWhile_letters unit) (unitOf?_letters unit) hle

end ApiStack.Duration
