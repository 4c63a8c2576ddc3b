import ApiStack.Json.Excerpt
import ApiStack.Json.Printer
import ApiStack.Proofs.Json.Numerals
import Mathlib.Data.List.Basic

namespace ApiStack.Json

section Strings

theorem escapedUnit?_control {n : Nat} (h : n < 32) (rest : List Char) :
    escapedUnit? ('0' :: '0' :: Nat.digitChar (n / 16) :: Nat.digitChar (n % 16) :: rest) =
      some (Char.ofNat n, rest) := by
  have hdigit : ∀ n < 16, hexDigit? (Nat.digitChar n) = some n := by decide
  have hzero : hexDigit? '0' = some 0 := by decide
  have hunit : ((0 * 16 + 0) * 16 + n / 16) * 16 + n % 16 = n := by omega
  simp only [escapedUnit?, hexUnit?, hzero, hdigit _ (show n / 16 < 16 by omega),
    hdigit _ (show n % 16 < 16 by omega), bind, Option.bind, hunit]
  rw [if_neg (by simp; omega), if_neg (by simp; omega)]

theorem readString_escape (fuel : Nat) (read : List Char) (c : Char) (rest : List Char) :
    readString (fuel + 1) read (escape c ++ rest) = readString fuel (c :: read) rest := by
  by_cases hshort : c ∈ ['"', '\\', '\n', '\r', '\t', '\x08', '\x0c']
  · simp only [List.mem_cons, List.not_mem_nil, or_false] at hshort
    rcases hshort with rfl | rfl | rfl | rfl | rfl | rfl | rfl <;> rfl
  · simp only [List.mem_cons, List.not_mem_nil, or_false, not_or] at hshort
    obtain ⟨hq, hb, hn, hr, ht, hback, hfeed⟩ := hshort
    rw [escape, if_neg hq, if_neg hb, if_neg hn, if_neg hr, if_neg ht, if_neg hback, if_neg hfeed]
    by_cases hc : c.toNat < 32
    · rw [if_pos hc]
      simp only [List.cons_append, List.nil_append, readString]
      rw [escapedUnit?_control hc, Char.ofNat_toNat]
      rfl
    · rw [if_neg hc, List.singleton_append, readString, if_neg hc]
      · exact hq
      · exact fun _ h _ => hb h
      · exact fun _ _ h _ => hb h

theorem readString_append {s : List Char} {fuel : Nat} (h : s.length < fuel)
    (read rest : List Char) :
    readString fuel read (s.flatMap escape ++ '"' :: rest) =
      some (String.ofList (read.reverse ++ s), rest) := by
  induction s generalizing fuel read with
  | nil =>
    cases fuel with
    | zero => cases h
    | succ fuel => rw [List.append_nil]; rfl
  | cons c s ih =>
    cases fuel with
    | zero => cases h
    | succ fuel =>
      rw [List.length_cons] at h
      rw [List.flatMap_cons, List.append_assoc, readString_escape, ih (by omega),
        List.reverse_cons, List.append_assoc, List.singleton_append]

theorem length_le_flatMap_escape (s : List Char) : s.length ≤ (s.flatMap escape).length := by
  rw [List.length_flatMap]
  induction s with
  | nil => exact Nat.le_refl 0
  | cons c s ih =>
    have hc : 1 ≤ (escape c).length := by
      unfold escape
      split_ifs
      all_goals exact Nat.le_add_left 1 _
    rw [List.length_cons, List.map_cons, List.sum_cons]
    omega

theorem readString_quote (s : String) (rest : List Char) :
    ∃ behind, (quote s).toList ++ rest = '"' :: behind ∧
      readString (behind.length + 1) [] behind = some (s, rest) := by
  refine ⟨s.toList.flatMap escape ++ '"' :: rest, ?_, ?_⟩
  · simp [quote]
  · have hlength := length_le_flatMap_escape s.toList
    rw [readString_append (by rw [List.length_append]; omega), List.reverse_nil, List.nil_append,
      String.ofList_toList]

end Strings

section Scalars

theorem skipBlanks_cons {c : Char} (h : isBlank c = false) (rest : List Char) :
    skipBlanks (c :: rest) = c :: rest := by
  rw [skipBlanks, List.dropWhile_cons, h]
  rfl

theorem skipBlanks_newLine (depth : Nat) (rest : List Char) :
    skipBlanks ((newLine depth).toList ++ rest) = skipBlanks rest := by
  have hspaces (n : Nat) : skipBlanks (List.replicate n ' ' ++ rest) = skipBlanks rest := by
    induction n with
    | zero => rfl
    | succ n ih => exact ih
  rw [newLine, String.toList_ofList, List.cons_append]
  exact hspaces _

/-- A value without parts; if it is a number, an integer of 64 bits. -/
inductive IsScalar : Json → Prop where
  | null : IsScalar null
  | bool (b : Bool) : IsScalar (bool b)
  | int {n : Int} (hl : -((Nat.pow 2 63 : Nat) : Int) ≤ n) (hg : n ≤ (greatestWord : Int)) :
      IsScalar (int n)
  | str (s : String) : IsScalar (str s)

theorem not_isBlank_of_isDigit {c : Char} (h : c.isDigit = true) : isBlank c = false := by
  by_contra hb
  simp only [isBlank, Bool.not_eq_false, Bool.or_eq_true, decide_eq_true_eq] at hb
  rcases hb with ((rfl | rfl) | rfl) | rfl <;> cases h

theorem readValue_number (fuel : Nat) {c : Char} {cs rest : List Char} {n : Number}
    (hc : c = '-' ∨ c.isDigit = true) (h : readNumber (c :: cs) = .ok (n, rest)) :
    readValue (fuel + 1) (c :: cs) = some (num n, rest) := by
  have hblank : isBlank c = false := hc.elim (fun h => h ▸ rfl) not_isBlank_of_isDigit
  rw [readValue, skipBlanks_cons hblank]
  split
  case h_7 => rw [h]
  all_goals
    next he =>
      cases he
      rcases hc with hc | hc <;> cases hc

theorem exists_text_ofInt (n : Int) :
    ∃ c cs, (Numeral.ofInt n).text = c :: cs ∧ (c = '-' ∨ c.isDigit = true) := by
  by_cases hn : n < 0
  · exact ⟨_, _, if_pos (decide_eq_true hn), .inl rfl⟩
  · have hall := toDigits_all_isDigit n.natAbs
    obtain ⟨c, cs, he⟩ := List.exists_cons_of_ne_nil (Nat.toDigits_ne_nil (b := 10) (n := n.natAbs))
    rw [he, List.all_cons, Bool.and_eq_true] at hall
    refine ⟨c, cs, ?_, .inr hall.1⟩
    rw [Numeral.text, Numeral.ofInt, if_neg (by simpa using hn), Numeral.unsignedText,
      Numeral.fractionText, Numeral.exponentText, he]
    simp

theorem readValue_indentedAt {j : Json} (h : IsScalar j) (fuel depth : Nat) {rest : List Char}
    (hends : EndsNumber rest) :
    readValue (fuel + 1) ((j.indentedAt depth).toList ++ rest) = some (j, rest) := by
  cases h with
  | null =>
    rw [indentedAt]
    show readValue (fuel + 1) ('n' :: 'u' :: 'l' :: 'l' :: rest) = _
    rw [readValue, skipBlanks_cons rfl]
    rfl
  | bool b =>
    cases b with
    | false =>
      rw [indentedAt]
      show readValue (fuel + 1) ('f' :: 'a' :: 'l' :: 's' :: 'e' :: rest) = _
      rw [readValue, skipBlanks_cons rfl]
      rfl
    | true =>
      rw [indentedAt]
      show readValue (fuel + 1) ('t' :: 'r' :: 'u' :: 'e' :: rest) = _
      rw [readValue, skipBlanks_cons rfl]
      rfl
  | str s =>
    obtain ⟨behind, he, hread⟩ := readString_quote s rest
    rw [indentedAt, he, readValue, skipBlanks_cons rfl]
    simp only [hread]
    rfl
  | @int n hl hg =>
    have hread := Numeral.readNumber_ofInt_append hl hg hends
    obtain ⟨c, cs, he, hc⟩ := exists_text_ofInt n
    have htext : ((int n).indentedAt depth).toList = c :: cs := by
      rw [← he, Numeral.text_ofInt]
      rfl
    rw [htext, List.cons_append]
    rw [he, List.cons_append] at hread
    exact readValue_number fuel hc hread

end Scalars

section Entries

variable {keys : List String}

/-- The entries of an object without parts in its values, all of them wanted. -/
def AreScalars (keys : List String) (entries : List (String × Json)) : Prop :=
  ∀ e ∈ entries, e.1 ∈ keys ∧ IsScalar e.2

def entryText (e : String × Json) : List Char :=
  (quote e.1).toList ++ ':' :: ' ' :: (e.2.indentedAt 1).toList

theorem readWanted_newLine (fuel depth : Nat) (read : List (String × Json)) (cs : List Char) :
    readWanted keys fuel read ((newLine depth).toList ++ cs) = readWanted keys fuel read cs := by
  cases fuel with
  | zero => rfl
  | succ fuel => rw [readWanted, readWanted, skipBlanks_newLine]

/-- What is read behind an entry: another one, or the end of the object. -/
def readBehind (keys : List String) (fuel : Nat) (read : List (String × Json)) :
    List Char → Option (Json × List Char)
  | ',' :: rest => readWanted keys fuel read rest
  | '\x7d' :: rest => some (obj read.reverse, rest)
  | _ => none

theorem readWanted_entry {e : String × Json} (hk : e.1 ∈ keys) (hv : IsScalar e.2) (fuel : Nat)
    (read : List (String × Json)) {tail : List Char} (hends : EndsNumber tail) :
    readWanted keys (fuel + 2) read (entryText e ++ tail) =
      readBehind keys (fuel + 1) (e :: read) (skipBlanks tail) := by
  obtain ⟨key, value⟩ := e
  obtain ⟨behind, he, hread⟩ :=
    readString_quote key (':' :: ' ' :: ((value.indentedAt 1).toList ++ tail))
  have htext : entryText (key, value) ++ tail = '"' :: behind := by
    rw [← he, entryText]
    simp
  have hspace : readValue (fuel + 1) (' ' :: ((value.indentedAt 1).toList ++ tail)) =
      some (value, tail) := readValue_indentedAt hv fuel 1 hends
  rw [htext, readWanted, skipBlanks_cons rfl]
  simp only [hread, bind, Option.bind]
  rw [skipBlanks_cons rfl]
  simp only [List.contains_iff_mem, hk, if_true, hspace, Option.map]
  rfl

def entriesText (entries : List (String × Json)) : List Char :=
  (',' :: (newLine 1).toList).intercalate (entries.map entryText)

theorem readWanted_entries {e : String × Json} {es : List (String × Json)}
    (h : AreScalars keys (e :: es)) (fuel : Nat) (read : List (String × Json))
    (tail : List Char) :
    readWanted keys (fuel + es.length + 2) read
        (entriesText (e :: es) ++ ((newLine 0).toList ++ '\x7d' :: tail)) =
      some (obj (read.reverse ++ e :: es), tail) := by
  induction es generalizing e read with
  | nil =>
    obtain ⟨hk, hv⟩ := h e (List.mem_singleton_self e)
    have hends : EndsNumber ((newLine 0).toList ++ '\x7d' :: tail) := by
      intro c hc
      cases hc
      decide
    rw [entriesText, List.map_singleton, List.intercalate_singleton,
      readWanted_entry hk hv _ _ hends, skipBlanks_newLine, skipBlanks_cons rfl, readBehind,
      List.reverse_cons]
  | cons e' es ih =>
    obtain ⟨⟨hk, hv⟩, hes⟩ := List.forall_mem_cons.1 h
    have hends (rest : List Char) : EndsNumber (',' :: rest) := by
      intro c hc
      cases hc
      decide
    have htext (rest : List Char) : entriesText (e :: e' :: es) ++ rest =
        entryText e ++ ',' :: ((newLine 1).toList ++ (entriesText (e' :: es) ++ rest)) := by
      simp [entriesText, List.intercalate_cons_cons]
    rw [htext, readWanted_entry hk hv _ _ (hends _), skipBlanks_cons rfl, readBehind,
      readWanted_newLine]
    refine (ih hes (e :: read)).trans ?_
    rw [List.reverse_cons, List.append_assoc, List.singleton_append]

theorem length_le_entriesText (entries : List (String × Json)) :
    entries.length ≤ (entriesText entries).length := by
  have hentry (e : String × Json) : 1 ≤ (entryText e).length := by
    unfold entryText
    rw [List.length_append, List.length_cons]
    omega
  unfold entriesText
  induction entries with
  | nil => exact Nat.le_refl 0
  | cons e es ih =>
    cases es with
    | nil => simpa using hentry e
    | cons e' es =>
      rw [List.map_cons, List.map_cons, List.intercalate_cons_cons]
      rw [List.map_cons] at ih
      simp only [List.length_append, List.length_cons] at ih ⊢
      have he := hentry e
      omega

theorem toList_indented_obj {entries : List (String × Json)} (h : entries ≠ []) :
    (indented (obj entries)).toList = '\x7b' :: ((newLine 1).toList ++
      (entriesText entries ++ ((newLine 0).toList ++ ['\x7d']))) := by
  have hparts (es : List (String × Json)) :
      (indentedEntries 1 es).map String.toList = es.map entryText := by
    induction es with
    | nil => rfl
    | cons e es ih =>
      rw [indentedEntries, List.map_cons, List.map_cons, ih]
      simp [entryText]
  have hne : (indentedEntries 1 entries).isEmpty = false := by
    obtain ⟨e, es, rfl⟩ := List.exists_cons_of_ne_nil h
    rfl
  rw [indented, indentedAt, block, hne]
  simp [String.toList_intercalate, hparts, entriesText]

theorem exists_entriesText (e : String × Json) (es : List (String × Json)) :
    ∃ cs, entriesText (e :: es) = '"' :: cs := by
  cases es with
  | nil => exact ⟨_, by simp [entriesText, entryText, quote]; rfl⟩
  | cons e' es => exact ⟨_, by simp [entriesText, List.intercalate_cons_cons, entryText, quote]; rfl⟩

/-- An object without parts in its values is read as it is written if all its keys are wanted. -/
theorem excerpt?_indented {entries : List (String × Json)} (h : AreScalars keys entries) :
    excerpt? keys (indented (obj entries)) = some (obj entries) := by
  cases entries with
  | nil => rfl
  | cons e es =>
    have htext := toList_indented_obj (List.cons_ne_nil e es)
    have hlength : es.length + 2 ≤ 2 * (indented (obj (e :: es))).toList.length + 2 := by
      have h := length_le_entriesText (e :: es)
      rw [htext]
      simp only [List.length_cons, List.length_append] at h ⊢
      omega
    obtain ⟨fuel, hfuel⟩ := Nat.exists_eq_add_of_le' hlength
    have hread := readWanted_entries h fuel [] []
    obtain ⟨cs, hcs⟩ := exists_entriesText e es
    rw [excerpt?, hfuel, htext, skipBlanks_cons rfl]
    simp only
    rw [skipBlanks_newLine, hcs, List.cons_append, skipBlanks_cons rfl]
    rw [hcs, List.cons_append] at hread
    split
    · next heq =>
      cases hread.symm.trans heq
      rfl
    · next heq => cases hread.symm.trans heq

end Entries

end ApiStack.Json
