import ApiStack.Sdl.Grammar
import Mathlib.Data.List.Basic

namespace ApiStack.Sdl

namespace Parser

/-- A parser takes a result from the front of a text, and notes nothing. -/
def Reads (p : Parser α) (cs : List Char) (a : α) (rest : List Char) : Prop :=
  ∀ fault, p ⟨cs, fault⟩ = some (a, ⟨rest, fault⟩)

/-- A parser fails on a text. -/
def Rejects (p : Parser α) (cs : List Char) : Prop := ∀ fault, p ⟨cs, fault⟩ = none

/-- A parser does not care about ignored text in front. -/
def SkipsIgnored (p : Parser α) : Prop :=
  ∀ cs fault, p ⟨cs, fault⟩ = p ⟨skipIgnored false cs, fault⟩

section Rules

variable {p q : Parser α} {f : α → Parser β} {cs mid rest : List Char} {a : α} {b : β}

theorem bind_apply (p : Parser α) (f : α → Parser β) (r : Reading) :
    (p >>= f) r = (p r).bind fun (a, r') => f a r' := rfl

theorem orElse_apply (p q : Parser α) (r : Reading) :
    (p <|> q) r = (p r).or (q r) := by
  show (p r).orElse (fun _ => q r) = _
  cases p r <;> rfl

theorem Reads.bind (hp : Reads p cs a mid) (hf : Reads (f a) mid b rest) :
    Reads (p >>= f) cs b rest := by
  intro fault
  rw [bind_apply, hp fault]
  exact hf fault

theorem Reads.pure (a : α) (cs : List Char) : Reads (pure a) cs a cs := fun _ => rfl

theorem Reads.map (hp : Reads p cs a rest) (g : α → β) : Reads (g <$> p) cs (g a) rest := by
  intro fault
  show (p ⟨cs, fault⟩).bind _ = _
  rw [hp fault]
  rfl

theorem Reads.orElse_left (hp : Reads p cs a rest) : Reads (p <|> q) cs a rest := by
  intro fault
  rw [orElse_apply, hp fault, Option.some_or]

theorem Reads.orElse_right (hp : Rejects p cs) (hq : Reads q cs a rest) :
    Reads (p <|> q) cs a rest := by
  intro fault
  rw [orElse_apply, hp fault, Option.none_or, hq fault]

theorem Reads.optional_some (hp : Reads p cs a rest) : Reads (optional? p) cs (some a) rest := by
  intro fault
  rw [optional?, hp fault]

theorem Reads.optional_none (hp : Rejects p cs) : Reads (optional? p) cs none cs := by
  intro fault
  rw [optional?, hp fault]

theorem Reads.absent (hp : Rejects p cs) : Reads (absent p) cs () cs := by
  intro fault
  rw [Parser.absent, hp fault]

theorem Rejects.bind_left (hp : Rejects p cs) : Rejects (p >>= f) cs := by
  intro fault
  rw [bind_apply, hp fault]
  rfl

theorem Rejects.bind_right (hp : Reads p cs a mid) (hf : Rejects (f a) mid) :
    Rejects (p >>= f) cs := by
  intro fault
  rw [bind_apply, hp fault]
  exact hf fault

theorem Rejects.map (hp : Rejects p cs) (g : α → β) : Rejects (g <$> p) cs := by
  intro fault
  show (p ⟨cs, fault⟩).bind _ = _
  rw [hp fault]
  rfl

theorem Rejects.orElse (hp : Rejects p cs) (hq : Rejects q cs) : Rejects (p <|> q) cs := by
  intro fault
  rw [orElse_apply, hp fault, hq fault, Option.none_or]

theorem Rejects.failure (cs : List Char) : Rejects (failure : Parser α) cs := fun _ => rfl

end Rules

section Many

variable {q : Parser β} {text : α → List Char} {result : α → β} {follows : List Char → Prop}
  {rest : List Char}

theorem manyUpTo_succ_apply (q : Parser β) (fuel : Nat) (r : Reading) :
    Parser.manyUpTo q (fuel + 1) r = match q r with
      | some (b, r') => (Parser.manyUpTo q fuel r').map fun (bs, r'') => (b :: bs, r'')
      | none => some ([], r) := rfl

variable (follows) in
theorem Reads.manyUpTo {items : List α} (hread : ∀ a ∈ items, ∀ tail, follows tail →
      Reads q (text a ++ tail) (result a) tail)
    (htext : ∀ a ∈ items, text a ≠ [] ∧ ∀ tail, follows (text a ++ tail))
    (hrest : follows rest) (hend : Rejects q rest) {fuel : Nat}
    (hfuel : (items.flatMap text ++ rest).length < fuel) :
    Reads (Parser.manyUpTo q fuel) (items.flatMap text ++ rest) (items.map result) rest := by
  intro fault
  induction items generalizing fuel with
  | nil =>
    cases fuel with
    | zero => cases hfuel
    | succ fuel =>
      rw [List.flatMap_nil, List.nil_append, manyUpTo_succ_apply, hend fault]
      rfl
  | cons a others ih =>
    obtain ⟨ha, hothers⟩ := List.forall_mem_cons.1 hread
    obtain ⟨⟨hne, -⟩, htexts⟩ := List.forall_mem_cons.1 htext
    have hpos := List.length_pos_of_ne_nil hne
    rw [List.flatMap_cons, List.append_assoc] at hfuel ⊢
    rw [List.length_append] at hfuel
    have hfollows : follows (others.flatMap text ++ rest) := by
      cases others with
      | nil => exact hrest
      | cons b more =>
        rw [List.flatMap_cons, List.append_assoc]
        exact (htexts b List.mem_cons_self).2 _
    cases fuel with
    | zero => cases hfuel
    | succ fuel =>
      rw [manyUpTo_succ_apply, ha _ hfollows fault]
      simp only
      rw [ih hothers htexts (by omega)]
      rfl

variable (follows) in
theorem Reads.many {items : List α} (hread : ∀ a ∈ items, ∀ tail, follows tail →
      Reads q (text a ++ tail) (result a) tail)
    (htext : ∀ a ∈ items, text a ≠ [] ∧ ∀ tail, follows (text a ++ tail))
    (hrest : follows rest) (hend : Rejects q rest) :
    Reads (Parser.many q) (items.flatMap text ++ rest) (items.map result) rest := fun fault =>
  Reads.manyUpTo follows hread htext hrest hend (Nat.lt_succ_self _) fault

theorem Reads.many_nil (hend : Rejects q rest) : Reads (Parser.many q) rest [] rest := by
  intro fault
  rw [Parser.many, manyUpTo_succ_apply, hend fault]

end Many

section Ignored

variable {p : Parser α} {f : α → Parser β} {cs rest : List Char} {a : α} {blank : List Char}

theorem skipIgnored_skipIgnored (b : Bool) (cs : List Char) :
    skipIgnored false (skipIgnored b cs) = skipIgnored b cs := by
  induction cs generalizing b with
  | nil => rfl
  | cons c rest ih =>
    rw [skipIgnored]
    split
    · exact ih _
    · split
      · exact ih _
      · split
        · exact ih _
        · next hb hi hc =>
          rw [skipIgnored, if_neg Bool.false_ne_true, if_neg hi, if_neg hc]

theorem skipIgnored_append (h : blank.all isIgnored = true) (cs : List Char) :
    skipIgnored false (blank ++ cs) = skipIgnored false cs := by
  induction blank with
  | nil => rfl
  | cons c rest ih =>
    rw [List.all_cons, Bool.and_eq_true] at h
    rw [List.cons_append, skipIgnored, if_neg Bool.false_ne_true, if_pos h.1]
    exact ih h.2

theorem skipIgnored_cons {c : Char} (h : isIgnored c = false) (hc : c ≠ '#') (cs : List Char) :
    skipIgnored false (c :: cs) = c :: cs := by
  rw [skipIgnored, if_neg Bool.false_ne_true, if_neg (by simp [h]), if_neg hc]

theorem ignored_apply (r : Reading) :
    ignored r = some ((), { r with rest := skipIgnored false r.rest }) := rfl

theorem reads_ignored (cs : List Char) : Reads ignored cs () (skipIgnored false cs) := fun _ => rfl

theorem skipsIgnored_bind_ignored (p : Parser α) : SkipsIgnored (ignored >>= fun _ => p) := by
  intro cs fault
  rw [bind_apply, bind_apply, ignored_apply, ignored_apply, skipIgnored_skipIgnored]

theorem SkipsIgnored.bind (h : SkipsIgnored p) (f : α → Parser β) : SkipsIgnored (p >>= f) := by
  intro cs fault
  rw [bind_apply, bind_apply, h cs fault]

theorem SkipsIgnored.map (h : SkipsIgnored p) (g : α → β) : SkipsIgnored (g <$> p) :=
  h.bind fun a => Pure.pure (g a)

theorem SkipsIgnored.orElse {q : Parser α} (hp : SkipsIgnored p) (hq : SkipsIgnored q) :
    SkipsIgnored (p <|> q) := by
  intro cs fault
  rw [orElse_apply, orElse_apply, hp cs fault, hq cs fault]

/-- What may be there or not is skipped to if what comes behind it is as well. -/
theorem SkipsIgnored.optional_bind {f : Option α → Parser β} (hp : SkipsIgnored p)
    (hf : SkipsIgnored (f none)) : SkipsIgnored (optional? p >>= f) := by
  intro cs fault
  rw [bind_apply, bind_apply, optional?, optional?, hp cs fault]
  cases p ⟨skipIgnored false cs, fault⟩ with
  | some _ => rfl
  | none => exact hf cs fault

theorem SkipsIgnored.reads_iff (h : SkipsIgnored p) :
    Reads p cs a rest ↔ Reads p (skipIgnored false cs) a rest := by
  unfold Reads
  simp only [h cs]

theorem SkipsIgnored.rejects_iff (h : SkipsIgnored p) :
    Rejects p cs ↔ Rejects p (skipIgnored false cs) := by
  unfold Rejects
  simp only [h cs]

theorem SkipsIgnored.reads (h : SkipsIgnored p) (blank : List Char)
    (hb : blank.all isIgnored = true) (hp : Reads p cs a rest) : Reads p (blank ++ cs) a rest := by
  rw [h.reads_iff, skipIgnored_append hb, ← h.reads_iff]
  exact hp

theorem SkipsIgnored.rejects (h : SkipsIgnored p) (blank : List Char)
    (hb : blank.all isIgnored = true) (hp : Rejects p cs) : Rejects p (blank ++ cs) := by
  rw [h.rejects_iff, skipIgnored_append hb, ← h.rejects_iff]
  exact hp

end Ignored

section Separated

variable {q : Parser β} {text : α → List Char} {result : α → β} {follows : List Char → Prop}
  {sep rest : List Char}

theorem intercalate_cons (sep first : List Char) (others : List (List Char)) :
    sep.intercalate (first :: others) = first ++ others.flatMap (sep ++ ·) := by
  induction others generalizing first with
  | nil => simp
  | cons second others ih =>
    rw [List.intercalate_cons_cons, ih, List.flatMap_cons, List.append_assoc, List.append_assoc]

theorem follows_behind {items : List α}
    (htext : ∀ a ∈ items, ∀ tail, follows (sep ++ (text a ++ tail))) (hrest : follows rest) :
    follows (items.flatMap (fun a => sep ++ text a) ++ rest) := by
  cases items with
  | nil => exact hrest
  | cons b more =>
    rw [List.flatMap_cons, List.append_assoc, List.append_assoc]
    exact htext b List.mem_cons_self _

section Blank

variable (hskips : SkipsIgnored q) (hsep : sep.all isIgnored = true) (hpos : sep ≠ [])
include hskips hsep hpos

theorem Reads.manyUpTo_behind {items : List α}
    (hread : ∀ a ∈ items, ∀ tail, follows tail → Reads q (text a ++ tail) (result a) tail)
    (htext : ∀ a ∈ items, ∀ tail, follows (sep ++ (text a ++ tail)))
    (hrest : follows rest) (hend : Rejects q rest) {fuel : Nat}
    (hfuel : (items.flatMap (fun a => sep ++ text a) ++ rest).length < fuel) :
    Reads (Parser.manyUpTo q fuel) (items.flatMap (fun a => sep ++ text a) ++ rest)
      (items.map result) rest := by
  refine Reads.manyUpTo follows (fun a ha tail ht => ?_)
    (fun a ha => ⟨?_, fun tail => ?_⟩) hrest hend hfuel
  · rw [List.append_assoc]
    exact hskips.reads sep hsep (hread a ha tail ht)
  · exact List.append_ne_nil_of_left_ne_nil hpos _
  · rw [List.append_assoc]
    exact htext a ha tail

variable (follows sep) in
theorem Reads.some_intercalate {items : List α} (hne : items ≠ [])
    (hread : ∀ a ∈ items, ∀ tail, follows tail → Reads q (text a ++ tail) (result a) tail)
    (htext : ∀ a ∈ items, ∀ tail, follows (sep ++ (text a ++ tail)))
    (hrest : follows rest) (hend : Rejects q rest) :
    Reads (some' q) (sep.intercalate (items.map text) ++ rest) (items.map result) rest := by
  obtain ⟨first, others, rfl⟩ := List.exists_cons_of_ne_nil hne
  obtain ⟨hfirst, hothers⟩ := List.forall_mem_cons.1 hread
  obtain ⟨-, htexts⟩ := List.forall_mem_cons.1 htext
  have hmany : Reads (Parser.many q) (others.flatMap (fun a => sep ++ text a) ++ rest)
      (others.map result) rest := fun fault =>
    Reads.manyUpTo_behind hskips hsep hpos hothers htexts hrest hend (Nat.lt_succ_self _) fault
  rw [List.map_cons, intercalate_cons, List.flatMap_map, List.append_assoc]
  exact (hfirst _ (follows_behind htexts hrest)).bind (hmany.bind (.pure _ _))

variable (follows) in
theorem Reads.many_intercalate {items : List α}
    (hread : ∀ a ∈ items, ∀ tail, follows tail → Reads q (text a ++ tail) (result a) tail)
    (htext : ∀ a ∈ items, text a ≠ [] ∧ ∀ tail, follows (sep ++ (text a ++ tail)))
    (hrest : follows rest) (hend : Rejects q rest) :
    Reads (Parser.many q) (sep.intercalate (items.map text) ++ rest) (items.map result) rest := by
  cases items with
  | nil => exact Reads.many_nil hend
  | cons first others =>
    obtain ⟨hfirst, hothers⟩ := List.forall_mem_cons.1 hread
    obtain ⟨⟨hne, -⟩, htexts⟩ := List.forall_mem_cons.1 htext
    have hbehind := fun a ha => (htexts a ha).2
    have hlength := List.length_pos_of_ne_nil hne
    rw [List.map_cons, intercalate_cons, List.flatMap_map, List.append_assoc]
    intro fault
    rw [Parser.many, manyUpTo_succ_apply,
      hfirst _ (follows_behind hbehind hrest) fault]
    simp only
    rw [Reads.manyUpTo_behind hskips hsep hpos hothers hbehind hrest hend
      (by simp only [List.length_append] at hlength ⊢; omega)]
    rfl

end Blank

variable (text follows sep) in
theorem Reads.separated {mark : String} {items : List α} (hne : items ≠ [])
    (hread : ∀ a ∈ items, ∀ tail, follows tail → Reads q (text a ++ tail) (result a) tail)
    (hmark : ∀ a ∈ items, ∀ tail, Rejects (symbol mark) (text a ++ tail))
    (hsep : ∀ a ∈ items, ∀ tail, Reads (symbol mark) (sep ++ (text a ++ tail)) () (text a ++ tail))
    (hpos : sep ≠ []) (hfollows : ∀ a ∈ items, ∀ tail, follows (sep ++ (text a ++ tail)))
    (hrest : follows rest) (hend : Rejects (symbol mark) rest) :
    Reads (Parser.separated mark q) (sep.intercalate (items.map text) ++ rest)
      (items.map result) rest := by
  obtain ⟨first, others, rfl⟩ := List.exists_cons_of_ne_nil hne
  obtain ⟨hfirst, hothers⟩ := List.forall_mem_cons.1 hread
  obtain ⟨hnone, -⟩ := List.forall_mem_cons.1 hmark
  obtain ⟨-, hseps⟩ := List.forall_mem_cons.1 hsep
  obtain ⟨-, hfollow⟩ := List.forall_mem_cons.1 hfollows
  have hmany : Reads (Parser.many (do symbol mark; q))
      (others.flatMap (fun a => sep ++ text a) ++ rest) (others.map result) rest := by
    refine Reads.many follows (fun a ha tail ht => ?_)
      (fun a ha => ⟨?_, fun tail => ?_⟩) hrest hend.bind_left
    · rw [List.append_assoc]
      exact (hseps a ha tail).bind (hothers a ha tail ht)
    · exact List.append_ne_nil_of_left_ne_nil hpos _
    · rw [List.append_assoc]
      exact hfollow a ha tail
  have hbehind := follows_behind hfollow hrest
  rw [List.map_cons, intercalate_cons, List.flatMap_map, List.append_assoc]
  exact (Reads.optional_none (hnone _)).bind ((hfirst _ hbehind).bind (hmany.bind (.pure _ _)))

end Separated

end Parser

end ApiStack.Sdl
