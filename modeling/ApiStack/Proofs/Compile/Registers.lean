import ApiStack.Proofs.Compile.Build
import ApiStack.Proofs.Failure

namespace ApiStack.Compile

open Config

/-- Where a part gives a result, it has embedded some definitions, and no others than it may, and
the result has some property. -/
def Registers (may must : Definitions) (b : Build α) (P : α → Prop) : Prop :=
  ∀ fs fs' a, b.run fs = (.ok a, fs') → (∃ ds, Embeds fs ds fs' ∧ must ⊆ ds ∧ ds ⊆ may) ∧ P a

namespace Registers

variable {may must more : Definitions}

theorem pure {a : α} {P : α → Prop} (h : P a) : Registers may [] (Pure.pure a) P := by
  intro fs fs' a' hr
  cases hr
  exact ⟨⟨[], .nil fs, List.Subset.refl _, List.nil_subset _⟩, h⟩

theorem lift {r : Except Failure α} {P : α → Prop} (h : ∀ a, r = .ok a → P a) :
    Registers may [] (liftM r) P := by
  intro fs fs' a hr
  obtain ⟨hr', rfl⟩ := Prod.mk.inj (hr : (r, fs) = (.ok a, fs'))
  exact ⟨⟨[], .nil fs, List.Subset.refl _, List.nil_subset _⟩, h a hr'⟩

theorem throw (failure : Failure) (P : α → Prop) : Registers may must (throw failure) P := by
  intro fs fs' a hr
  cases hr

theorem embed {name : String} {definition : Json} {P : Unit → Prop} (h : P ())
    (hm : (name, definition) ∈ may) :
    Registers may [(name, definition)] (embed name definition) P := by
  intro fs fs' a hr
  refine ⟨⟨_, .of_embed hr, List.Subset.refl _, ?_⟩, h⟩
  exact List.cons_subset.2 ⟨hm, List.nil_subset _⟩

theorem bind {b : Build α} {f : α → Build β} {P : α → Prop} {Q : β → Prop}
    (hb : Registers may must b P) (hf : ∀ a, P a → Registers may more (f a) Q) :
    Registers may (must ++ more) (b >>= f) Q := by
  intro fs fs' c hr
  obtain ⟨a, mid, ha, hc⟩ := run_bind_eq_ok_iff.1 hr
  obtain ⟨⟨ds, hd, hmust, hmay⟩, hP⟩ := hb _ _ _ ha
  obtain ⟨⟨es, he, hmore, hmay'⟩, hQ⟩ := hf a hP _ _ _ hc
  refine ⟨⟨ds ++ es, hd.trans he, ?_, List.append_subset.2 ⟨hmay, hmay'⟩⟩, hQ⟩
  exact List.append_subset.2 ⟨List.subset_append_of_subset_left es hmust,
    List.subset_append_of_subset_right ds hmore⟩

theorem lift_bind {r : Except Failure α} {f : α → Build β} {P : β → Prop}
    (hf : ∀ a, r = .ok a → Registers may must (f a) P) : Registers may must (liftM r >>= f) P := by
  have h : Registers may ([] ++ must) (liftM r >>= f) P := (lift fun _ h => h).bind hf
  rwa [List.nil_append] at h

theorem throw_bind (failure : Failure) (f : α → Build β) (P : β → Prop) :
    Registers may must (MonadExcept.throw failure >>= f) P := by
  intro fs fs' a hr
  cases hr

theorem map {b : Build α} {P : α → Prop} {Q : β → Prop} {f : α → β}
    (hb : Registers may must b P) (hf : ∀ a, P a → Q (f a)) :
    Registers may must (do return f (← b)) Q := by
  have h : Registers may (must ++ []) (do return f (← b)) Q := hb.bind fun a ha => pure (hf a ha)
  rwa [List.append_nil] at h

theorem mono {b : Build α} {P Q : α → Prop} (hb : Registers may must b P) (hm : more ⊆ must)
    (hPQ : ∀ a, P a → Q a) : Registers may more b Q := by
  intro fs fs' a hr
  obtain ⟨⟨ds, hd, hmust, hmay⟩, hP⟩ := hb _ _ _ hr
  exact ⟨⟨ds, hd, List.Subset.trans hm hmust, hmay⟩, hPQ a hP⟩

/-- What a part settles holds of its result besides. -/
theorem and_settles {b : Build α} {P Q : α → Prop} (hb : Registers may must b P)
    (hs : Settles (fun _ => True) b Q) : Registers may must b fun a => P a ∧ Q a := by
  intro fs fs' a hr
  obtain ⟨hregisters, hP⟩ := hb _ _ _ hr
  obtain ⟨_, _, hQ⟩ := hs.run_eq_ok hr
  exact ⟨hregisters, hP, hQ fun _ _ => trivial⟩

/-- Parts that are run one after another embed what each of them has to. -/
theorem mapM {l : List α} {f : α → Build β} {must : α → Definitions} {P : α → β → Prop}
    (h : ∀ a ∈ l, Registers may (must a) (f a) (P a)) :
    Registers may (l.flatMap must) (l.mapM f) (List.Forall₂ P l) := by
  induction l with
  | nil => exact pure .nil
  | cons a l ih =>
    rw [List.mapM_cons, List.flatMap_cons]
    apply (h a List.mem_cons_self).bind
    intro b hb
    apply (ih fun x hx => h x (List.mem_cons_of_mem _ hx)).map
    intro bs hbs
    exact .cons hb hbs

end Registers

/-- The definitions that a source embeds under a name. -/
def definitions (source : FunctionSource) (name : String) : Definitions :=
  match source.target with
  | .ok (.embedded definition) => [(name, definition)]
  | _ => []

theorem mem_definitions_iff {source : FunctionSource} {name : String} {d : String × Json} :
    d ∈ definitions source name ↔ d.1 = name ∧ source.target = .ok (.embedded d.2) := by
  obtain ⟨n, definition⟩ := d
  unfold definitions
  split
  · next definition' h => simp [h, eq_comm]
  · next h =>
    constructor
    · intro hm
      cases hm
    · rintro ⟨-, ht⟩
      exact absurd ht (h definition)

theorem functionArn_registers {may : Definitions} {source : FunctionSource} {name : String}
    (h : definitions source name ⊆ may) :
    Registers may (definitions source name) (functionArn source name) fun arn =>
      ∀ d, source.target = .ok (.embedded d) → arn = namedFunction name none := by
  unfold functionArn
  apply Registers.lift_bind
  intro target ht
  simp only [definitions, ht] at h ⊢
  cases target with
  | arn value => exact .pure fun d hd => nomatch hd
  | named used aliasName => exact .pure fun d hd => nomatch hd
  | embedded definition =>
    apply (Registers.embed trivial (h List.mem_cons_self)).map (P := fun _ => True)
    intro _ _ _ _
    rfl

end ApiStack.Compile
