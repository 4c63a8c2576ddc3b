import ApiStack.Decode.Record
import ApiStack.Proofs.Failure
import ApiStack.Proofs.OrderedMap
import Mathlib.Data.List.Pairwise

namespace ApiStack.Decode

section Reading

variable {α β : Type} {x : Reading α} {f : α → Reading β} {steps left : Nat}

theorem run_reading_of_ok {a : α} (h : x.run steps = .ok (a, left)) :
    (x >>= f).run steps = (f a).run left := by
  rw [StateT.run_bind, h]
  rfl

theorem run_bind_eq_ok {b : β} : (x >>= f).run steps = .ok (b, left) ↔
    ∃ a mid, x.run steps = .ok (a, mid) ∧ (f a).run mid = .ok (b, left) := by
  rw [StateT.run_bind, bind_eq_ok_iff, Prod.exists]

theorem run_pure_eq_ok {a b : α} : (pure a : Reading α).run steps = .ok (b, left) ↔
    a = b ∧ steps = left := by
  rw [StateT.run_pure]
  change Except.ok (a, steps) = .ok (b, left) ↔ _
  rw [Except.ok.injEq, Prod.mk.injEq]

theorem run_throw_ne_ok {fault : Fault} {p : α × Nat} :
    (throw fault : Reading α).run steps ≠ .ok p := nofun

end Reading

namespace Fields

variable {α β : Type}

/-- Fields that are only read among named entries if one of these has a given name. -/
def Asks (f : Fields α) (name : String) : Prop :=
  ∀ known others position a, f.read (.named known others) position = .ok a →
    name ∈ known.map Prod.fst

theorem asks_required (name : String) (read : Reader α) : (required name read).Asks name := by
  intro known others position a h
  cases hl : known.lookup name with
  | some e => exact mem_fst_iff_lookup.2 ⟨e, hl⟩
  | none =>
    rw [required, field] at h
    simp only [hl] at h
    cases h

theorem read_seq {f : Fields (α → β)} {g : Fields α} {access : Access} {position : Nat} {b : β}
    (h : (f <*> g).read access position = .ok b) :
    (∃ k, f.read access position = .ok k) ∧ ∃ a position, g.read access position = .ok a := by
  change (f.both g).read access position = .ok b at h
  simp only [both] at h
  split at h
  · next k a hf hg => exact ⟨⟨k, hf⟩, a, _, hg⟩
  all_goals cases h

theorem Asks.seq_left {f : Fields (α → β)} {name : String} (h : f.Asks name) (g : Fields α) :
    (f <*> g).Asks name := by
  intro known others position b hb
  obtain ⟨⟨k, hf⟩, -⟩ := read_seq hb
  exact h _ _ _ _ hf

theorem Asks.seq_right {g : Fields α} {name : String} (h : g.Asks name) (f : Fields (α → β)) :
    (f <*> g).Asks name := by
  intro known others position b hb
  obtain ⟨-, a, position, hg⟩ := read_seq hb
  exact h _ _ _ _ hg

end Fields

namespace Record

variable {α : Type} {r : Record α} {index steps left : Nat} {done out : Sorted}
  {key value : Datum} {entries : List (Datum × Datum)}

/-- The field that a key names, by its name or by its place in the record. -/
def nameOf? (r : Record α) : Datum → Option String
  | .text name => if r.fields.names.contains name then some name else none
  | .unsigned n => if r.fields.hasParts then none else r.fields.names[n]?
  | _ => none

theorem eq_of_nameOf?_text {s name : String} (h : r.nameOf? (.text s) = some name) : s = name := by
  rw [nameOf?] at h
  split at h
  · exact Option.some.inj h
  · cases h

theorem mem_names_of_nameOf? {name : String} (h : r.nameOf? key = some name) :
    name ∈ r.fields.names := by
  cases key with
  | text s =>
    rw [nameOf?] at h
    split at h
    · next hc => exact Option.some.inj h ▸ List.contains_iff_mem.1 hc
    · cases h
  | unsigned n =>
    rw [nameOf?] at h
    split at h
    · cases h
    · exact List.mem_of_getElem? h
  | _ => cases h

theorem keyName_datum {name : String ⊕ Datum}
    (h : (r.keyName (.datum key)).run steps = .ok (name, left)) :
    r.fieldOf? name = r.nameOf? key ∧ ∀ s, key = .text s → name = .inl s := by
  cases key with
  | text s =>
    obtain ⟨rfl, -⟩ := run_pure_eq_ok.1 h
    exact ⟨rfl, fun _ he => congrArg Sum.inl (Datum.text.inj he)⟩
  | seq items => exact absurd h run_throw_ne_ok
  | map entries => exact absurd h run_throw_ne_ok
  | unsigned n =>
    refine ⟨?_, nofun⟩
    simp only [keyName] at h
    split at h
    · next hp =>
      obtain ⟨rfl, -⟩ := run_pure_eq_ok.1 h
      rw [nameOf?, if_pos hp]
      rfl
    · next hp =>
      rw [nameOf?, if_neg hp]
      split at h
      · next s hs =>
        obtain ⟨rfl, -⟩ := run_pure_eq_ok.1 h
        have hc : r.fields.names.contains s = true :=
          List.contains_iff_mem.2 (List.mem_of_getElem? hs)
        rw [hs, fieldOf?, if_pos hc]
      · next hs =>
        split at h
        · exact absurd h run_throw_ne_ok
        · obtain ⟨rfl, -⟩ := run_pure_eq_ok.1 h
          rw [hs]
          rfl
  | _ =>
    refine ⟨?_, nofun⟩
    simp only [keyName] at h
    split at h
    · obtain ⟨rfl, -⟩ := run_pure_eq_ok.1 h
      rfl
    · exact absurd h run_throw_ne_ok

theorem other_datum {name : String ⊕ Datum} {o : Option (Datum × Datum)}
    (h : (r.other (.datum key) name (.datum value)).run steps = .ok (o, left))
    (hs : r.isStrict = true) (s : String) : name ≠ .inl s := by
  intro hname
  rw [hname] at h
  simp only [other, hs] at h
  exact run_throw_ne_ok h

/-- An entry that fits a record names a field that no entry in front of it names, or none at all,
which a strict record allows for keys that are no names. -/
theorem sortEntry_datum
    (h : (r.sortEntry index done (.datum key) (.datum value)).run steps = .ok (out, left)) :
    (∃ name, r.nameOf? key = some name ∧ name ∉ done.known.map Prod.fst ∧
      out.known.map Prod.fst = done.known.map Prod.fst ++ [name]) ∨
    r.nameOf? key = none ∧ out.known = done.known ∧
      (r.isStrict = true → ∀ s, key ≠ .text s) := by
  rw [sortEntry] at h
  obtain ⟨_, _, hfollowed, h⟩ := run_bind_eq_ok.1 h
  cases hfollowed
  obtain ⟨name, mid, hname, h⟩ := run_bind_eq_ok.1 h
  obtain ⟨hfield, htext⟩ := keyName_datum hname
  rw [hfield] at h
  cases hn : r.nameOf? key with
  | some n =>
    rw [hn] at h
    simp only at h
    split at h
    · exact absurd h run_throw_ne_ok
    · next hnew =>
      cases h
      refine .inl ⟨n, rfl, fun hm => hnew ?_, ?_⟩
      · apply Option.isSome_iff_exists.2 (mem_fst_iff_lookup.1 hm)
      · rw [List.map_append, List.map_singleton]
  | none =>
    rw [hn] at h
    obtain ⟨o, mid', ho, h⟩ := run_bind_eq_ok.1 h
    refine .inr ⟨rfl, ?_, fun hs s he => other_datum ho hs s (htext s he)⟩
    cases o with
    | none =>
      cases h
      rfl
    | some entry =>
      cases h
      rfl

def sources (entries : List (Datum × Datum)) : List (Source × Source) :=
  entries.map fun e => (.datum e.1, .datum e.2)

/-- The fields that the keys of entries name, in order. -/
def named (r : Record α) (entries : List (Datum × Datum)) : List String :=
  entries.filterMap fun e => r.nameOf? e.1

theorem named_cons_of_some {name : String} {v : Datum} (h : r.nameOf? key = some name) :
    r.named ((key, v) :: entries) = name :: r.named entries :=
  List.filterMap_cons_some h

theorem named_cons_of_none {v : Datum} (h : r.nameOf? key = none) :
    r.named ((key, v) :: entries) = r.named entries :=
  List.filterMap_cons_none h

theorem sort_sources (h : (r.sort index done steps (sources entries)).1.fault = none) :
    (r.sort index done steps (sources entries)).1.known.map Prod.fst =
      done.known.map Prod.fst ++ r.named entries ∧
    ((done.known.map Prod.fst).Nodup → (done.known.map Prod.fst ++ r.named entries).Nodup) ∧
    (r.isStrict = true → ∀ s, .text s ∈ entries.map Prod.fst → s ∈ r.named entries) := by
  induction entries generalizing index done steps with
  | nil =>
    rw [named, List.filterMap_nil, List.append_nil]
    exact ⟨rfl, id, nofun⟩
  | cons e rest ih =>
    obtain ⟨key, value⟩ := e
    have hcons : sources ((key, value) :: rest) = (.datum key, .datum value) :: sources rest := rfl
    rw [hcons, sort] at h ⊢
    cases hentry : (r.sortEntry index done (.datum key) (.datum value)).run steps with
    | error f =>
      rw [hentry] at h
      cases h
    | ok p =>
      obtain ⟨out, left⟩ := p
      rw [hentry] at h
      obtain ⟨hknown, hnodup, hstrict⟩ := ih h
      rcases sortEntry_datum hentry with ⟨name, hname, hnew, hout⟩ | ⟨hnone, hout, htext⟩
      · rw [hout, List.append_assoc] at hknown hnodup
        rw [named_cons_of_some hname]
        refine ⟨hknown, fun hd => hnodup ?_, fun hs s hm => ?_⟩
        · apply List.concat_eq_append ▸ hd.concat hnew
        · rcases List.mem_cons.1 hm with heq | hm
          · cases heq
            exact eq_of_nameOf?_text hname ▸ List.mem_cons_self
          · exact List.mem_cons_of_mem _ (hstrict hs s hm)
      · rw [hout] at hknown hnodup
        rw [named_cons_of_none hnone]
        refine ⟨hknown, hnodup, fun hs s hm => ?_⟩
        rcases List.mem_cons.1 hm with heq | hm
        · exact absurd heq.symm (htext hs s)
        · exact hstrict hs s hm

/-- What a record is read from, among data: its fields are read from the entries that name them, no
two entries name one field, and a strict record has a field for every name. -/
structure IsReadFrom (r : Record α) (entries : List (Datum × Datum)) (a : α) : Prop where
  read : ∃ known others, known.map Prod.fst = r.named entries ∧
    r.fields.read (.named known others) 0 = .ok a
  nodup : (r.named entries).Nodup
  strict : r.isStrict = true → ∀ s, .text s ∈ entries.map Prod.fst → s ∈ r.named entries

theorem isReadFrom_of_ofDatum {a : α} (h : Reader.ofDatum r.reader (.map entries) = .ok a) :
    r.IsReadFrom entries a := by
  have hread : Reader.ofDatum r.reader (.map entries) =
      (r.ofEntries (sources entries)).run' 0 := rfl
  rw [hread, StateT.run'_eq, ofEntries] at h
  obtain ⟨⟨_, left⟩, hrun, rfl⟩ := map_eq_ok_iff.1 h
  obtain ⟨_, _, hget, hrun⟩ := run_bind_eq_ok.1 hrun
  cases hget
  obtain ⟨_, _, hset, hrun⟩ := run_bind_eq_ok.1 hrun
  cases hset
  split at hrun
  · next hfault hread =>
    cases hrun
    obtain ⟨hknown, hnodup, hstrict⟩ := sort_sources hfault
    exact ⟨⟨_, _, hknown, hread⟩, hnodup .nil, hstrict⟩
  all_goals exact absurd hrun run_throw_ne_ok

variable {a : α}

theorem IsReadFrom.mem_named {name : String} (h : r.IsReadFrom entries a)
    (hasks : r.fields.Asks name) : name ∈ r.named entries := by
  obtain ⟨known, others, hknown, hread⟩ := h.read
  exact hknown ▸ hasks _ _ _ _ hread

theorem IsReadFrom.mem_names {s : String} (h : r.IsReadFrom entries a) (hs : r.isStrict = true)
    (hm : .text s ∈ entries.map Prod.fst) : s ∈ r.fields.names := by
  obtain ⟨⟨key, value⟩, -, hname⟩ := List.mem_filterMap.1 (h.strict hs s hm)
  exact mem_names_of_nameOf? hname

theorem IsReadFrom.key_unique {k₁ k₂ : Datum} {name : String} (h : r.IsReadFrom entries a)
    (h₁ : k₁ ∈ entries.map Prod.fst) (h₂ : k₂ ∈ entries.map Prod.fst)
    (hn₁ : r.nameOf? k₁ = some name) (hn₂ : r.nameOf? k₂ = some name) : k₁ = k₂ := by
  obtain ⟨e₁, he₁, rfl⟩ := List.mem_map.1 h₁
  obtain ⟨e₂, he₂, rfl⟩ := List.mem_map.1 h₂
  have hsymm : Std.Symm fun e e' : Datum × Datum =>
      ∀ n ∈ r.nameOf? e.1, ∀ n' ∈ r.nameOf? e'.1, n ≠ n' :=
    ⟨fun _ _ hr n hn n' hn' => (hr n' hn' n hn).symm⟩
  by_contra hne
  have hdiffer := (List.pairwise_filterMap.1 h.nodup).forall he₁ he₂ fun he => hne (he ▸ rfl)
  exact hdiffer name hn₁ name hn₂ rfl

end Record

end ApiStack.Decode
