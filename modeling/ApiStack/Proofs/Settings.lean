import ApiStack.Settings
import ApiStack.Proofs.Decode.Record
import ApiStack.Proofs.Json.Excerpt

namespace ApiStack.Settings

open Decode

/-- A value is read from a datum, and no step is needed. -/
def ReadsFrom (read : Reader α) (d : Datum) (a : α) : Prop :=
  ∀ steps, (read (.datum d)).run steps = .ok (a, steps)

theorem readsFrom_option {read : Reader α} {f : α → Json} {a? : Option α}
    (hnull : ∀ a, (Datum.ofJson (f a) matches .null) = false)
    (h : ∀ a ∈ a?, ReadsFrom read (.ofJson (f a)) a) :
    ReadsFrom (.option read) (.ofJson (.ofOption f a?)) a? := by
  intro steps
  cases a? with
  | none => rfl
  | some a =>
    have hisNull : (Reader.isNull (.datum (.ofJson (f a)))).run steps = .ok (false, steps) :=
      congrArg (fun b => Except.ok (b, steps)) (hnull a)
    rw [Reader.option, run_reading_of_ok rfl, Json.ofOption, run_reading_of_ok hisNull,
      if_neg Bool.false_ne_true, run_reading_of_ok (h a rfl steps)]
    rfl

theorem readsFrom_format (f : Format) :
    ReadsFrom (.variant (Format.all.map fun f => ([f.name], f))) (.text f.name) f := by
  cases f <;> exact fun _ => rfl

theorem readsFrom_word {n : Nat} (h : n < Nat.pow 2 32) : ReadsFrom .word (.unsigned n) n := by
  intro steps
  have hfit : ((0 : Int) ≤ Int.ofNat n && (Int.ofNat n).toNat < Nat.pow 2 32) = true := by
    simpa using h
  show ((if (0 : Int) ≤ Int.ofNat n && (Int.ofNat n).toNat < Nat.pow 2 32
    then pure (Int.ofNat n).toNat
    else fail (.wrongValue (.integer (Int.ofNat n)) ("u" ++ toString 32)) : Reading Nat)).run steps = _
  rw [if_pos hfit]
  rfl

theorem readsFrom_path (p : Path) :
    ReadsFrom (fun s => Path.mk <$> Reader.string s) (.text p.text) p := fun _ => rfl

section Fields

variable {known : List (String × Entry)} {others : List (Datum × Datum)}

theorem read_defaulting {name : String} {read : Reader α} {default a : α} {d : Datum}
    {index steps : Nat} (hl : known.lookup name = some ⟨index, .datum d, steps⟩)
    (h : ReadsFrom read d a) (position : Nat) :
    (Fields.defaulting name read default).read (.named known others) position = .ok a := by
  have hread : read (.datum d) steps = .ok (a, steps) := h steps
  simp only [Fields.defaulting, Fields.field, hl, StateT.run', hread]
  rfl

theorem read_both {f : Fields (α → β)} {g : Fields α} {h : α → β} {a : α} {position : Nat}
    (hf : f.read (.named known others) position = .ok h)
    (hg : ∀ position, g.read (.named known others) position = .ok a) :
    (f.both g).read (.named known others) position = .ok (h a) := by
  simp only [Fields.both, hf, hg]

theorem run'_ofEntries {r : Record α} {entries : List (Source × Source)} {steps left : Nat} {a : α}
    (hsort : r.sort 0 ⟨[], [], none⟩ steps entries = (⟨known, others, none⟩, left))
    (hread : r.fields.read (.named known others) 0 = .ok a) :
    (r.ofEntries entries).run' steps = .ok a := by
  have hget : (get : Reading Nat).run steps = .ok (steps, steps) := rfl
  have hset : (set left : Reading PUnit).run steps = .ok (⟨⟩, left) := rfl
  rw [Record.ofEntries, StateT.run'_eq, run_reading_of_ok hget]
  simp only [hsort]
  rw [run_reading_of_ok hset]
  simp only [hread]
  rfl

theorem record_fields : record.fields =
    (((Fields.nothing mk).both
      (.defaulting "format" (.option (.variant (Format.all.map fun f => ([f.name], f)))) none)).both
      (.defaulting "logRetentionInDays" (.option .word) none)).both
      (.defaulting "servicePath" (.option fun s => Path.mk <$> Reader.string s) none) := rfl

theorem ofDatum_record {format logRetention servicePath : Datum} {s : Settings}
    (hformat : ReadsFrom (.option (.variant (Format.all.map fun f => ([f.name], f)))) format
      s.format)
    (hretention : ReadsFrom (.option .word) logRetention s.logRetention)
    (hpath : ReadsFrom (.option fun s => Path.mk <$> Reader.string s) servicePath
      s.servicePath) :
    Reader.ofDatum record.reader (.map [(.text "format", format),
      (.text "logRetentionInDays", logRetention), (.text "servicePath", servicePath)]) = .ok s := by
  obtain ⟨first, second, third, left, hsort⟩ : ∃ first second third left,
      record.sort 0 ⟨[], [], none⟩ 0
        [(.datum (.text "format"), .datum format),
          (.datum (.text "logRetentionInDays"), .datum logRetention),
          (.datum (.text "servicePath"), .datum servicePath)] =
      (⟨[("format", ⟨0, .datum format, first⟩),
        ("logRetentionInDays", ⟨1, .datum logRetention, second⟩),
        ("servicePath", ⟨2, .datum servicePath, third⟩)], [], none⟩, left) :=
    ⟨_, _, _, _, rfl⟩
  have hread : record.fields.read (.named
      [("format", ⟨0, .datum format, first⟩),
        ("logRetentionInDays", ⟨1, .datum logRetention, second⟩),
        ("servicePath", ⟨2, .datum servicePath, third⟩)] []) 0 = .ok s := by
    rw [record_fields]
    exact read_both (h := mk s.format s.logRetention)
      (read_both (h := mk s.format) (read_both (h := mk) rfl (read_defaulting rfl hformat))
        (read_defaulting rfl hretention)) (read_defaulting rfl hpath)
  exact run'_ofEntries hsort hread

end Fields

theorem ofDatum_toJson {s : Settings} (h : ∀ n ∈ s.logRetention, n < Nat.pow 2 32) :
    Reader.ofDatum record.reader (.ofJson s.toJson) = .ok s := by
  have hformat : ReadsFrom (.option (.variant (Format.all.map fun f => ([f.name], f))))
      (.ofJson (.ofOption (fun f => .str f.name) s.format)) s.format :=
    readsFrom_option (fun _ => rfl) fun f _ => readsFrom_format f
  have hretention : ReadsFrom (.option .word) (.ofJson (.ofOption .nat s.logRetention))
      s.logRetention :=
    readsFrom_option (fun _ => rfl) fun n hn => readsFrom_word (h n hn)
  have hpath : ReadsFrom (.option fun s => Path.mk <$> Reader.string s)
      (.ofJson (.ofOption (fun p => .str p.text) s.servicePath)) s.servicePath :=
    readsFrom_option (fun _ => rfl) fun p _ => readsFrom_path p
  exact ofDatum_record hformat hretention hpath

theorem areScalars_toJson {s : Settings} (h : ∀ n ∈ s.logRetention, n < Nat.pow 2 32) :
    Json.AreScalars record.fields.names
      [("format", .ofOption (fun f => .str f.name) s.format),
        ("logRetentionInDays", .ofOption .nat s.logRetention),
        ("servicePath", .ofOption (fun p => .str p.text) s.servicePath)] := by
  have hchoice {α : Type} {f : α → Json} {a? : Option α} (hf : ∀ a ∈ a?, Json.IsScalar (f a)) :
      Json.IsScalar (.ofOption f a?) := by
    cases a? with
    | none => exact .null
    | some a => exact hf a rfl
  have hnames : record.fields.names = ["format", "logRetentionInDays", "servicePath"] := rfl
  rw [hnames]
  intro e he
  simp only [List.mem_cons, List.not_mem_nil, or_false] at he
  rcases he with rfl | rfl | rfl
  · exact ⟨by simp, hchoice fun _ _ => .str _⟩
  · refine ⟨by simp, hchoice fun n hn => .int ?_ ?_⟩
    · rw [Int.ofNat_eq_natCast]
      omega
    · have hword : Nat.pow 2 32 ≤ Json.greatestWord := by decide
      have hn := h n hn
      rw [Int.ofNat_eq_natCast]
      omega
  · exact ⟨by simp, hchoice fun _ _ => .str _⟩

theorem read?_indented {s : Settings} (h : ∀ n ∈ s.logRetention, n < Nat.pow 2 32) :
    read? s.toJson.indented = some s := by
  rw [read?, toJson, Json.excerpt?_indented (areScalars_toJson h), ← toJson]
  simp only [bind, Option.bind, ofDatum_toJson h]
  rfl

/-- No settings are in a text that starts with a letter no value starts with. -/
theorem read?_eq_none {text : String} {cs : List Char} (h : text.toList = 'r' :: cs) :
    read? text = none := by
  have hvalue (fuel : Nat) : Json.readValue (fuel + 1) ('r' :: cs) = none := by
    rw [Json.readValue, Json.skipBlanks_cons rfl]
    rfl
  have hexcerpt : Json.excerpt? record.fields.names text = none := by
    rw [Json.excerpt?, h, Json.skipBlanks_cons rfl]
    split
    · next heq => cases (hvalue (2 * ('r' :: cs).length + 1)).symm.trans heq
    · rfl
  rw [read?, hexcerpt]
  rfl

end ApiStack.Settings
