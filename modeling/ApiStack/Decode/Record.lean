import ApiStack.Decode.Source

namespace ApiStack.Decode

/-- When a fault comes to light: at an entry, at the end of the entries, or in a part that is spread
over the record. -/
inductive Turn where
  | entry (index : Nat)
  | atEnd
  | inPart
  deriving DecidableEq

def Turn.before : Turn → Turn → Bool
  | .entry i, .entry j => i < j
  | .entry _, _ => true
  | .atEnd, .inPart => true
  | _, _ => false

/-- The entry of a field: its index, its value, and how often references may still be followed in
front of it. -/
structure Entry where
  index : Nat
  value : Source
  steps : Nat

/-- What the fields of a record are read from: entries by name, beside the entries without a field;
or items in the order of the fields, beside the words for the record. -/
inductive Access where
  | named (entries : List (String × Entry)) (others : List (Datum × Datum))
  | positional (items : List Source) (shape : String)

/-- A value read, or a fault and its turn. -/
abbrev Turned := Except (Turn × Fault)

/-- The fields of a record with the given names. Reading them starts at some position. What is left
of the steps behind the value of a field is known by its name. -/
structure Fields (α : Type) where
  names : List String
  hasParts : Bool
  read : Access → Nat → Turned α
  stepsBehind : String → Source → Nat → Nat

namespace Fields

def nothing (a : α) : Fields α := ⟨[], false, fun _ _ => .ok a, fun _ _ steps => steps⟩

/-- Some fields and then others; of two faults the one whose turn is first counts. -/
def both (f : Fields (α → β)) (g : Fields α) : Fields β :=
  ⟨f.names ++ g.names, f.hasParts || g.hasParts,
    fun access position =>
      match f.read access position, g.read access (position + f.names.length) with
      | .ok h, .ok a => .ok (h a)
      | .error e, .ok _ => .error e
      | .ok _, .error e => .error e
      | .error e, .error e' => .error (if e'.1.before e.1 then e' else e),
    fun name => (if f.names.contains name then f.stepsBehind else g.stepsBehind) name⟩

instance : Applicative Fields where
  pure := nothing
  seq f g := both f (g ())

/-- A field with a given treatment of its absence among named entries and among items. -/
def field (name : String) (read : Reader α) (unnamed : Turned α) (unplaced : Option α) :
    Fields α :=
  ⟨[name], false,
    fun access position =>
      match access with
      | .named entries _ =>
        match entries.lookup name with
        | some e => ((read e.value).run' e.steps).mapError fun f => (.entry e.index, f)
        | none => unnamed
      | .positional items shape =>
        match items[position]?, unplaced with
        | some s, _ => ((read s).run' 0).mapError fun f => (.entry position, f)
        | none, some a => .ok a
        | none, none => .error (.entry position, ⟨.tooFew position shape, .unsettled⟩),
    fun _ value steps =>
      match (read value).run steps with
      | .ok (_, left) => left
      | .error _ => 0⟩

def required (name : String) (read : Reader α) : Fields α :=
  field name read (.error (.atEnd, ⟨.missingField name, .unsettled⟩)) none

/-- A field that may be left out or null. -/
def optional (name : String) (read : Reader α) : Fields (Option α) :=
  field name (Reader.option read) (.ok none) none

/-- A field that may be left out for some value. -/
def defaulting (name : String) (read : Reader α) (value : α) : Fields α :=
  field name read (.ok value) (some value)

end Fields

/-- The entries of a record as far as they fit it: those of its fields, those of no field, and the
first fault with its index. -/
structure Sorted where
  known : List (String × Entry)
  others : List (Datum × Datum)
  fault : Option (Nat × Fault)

/-- A record: its name, whether it refuses other fields than its own, its fields, and whether these
may stand without their names in a sequence, as they may unless parts are spread over the record. -/
structure Record (α : Type) where
  name : String
  isStrict : Bool
  fields : Fields α
  isPositional : Bool := !fields.hasParts

namespace Record

def expected (r : Record α) : String := "struct " ++ r.name

/-- What is said of keys that are no names. -/
def keyExpectation : String := "field identifier"

/-- The name of a key, or the datum that a key is instead. -/
def keyName (r : Record α) : Source → Reading (String ⊕ Datum)
  | .node site n => .inl <$> nodeText keyExpectation site n
  | .datum (.text name) => return .inl name
  | .datum (.seq items) => throw ((Source.datum (.seq items)).fault keyExpectation)
  | .datum (.map entries) => throw ((Source.datum (.map entries)).fault keyExpectation)
  | .datum d =>
    if r.fields.hasParts then return .inr d
    else
      match d with
      | .unsigned n =>
        match r.fields.names[n]? with
        | some name => return .inl name
        | none =>
          if r.isStrict then
            fail (.wrongValue (.integer (Int.ofNat n))
              ("field index 0 <= i < " ++ toString r.fields.names.length))
          else return .inr d
      | d => throw ((Source.datum d).fault keyExpectation)

def fieldOf? (r : Record α) : String ⊕ Datum → Option String
  | .inl name => if r.fields.names.contains name then some name else none
  | .inr _ => none

/-- An entry of no field: refused by a strict record, and kept for parts. Otherwise its value is
passed over, and no reference in it followed. -/
def other (r : Record α) (key : Source) (name : String ⊕ Datum) (value : Source) :
    Reading (Option (Datum × Datum)) :=
  match r.isStrict, name with
  | true, .inl name => key.settling (fail (.unknownField name r.fields.names))
  | _, _ =>
    if r.fields.hasParts then do
      let k := match name with
        | .inl name => Datum.text name
        | .inr d => d
      return some (k, ← Reader.buffer value)
    else return none

def sortEntry (r : Record α) (index : Nat) (done : Sorted) (key value : Source) :
    Reading Sorted := do
  let key ← key.followed
  let name ← r.keyName key
  match r.fieldOf? name with
  | some n =>
    if (done.known.lookup n).isSome then fail (.repeatedField n)
    else
      let steps ← get
      set (r.fields.stepsBehind n value steps)
      return { done with known := done.known ++ [(n, ⟨index, value, steps⟩)] }
  | none =>
    match ← r.other key name value with
    | none => return done
    | some entry => return { done with others := done.others ++ [entry] }

/-- The sorted entries with those from an index on, up to the first that does not fit. The steps
that are left behind them come with them. -/
def sort (r : Record α) (index : Nat) (done : Sorted) (steps : Nat) :
    List (Source × Source) → Sorted × Nat
  | [] => (done, steps)
  | (key, value) :: rest =>
    match (r.sortEntry index done key value).run steps with
    | .ok (done, steps) => r.sort (index + 1) done steps rest
    | .error f => ({ done with fault := some (index, f) }, steps)

def ofEntries (r : Record α) (entries : List (Source × Source)) : Reading α := do
  let (sorted, steps) := r.sort 0 ⟨[], [], none⟩ (← get) entries
  set steps
  match sorted.fault, r.fields.read (.named sorted.known sorted.others) 0 with
  | none, .ok a => return a
  | none, .error (_, f) => throw f
  | some (_, f), .ok _ => throw f
  | some (i, f), .error (turn, f') => throw (if turn.before (.entry i) then f' else f)

def ofItems (r : Record α) (items : List Source) : Reading α :=
  let count := r.fields.names.length
  match r.fields.read (.positional items (r.expected ++ " with " ++ elements count)) 0 with
  | .error (_, f) => throw f
  | .ok a => if count < items.length then fail (.tooMany items.length count) else return a

/-- Data may hold a positional record as a sequence. -/
def items? (r : Record α) : Source → Option (List Source)
  | .datum (.seq items) => if r.isPositional then some (items.map Source.datum) else none
  | _ => none

def reader (r : Record α) : Reader α := Reader.following fun s =>
  match r.items? s with
  | some items => r.ofItems items
  | none =>
    match s.entries? with
    | some entries => do r.ofEntries (← entries)
    | none => throw (s.fault r.expected)

/-- The entries that belong to a record, among entries of no field of another. -/
def entriesOf (r : Record α) (others : List (Datum × Datum)) : List (Source × Source) :=
  others.filterMap fun (k, v) =>
    match k with
    | .text name => if r.fields.names.contains name then some (.datum k, .datum v) else none
    | _ => none

def spread (r : Record α) : Fields α :=
  ⟨[], true,
    fun access _ =>
      let entries := match access with
        | .named _ others => r.entriesOf others
        | .positional .. => []
      ((r.ofEntries entries).run' 0).mapError fun f => (.inPart, f),
    fun _ _ steps => steps⟩

end Record

end ApiStack.Decode
