import ApiStack.Decode.Datum
import ApiStack.Decode.Fault

namespace ApiStack.Decode

def greatestDepth : Nat := 128

/-- The site of the parts of a collection. -/
def enter (site : Site) (mark : Yaml.Mark) : Reading Site :=
  if site.depth < greatestDepth then return { site with depth := site.depth + 1 }
  else throw ⟨.tooDeep, .at "." mark⟩

def scalarValue (tag : Option Yaml.Tag) (style : Yaml.Style) (text : String) :
    Except Mismatch Yaml.Scalar :=
  let insist (value : Option Yaml.Scalar) (expected : String) : Except Mismatch Yaml.Scalar :=
    match value with
    | some v => .ok v
    | none => .error (.wrongValue (.text text) expected)
  let resolved : Yaml.Scalar := if style = .plain then .ofPlain text else .text text
  match tag with
  | none => .ok resolved
  | some tag =>
    if tag = .standard "bool" then insist ((Yaml.Scalar.bool? text).map .bool) "a boolean"
    else if tag = .standard "int" then insist (Yaml.Scalar.ofInteger? text) "an integer"
    else if tag = .standard "float" then insist ((Yaml.Scalar.float? text).map .float) "a float"
    else if tag = .standard "null" then
      insist (if Yaml.Scalar.isNullWord text then some .null else none) "null"
    else if tag.isOwn then .ok resolved
    else .ok (.text text)

/-- What the value of a scalar is called where something else is expected. -/
def scalarFound : Yaml.Scalar → Found
  | .null => .unit
  | .bool b => .bool b
  | .unsigned n => .integer (Int.ofNat n)
  | .signed n => .integer n
  | .wide n => .wideInteger n
  | .float x => .float x
  | .text s => .text s

/-- The fault of a reference that is not followed. -/
def unfollowed : Fault := ⟨.tooManySteps, .unknown⟩

def nodeFault (expected : String) : Yaml.Node → Fault
  | .void _ => ⟨.endOfText, .unknown⟩
  | .scalar _ tag style text =>
    match scalarValue tag style text with
    | .ok value => ⟨.wrongType (scalarFound value) expected, .unsettled⟩
    | .error cause => ⟨cause, .unsettled⟩
  | .seq .. => ⟨.wrongType .seq expected, .unsettled⟩
  | .map .. => ⟨.wrongType .map expected, .unsettled⟩
  | .alias .. => unfollowed
  | .outOfReach => unfollowed

def nodeMark : Yaml.Node → Yaml.Mark
  | .void mark => mark
  | .scalar mark .. => mark
  | .seq mark .. => mark
  | .map mark .. => mark
  | .alias mark _ => mark
  | .outOfReach => .start

def nodeTag : Yaml.Node → Option Yaml.Tag
  | .scalar _ tag .. => tag
  | .seq _ tag _ => tag
  | .map _ tag _ => tag
  | _ => none

/-- The name of the variant that the tag of a node selects. -/
def nodeVariant? (node : Yaml.Node) : Option String := (nodeTag node).bind Yaml.Tag.variant?

def takeStep : Reading Unit := do
  match ← get with
  | 0 => throw unfollowed
  | left + 1 => set left

/-- The node itself, or the target of a reference. -/
def followed : Yaml.Node → Reading Yaml.Node
  | .alias _ target => do
    takeStep
    followed (target ())
  | node => return node

/-- Settles the place of a fault at a node. -/
def settling (site : Site) (mark : Yaml.Mark) (r : Reading α) : Reading α :=
  fun steps => (r steps).mapError fun f => f.settle site mark

/-- The text of a scalar, however it is written. -/
def nodeText (expected : String) (site : Site) (node : Yaml.Node) : Reading String := do
  let node ← followed node
  settling site (nodeMark node) <|
    match node with
    | .scalar _ _ _ text => return text
    | node => throw (nodeFault expected node)

def keyStep : Yaml.Node → Step
  | .scalar _ _ _ text => .entry text
  | _ => .unnamed

/-- What a value is read for: to be kept as JSON, or to be interpreted later. -/
inductive Purpose where
  | keep
  | interpret
  deriving DecidableEq

/-- The fault of a variant where values of every other kind are welcome. -/
def Purpose.variantFault : Purpose → Mismatch
  | .keep => .wrongType .variant "any valid JSON value"
  | .interpret => .taggedBuffer

/-- The fault of an integer that fits 128 bits only. -/
def Purpose.wideFault (n : Int) : Purpose → Mismatch
  | .keep => .numberRange
  | .interpret => .wrongType (.wideInteger n) "any value"

def scalarDatum (purpose : Purpose) : Yaml.Scalar → Except Mismatch Datum
  | .null => .ok .null
  | .bool b => .ok (.bool b)
  | .unsigned n => .ok (.unsigned n)
  | .signed n => .ok (.signed n)
  | .wide n => .error (purpose.wideFault n)
  | .float x => .ok (.float x)
  | .text s => .ok (.text s)

def unsettled : Except Mismatch α → Reading α
  | .ok a => return a
  | .error cause => fail cause

mutual

/-- The datum that a node stands for. Keys of values to be kept are texts. -/
def nodeDatum (purpose : Purpose) (site : Site) : Yaml.Node → Reading Datum
  | .void _ => return .null
  | .alias _ target => do
    takeStep
    nodeDatum purpose site (target ())
  | .outOfReach => throw unfollowed
  | .scalar mark tag style text => settling site mark do
    if (tag.bind Yaml.Tag.variant?).isSome then fail purpose.variantFault
    else
      let value ← unsettled (scalarValue tag style text)
      unsettled (scalarDatum purpose value)
  | .seq mark tag items => settling site mark do
    if (tag.bind Yaml.Tag.variant?).isSome then fail purpose.variantFault
    else return .seq (← nodeData purpose (← enter site mark) 0 items)
  | .map mark tag entries => settling site mark do
    if (tag.bind Yaml.Tag.variant?).isSome then fail purpose.variantFault
    else return .map (← nodeEntries purpose (← enter site mark) true entries)
termination_by structural node => node

def nodeData (purpose : Purpose) (site : Site) (index : Nat) :
    List Yaml.Node → Reading (List Datum)
  | [] => return []
  | node :: rest => do
    let datum ← nodeDatum purpose (site.child (.item index)) node
    return datum :: (← nodeData purpose site (index + 1) rest)
termination_by structural items => items

def nodeEntries (purpose : Purpose) (site : Site) (isFirst : Bool) :
    List (Yaml.Node × Yaml.Node) → Reading (List (Datum × Datum))
  | [] => return []
  | (key, value) :: rest => do
    let k ← match purpose with
      | .interpret => nodeDatum purpose site key
      | .keep => Datum.text <$> nodeText (Datum.keyExpectation isFirst) site key
    let v ← nodeDatum purpose (site.child (keyStep key)) value
    return (k, v) :: (← nodeEntries purpose site false rest)
termination_by structural entries => entries

end

inductive Source where
  | node (site : Site) (node : Yaml.Node)
  | datum (d : Datum)

/-- How values of a type are read. -/
abbrev Reader (α : Type) := Source → Reading α

/-- A scalar that counts as an empty collection. -/
def isEmptyCollection : Yaml.Node → Bool
  | .void _ => true
  | .scalar _ _ style text => style = .plain && text = ""
  | _ => false

/-- A scalar that is plain, or a literal block with the tag that asks for its kind. -/
def isBare (tag : Option Yaml.Tag) (style : Yaml.Style) (kind : String) : Bool :=
  style = .plain || (style = .literal && tag = some (.standard kind))

namespace Source

/-- The source itself, or the target of a reference in the same place. -/
def followed : Source → Reading Source
  | node site n => return node site (← Decode.followed n)
  | datum d => return datum d

/-- Faults without a place get that of the source. -/
def settling (s : Source) (r : Reading α) : Reading α :=
  match s with
  | node site n => Decode.settling site (nodeMark n) r
  | datum _ => r

def fault (expected : String) : Source → Fault
  | node _ n => nodeFault expected n
  | datum d => ⟨.wrongType d.found expected, .unsettled⟩

def items? (s : Source) : Option (Reading (List Source)) :=
  match s with
  | datum (.seq items) => some (return items.map datum)
  | datum _ => none
  | node site (.seq mark _ items) => some do
    let site ← enter site mark
    return items.mapIdx fun i item => node (site.child (.item i)) item
  | node _ n => if isEmptyCollection n then some (return []) else none

def entries? (s : Source) : Option (Reading (List (Source × Source))) :=
  match s with
  | datum (.map entries) => some (return entries.map fun (k, v) => (datum k, datum v))
  | datum _ => none
  | node site (.map mark _ entries) => some do
    let site ← enter site mark
    return entries.map fun (k, v) => (node site k, node (site.child (keyStep k)) v)
  | node _ n => if isEmptyCollection n then some (return []) else none

end Source

namespace Reader

/-- The value in a datum. No step is needed to read it. -/
def ofDatum (read : Reader α) (d : Datum) : Except Fault α := (read (.datum d)).run' 0

/-- A reader of values that are no references, as one that follows them. Faults without a place get
that of the value. -/
def following (read : Reader α) : Reader α := fun s => do
  let s ← s.followed
  s.settling (read s)

def text (expected : String) : Reader String
  | .node site n => nodeText expected site n
  | .datum (.text s) => return s
  | .datum d => throw ((Source.datum d).fault expected)

def string : Reader String := text "a string"

def bool : Reader Bool := following fun s =>
  match s with
  | .datum (.bool b) => return b
  | .node _ (.scalar _ tag style text) =>
    match if isBare tag style "bool" then Yaml.Scalar.bool? text else none with
    | some b => return b
    | none => throw (s.fault "a boolean")
  | s => throw (s.fault "a boolean")

def unsigned (bits : Nat) : Reader Nat := following fun s =>
  let name := "u" ++ toString bits
  let fitting (n : Int) : Reading Nat :=
    if 0 ≤ n && n.toNat < Nat.pow 2 bits then return n.toNat
    else fail (.wrongValue (.integer n) name)
  match s with
  | .datum (.unsigned n) => fitting n
  | .datum (.signed n) => fitting n
  | .node _ (.scalar _ tag style text) =>
    match if isBare tag style "int" then Yaml.Scalar.unsigned? text else none with
    | some n => fitting n
    | none => throw (s.fault name)
  | s => throw (s.fault name)

def word : Reader Nat := unsigned 32

def longWord : Reader Nat := unsigned 64

/-- A value of any kind, to be interpreted later. -/
def buffer : Reader Datum
  | .node site n => nodeDatum .interpret site n
  | .datum d => return d

def json : Reader Json
  | .node site n => do unsettled (← nodeDatum .keep site n).toJson
  | .datum d => unsettled d.toJson

/-- The source, which is no reference, is null. -/
def isNull : Reader Bool
  | .datum d => return (d matches .null)
  | .node _ (.void _) => return true
  | .node _ (.scalar _ none .plain text) => return text = "" || Yaml.Scalar.isNullWord text
  | .node _ (.scalar _ (some tag) .plain text) =>
    if tag = .standard "null" then
      if Yaml.Scalar.isNullWord text then return true
      else fail (.wrongValue (.text text) "null")
    else return false
  | .node _ .outOfReach => throw unfollowed
  | .node _ _ => return false

def option (read : Reader α) : Reader (Option α) := fun s => do
  let s ← s.followed
  if ← isNull s then return none else return some (← read s)

def list (read : Reader α) : Reader (List α) := following fun s =>
  match s.items? with
  | some items => do (← items).mapM read
  | none => throw (s.fault "a sequence")

/-- The entries of a map with texts as keys; the last value of a key counts. -/
def map (read : Reader α) : Reader (OrderedMap α) := following fun s =>
  match s.entries? with
  | some entries => do
    (← entries).foldlM (fun m (k, v) => return m.insert (← string k) (← read v)) .empty
  | none => throw (s.fault "a map")

def firstOf (type : String) (readers : List (Reader α)) : Reader α := fun s => do
  let d ← buffer s
  match readers.findSome? fun read => (ofDatum read d).toOption with
  | some a => return a
  | none => fail (.noAlternative type)

end Reader

end ApiStack.Decode
