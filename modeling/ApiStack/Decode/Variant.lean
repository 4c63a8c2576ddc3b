import ApiStack.Decode.Source

namespace ApiStack.Decode

/-- An enumeration: its values in order, each with its names. -/
abbrev Variants (κ : Type) := List (List String × κ)

namespace Variants

def names (vs : Variants κ) : List String := vs.flatMap Prod.fst

def named (vs : Variants κ) (name : String) : Reading κ :=
  match vs.find? fun v => v.1.contains name with
  | some v => return v.2
  | none => fail (.unknownVariant name vs.names)

/-- The value that a datum selects as the key of a map. -/
def ofKey (vs : Variants κ) : Datum → Reading κ
  | .text name => vs.named name
  | .unsigned n =>
    match vs[n]? with
    | some v => return v.2
    | none =>
      fail (.wrongValue (.integer (Int.ofNat n)) ("variant index 0 <= i < " ++ toString vs.length))
  | d => throw ((Source.datum d).fault "variant identifier")

/-- The value that a datum selects: its name, or a map from the name to null. -/
def ofDatum (vs : Variants κ) : Datum → Reading κ
  | .text name => vs.named name
  | .map [(key, content)] => do
    let k ← vs.ofKey key
    if content matches .null then return k
    else throw ((Source.datum content).fault "unit variant")
  | .map _ => fail (.wrongValue .map "map with a single key")
  | d => throw ((Source.datum d).fault "string or map")

/-- What stands behind a tag has to be nothing, or null. -/
def noContent (site : Site) (node : Yaml.Node) : Reading Unit :=
  settling site (nodeMark node) <|
    match node with
    | .void _ => return ()
    | .scalar _ _ style text =>
      if style = .plain && (text = "" || Yaml.Scalar.isNullWord text) then return ()
      else fail (.wrongValue (.text text) "null")
    | n => throw (nodeFault "unit" n)

/-- What a collection without a tag should have been. -/
def tagExpectation : String := "a YAML tag starting with '!'"

/-- The value that a node selects, by its tag or by its text. The fault of a tag has the place of a
reference to the node, if there is one. -/
def ofNode (vs : Variants κ) (site : Site) (node : Yaml.Node) : Reading κ := do
  let target ← followed node
  match nodeVariant? target with
  | some name =>
    let selected := do
      let k ← vs.named name
      noContent site target
      return k
    match node with
    | .alias mark _ => settling site mark selected
    | _ => selected
  | none =>
    settling site (nodeMark target) <|
      match target with
      | .scalar _ _ _ text => vs.named text
      | n => throw (nodeFault tagExpectation n)

end Variants

namespace Reader

def variant (vs : Variants κ) : Reader κ
  | .node site n => vs.ofNode site n
  | .datum d => vs.ofDatum d

/-- How far a union is read: nothing yet, its alternative, its content, or all of it. -/
inductive UnionState (κ α : Type) where
  | nothing
  | tagged (k : κ)
  | held (d : Datum)
  | done (a : α)

/-- A union in a map: one entry names the alternative, one holds its content, and others do not
matter. Content that stands first is kept until the alternative is known. -/
def unionFrom (tag content : String) (readTag : Reader κ) (absent : κ → Reading α)
    (read : κ → Reader α) : UnionState κ α → List (Source × Source) → Reading α
  | .nothing, [] => fail (.missingField tag)
  | .tagged k, [] => absent k
  | .held _, [] => fail (.missingField tag)
  | .done a, [] => return a
  | state, (key, value) :: rest => do
    let names := Text.quoted tag ++ ", " ++ Text.quoted content ++ ", or other ignored fields"
    let name ← text names key
    if name = tag then
      match state with
      | .nothing => unionFrom tag content readTag absent read (.tagged (← readTag value)) rest
      | .held d =>
        let k ← readTag value
        unionFrom tag content readTag absent read (.done (← read k (.datum d))) rest
      | _ => fail (.repeatedField tag)
    else if name = content then
      match state with
      | .nothing => unionFrom tag content readTag absent read (.held (← buffer value)) rest
      | .tagged k => unionFrom tag content readTag absent read (.done (← read k value)) rest
      | _ => fail (.repeatedField content)
    else unionFrom tag content readTag absent read state rest

def union (type tag content : String) (readTag : Reader κ) (absent : κ → Reading α)
    (read : κ → Reader α) : Reader α := following fun s =>
  match s.entries? with
  | some entries => do unionFrom tag content readTag absent read .nothing (← entries)
  | none => throw (s.fault ("adjacently tagged enum " ++ type))

/-- A node is null, with or without a tag that says so. -/
def isUnitNode : Yaml.Node → Bool
  | .void _ => true
  | .scalar _ tag style text => (scalarValue tag style text matches .ok .null)
  | _ => false

/-- Nothing, or null, as the content of an alternative that has none. -/
def unit (expected : String) : Reader Unit := following fun s =>
  match s with
  | .datum .null => return ()
  | .datum _ => throw (s.fault expected)
  | .node _ n =>
    if (nodeVariant? n).isSome then fail (.wrongType .variant expected)
    else if isUnitNode n then return ()
    else throw (s.fault expected)

end Reader

end ApiStack.Decode
