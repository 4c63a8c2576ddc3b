import ApiStack.Yaml.Lexer
import ApiStack.Yaml.Node

namespace ApiStack.Yaml.Grammar

/-- The tokens still to be read, the count of parts read, the number that each anchor has now, the
part that each number stands for, the trees of such parts, and the meanings of tag handles. -/
structure Reading where
  tokens : List Token
  parts : Nat
  anchors : List (String × Nat)
  targets : List (Nat × Nat)
  trees : List (Nat × Tree)
  handles : List (String × Tag)

/-- A parser of tokens. -/
abbrev Parser := StateT Reading Option

def peek : Parser Token := fun r => r.tokens.head?.map fun t => (t, r)

def skip : Parser Unit := modify fun r => { r with tokens := r.tokens.drop 1 }

/-- Counts a part, and gives its number. -/
def countPart : Parser Nat := fun r => some (r.parts, { r with parts := r.parts + 1 })

def emptyScalar (mark : Mark) : Parser Tree := do
  let _ ← countPart
  return .scalar mark none .plain ""

def setPair [DecidableEq κ] (key : κ) (value : α) (pairs : List (κ × α)) : List (κ × α) :=
  (key, value) :: pairs.filter fun pair => pair.1 ≠ key

/-- Gives an anchor, if there is one, a number of its own: the count of anchors so far. The number
stands for the part with the given number from now on. -/
def register (anchor : Option String) (part : Nat) : Parser Unit :=
  match anchor with
  | none => pure ()
  | some name => modify fun r =>
    let number := r.anchors.length
    { r with anchors := setPair name number r.anchors, targets := setPair number part r.targets }

def keep (anchor : Option String) (part : Nat) (tree : Tree) : Parser Tree :=
  match anchor with
  | none => pure tree
  | some _ => fun r => some (tree, { r with trees := (part, tree) :: r.trees })

def anchor? : Parser (Option String) := do
  match (← peek).kind with
  | .anchor name => skip; return some name
  | _ => return none

/-- The tag right here, if there is one. Its handle has to have a meaning. -/
def tag? : Parser (Option Tag) := do
  match (← peek).kind with
  | .tag handle suffix =>
    skip
    if handle = "" then return some suffix
    else
      match (← get).handles.lookup handle with
      | some start => return some (start ++ suffix)
      | none => failure
  | _ => return none

/-- The anchor and tag of a node, in either order. -/
def properties : Parser (Option String × Option Tag) := do
  match ← anchor? with
  | some name => return (some name, ← tag?)
  | none =>
    match ← tag? with
    | none => return (none, none)
    | some tag => return (← anchor?, some tag)

/-- The tokens in front of which an entry of a block sequence is empty. -/
def endsBlockItem (kind : TokenKind) : Bool := kind = .blockEntry || kind = .blockEnd

/-- The tokens in front of which a key or value of a block mapping is empty. -/
def endsBlockPart (kind : TokenKind) : Bool := kind = .key || kind = .value || kind = .blockEnd

mutual

/-- A node. Block collections may be refused, and a sequence may be without indentation. -/
def node (fuel : Nat) (inBlock indentless : Bool) : Parser Tree := do
  match fuel with
  | 0 => failure
  | fuel + 1 =>
    let first ← peek
    match first.kind with
    | .alias name =>
      skip
      let _ ← countPart
      match (← get).anchors.lookup name with
      | some number => return .alias first.start number
      | none => failure
    | _ =>
      let (anchor, tag) ← properties
      let token ← peek
      let part ← countPart
      register anchor part
      -- the end of a collection is a part too
      let collection (tree : Tree) : Parser Tree := do
        let _ ← countPart
        keep anchor part tree
      match token.kind with
      | .scalar text style =>
        skip
        keep anchor part (.scalar first.start tag style text)
      | .blockEntry =>
        if indentless then
          collection (.seq first.start tag (← indentlessItems fuel))
        else empty first anchor tag part
      | .flowSequenceStart =>
        skip
        collection (.seq first.start tag (← flowItems fuel true))
      | .flowMappingStart =>
        skip
        collection (.map first.start tag (← flowEntries fuel true))
      | .blockSequenceStart =>
        if inBlock then
          skip
          collection (.seq first.start tag (← blockItems fuel))
        else empty first anchor tag part
      | .blockMappingStart =>
        if inBlock then
          skip
          collection (.map first.start tag (← blockEntries fuel))
        else empty first anchor tag part
      | _ => empty first anchor tag part
where
  /-- An empty scalar, which needs an anchor or tag to be seen. -/
  empty (first : Token) (anchor : Option String) (tag : Option Tag) (part : Nat) : Parser Tree :=
    if anchor.isSome || tag.isSome then keep anchor part (.scalar first.start tag .plain "")
    else failure

def blockItems (fuel : Nat) : Parser (List Tree) := do
  match fuel with
  | 0 => failure
  | fuel + 1 =>
    let token ← peek
    match token.kind with
    | .blockEntry =>
      skip
      let item ← if endsBlockItem (← peek).kind then emptyScalar token.stop
        else node fuel true false
      return item :: (← blockItems fuel)
    | .blockEnd => skip; return []
    | _ => failure

def indentlessItems (fuel : Nat) : Parser (List Tree) := do
  match fuel with
  | 0 => failure
  | fuel + 1 =>
    let token ← peek
    match token.kind with
    | .blockEntry =>
      skip
      let next := (← peek).kind
      let item ← if endsBlockItem next || endsBlockPart next then emptyScalar token.stop
        else node fuel true false
      return item :: (← indentlessItems fuel)
    | _ => return []

def blockEntries (fuel : Nat) : Parser (List (Tree × Tree)) := do
  match fuel with
  | 0 => failure
  | fuel + 1 =>
    let token ← peek
    match token.kind with
    | .key =>
      skip
      let key ← if endsBlockPart (← peek).kind then emptyScalar token.stop else node fuel true true
      let value ← blockValue fuel
      return (key, value) :: (← blockEntries fuel)
    | .blockEnd => skip; return []
    | _ => failure

def blockValue (fuel : Nat) : Parser Tree := do
  match fuel with
  | 0 => failure
  | fuel + 1 =>
    let token ← peek
    match token.kind with
    | .value =>
      skip
      if endsBlockPart (← peek).kind then emptyScalar token.stop else node fuel true true
    | _ => emptyScalar token.start

/-- The entries of a sequence in brackets up to its end. -/
def flowItems (fuel : Nat) (isFirst : Bool) : Parser (List Tree) := do
  match fuel with
  | 0 => failure
  | fuel + 1 =>
    if (← peek).kind = .flowSequenceEnd then
      skip
      return []
    else
      if !isFirst then
        if (← peek).kind = .flowEntry then skip else failure
      let token ← peek
      match token.kind with
      | .flowSequenceEnd => skip; return []
      | .key =>
        skip
        let _ ← countPart
        let entry ← flowPair fuel
        let _ ← countPart
        return .map token.start none [entry] :: (← flowItems fuel false)
      | _ =>
        let item ← node fuel false false
        return item :: (← flowItems fuel false)

/-- A key with its value as an entry of a sequence in brackets. -/
def flowPair (fuel : Nat) : Parser (Tree × Tree) := do
  match fuel with
  | 0 => failure
  | fuel + 1 =>
    let token ← peek
    let ends (kind : TokenKind) : Bool := kind = .flowEntry || kind = .flowSequenceEnd
    let key ← if token.kind = .value || ends token.kind then
        skip
        emptyScalar token.stop
      else node fuel false false
    if (← peek).kind = .value then
      skip
      if !ends (← peek).kind then return (key, ← node fuel false false)
    return (key, ← emptyScalar (← peek).start)

def flowEntries (fuel : Nat) (isFirst : Bool) : Parser (List (Tree × Tree)) := do
  match fuel with
  | 0 => failure
  | fuel + 1 =>
    if (← peek).kind = .flowMappingEnd then
      skip
      return []
    else
      if !isFirst then
        if (← peek).kind = .flowEntry then skip else failure
      let token ← peek
      let ends (kind : TokenKind) : Bool := kind = .flowEntry || kind = .flowMappingEnd
      match token.kind with
      | .flowMappingEnd => skip; return []
      | .key =>
        skip
        let next ← peek
        let key ← if next.kind = .value || ends next.kind then emptyScalar next.start
          else node fuel false false
        let value ← flowValue fuel
        return (key, value) :: (← flowEntries fuel false)
      | _ =>
        let key ← node fuel false false
        let value ← emptyScalar (← peek).start
        return (key, value) :: (← flowEntries fuel false)

def flowValue (fuel : Nat) : Parser Tree := do
  match fuel with
  | 0 => failure
  | fuel + 1 =>
    if (← peek).kind = .value then
      skip
      let next := (← peek).kind
      if !(next = .flowEntry || next = .flowMappingEnd) then return ← node fuel false false
    emptyScalar (← peek).start

end

/-- The handles that have a meaning in every document. -/
def standardHandles : List (String × Tag) := [("!", .ofString "!"), ("!!", .standard "")]

/-- The directives of a document; versions 1.1 and 1.2 are read, and nothing is given twice. -/
def directives (fuel : Nat) (hasVersion : Bool) (handles : List (String × Tag)) :
    Parser (List (String × Tag)) := do
  match fuel with
  | 0 => failure
  | fuel + 1 =>
    match (← peek).kind with
    | .version major minor =>
      if hasVersion || major ≠ 1 || !(minor = 1 || minor = 2) then failure
      skip
      directives fuel true handles
    | .tagDirective handle start =>
      if handles.any (·.1 = handle) then failure
      skip
      directives fuel hasVersion (handles ++ [(handle, start)])
    | _ => return handles ++ standardHandles

/-- The tokens with which a document may be over before it has a node. -/
def endsDocument : TokenKind → Bool
  | .version .. => true
  | .tagDirective .. => true
  | .documentStart => true
  | .documentEnd => true
  | .streamEnd => true
  | _ => false

/-- The root of the first document, or the place where a text without documents ends. -/
def root (fuel : Nat) : Parser (Tree ⊕ Mark) := do
  let token ← peek
  match token.kind with
  | .streamEnd => return .inr token.start
  | kind =>
    if endsDocument kind && kind ≠ .documentEnd then
      let handles ← directives fuel false []
      modify fun r => { r with handles }
      if (← peek).kind ≠ .documentStart then failure
      skip
      let next ← peek
      if endsDocument next.kind then return .inl (← emptyScalar next.start)
    return .inl (← node fuel true false)

def document (fuel : Nat) : Parser Document := do
  let root ← root fuel
  if (← peek).kind = .documentEnd then skip
  let r ← get
  let behind := r.tokens.dropWhile fun token => token.kind = .documentEnd
  let anchored := r.targets.filterMap fun (number, part) =>
    (r.trees.lookup part).map fun tree => (number, tree)
  return ⟨root, r.parts, anchored, behind.head?.map Token.kind ≠ some .streamEnd⟩

end Grammar

/-- The first document of a text, if the text can be read that far. -/
def read? (cs : List Char) : Option Document :=
  let tokens := tokens cs
  (Grammar.document (4 * tokens.length + 8) ⟨tokens, 0, [], [], [], Grammar.standardHandles⟩).map
    Prod.fst

end ApiStack.Yaml
