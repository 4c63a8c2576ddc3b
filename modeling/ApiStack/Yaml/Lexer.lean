import ApiStack.Yaml.ScalarText

namespace ApiStack.Yaml

/-- What may turn out to be a key: the number of its token, where it starts, and whether nothing
else can stand there. -/
structure PossibleKey where
  token : Nat
  mark : Mark
  required : Bool
  deriving Inhabited

/-- A text that is read into tokens. The newest token stands first; `keys` has one place for each
level of brackets, the innermost first. -/
structure Lexer where
  cursor : Cursor
  flowLevel : Nat
  indent : Int
  outerIndents : List Int
  keyAllowed : Bool
  keys : List (Option PossibleKey)
  tokens : List Token
  count : Nat
  deriving Inhabited

namespace Lexer

def start (text : List Char) : Lexer :=
  ⟨⟨text, Mark.start⟩, 0, -1, [], true, [none], [], 0⟩

def push (l : Lexer) (kind : TokenKind) (start stop : Mark) : Lexer :=
  { l with tokens := ⟨kind, start, stop⟩ :: l.tokens, count := l.count + 1 }

def insertAt (l : Lexer) (n : Nat) (kind : TokenKind) (mark : Mark) : Lexer :=
  let later := l.tokens.take (l.count - n)
  let earlier := l.tokens.drop (l.count - n)
  { l with tokens := later ++ ⟨kind, mark, mark⟩ :: earlier, count := l.count + 1 }

/-- Closes the blocks that are indented further than a column. -/
def unroll (column : Int) (l : Lexer) : List Int → Lexer
  | [] => l
  | outer :: rest =>
    if column < l.indent then
      unroll column
        { l.push .blockEnd l.cursor.mark l.cursor.mark with indent := outer, outerIndents := rest }
        rest
    else l

/-- Closes the blocks that are indented further than a column, unless in brackets. -/
def closeBlocks (l : Lexer) (column : Int) : Lexer :=
  if l.flowLevel = 0 then unroll column l l.outerIndents else l

/-- Opens a block at a column, if it is indented further than the current one; its token is the
`n`-th, if that is given. -/
def openBlock (l : Lexer) (column : Nat) (n : Option Nat) (kind : TokenKind) (mark : Mark) :
    Lexer :=
  if l.flowLevel = 0 && l.indent < Int.ofNat column then
    let l := { l with indent := Int.ofNat column, outerIndents := l.indent :: l.outerIndents }
    match n with
    | some n => l.insertAt n kind mark
    | none => l.push kind mark mark
  else l

/-- Gives up what might have been a key at this level; fails if it had to be one. -/
def dropKey (l : Lexer) : Option Lexer :=
  match l.keys with
  | some key :: rest => if key.required then none else some { l with keys := none :: rest }
  | _ => some l

/-- Notes that the next token may be a key. -/
def noteKey (l : Lexer) : Option Lexer :=
  if l.keyAllowed then
    let required := l.flowLevel = 0 && l.indent = Int.ofNat l.cursor.mark.column
    l.dropKey.map fun l =>
      { l with keys := some ⟨l.count, l.cursor.mark, required⟩ :: l.keys.drop 1 }
  else some l

/-- The greatest distance between the start of a key and its colon, in bytes. -/
def longestKey : Nat := 1024

/-- A possible key is over if it is on an earlier line or too far back. -/
def isStale (l : Lexer) (key : PossibleKey) : Bool :=
  key.mark.line < l.cursor.mark.line || key.mark.index + longestKey < l.cursor.mark.index

/-- Gives up all keys that are over; fails if one of them had to be one. -/
def dropStaleKeys (l : Lexer) : Option Lexer :=
  if l.keys.any fun key => key.any fun key => key.required && l.isStale key then none
  else some { l with keys := l.keys.map fun key => key.filter fun key => !l.isStale key }

/-- Past blanks, comments and breaks, and past one byte order mark in front of each line. Outside
brackets a new line may start with a key; tabs are blanks where no key can start. -/
def skipToToken (fuel : Nat) (l : Lexer) : Lexer :=
  match fuel with
  | 0 => l
  | fuel + 1 =>
    let tabs := l.flowLevel ≠ 0 || !l.keyAllowed
    let c := l.cursor
    let c := if c.mark.column = 0 && c.sees isByteOrderMark then c.skip 1 else c
    let c := c.skipWhile fun x => x = ' ' || (tabs && x = '\t')
    let c := if c.isAt '#' then c.skipLine else c
    if c.sees isBreak then
      skipToToken fuel
        { l with cursor := c.skipBreak, keyAllowed := l.flowLevel = 0 || l.keyAllowed }
    else { l with cursor := c }

def take (l : Lexer) (n : Nat) (kind : TokenKind) : Lexer :=
  let next := l.cursor.skip n
  { l.push kind l.cursor.mark next.mark with cursor := next }

/-- A token behind which no key may start. -/
def withoutKey (l : Lexer) : Lexer := { l with keyAllowed := false }

def streamEnd (l : Lexer) : Option Lexer := do
  let mark := l.cursor.mark
  let mark := if mark.column = 0 then mark else ⟨mark.index, mark.line + 1, 0⟩
  let l := { l with cursor := ⟨[], mark⟩ }
  let l ← (l.closeBlocks (-1)).dropKey
  return l.withoutKey.push .streamEnd mark mark

def documentMark (l : Lexer) (kind : TokenKind) : Option Lexer := do
  let l ← (l.closeBlocks (-1)).dropKey
  return l.withoutKey.take 3 kind

/-- Digits of a version number, at most nine. -/
def versionNumber? (c : Cursor) : Option (Nat × Cursor) :=
  let (digits, next) := c.takeWhile Char.isDigit
  if digits.isEmpty || 9 < digits.length then none
  else some (digits.foldl (fun n d => 10 * n + (d.toNat - '0'.toNat)) 0, next)

/-- A character of the text of a tag; some marks count only where they cannot end it. -/
def isTagChar (verbatim : Bool) (x : Char) : Bool :=
  isWord x || ";/?:@&=+$.!~*'()%".toList.contains x || (verbatim && (x = ',' || x = '[' || x = ']'))

/-- The value of a byte written as a percent sign and two hexadecimal digits. -/
def escapedByte? : List Char → Option (Nat × List Char)
  | '%' :: a :: b :: rest => do
    return (16 * (← Json.hexDigit? a) + (← Json.hexDigit? b), rest)
  | _ => none

def escapedBytes? : Nat → Nat → List Char → Option (Nat × List Char)
  | 0, value, cs => some (value, cs)
  | n + 1, value, cs =>
    match escapedByte? cs with
    | none => none
    | some (byte, rest) =>
      if byte / 64 = 2 then escapedBytes? n (64 * value + byte % 64) rest else none

/-- The character that escaped bytes stand for, if any, and what follows them. The first byte says
how many there are. -/
def escapedChar? (cs : List Char) : Option (Option Char × List Char) :=
  match escapedByte? cs with
  | none => none
  | some (byte, rest) =>
    let further (n value : Nat) : Option (Option Char × List Char) :=
      (escapedBytes? n value rest).map fun (value, rest) => (Tag.charOfBytes (n + 1) value, rest)
    if byte < 128 then further 0 byte
    else if byte / 32 = 6 then further 1 (byte % 32)
    else if byte / 16 = 14 then further 2 (byte % 16)
    else if byte / 8 = 30 then further 3 (byte % 8)
    else none

/-- The text of a tag with its escapes resolved, and the place behind it. -/
def tagText (fuel : Nat) (verbatim : Bool) (read : List (Option Char)) (c : Cursor) :
    Option (List (Option Char) × Cursor) :=
  match fuel with
  | 0 => some (read.reverse, c)
  | fuel + 1 =>
    match c.rest with
    | [] => some (read.reverse, c)
    | x :: _ =>
      if x = '%' then
        match escapedChar? c.rest with
        | none => none
        | some (y, rest) => tagText fuel verbatim (y :: read) (c.skip (c.rest.length - rest.length))
      else if isTagChar verbatim x then tagText fuel verbatim (some x :: read) (c.skip 1)
      else some (read.reverse, c)

/-- The text of a tag, which must not be empty. -/
def someTagText (verbatim : Bool) (c : Cursor) : Option (Tag × Cursor) :=
  match tagText (c.rest.length + 1) verbatim [] c with
  | some ([], _) => none
  | some (text, next) => some (Tag.untilZero text, next)
  | none => none

/-- A handle of a tag: an exclamation mark and perhaps a word and another one. -/
def tagHandle? (c : Cursor) : Option (List Char × Cursor) :=
  if c.isAt '!' then
    let (word, next) := (c.skip 1).takeWhile isWord
    if next.isAt '!' then some ('!' :: word ++ ['!'], next.skip 1) else some ('!' :: word, next)
  else none

def directiveContent? (c : Cursor) : Option (TokenKind × Cursor) := do
  let (name, c) := c.takeWhile isWord
  if name.isEmpty || !c.endsWordAt 0 then failure
  let c := c.skipWhile isBlank
  match String.ofList name with
  | "YAML" =>
    let (major, c) ← versionNumber? c
    if !c.isAt '.' then failure
    let (minor, c) ← versionNumber? (c.skip 1)
    return (.version major minor, c)
  | "TAG" =>
    let (handle, c) ← tagHandle? c
    if handle.getLast? ≠ some '!' || !c.sees isBlank then failure
    let (start, c) ← someTagText true (c.skipWhile isBlank)
    if !c.endsWordAt 0 then failure
    return (.tagDirective (String.ofList handle) start, c)
  | _ => failure

def directive (l : Lexer) : Option Lexer := do
  let l ← (l.closeBlocks (-1)).dropKey
  let (kind, next) ← directiveContent? (l.cursor.skip 1)
  let after := next.skipWhile isBlank
  let after := if after.isAt '#' then after.skipLine else after
  if !after.atLineEnd then failure
  return { l.withoutKey.push kind l.cursor.mark next.mark with cursor := after.skipBreak }

def openFlow (l : Lexer) (kind : TokenKind) : Option Lexer := do
  let l ← l.noteKey
  let l := { l with keys := none :: l.keys, flowLevel := l.flowLevel + 1, keyAllowed := true }
  return l.take 1 kind

def closeFlow (l : Lexer) (kind : TokenKind) : Option Lexer := do
  let l ← l.dropKey
  let l := if l.flowLevel = 0 then l
    else { l with keys := l.keys.drop 1, flowLevel := l.flowLevel - 1 }
  return l.withoutKey.take 1 kind

def flowEntry (l : Lexer) : Option Lexer := do
  let l ← l.dropKey
  return { l with keyAllowed := true }.take 1 .flowEntry

def blockEntry (l : Lexer) : Option Lexer := do
  if l.flowLevel = 0 && !l.keyAllowed then failure
  let l := l.openBlock l.cursor.mark.column none .blockSequenceStart l.cursor.mark
  let l ← l.dropKey
  return { l with keyAllowed := true }.take 1 .blockEntry

def explicitKey (l : Lexer) : Option Lexer := do
  if l.flowLevel = 0 && !l.keyAllowed then failure
  let l := l.openBlock l.cursor.mark.column none .blockMappingStart l.cursor.mark
  let l ← l.dropKey
  return { l with keyAllowed := l.flowLevel = 0 }.take 1 .key

def value (l : Lexer) : Option Lexer :=
  match l.keys with
  | some key :: rest =>
    let l := l.insertAt key.token .key key.mark
    let l := l.openBlock key.mark.column (some key.token) .blockMappingStart key.mark
    some ({ l with keys := none :: rest }.withoutKey.take 1 .value)
  | _ =>
    if l.flowLevel = 0 && !l.keyAllowed then none
    else
      let l := l.openBlock l.cursor.mark.column none .blockMappingStart l.cursor.mark
      some ({ l with keyAllowed := l.flowLevel = 0 }.take 1 .value)

/-- Marks that may stand right behind the name of an anchor. -/
def endsAnchor (c : Cursor) : Bool :=
  c.endsWordAt 0 || c.sees fun x => "?:,]\x7d%@\x60".toList.contains x

def anchorName (l : Lexer) (kind : String → TokenKind) : Option Lexer := do
  let l ← l.noteKey
  let (name, next) := (l.cursor.skip 1).takeWhile isWord
  if name.isEmpty || !endsAnchor next then failure
  let pushed := l.withoutKey.push (kind (String.ofList name)) l.cursor.mark next.mark
  return { pushed with cursor := next }

/-- The handle and suffix of a tag, and the place behind it. -/
def tagParts? (c : Cursor) : Option (String × Tag × Cursor) := do
  if (c.skip 1).isAt '<' then
    let (suffix, c) ← someTagText true (c.skip 2)
    if !c.isAt '>' then failure
    return ("", suffix, c.skip 1)
  else
    let (handle, next) ← tagHandle? c
    if 2 ≤ handle.length && handle.getLast? = some '!' then
      let (suffix, c) ← someTagText false next
      return (String.ofList handle, suffix, c)
    else
      let start := (handle.drop 1).map some
      let (suffix, c) ← tagText (next.rest.length + 1) false start.reverse next
      let suffix := Tag.untilZero suffix
      if suffix.chars.isEmpty then return ("", .ofString "!", c) else return ("!", suffix, c)

def tag (l : Lexer) : Option Lexer := do
  let l ← l.noteKey
  let (handle, suffix, next) ← tagParts? l.cursor
  if !(l.flowLevel ≠ 0 && next.isAt ',') && !next.endsWordAt 0 then failure
  return { l.withoutKey.push (.tag handle suffix) l.cursor.mark next.mark with cursor := next }

def blockScalar (l : Lexer) (isLiteral : Bool) : Option Lexer := do
  let l ← l.dropKey
  let (text, next) ← ScalarText.block isLiteral l.indent (l.cursor.skip 1)
  let style := if isLiteral then Style.literal else .folded
  let pushed := l.push (.scalar text style) l.cursor.mark next.mark
  return { pushed with cursor := next, keyAllowed := true }

def quotedScalar (l : Lexer) (single : Bool) : Option Lexer := do
  let l ← l.noteKey
  let (text, next) ← ScalarText.quoted single (l.cursor.skip 1)
  return { l.withoutKey.push (.scalar text .quoted) l.cursor.mark next.mark with cursor := next }

def plainScalar (l : Lexer) : Option Lexer := do
  let l ← l.noteKey
  let (text, stop, next, broken) ← ScalarText.plain (l.flowLevel ≠ 0) (l.indent + 1) l.cursor
  let pushed := l.push (.scalar text .plain) l.cursor.mark stop.mark
  return { pushed with cursor := next, keyAllowed := broken }

/-- Marks that cannot start a plain scalar. -/
def startsOther (x : Char) : Bool :=
  isBlank x || isBreak x || "-?:,[]\x7b\x7d#&*!|>'\"%@\x60".toList.contains x

/-- A plain scalar may start here. -/
def startsPlain (l : Lexer) : Bool :=
  let c := l.cursor
  match c.rest with
  | [] => false
  | x :: rest =>
    !startsOther x
      || (x = '-' && !rest.head?.any isBlank)
      || (l.flowLevel = 0 && (x = '?' || x = ':') && !c.endsWordAt 1)

/-- The token at a place that holds no blank. -/
def tokenHere (l : Lexer) : Option Lexer :=
  let c := l.cursor
  let inFlow : Bool := l.flowLevel ≠ 0
  match c.rest with
  | [] => l.streamEnd
  | x :: _ =>
    if c.mark.column = 0 && x = '%' then l.directive
    else if c.atDocumentMark then l.documentMark (if x = '-' then .documentStart else .documentEnd)
    else if x = '[' then l.openFlow .flowSequenceStart
    else if x = '{' then l.openFlow .flowMappingStart
    else if x = ']' then l.closeFlow .flowSequenceEnd
    else if x = '}' then l.closeFlow .flowMappingEnd
    else if x = ',' then l.flowEntry
    else if x = '-' && c.endsWordAt 1 then l.blockEntry
    else if x = '?' && (inFlow || c.endsWordAt 1) then l.explicitKey
    else if x = ':' && (inFlow || c.endsWordAt 1) then l.value
    else if x = '*' then l.anchorName .alias
    else if x = '&' then l.anchorName .anchor
    else if x = '!' then l.tag
    else if x = '|' && !inFlow then l.blockScalar true
    else if x = '>' && !inFlow then l.blockScalar false
    else if x = '\'' then l.quotedScalar true
    else if x = '"' then l.quotedScalar false
    else if l.startsPlain then l.plainScalar
    else none

/-- The next token, and those that come with it. -/
def next (l : Lexer) : Option Lexer := do
  let l ← (skipToToken (l.cursor.rest.length + 1) l).dropStaleKeys
  (l.closeBlocks (Int.ofNat l.cursor.mark.column)).tokenHere

/-- The tokens in front of all that may still turn out to be keys, newest first. -/
def settledTokens (l : Lexer) : List Token :=
  let pending := l.keys.filterMap fun key => key.filter fun key => !l.isStale key
  l.tokens.drop (l.count - ((pending.map PossibleKey.token).min?.getD l.count))

/-- All tokens, newest first; false if the text cannot be read further. What might then have been a
key stays open, and so does what follows it. -/
def run (fuel : Nat) (l : Lexer) : List Token × Bool :=
  match fuel with
  | 0 => (l.tokens, false)
  | fuel + 1 =>
    match l.next with
    | none => (l.settledTokens, false)
    | some l =>
      match l.tokens with
      | ⟨.streamEnd, _, _⟩ :: _ => (l.tokens, true)
      | _ => run fuel l

end Lexer

/-- The tokens of a text as far as it can be read. A text with a character that may not stand in
one has none. -/
def tokens (cs : List Char) : List Token :=
  if cs.all isAllowed then ((Lexer.start cs).run (cs.length + 2)).1.reverse else []

end ApiStack.Yaml
