import ApiStack.Yaml.Token
import ApiStack.Json.Reader

namespace ApiStack.Yaml.ScalarText

/-- Blanks and breaks between the words of a scalar. -/
structure Gap where
  blanks : List Char
  firstBreak : List Char
  otherBreaks : List Char
  broken : Bool

def Gap.none : Gap := ⟨[], [], [], false⟩

/-- Breaks are folded: one becomes a space, and of more all but the first are kept. -/
def Gap.text (g : Gap) : List Char :=
  if g.broken then
    if g.firstBreak.head? = some '\n' then
      if g.otherBreaks.isEmpty then [' '] else g.otherBreaks
    else g.firstBreak ++ g.otherBreaks
  else g.blanks

def Gap.addBreak (g : Gap) (text : List Char) : Gap :=
  if g.broken then { g with otherBreaks := g.otherBreaks ++ text }
  else { g with blanks := [], firstBreak := text, broken := true }

/-- The gap at a place and the place behind it. A tab at the beginning of a line of a plain scalar
is refused in front of the given column. -/
def gapFrom (fuel : Nat) (indent : Int) (gap : Gap) (c : Cursor) : Option (Gap × Cursor) :=
  match fuel with
  | 0 => some (gap, c)
  | fuel + 1 =>
    match c.peek? with
    | Option.none => some (gap, c)
    | some x =>
      if isBlank x then
        if gap.broken then
          if Int.ofNat c.mark.column < indent && x = '\t' then Option.none
          else gapFrom fuel indent gap (c.skip 1)
        else gapFrom fuel indent { gap with blanks := gap.blanks ++ [x] } (c.skip 1)
      else if isBreak x then gapFrom fuel indent (gap.addBreak c.breakText) c.skipBreak
      else some (gap, c)

/-- A character that ends a plain scalar inside brackets. -/
def isFlowMark (x : Char) : Bool := x = ',' || x = '[' || x = ']' || x = '{' || x = '}'

/-- The next word of a plain scalar, in reverse, and the place behind it. A colon in front of a mark
inside brackets is refused. -/
def plainWord (fuel : Nat) (inFlow : Bool) (read : List Char) (c : Cursor) :
    Option (List Char × Cursor) :=
  match fuel with
  | 0 => some (read, c)
  | fuel + 1 =>
    match c.rest with
    | [] => some (read, c)
    | x :: rest =>
      if isBlank x || isBreak x then some (read, c)
      else if inFlow && x = ':' && rest.head?.any (fun y => isFlowMark y || y = '?') then
        Option.none
      else if (x = ':' && c.endsWordAt 1) || (inFlow && isFlowMark x) then some (read, c)
      else plainWord fuel inFlow (x :: read) (c.skip 1)

/-- The text of a plain scalar in reverse, the place behind its last word, the place where reading
stopped, and whether it stopped at the beginning of a line. -/
def plainFrom (fuel : Nat) (inFlow : Bool) (indent : Int) (read : List Char) (gap : Gap)
    (stop : Cursor) (c : Cursor) : Option (List Char × Cursor × Cursor × Bool) :=
  match fuel with
  | 0 => some (read, stop, c, gap.broken)
  | fuel + 1 =>
    if c.atDocumentMark || c.isAt '#' then some (read, stop, c, gap.broken)
    else
      match plainWord (c.rest.length + 1) inFlow [] c with
      | Option.none => Option.none
      | some (word, next) =>
        let (read, gap, stop) :=
          if word.isEmpty then (read, gap, stop)
          else (word ++ gap.text.reverse ++ read, Gap.none, next)
        if !next.sees (fun x => isBlank x || isBreak x) then some (read, stop, next, gap.broken)
        else
          match gapFrom (next.rest.length + 1) indent gap next with
          | Option.none => Option.none
          | some (gap, after) =>
            if !inFlow && Int.ofNat after.mark.column < indent then
              some (read, stop, after, gap.broken)
            else plainFrom fuel inFlow indent read gap stop after

/-- A plain scalar: its text, the place behind its last word, the place where reading goes on, and
whether that is at the beginning of a line. -/
def plain (inFlow : Bool) (indent : Int) (c : Cursor) : Option (String × Cursor × Cursor × Bool) :=
  (plainFrom (c.rest.length + 1) inFlow indent [] Gap.none c c).map
    fun (read, stop, next, broken) => (String.ofList read.reverse, stop, next, broken)

def hexValue? (digits : List Char) : Option Nat :=
  digits.foldl (fun n c => do return 16 * (← n) + (← Json.hexDigit? c)) (some 0)

/-- The character that a number of hexadecimal digits stand for, and the place behind them. -/
def codePoint? (count : Nat) (c : Cursor) : Option (Char × Cursor) := do
  let digits := c.rest.take count
  if digits.length < count then failure
  let n ← hexValue? digits
  if (0xD800 ≤ n && n ≤ 0xDFFF) || 0x10FFFF < n then failure
  return (Char.ofNat n, c.skip count)

def escape? : Char → Option Char
  | '0' => some (Char.ofNat 0)
  | 'a' => some '\x07'
  | 'b' => some '\x08'
  | 't' => some '\t'
  | '\t' => some '\t'
  | 'n' => some '\n'
  | 'v' => some '\x0b'
  | 'f' => some '\x0c'
  | 'r' => some '\r'
  | 'e' => some '\x1b'
  | ' ' => some ' '
  | '"' => some '"'
  | '/' => some '/'
  | '\\' => some '\\'
  | 'N' => some (Char.ofNat 0x85)
  | '_' => some (Char.ofNat 0xA0)
  | 'L' => some (Char.ofNat 0x2028)
  | 'P' => some (Char.ofNat 0x2029)
  | _ => none

/-- The character that an escape stands for, and the place behind it; the backslash is past. -/
def escaped? (c : Cursor) : Option (Char × Cursor) :=
  match c.peek? with
  | none => none
  | some 'x' => codePoint? 2 (c.skip 1)
  | some 'u' => codePoint? 4 (c.skip 1)
  | some 'U' => codePoint? 8 (c.skip 1)
  | some x => (escape? x).map fun y => (y, c.skip 1)

/-- The next word inside quotes in reverse, the place behind it, and whether an escaped line break
ended it. -/
def quotedWord (fuel : Nat) (single : Bool) (read : List Char) (c : Cursor) :
    Option (List Char × Cursor × Bool) :=
  match fuel with
  | 0 => some (read, c, false)
  | fuel + 1 =>
    match c.rest with
    | [] => some (read, c, false)
    | x :: rest =>
      if isBlank x || isBreak x then some (read, c, false)
      else if single && x = '\'' then
        if rest.head? = some '\'' then quotedWord fuel single ('\'' :: read) (c.skip 2)
        else some (read, c, false)
      else if !single && x = '"' then some (read, c, false)
      else if !single && x = '\\' then
        if rest.head?.any isBreak then some (read, (c.skip 1).skipBreak, true)
        else
          match escaped? (c.skip 1) with
          | some (y, next) => quotedWord fuel single (y :: read) next
          | none => none
      else quotedWord fuel single (x :: read) (c.skip 1)

/-- The text inside quotes in reverse, and the place behind the closing quote. -/
def quotedFrom (fuel : Nat) (single : Bool) (read : List Char) (c : Cursor) :
    Option (List Char × Cursor) :=
  match fuel with
  | 0 => none
  | fuel + 1 =>
    if c.atDocumentMark || c.rest.isEmpty then none
    else
      match quotedWord (c.rest.length + 1) single read c with
      | none => none
      | some (read, next, escapedBreak) =>
        if next.isAt (if single then '\'' else '"') then some (read, next.skip 1)
        else
          let gap : Gap := { Gap.none with broken := escapedBreak }
          match gapFrom (next.rest.length + 1) 0 gap next with
          | none => none
          | some (gap, after) => quotedFrom fuel single (gap.text.reverse ++ read) after

/-- A scalar in quotes whose opening quote is past: its text and the place behind it. -/
def quoted (single : Bool) (c : Cursor) : Option (String × Cursor) :=
  (quotedFrom (c.rest.length + 1) single [] c).map
    fun (read, next) => (String.ofList read.reverse, next)

/-- What happens to the line breaks at the end of a block. -/
inductive Chomping where
  | strip
  | clip
  | keep
  deriving DecidableEq

/-- The breaks of empty lines, the greatest column met, and the place behind them. Without an
indentation blanks are taken as far as they go; a tab among them is refused. -/
def emptyLines (fuel : Nat) (indent : Option Nat) (widest : Nat) (breaks : List Char) (c : Cursor) :
    Option (List Char × Nat × Cursor) :=
  match fuel with
  | 0 => some (breaks, widest, c)
  | fuel + 1 =>
    let spaces := c.rest.takeWhile (· = ' ')
    let count := match indent with
      | some n => min spaces.length (n - c.mark.column)
      | none => spaces.length
    let c := c.skip count
    let widest := max widest c.mark.column
    let inIndent := match indent with
      | some n => decide (c.mark.column < n)
      | none => true
    if inIndent && c.isAt '\t' then none
    else if c.sees isBreak then emptyLines fuel indent widest (breaks ++ c.breakText) c.skipBreak
    else some (breaks, widest, c)

/-- The lines of a block. `first` is the break before the next line, `others` those behind it. -/
def blockLines (fuel : Nat) (isLiteral : Bool) (indent : Nat) (read first others : List Char)
    (blankBefore : Bool) (c : Cursor) : Option (List Char × List Char × List Char × Cursor) :=
  match fuel with
  | 0 => some (read, first, others, c)
  | fuel + 1 =>
    if c.mark.column = indent && !c.rest.isEmpty then
      let blank := c.sees isBlank
      -- in a folded block a break between two lines that are not set off is a blank
      let gap :=
        if !isLiteral && first.head? = some '\n' && !blankBefore && !blank then
          if others.isEmpty then [' '] else others
        else first ++ others
      let (line, next) := c.takeWhile fun x => !isBreak x
      let read := line.reverse ++ gap.reverse ++ read
      let first := next.breakText
      match emptyLines (next.rest.length + 1) (some indent) 0 [] next.skipBreak with
      | none => none
      | some (others, _, after) => blockLines fuel isLiteral indent read first others blank after
    else some (read, first, others, c)

def blockHeader (c : Cursor) : Option (Chomping × Option Nat × Cursor) :=
  let chomping? (c : Cursor) : Option (Chomping × Cursor) :=
    if c.isAt '+' then some (.keep, c.skip 1)
    else if c.isAt '-' then some (.strip, c.skip 1) else none
  let number? (c : Cursor) : Option (Option Nat × Cursor) :=
    match c.peek? with
    | some x =>
      if x.isDigit then if x = '0' then none else some (some (x.toNat - '0'.toNat), c.skip 1)
      else some (none, c)
    | none => some (none, c)
  match chomping? c with
  | some (chomping, c) => (number? c).map fun (n, c) => (chomping, n, c)
  | none =>
    match number? c with
    | none => none
    | some (n, c) =>
      match if n.isSome then chomping? c else none with
      | some (chomping, c) => some (chomping, n, c)
      | none => some (.clip, n, c)

/-- A block whose mark is past, inside a given indentation: its text and the place behind it. -/
def block (isLiteral : Bool) (parentIndent : Int) (c : Cursor) : Option (String × Cursor) := do
  let (chomping, number, c) ← blockHeader c
  let c := c.skipWhile isBlank
  let c := if c.isAt '#' then c.skipLine else c
  if !c.atLineEnd then failure
  let c := c.skipBreak
  let given := number.map fun n => if 0 ≤ parentIndent then parentIndent.toNat + n else n
  let (others, widest, c) ← emptyLines (c.rest.length + 1) given 0 [] c
  -- without a number the empty lines in front decide, but a block is deeper than its parent
  let indent := given.getD (max (max widest (parentIndent + 1).toNat) 1)
  let (read, first, others, c) ←
    blockLines (c.rest.length + 1) isLiteral indent [] [] others false c
  let tail := match chomping with
    | .strip => []
    | .clip => first
    | .keep => first ++ others
  return (String.ofList (read.reverse ++ tail), c)

end ApiStack.Yaml.ScalarText
