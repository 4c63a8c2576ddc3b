import ApiStack.Decode.Mismatch
import ApiStack.Yaml.Node
import ApiStack.Yaml.Scalar

namespace ApiStack.Decode

/-- A value without a place. -/
inductive Datum where
  | null
  | bool (b : Bool)
  | unsigned (n : Nat)
  | signed (n : Int)
  | float (x : Binary64)
  | text (s : String)
  | seq (items : List Datum)
  | map (entries : List (Datum × Datum))
  deriving Inhabited

namespace Datum

def found : Datum → Found
  | null => .unit
  | bool b => .bool b
  | unsigned n => .integer (Int.ofNat n)
  | signed n => .integer n
  | float x => .float x
  | text s => .text s
  | seq _ => .seq
  | map _ => .map

mutual

def ofJson : Json → Datum
  | .null => null
  | .bool b => bool b
  | .num (.int n) => if 0 ≤ n then unsigned n.toNat else signed n
  | .num (.float x) => float x
  | .str s => text s
  | .arr items => seq (ofItems items)
  | .obj entries => map (ofEntries entries)
termination_by structural j => j

def ofItems : List Json → List Datum
  | [] => []
  | j :: rest => ofJson j :: ofItems rest
termination_by structural items => items

def ofEntries : List (String × Json) → List (Datum × Datum)
  | [] => []
  | (k, v) :: rest => (text k, ofJson v) :: ofEntries rest
termination_by structural entries => entries

end

/-- What a key of a JSON object is expected to be; the first one is asked for in other words. -/
def keyExpectation (isFirst : Bool) : String := if isFirst then "a string key" else "a string"

mutual

/-- A datum as a JSON value. Undefined and infinite numbers are null, and of several values of a
key the last one counts. -/
def toJson : Datum → Except Mismatch Json
  | null => return .null
  | bool b => return .bool b
  | unsigned n => return .nat n
  | signed n => return .int n
  | float x => return if x.isFinite then .num (.float x) else .null
  | text s => return .str s
  | seq items => return .arr (← toItems items)
  | map entries => return .obj (OrderedMap.ofList (← toEntries true entries)).entries
termination_by structural d => d

def toItems : List Datum → Except Mismatch (List Json)
  | [] => return []
  | d :: rest => return (← toJson d) :: (← toItems rest)
termination_by structural items => items

def toEntries (isFirst : Bool) : List (Datum × Datum) → Except Mismatch (List (String × Json))
  | [] => return []
  | (text k, v) :: rest => return (k, ← toJson v) :: (← toEntries false rest)
  | (k, _) :: _ => throw (.wrongType k.found (keyExpectation isFirst))
termination_by structural entries => entries

end

end Datum

end ApiStack.Decode
