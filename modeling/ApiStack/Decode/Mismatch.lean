import ApiStack.Decimal.Shortest
import ApiStack.Text.Quoted

namespace ApiStack.Decode

/-- What was met instead of what is expected. -/
inductive Found where
  | bool (b : Bool)
  | integer (n : Int)
  | wideInteger (n : Int)
  | float (x : Binary64)
  | text (s : String)
  | unit
  | seq
  | map
  | variant
  deriving DecidableEq

/-- The two kinds of text that values are read from; a few words differ. -/
inductive Dialect where
  | yaml
  | json
  deriving DecidableEq

def floatText (dialect : Dialect) (x : Binary64) : String :=
  if Binary64.infinityBits < x.magnitudeBits then "NaN"
  else if !x.isFinite then if x.isNegative then "-inf" else "inf"
  else
    match dialect with
    | .json => x.render (Decimal.compact true)
    | .yaml => x.render Decimal.positional

def Found.words (dialect : Dialect) : Found → String
  | .bool b => "boolean `" ++ toString b ++ "`"
  | .integer n => "integer `" ++ toString n ++ "`"
  | .wideInteger n =>
    "integer `" ++ toString n ++ "` as " ++ (if 0 ≤ n then "u128" else "i128")
  | .float x => "floating point `" ++ floatText dialect x ++ "`"
  | .text s => "string " ++ Text.quoted s
  | .unit => if dialect = .json then "null" else "unit value"
  | .seq => "sequence"
  | .map => "map"
  | .variant => "enum"

/-- Why a value does not fit. -/
inductive Mismatch where
  | wrongType (found : Found) (expected : String)
  | wrongValue (found : Found) (expected : String)
  | tooFew (count : Nat) (expected : String)
  | tooMany (count taken : Nat)
  | missingField (name : String)
  | repeatedField (name : String)
  | unknownField (name : String) (known : List String)
  | unknownVariant (name : String) (known : List String)
  | noAlternative (type : String)
  | taggedBuffer
  | numberRange
  | endOfText
  | tooManySteps
  | tooDeep
  | moreDocuments
  deriving DecidableEq

def elements (count : Nat) : String :=
  toString count ++ (if count = 1 then " element" else " elements")

def oneOf (names : List String) : String :=
  match names with
  | [] => "there are no fields"
  | [a] => "expected `" ++ a ++ "`"
  | [a, b] => "expected `" ++ a ++ "` or `" ++ b ++ "`"
  | _ => "expected one of " ++ ", ".intercalate (names.map fun n => "`" ++ n ++ "`")

def Mismatch.message (dialect : Dialect) : Mismatch → String
  | .wrongType found expected =>
    "invalid type: " ++ found.words dialect ++ ", expected " ++ expected
  | .wrongValue found expected =>
    "invalid value: " ++ found.words dialect ++ ", expected " ++ expected
  | .tooFew count expected =>
    "invalid length " ++ toString count ++ ", expected " ++ expected
  | .tooMany count taken =>
    "invalid length " ++ toString count ++ ", expected "
      ++ (if dialect = .json then "fewer elements in array" else elements taken ++ " in sequence")
  | .missingField name => "missing field `" ++ name ++ "`"
  | .repeatedField name => "duplicate field `" ++ name ++ "`"
  | .unknownField name known => "unknown field `" ++ name ++ "`, " ++ oneOf known
  | .unknownVariant name known => "unknown variant `" ++ name ++ "`, " ++ oneOf known
  | .noAlternative type => "data did not match any variant of untagged enum " ++ type
  | .taggedBuffer => "untagged and internally tagged enums do not support enum input"
  | .numberRange => "JSON number out of range"
  | .endOfText => "EOF while parsing a value"
  | .tooManySteps => "repetition limit exceeded"
  | .tooDeep => "recursion limit exceeded"
  | .moreDocuments =>
    "deserializing from YAML containing more than one document is not supported"

end ApiStack.Decode
