import ApiStack.Decimal.Shortest
import ApiStack.OrderedMap

namespace ApiStack

/-- A number: an integer, or a finite double. -/
inductive Json.Number where
  | int (n : Int)
  | float (x : Binary64)
  deriving DecidableEq, Inhabited

inductive Json where
  | null
  | bool (b : Bool)
  | num (n : Json.Number)
  | str (s : String)
  | arr (items : List Json)
  | obj (entries : List (String × Json))
  deriving Inhabited

namespace Json

def int (n : Int) : Json := num (.int n)

def nat (n : Nat) : Json := int (Int.ofNat n)

def strs (texts : List String) : Json := arr (texts.map str)

/-- An absent value is null. -/
def ofOption (f : α → Json) : Option α → Json
  | none => null
  | some a => f a

def entry (key : String) (value : Option Json) : List (String × Json) :=
  (value.map fun v => (key, v)).toList

def isNull : Json → Bool
  | null => true
  | _ => false

def get? (key : String) : Json → Option Json
  | obj entries => entries.lookup key
  | _ => none

def text? : Json → Option String
  | str s => some s
  | _ => none

def entries? : Json → Option (List (String × Json))
  | obj entries => some entries
  | _ => none

def items? : Json → Option (List Json)
  | arr items => some items
  | _ => none

/-- Numbers are the same if both are integers or both doubles, and they are equal. -/
def Number.same : Number → Number → Bool
  | .int m, .int n => m = n
  | .float x, .float y => x.sameNumber y
  | _, _ => false

mutual

/-- Equality of values; the order of the entries of an object does not matter. -/
def same : Json → Json → Bool
  | null, null => true
  | bool a, bool b => a = b
  | num m, num n => m.same n
  | str s, str t => s = t
  | arr xs, arr ys => sameItems xs ys
  | obj xs, obj ys => sameEntries xs ys
  | _, _ => false
termination_by structural j => j

def sameItems : List Json → List Json → Bool
  | [], [] => true
  | x :: xs, y :: ys => same x y && sameItems xs ys
  | _, _ => false
termination_by structural xs => xs

/-- Every entry has an equal one under its key on the other side, where no other one is left. -/
def sameEntries : List (String × Json) → List (String × Json) → Bool
  | [], ys => ys.isEmpty
  | (k, v) :: rest, ys =>
    match ys.lookup k with
    | some w => same v w && sameEntries rest (ys.eraseP fun entry => entry.1 = k)
    | none => false
termination_by structural xs => xs

end

end Json

end ApiStack
