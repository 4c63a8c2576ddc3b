namespace ApiStack.CommandLine

/-- What failed, and the causes behind it from the nearest on. -/
structure Report where
  context : String
  causes : List String
  deriving DecidableEq

namespace Report

/-- A text whose first line has some words in front, and its other lines an indentation. -/
def hang (first : String) (indentation : Nat) (text : String) : String :=
  first ++ (String.ofList ('\n' :: List.replicate indentation ' ')).intercalate (text.splitOn "\n")

/-- A number with spaces in front, five characters wide. -/
def place (n : Nat) : String :=
  let digits := (toString n).toList
  String.ofList (List.replicate (5 - digits.length) ' ' ++ digits)

/-- A single cause stands alone, several are numbered. -/
def causeLines : List String → List String
  | [cause] => [hang "    " 4 cause]
  | causes => causes.mapIdx fun n cause => hang (place n ++ ": ") 7 cause

def render (r : Report) : String :=
  let behind := if r.causes.isEmpty then ""
    else "\n\nCaused by:\n" ++ "\n".intercalate (causeLines r.causes)
  "Error: " ++ r.context ++ behind ++ "\n"

end Report

end ApiStack.CommandLine
