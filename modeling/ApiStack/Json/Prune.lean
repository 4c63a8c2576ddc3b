import ApiStack.Json.Basic

namespace ApiStack.Json

mutual

/-- The value without null object entries at any depth. -/
def prune : Json → Json
  | obj entries => obj (pruneEntries entries)
  | arr items => arr (pruneItems items)
  | j => j
termination_by structural j => j

/-- Every item pruned, none removed. -/
def pruneItems : List Json → List Json
  | [] => []
  | j :: rest => prune j :: pruneItems rest
termination_by structural items => items

/-- Null entries removed, the others pruned. -/
def pruneEntries : List (String × Json) → List (String × Json)
  | [] => []
  | (k, v) :: rest => if v.isNull then pruneEntries rest else (k, prune v) :: pruneEntries rest
termination_by structural entries => entries

end

end ApiStack.Json
