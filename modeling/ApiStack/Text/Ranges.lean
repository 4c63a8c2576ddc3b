namespace ApiStack.Text

/-- Membership in the set whose boundaries are listed in order: a character is in the set if an odd
number of boundaries are at or below it. -/
def inRanges (boundaries : List Nat) (c : Char) : Bool :=
  (boundaries.takeWhile (· ≤ c.toNat)).length % 2 = 1

end ApiStack.Text
