namespace ApiStack.Config

/-- The parts of a text between its points. -/
def labels : List Char → List (List Char)
  | [] => [[]]
  | c :: rest =>
    if c = '.' then [] :: labels rest
    else
      match labels rest with
      | [] => [[c]]
      | label :: others => (c :: label) :: others

def isSmallLetter (c : Char) : Bool := 'a' ≤ c && c ≤ 'z'

/-- A label that is followed by others: a small letter, and then small letters, digits, plus signs
and dashes. -/
def isInnerLabel : List Char → Bool
  | [] => false
  | c :: rest =>
    isSmallLetter c && rest.all fun x => isSmallLetter x || x.isDigit || x = '+' || x = '-'

/-- The last label: a small letter, and then small letters and digits. -/
def isLastLabel : List Char → Bool
  | [] => false
  | c :: rest => isSmallLetter c && rest.all fun x => isSmallLetter x || x.isDigit

/-- At least one inner label and then a last one. -/
def areDomainLabels : List (List Char) → Bool
  | [inner, last] => isInnerLabel inner && isLastLabel last
  | inner :: rest => isInnerLabel inner && areDomainLabels rest
  | [] => false

def isDomainName (name : String) : Bool := areDomainLabels (labels name.toList)

/-- The name of a zone: the name of a domain and a point. -/
def isZoneName (name : String) : Bool :=
  match name.toList.reverse with
  | '.' :: rest => areDomainLabels (labels rest.reverse)
  | _ => false

def isHeaderName (name : String) : Bool :=
  !name.toList.isEmpty && name.toList.all fun c => c.isAlphanum || c = '-'

end ApiStack.Config
