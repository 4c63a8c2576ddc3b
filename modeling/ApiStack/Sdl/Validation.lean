import ApiStack.Sdl.Grammar

namespace ApiStack.Sdl

namespace Validation

def builtInScalars : List String := ["Int", "Float", "String", "Boolean", "ID"]

def builtInDirectives : List String := ["skip", "include", "deprecated", "specifiedBy", "oneOf"]

def definedType? : Definition → Option String
  | .type t => if t.isExtension then none else some t.name
  | _ => none

def definedDirective? : Definition → Option String
  | .directive d => some d.name
  | _ => none

/-- The definition is one of the schema and no extension. -/
def definesSchema : Definition → Bool
  | .schema s => !s.isExtension
  | _ => false

def knownTypes (document : Document) : List String :=
  builtInScalars ++ document.filterMap definedType?

def knownDirectives (document : Document) : List String :=
  builtInDirectives ++ document.filterMap definedDirective?

/-- The faults of a definition behind others: it defines something a second time. -/
def repeatedDefinition (before : Document) (d : Definition) : List Fault :=
  match d with
  | .schema s => if !s.isExtension && before.any definesSchema then [.secondSchema] else []
  | .type t =>
    if !t.isExtension && (before.filterMap definedType?).contains t.name then
      [.repeatedType t.name]
    else []
  | .directive d =>
    if (knownDirectives before).contains d.name then [.repeatedDirective d.name] else []

/-- The faults of definitions that define something a second time. -/
def repeatedDefinitions (before : Document) : Document → List Fault
  | [] => []
  | d :: rest => repeatedDefinition before d ++ repeatedDefinitions (before ++ [d]) rest

/-- The names that references may lead to. -/
structure Names where
  types : List String
  directives : List String

def typeFaults (names : Names) (name : String) : List Fault :=
  if names.types.contains name then [] else [.unknownType name]

def directiveFaults (names : Names) (directives : List Directive) : List Fault :=
  directives.flatMap fun d =>
    if names.directives.contains d.name then [] else [.unknownDirective d.name]

def inputFaults (names : Names) (values : List InputValue) : List Fault :=
  values.flatMap fun v =>
    typeFaults names v.type.innermost ++ directiveFaults names v.directives

/-- The members seen so far, by the type that has them. -/
abbrev Seen := List (String × String)

/-- The faults of fields, and the fields seen afterwards. -/
def fieldFaults (names : Names) (type : String) (seen : Seen) : List Field → List Fault × Seen
  | [] => ([], seen)
  | f :: rest =>
    let again := if seen.contains (type, f.name) then [Fault.repeatedField type f.name] else []
    let (faults, seen) := fieldFaults names type ((type, f.name) :: seen) rest
    (again ++ typeFaults names f.type.innermost ++ directiveFaults names f.directives
      ++ inputFaults names f.arguments ++ faults, seen)

/-- The faults of repeated input fields, and the fields seen afterwards. -/
def repeatedInputs (type : String) (seen : Seen) : List InputValue → List Fault × Seen
  | [] => ([], seen)
  | v :: rest =>
    let again := if seen.contains (type, v.name) then [Fault.repeatedField type v.name] else []
    let (faults, seen) := repeatedInputs type ((type, v.name) :: seen) rest
    (again ++ faults, seen)

/-- The faults of enumeration values, and the values seen afterwards. -/
def enumFaults (names : Names) (type : String) (seen : Seen) : List EnumValue → List Fault × Seen
  | [] => ([], seen)
  | v :: rest =>
    let again := if seen.contains (type, v.name) then [Fault.repeatedEnumValue type v.name] else []
    let (faults, seen) := enumFaults names type ((type, v.name) :: seen) rest
    (again ++ directiveFaults names v.directives ++ faults, seen)

/-- The members of the definitions read so far. -/
structure Members where
  fields : Seen
  enumValues : Seen

/-- The faults of what a type consists of, and the members seen afterwards. -/
def bodyFaults (names : Names) (type : String) (seen : Members) : TypeBody → List Fault × Members
  | .scalar => ([], seen)
  | .object interfaces fields =>
    let (faults, fields) := fieldFaults names type seen.fields fields
    (interfaces.flatMap (typeFaults names) ++ faults, { seen with fields })
  | .interface interfaces fields =>
    let (faults, fields) := fieldFaults names type seen.fields fields
    (interfaces.flatMap (typeFaults names) ++ faults, { seen with fields })
  | .union members => (members.flatMap (typeFaults names), seen)
  | .enumeration values =>
    let (faults, enumValues) := enumFaults names type seen.enumValues values
    (faults, { seen with enumValues })
  | .input values =>
    let (faults, fields) := repeatedInputs type seen.fields values
    (faults ++ inputFaults names values, { seen with fields })

/-- The faults of references in a definition, and the members seen afterwards. -/
def referenceFaults (names : Names) (seen : Members) : Definition → List Fault × Members
  | .schema s =>
    (directiveFaults names s.directives
      ++ ([s.query, s.mutation, s.subscription].filterMap id).flatMap (typeFaults names), seen)
  | .type t =>
    let dangling := if t.isExtension && !names.types.contains t.name then
        [Fault.extendsNothing t.name]
      else []
    let (faults, seen) := bodyFaults names t.name seen t.body
    (dangling ++ directiveFaults names t.directives ++ faults, seen)
  | .directive d => (inputFaults names d.arguments, seen)

def allReferenceFaults (names : Names) (seen : Members) : Document → List Fault
  | [] => []
  | d :: rest =>
    let (faults, seen) := referenceFaults names seen d
    faults ++ allReferenceFaults names seen rest

end Validation

open Validation in
/-- The faults of a document: repeated definitions first, then references and repeated members. -/
def faults (document : Document) : List Fault :=
  repeatedDefinitions [] document
    ++ allReferenceFaults ⟨knownTypes document, knownDirectives document⟩ ⟨[], []⟩ document

/-- The faults of the document that a text holds; a text that holds none has one fault. -/
def validate (source : String) : List Fault :=
  match parse source with
  | .ok document => faults document
  | .error fault => [fault]

end ApiStack.Sdl
