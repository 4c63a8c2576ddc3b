import ApiStack.Sdl.Grammar
import ApiStack.Sdl.Printer

namespace ApiStack.Sdl

/-- The word that defines a type of this kind. -/
def TypeBody.kind : TypeBody → String
  | .scalar => "scalar"
  | .object .. => "type"
  | .interface .. => "interface"
  | .union _ => "union"
  | .enumeration _ => "enum"
  | .input _ => "input"

namespace Merge

/-- The items with those of a second list whose key is new, each key once. -/
def addNew [DecidableEq κ] (key : α → κ) (items : List α) : List α → List α
  | [] => items
  | a :: rest =>
    if items.any fun b => key b = key a then addNew key items rest
    else addNew key (items ++ [a]) rest

/-- Directives with those of other names added. -/
def directives (existing incoming : List Directive) : List Directive :=
  addNew Directive.name existing incoming

/-- A member that has a name, a type and directives, and can take more directives. -/
structure Member (α : Type) where
  name : α → String
  type : α → TypeRef
  addDirectives : α → α → α

def fieldMember : Member Field where
  name := Field.name
  type := Field.type
  addDirectives a b := { a with directives := directives a.directives b.directives }

def inputMember : Member InputValue where
  name := InputValue.name
  type := InputValue.type
  addDirectives a b := { a with directives := directives a.directives b.directives }

/-- Replaces the first item that fulfils a condition. -/
def replaceFirst (p : α → Bool) (f : α → α) : List α → List α
  | [] => []
  | a :: rest => if p a then f a :: rest else a :: replaceFirst p f rest

/-- Members with others added in order. The first one whose type differs from that of its name ends
the union; those before it have been added. -/
def members (m : Member α) (type : String) (existing : List α) : List α → List α × Option Fault
  | [] => (existing, none)
  | a :: rest =>
    match existing.find? fun b => m.name b = m.name a with
    | none => members m type (existing ++ [a]) rest
    | some b =>
      let declared := Printer.typeRef (m.type b)
      let redefined := Printer.typeRef (m.type a)
      -- types are compared as they are written, so defaults and descriptions may differ
      if declared = redefined then
        let existing := replaceFirst (fun b => m.name b = m.name a) (m.addDirectives · a) existing
        members m type existing rest
      else (existing, some (.typeConflict type (m.name a) declared redefined))

/-- What a type consists of after another definition of it. -/
def body (type : String) : TypeBody → TypeBody → TypeBody × Option Fault
  | .scalar, .scalar => (.scalar, none)
  | .object names fields, .object names' fields' =>
    let (fields, fault) := members fieldMember type fields fields'
    (.object (addNew id names names') fields, fault)
  | .interface names fields, .interface names' fields' =>
    let (fields, fault) := members fieldMember type fields fields'
    (.interface (addNew id names names') fields, fault)
  | .union names, .union names' => (.union (addNew id names names'), none)
  | .enumeration values, .enumeration values' =>
    (.enumeration (addNew EnumValue.name values values'), none)
  | .input fields, .input fields' =>
    let (fields, fault) := members inputMember type fields fields'
    (.input fields, fault)
  | existing, incoming => (existing, some (.kindConflict type existing.kind incoming.kind))

def typeDefinition (existing incoming : TypeDefinition) : TypeDefinition × Option Fault :=
  let (body, fault) := body existing.name existing.body incoming.body
  ({ existing with
      isExtension := existing.isExtension && incoming.isExtension
      description := existing.description.or incoming.description
      directives := directives existing.directives incoming.directives
      body }, fault)

def schemaDefinition (existing incoming : SchemaDefinition) : SchemaDefinition where
  isExtension := existing.isExtension && incoming.isExtension
  directives := directives existing.directives incoming.directives
  query := existing.query.or incoming.query
  mutation := existing.mutation.or incoming.mutation
  subscription := existing.subscription.or incoming.subscription

/-- The union so far, types and directives in the order in which their names came up, and the
conflicts met. -/
structure Union where
  schema : Option SchemaDefinition
  types : List TypeDefinition
  directives : List DirectiveDefinition
  conflicts : List Fault

def Union.empty : Union := ⟨none, [], [], []⟩

def Union.add (u : Union) : Definition → Union
  | .schema s =>
    { u with schema := some (match u.schema with
        | some existing => schemaDefinition existing s
        | none => s) }
  | .directive d => { u with directives := addNew DirectiveDefinition.name u.directives [d] }
  | .type t =>
    match u.types.find? fun existing => existing.name = t.name with
    | none => { u with types := u.types ++ [t] }
    | some existing =>
      let (merged, fault) := typeDefinition existing t
      { u with
        types := replaceFirst (fun existing => existing.name = t.name) (fun _ => merged) u.types
        conflicts := u.conflicts ++ fault.toList }

def sortName : Definition → String
  | .schema _ => ""
  | .type t => t.name
  | .directive d => d.name

/-- The document of a union: the schema, then the others by name, types before directives. -/
def Union.document (u : Union) : Document :=
  let named := u.types.map Definition.type ++ u.directives.map Definition.directive
  (u.schema.map Definition.schema).toList
    ++ named.mergeSort fun a b => !(sortName b < sortName a)

/-- The union of definitions, or all conflicts among them. -/
def definitions (document : Document) : Except (List Fault) Document :=
  let union := document.foldl Union.add Union.empty
  if union.conflicts.isEmpty then .ok union.document else .error union.conflicts

end Merge

/-- The union of the documents that some texts hold. The first text that holds none ends it. -/
def merge (sources : List String) : Except (List Fault) Document := do
  let documents ← sources.mapM fun source => (parse source).mapError fun fault => [fault]
  Merge.definitions documents.flatten

end ApiStack.Sdl
