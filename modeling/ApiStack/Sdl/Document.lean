import ApiStack.Json.Basic

namespace ApiStack.Sdl

/-- A constant value: the default of an input, or an argument of a directive. -/
inductive Value where
  | null
  | bool (b : Bool)
  | num (n : Json.Number)
  | str (s : String)
  | enum (name : String)
  | list (items : List Value)
  | object (fields : List (String × Value))
  deriving Inhabited

/-- A reference to a type: a name or a list, and whether a value is required. -/
inductive TypeRef where
  | named (name : String) (required : Bool)
  | list (item : TypeRef) (required : Bool)
  deriving DecidableEq, Inhabited

/-- The name inside all lists. -/
def TypeRef.innermost : TypeRef → String
  | .named name _ => name
  | .list item _ => item.innermost

structure Directive where
  name : String
  arguments : List (String × Value)
  deriving Inhabited

/-- An argument of a field or directive, or a field of an input. -/
structure InputValue where
  description : Option String
  name : String
  type : TypeRef
  default : Option Value
  directives : List Directive
  deriving Inhabited

structure Field where
  description : Option String
  name : String
  arguments : List InputValue
  type : TypeRef
  directives : List Directive
  deriving Inhabited

structure EnumValue where
  description : Option String
  name : String
  directives : List Directive
  deriving Inhabited

inductive TypeBody where
  | scalar
  | object (interfaces : List String) (fields : List Field)
  | interface (interfaces : List String) (fields : List Field)
  | union (members : List String)
  | enumeration (values : List EnumValue)
  | input (fields : List InputValue)
  deriving Inhabited

/-- A definition or extension of a type. -/
structure TypeDefinition where
  isExtension : Bool
  description : Option String
  name : String
  directives : List Directive
  body : TypeBody
  deriving Inhabited

/-- A kind of operation that a schema gives a root type for. -/
inductive Operation where
  | query
  | mutation
  | subscription
  deriving DecidableEq, Inhabited

def Operation.word : Operation → String
  | .query => "query"
  | .mutation => "mutation"
  | .subscription => "subscription"

/-- A definition or extension of the schema, with its root types. -/
structure SchemaDefinition where
  isExtension : Bool
  directives : List Directive
  query : Option String
  mutation : Option String
  subscription : Option String
  deriving Inhabited

def SchemaDefinition.root? (schema : SchemaDefinition) : Operation → Option String
  | .query => schema.query
  | .mutation => schema.mutation
  | .subscription => schema.subscription

def SchemaDefinition.withRoot (schema : SchemaDefinition) (operation : Operation) (name : String) :
    SchemaDefinition :=
  match operation with
  | .query => { schema with query := some name }
  | .mutation => { schema with mutation := some name }
  | .subscription => { schema with subscription := some name }

/-- A definition of a directive. It may always be applied repeatedly. -/
structure DirectiveDefinition where
  description : Option String
  name : String
  arguments : List InputValue
  locations : List String
  deriving Inhabited

inductive Definition where
  | schema (definition : SchemaDefinition)
  | type (definition : TypeDefinition)
  | directive (definition : DirectiveDefinition)
  deriving Inhabited

abbrev Document := List Definition

end ApiStack.Sdl
