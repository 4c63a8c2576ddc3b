import ApiStack.Decode.Record

namespace ApiStack.Config

open Decode Reader

/-- Where a function comes from, as it is written. -/
structure FunctionSource where
  name : Option String
  aliasName : Option String
  arn : Option Json
  definition : Option Json
  deriving Inhabited

/-- Where a function comes from: it is deployed already and known by its global name or by its name
and perhaps an alias, or its definition is to be deployed as well. -/
inductive FunctionTarget where
  | arn (value : Json)
  | named (name : String) (aliasName : Option String)
  | embedded (definition : Json)

namespace FunctionSource

/-- The one source that counts: a global name before a name, and a name before a definition. -/
def target (f : FunctionSource) : Except Failure FunctionTarget :=
  match f.arn, f.name, f.definition with
  | some arn, _, _ => .ok (.arn arn)
  | none, some name, _ => .ok (.named name f.aliasName)
  | none, none, some definition => .ok (.embedded definition)
  | none, none, none => .error (.misconfigured .noFunction)

def record : Record FunctionSource where
  name := "LambdaFunctionConfig"
  isStrict := false
  fields := mk <$> .optional "functionName" string
    <*> .optional "functionAlias" string
    <*> .optional "functionArn" json
    <*> .optional "function" json

end FunctionSource

end ApiStack.Config
