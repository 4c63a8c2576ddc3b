import ApiStack.Compile.Functions
import ApiStack.Template

namespace ApiStack.Compile

open Config

def readFile (context : Context) (kind : FileKind) (path : String) : Except Failure String :=
  let path := context.resolve path
  if context.files.contains path then
    (context.files.read path).mapError fun fault => .unreadable path fault
  else .error (.missingFile kind path)

/-- The text of a file with values for its variables. -/
def resolveTemplate (context : Context) (kind : FileKind) (path : String)
    (values : OrderedMap Json) : Except Failure Json :=
  (readFile context kind path).map fun text => Template.substitute text values

def runtime : Json :=
  .obj [("Name", .str "APPSYNC_JS"), ("RuntimeVersion", .str "1.0.0")]

def codeSettings (code : Json) : List (String × Json) := [("Code", code), ("Runtime", runtime)]

/-- A function of code: its name with parameters, and what it returns. -/
def codeFunction (head result : String) : String :=
  "export function " ++ head ++ " \x7b\n  return " ++ result ++ ";\n\x7d\n"

def passingCode : String :=
  codeFunction "request()" "\x7b\x7d" ++ "\n" ++ codeFunction "response(ctx)" "ctx.prev.result"

def templateSettings (context : Context) (values : OrderedMap Json) (key : String)
    (path : Option String) : Except Failure (List (String × Json)) :=
  match path with
  | none => .ok []
  | some path => (resolveTemplate context .mappingTemplate path values).map fun t => [(key, t)]

/-- Code or templates of some owner, which may not have both. Variables of the API have the values
that the owner gives them. Without either there may be default code. -/
def handlerSettings (context : Context) (api : Api) (owner : String) (h : Handler)
    (substitutions : OrderedMap Json) (defaultCode : Option String) :
    Except Failure (List (String × Json)) := do
  let hasTemplates := h.request.isSome || h.response.isSome
  let values := Template.mergeValues api.substitutions substitutions
  match h.code with
  | some code =>
    if hasTemplates then throw (.misconfigured (.codeAndTemplates owner))
    else return codeSettings (← resolveTemplate context .code code values)
  | none =>
    if hasTemplates then
      let request ← templateSettings context values "RequestMappingTemplate" h.request
      let response ← templateSettings context values "ResponseMappingTemplate" h.response
      return request ++ response
    else
      match defaultCode with
      | some code => return codeSettings (.str code)
      | none => return []

/-- How conflicts are found and resolved. A function that resolves them may be embedded under the
given name. -/
def syncSettings (s : Sync) (functionName : String) : Build Json := do
  let detection := s.detection.getD "VERSION"
  let handler := s.handler.getD "OPTIMISTIC_CONCURRENCY"
  let base := [("ConflictDetection", Json.str detection)]
  if detection ≠ "VERSION" then return .obj base
  else
    let base := base ++ [("ConflictHandler", .str handler)]
    if handler ≠ "LAMBDA" then return .obj base
    else
      let arn ← functionArn s.function functionName
      return .obj (base ++ [("LambdaConflictHandlerConfig",
        .obj [("LambdaConflictHandlerArn", arn)])])

def syncEntry (s : Option Sync) (functionName : String) : Build (List (String × Json)) := do
  match s with
  | none => return []
  | some s => return [("SyncConfig", ← syncSettings s functionName)]

end ApiStack.Compile
