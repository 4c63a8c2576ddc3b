import ApiStack.LogicalId

namespace ApiStack

namespace FunctionName

def dataSource (name : String) : String := name

def authorizer (api : String) : String := api ++ "Authorizer"

def resolverSync (type field : String) : String := type ++ "_" ++ field ++ "_Sync"

def pipelineFunctionSync (name : String) : String := name ++ "_Sync"

end FunctionName

def wafName (api : String) : String := LogicalId.sanitize (api ++ "Waf")

end ApiStack
