import ApiStack.Text.Uppercase

namespace ApiStack.LogicalId

/-- A character that ids can have: an ASCII letter or digit. -/
def isIdChar (c : Char) : Bool := c.isAlphanum

/-- A text without the characters that ids cannot have. -/
def sanitize (name : String) : String := String.ofList (name.toList.filter isIdChar)

def api : String := "GraphQlApi"

def schema : String := "GraphQlSchema"

def domainName : String := "GraphQlDomainName"

def domainCertificate : String := "GraphQlDomainCertificate"

def domainAssociation : String := "GraphQlDomainAssociation"

def domainRecord : String := "GraphQlDomainRoute53Record"

def logGroup : String := "GraphQlApiLogGroup"

def logGroupRole : String := "GraphQlApiLogGroupRole"

def logGroupPolicy : String := "GraphQlApiLogGroupPolicy"

def caching : String := "GraphQlCaching"

def authorizerPermission : String := "LambdaAuthorizerPermission"

def waf : String := "GraphQlWaf"

/-- The association of the web access control list with the endpoint. -/
def wafAssociation : String := "GraphQlWafAssoc"

def apiKey (name : String) : String := sanitize ("GraphQlApi" ++ name)

def dataSource (name : String) : String := sanitize ("GraphQlDs" ++ name)

def dataSourceRole (name : String) : String := sanitize ("GraphQlDs" ++ name ++ "Role")

def resolver (type field : String) : String := sanitize ("GraphQlResolver" ++ type ++ field)

def pipelineFunction (name : String) : String := sanitize ("GraphQlFunctionConfiguration" ++ name)

/-- Dashes and underscores, which ids cannot have, as words. -/
def spellOut (c : Char) : List Char :=
  if c = '-' then "Dash".toList else if c = '_' then "Underscore".toList else [c]

def capitalize : List Char → List Char
  | [] => []
  | c :: rest => Text.upperForm c ++ rest

/-- A deployed function: its name, spelled out and capitalized. -/
def function (name : String) : String :=
  String.ofList (capitalize (name.toList.flatMap spellOut)) ++ "LambdaFunction"

end ApiStack.LogicalId
