import ApiStack.Json.Basic

namespace ApiStack.Intrinsic

def getAtt (id attributeName : String) : Json :=
  .obj [("Fn::GetAtt", .strs [id, attributeName])]

def ref (name : String) : Json := .obj [("Ref", .str name)]

def join (separator : String) (parts : List Json) : Json :=
  .obj [("Fn::Join", .arr [.str separator, .arr parts])]

def sub (template : String) (parameters : Json) : Json :=
  .obj [("Fn::Sub", .arr [.str template, parameters])]

def regionName : String := "AWS::Region"

def accountName : String := "AWS::AccountId"

/-- The given region, or else the one that resources are deployed to. -/
def regionOr (region : Option Json) : Json := region.getD (ref regionName)

def arn (service : String) (region : Json) (rest : List Json) : Json :=
  join ":" ([.str "arn", .str "aws", .str service, region, ref accountName] ++ rest)

/-- The global name of a deployed function, or of an alias of it. -/
def functionArn (id : String) (aliasName : Option String) : Json :=
  match aliasName with
  | some a => join ":" [getAtt id "Arn", .str a]
  | none => getAtt id "Arn"

end ApiStack.Intrinsic
