import ApiStack.Json.Basic

namespace ApiStack

/-- The actions granted on what a data source uses, and on a secret that belongs to it. -/
structure DefaultActions where
  actions : List String
  secretActions : List String
  deriving DecidableEq

namespace Policy

def service : String := "appsync.amazonaws.com"

def version : String := "2012-10-17"

def defaultActions? (type : String) : Option DefaultActions :=
  match type with
  | "AWS_LAMBDA" => some ⟨["lambda:invokeFunction"], []⟩
  | "AMAZON_DYNAMODB" =>
    some ⟨["dynamodb:DeleteItem", "dynamodb:GetItem", "dynamodb:PutItem", "dynamodb:Query",
      "dynamodb:Scan", "dynamodb:UpdateItem", "dynamodb:BatchGetItem", "dynamodb:BatchWriteItem",
      "dynamodb:ConditionCheckItem"], []⟩
  | "RELATIONAL_DATABASE" =>
    some ⟨["rds-data:DeleteItems", "rds-data:ExecuteSql", "rds-data:ExecuteStatement",
      "rds-data:GetItems", "rds-data:InsertItems", "rds-data:UpdateItems"],
      ["secretsmanager:GetSecretValue"]⟩
  | "AMAZON_OPENSEARCH_SERVICE" =>
    some ⟨["es:ESHttpDelete", "es:ESHttpGet", "es:ESHttpHead", "es:ESHttpPost", "es:ESHttpPut",
      "es:ESHttpPatch"], []⟩
  | "AMAZON_EVENTBRIDGE" => some ⟨["events:PutEvents"], []⟩
  | _ => none

def document (statements : List Json) : Json :=
  .obj [("Version", .str version), ("Statement", .arr statements)]

def allow (actions : List String) (resources : List Json) : Json :=
  .obj [("Effect", .str "Allow"), ("Action", .strs actions), ("Resource", .arr resources)]

/-- A statement that grants actions on resources, its actions first. -/
def grant (actions : List String) (resources : List Json) : Json :=
  .obj [("Action", .strs actions), ("Effect", .str "Allow"), ("Resource", .arr resources)]

def assumeRole : Json :=
  document [.obj [("Effect", .str "Allow"), ("Principal", .obj [("Service", .strs [service])]),
    ("Action", .strs ["sts:AssumeRole"])]]

end Policy

end ApiStack
