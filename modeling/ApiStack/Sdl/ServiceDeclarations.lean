namespace ApiStack.Sdl

def serviceLines : List String := [
  "directive @aws_iam on FIELD_DEFINITION | OBJECT",
  "directive @aws_oidc on FIELD_DEFINITION | OBJECT",
  "directive @aws_api_key on FIELD_DEFINITION | OBJECT",
  "directive @aws_lambda on FIELD_DEFINITION | OBJECT",
  "directive @aws_auth(cognito_groups: [String]) on FIELD_DEFINITION | OBJECT",
  "directive @aws_cognito_user_pools(cognito_groups: [String]) on FIELD_DEFINITION | OBJECT",
  "directive @aws_subscribe(mutations: [String]) on FIELD_DEFINITION",
  "directive @canonical on OBJECT",
  "directive @hidden on OBJECT",
  "directive @renamed(to: String!) on FIELD_DEFINITION | OBJECT | INTERFACE | UNION | INPUT_OBJECT | ENUM",
  "scalar AWSDate",
  "scalar AWSTime",
  "scalar AWSDateTime",
  "scalar AWSTimestamp",
  "scalar AWSEmail",
  "scalar AWSJSON",
  "scalar AWSURL",
  "scalar AWSPhone",
  "scalar AWSIPAddress"]

def serviceDeclarations : String := String.join (serviceLines.map fun line => line ++ "\n")

end ApiStack.Sdl
