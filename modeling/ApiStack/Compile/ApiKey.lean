import ApiStack.Compile.Functions
import ApiStack.Time.Expiry

namespace ApiStack.Compile

open Config

def apiKey (context : Context) (key : ApiKey) : Except Failure Graph := do
  let expiry ← Expiry.of key context.now
  return .singleton (LogicalId.apiKey key.name) (.make "AWS::AppSync::ApiKey" (.obj [
    ("ApiId", apiId),
    ("Description", .str (key.description.getD key.name)),
    ("Expires", .int expiry.nearestSecond),
    ("ApiKeyId", .ofOption .str key.id)]))

end ApiStack.Compile
