import ApiStack.Compile.Endpoint
import ApiStack.Compile.WafRules

namespace ApiStack.Compile

open Config

def wafAssociation (list : Json) : Resource :=
  .make "AWS::WAFv2::WebACLAssociation"
    (.obj [("ResourceArn", Intrinsic.ref LogicalId.api), ("WebACLArn", list)])

def wafList (api : Api) (w : Waf) : Resource :=
  let name := w.name.getD (wafName api.name)
  let description := match w.description with
    | some text => Json.str text
    | none => Intrinsic.join " " [.str "ACL rules for", Intrinsic.ref LogicalId.api]
  .make "AWS::WAFv2::WebACL" (.obj [
    ("DefaultAction", bareAction (w.defaultAction.getD "Allow")),
    ("Scope", .str "REGIONAL"),
    ("Description", description),
    ("Name", .str name),
    ("Rules", wafRules api w),
    ("VisibilityConfig", visibility w.visibility w.visibility name),
    ("Tags", tags api.tags)])

/-- The list of an API, if it is on, and its association. A list that exists elsewhere is only
associated. -/
def waf (api : Api) : Graph :=
  match api.waf.filter fun w => isOn w.enabled with
  | none => .empty
  | some w =>
    match w.arn with
    | some arn => .singleton LogicalId.wafAssociation (wafAssociation arn)
    | none => ⟨[(LogicalId.waf, wafList api w),
      (LogicalId.wafAssociation, wafAssociation (Intrinsic.getAtt LogicalId.waf "Arn"))]⟩

end ApiStack.Compile
