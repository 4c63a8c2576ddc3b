import ApiStack.Compile.Endpoint

namespace ApiStack.Compile

open Config

/-- The zone that the name of a domain belongs to: what is behind its first point, and a point. -/
def zoneName (domain : String) : String :=
  String.ofList ((domain.toList.dropWhile (· ≠ '.')).drop 1 ++ ['.'])

/-- The zone of the address record: by its id, or by its name. -/
def recordZone (d : Domain) : String × Json :=
  match d.hostedZoneId with
  | some id => ("HostedZoneId", id)
  | none => ("HostedZoneName", .str (d.hostedZoneName.getD (zoneName d.name)))

def domainName (d : Domain) : Resource :=
  .make "AWS::AppSync::DomainName" (.obj [
    ("CertificateArn", d.certificateArn.getD (Intrinsic.ref LogicalId.domainCertificate)),
    ("DomainName", .str d.name)])

def domainAssociation (d : Domain) : Resource :=
  .make "AWS::AppSync::DomainNameApiAssociation"
    (.obj [("ApiId", apiId), ("DomainName", .str d.name)])

def domainCertificate (d : Domain) : Resource :=
  .make "AWS::CertificateManager::Certificate" (.obj [
    ("DomainName", .str d.name),
    ("ValidationMethod", .str "DNS"),
    ("DomainValidationOptions", .arr [.obj [
      ("DomainName", .str d.name), ("HostedZoneId", d.hostedZoneId.getD .null)]])])

def domainRecord (d : Domain) : Resource :=
  .make "AWS::Route53::RecordSet" (.obj [
    recordZone d,
    ("Name", .str d.name),
    ("Type", .str "A"),
    ("AliasTarget", .obj [
      ("HostedZoneId", Intrinsic.getAtt LogicalId.domainName "HostedZoneId"),
      ("DNSName", Intrinsic.getAtt LogicalId.domainName "AppSyncDomainName"),
      ("EvaluateTargetHealth", .bool false)])])

/-- The resources of a domain that is on and managed along with the API. -/
def domain (api : Api) : Graph :=
  match api.domain.filter fun d => isOn d.enabled && isOn d.isManaged with
  | none => .empty
  | some d =>
    let policy := if d.isRetained = some true then "Retain" else "Delete"
    let resources :=
      [(LogicalId.domainName, domainName d),
        (LogicalId.domainAssociation, (domainAssociation d).after LogicalId.domainName)]
      ++ (if d.certificateArn.isSome then []
        else [(LogicalId.domainCertificate, domainCertificate d)])
      ++ (if isOn d.hasRecord then [(LogicalId.domainRecord, domainRecord d)] else [])
    ⟨resources.map fun (id, r) => (id, r.withDeletionPolicy policy)⟩

end ApiStack.Compile
