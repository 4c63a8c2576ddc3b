import ApiStack.Proofs.Compile.Limits
import ApiStack.Proofs.Config.DomainName

namespace ApiStack.Compile

open Config

theorem toList_zoneName (domain : String) :
    (zoneName domain).toList = parent domain.toList ++ ['.'] :=
  String.toList_ofList

/-- A domain is a label in the zone that is derived from it. -/
theorem exists_label_zoneName {domain : String} (h : '.' ∈ domain.toList) :
    ∃ label, '.' ∉ label.toList ∧ domain ++ "." = label ++ "." ++ zoneName domain := by
  refine ⟨String.ofList (domain.toList.takeWhile (· ≠ '.')), ?_, ?_⟩
  · rw [String.toList_ofList]
    intro hm
    have hne := List.mem_takeWhile_imp hm
    cases hne
  · rw [← String.toList_inj]
    nth_rewrite 1 [← String.ofList_toList (s := domain), ← takeWhile_append_parent h]
    simp [toList_zoneName]

theorem isZone_zoneName_iff {domain : String} (h : IsDomain domain.toList) :
    IsZone (zoneName domain).toList ↔ 2 ≤ domain.toList.count '.' := by
  rw [← isDomain_parent_iff h, toList_zoneName]
  constructor
  · rintro ⟨name, hname, he⟩
    exact List.append_cancel_right he ▸ hname
  · intro hparent
    exact ⟨_, hparent, rfl⟩

variable {api : Api} {id : String} {r : Resource} {v : Json}

theorem property?_make_of_notMem {type key : String} {entries : List (String × Json)}
    (h : key ∉ entries.map Prod.fst) :
    (Resource.make type (.obj entries)).property? key = none := by
  rw [Option.eq_none_iff_forall_ne_some]
  intro v hv
  obtain ⟨w, hm, -⟩ := Resource.mem_of_property?_make hv
  exact h (List.mem_map_of_mem hm)

theorem recordZone_of_property? {d : Domain}
    (h : (domainRecord d).property? "HostedZoneName" = some v) :
    v = .str (d.hostedZoneName.getD (zoneName d.name)) := by
  obtain ⟨w, hm, -, rfl⟩ := Resource.mem_of_property?_make h
  rcases List.mem_cons.1 hm with he | hm
  · unfold recordZone at he
    split at he
    · simp at he
    · cases he
      rfl
  · simp at hm

theorem zone_of_mem_domain (he : (id, r) ∈ (domain api).entries)
    (hv : r.property? "HostedZoneName" = some v) :
    ∃ d, api.domain = some d ∧ v = .str (d.hostedZoneName.getD (zoneName d.name)) := by
  unfold domain at he
  split at he
  · cases he
  · next d hd =>
    refine ⟨d, (Option.filter_eq_some_iff.1 hd).1, ?_⟩
    obtain ⟨⟨id', r'⟩, hm, hr⟩ := List.mem_map.1 he
    cases hr
    simp only [List.mem_append, List.mem_cons, List.not_mem_nil, or_false] at hm
    obtain ((hm | hm) | hm) | hm := hm
    · cases hm
      have hnone : (domainName d).property? "HostedZoneName" = none :=
        property?_make_of_notMem (by simp)
      cases hnone.symm.trans hv
    · cases hm
      have hnone : (domainAssociation d).property? "HostedZoneName" = none :=
        property?_make_of_notMem (by simp)
      cases hnone.symm.trans hv
    · split at hm
      · cases hm
      · cases List.mem_singleton.1 hm
        have hnone : (domainCertificate d).property? "HostedZoneName" = none :=
          property?_make_of_notMem (by simp)
        cases hnone.symm.trans hv
    · split at hm
      · cases List.mem_singleton.1 hm
        exact recordZone_of_property? hv
      · cases hm

theorem stack_of_mem_domain {context : Context} {s : Stack} (h : stack context api = .ok s)
    (he : (id, r) ∈ (domain api).entries) : s.resources.get? id = some r := by
  have hpart : pure (domain api) ∈ parts context api := by simp [parts]
  have hgives : Settles (fun _ => True) (pure (domain api)) fun g => g = domain api := .pure rfl
  obtain ⟨g, rfl, hg⟩ := exists_graph_of_part h hpart hgives
  exact get?_of_stack h (hg _ he)

/-- The zone of a domain that was checked: one that is written is the name of a zone. One that is
derived is what is behind the first point of the domain, and it is the name of a zone exactly if
there is another point. -/
theorem zone_of_domain {c : Authored} (hc : c.check = .ok ()) (hn : c.normalize = .ok api)
    (he : (id, r) ∈ (domain api).entries) (hv : r.property? "HostedZoneName" = some v) :
    (∀ context s, stack context api = .ok s → s.resources.get? id = some r) ∧
    ∃ d zone, c.domain = some d ∧ v = .str zone ∧
      ((d.hostedZoneName = some zone ∧ IsZone zone.toList) ∨
      (d.hostedZoneName = none ∧
        (∃ label, '.' ∉ label.toList ∧ d.name ++ "." = label ++ "." ++ zone) ∧
        (IsZone zone.toList ↔ 2 ≤ d.name.toList.count '.'))) := by
  refine ⟨fun context s hs => stack_of_mem_domain hs he, ?_⟩
  obtain ⟨d, hd, hzone⟩ := zone_of_mem_domain he hv
  obtain ⟨es, -, hapi⟩ := bind_eq_ok_iff.1 hn
  cases hapi
  have hsound := (c.check_eq_ok_iff.1 hc).domain d hd
  refine ⟨d, _, hd, hzone, ?_⟩
  cases hname : d.hostedZoneName with
  | some zone => exact .inl ⟨rfl, (isZoneName_iff zone).1 (hsound.hostedZoneName zone hname)⟩
  | none =>
    have hdomain := (isDomainName_iff d.name).1 hsound.name
    exact .inr ⟨rfl, exists_label_zoneName hdomain.mem, isZone_zoneName_iff hdomain⟩

def domainConfig (name : String) : Authored :=
  { Authored.nested with
    domain := some ⟨name, none, some (.str "arn:c"), none, none, none, none, none⟩
    dataSources := .whole .empty
    pipelineFunctions := .whole .empty
    resolvers := .whole .empty }

def domainApi (name : String) : Api :=
  { apiWith [] [] [] with domain := (domainConfig name).domain }

theorem normalize_domainConfig (name : String) :
    (domainConfig name).normalize = .ok (domainApi name) := rfl

theorem mem_domain_domainApi {name zone : String} (h : zoneName name = zone) : ∃ r,
    (LogicalId.domainRecord, r) ∈ (domain (domainApi name)).entries ∧
      r.property? "HostedZoneName" = some (.str zone) := by
  subst h
  exact ⟨_, List.mem_cons_of_mem _ (List.mem_cons_of_mem _ List.mem_cons_self), rfl⟩

theorem zone_subdomain : ∃ r, (domainConfig "api.example.com").check = .ok () ∧
    (domainConfig "api.example.com").normalize = .ok (domainApi "api.example.com") ∧
    (LogicalId.domainRecord, r) ∈ (domain (domainApi "api.example.com")).entries ∧
    r.property? "HostedZoneName" = some (.str "example.com.") ∧ IsZone "example.com.".toList := by
  have hderived : zoneName "api.example.com" = "example.com." := by decide
  obtain ⟨r, he, hv⟩ := mem_domain_domainApi hderived
  have hc : (domainConfig "api.example.com").check = .ok () := by rfl
  have hn := normalize_domainConfig "api.example.com"
  obtain ⟨-, d, zone, hd, hzone, hz⟩ := zone_of_domain hc hn he hv
  refine ⟨r, hc, hn, he, hv, ?_⟩
  cases hd
  cases hzone
  rcases hz with ⟨hname, -⟩ | ⟨-, -, hiff⟩
  · cases hname
  · exact hiff.2 (by decide)

/-- The zone that is derived from a domain of two labels is none. -/
theorem zone_apex : (domainConfig "example.com").check = .ok () ∧
    (domainConfig "example.com").normalize = .ok (domainApi "example.com") ∧
    ∃ s r, stack (.uniform querySchema) (domainApi "example.com") = .ok s ∧
      s.resources.get? LogicalId.domainRecord = some r ∧
      r.property? "HostedZoneName" = some (.str "com.") ∧ ¬IsZone "com.".toList := by
  have hids : queryIds? (domainApi "example.com") = some ["GraphQlApi", "GraphQlSchema",
      "GraphQlDomainName", "GraphQlDomainAssociation", "GraphQlDomainRoute53Record"] := by
    rfl
  obtain ⟨s, hs⟩ := exists_stack_of_queryIds? rfl hids (by decide)
  have hderived : zoneName "example.com" = "com." := by decide
  obtain ⟨r, he, hv⟩ := mem_domain_domainApi hderived
  have hzone : ¬IsZone "com.".toList := by
    rw [← isZoneName_iff]
    decide
  exact ⟨by rfl, normalize_domainConfig _, s, r, hs, stack_of_mem_domain hs he, hv, hzone⟩

end ApiStack.Compile
