import ApiStack.Compile.Schema
import ApiStack.Proofs.Sdl.Concatenation

namespace ApiStack.Compile

open Sdl

variable {sources : List String}

theorem toList_checkedText (sources : List String) : (checkedText sources).toList =
    serviceDeclarations.toList ++
      (sources.map String.toList).flatMap fun text => '\n' :: text := by
  have hn : "\n".toList = ['\n'] := rfl
  simp only [checkedText, String.toList_append, String.toList_join, List.flatMap_map, hn,
    List.singleton_append]

section Service

/-- A directive that may stand at a field or an object, with at most a list of strings. -/
def fieldDirective (name : String) (lists : List String) : Definition :=
  .directive ⟨none, name, lists.map fun list =>
    ⟨none, list, .list (.named "String" false) false, none, []⟩, ["FIELD_DEFINITION", "OBJECT"]⟩

def serviceDocument : Document := [
  fieldDirective "aws_iam" [],
  fieldDirective "aws_oidc" [],
  fieldDirective "aws_api_key" [],
  fieldDirective "aws_lambda" [],
  fieldDirective "aws_auth" ["cognito_groups"],
  fieldDirective "aws_cognito_user_pools" ["cognito_groups"],
  .directive ⟨none, "aws_subscribe",
    [⟨none, "mutations", .list (.named "String" false) false, none, []⟩], ["FIELD_DEFINITION"]⟩,
  .directive ⟨none, "canonical", [], ["OBJECT"]⟩,
  .directive ⟨none, "hidden", [], ["OBJECT"]⟩,
  .directive ⟨none, "renamed", [⟨none, "to", .named "String" true, none, []⟩],
    ["FIELD_DEFINITION", "OBJECT", "INTERFACE", "UNION", "INPUT_OBJECT", "ENUM"]⟩] ++
  ["AWSDate", "AWSTime", "AWSDateTime", "AWSTimestamp", "AWSEmail", "AWSJSON", "AWSURL", "AWSPhone",
    "AWSIPAddress"].map fun name => .type ⟨false, none, name, [], .scalar⟩

theorem toList_serviceDeclarations : serviceDeclarations.toList =
    (serviceLines.map String.toList).flatMap fun line => line ++ ['\n'] := by
  have hn : "\n".toList = ['\n'] := rfl
  simp only [serviceDeclarations, String.toList_join, List.flatMap_map, String.toList_append, hn]

theorem map_toList_cons {chars : List Char} {lines : List String} {rest : List (List Char)}
    (h : lines.map String.toList = rest) :
    (String.ofList chars :: lines).map String.toList = chars :: rest := by
  rw [List.map_cons, String.toList_ofList, h]

-- The characters of a line are named by `map_toList_cons`, since to compute them from the literal
-- takes longer than to read them.
set_option maxRecDepth 100000 in
theorem exists_serviceLines : ∃ lines, serviceLines.map String.toList = lines ∧
    (lines.flatMap fun line => line ++ ['\n']).all Place.text.isPlain = true ∧
    Grammar.document ⟨lines.flatMap fun line => line ++ ['\n'], none⟩ =
      some (serviceDocument, ⟨[], none⟩) := by
  unfold serviceLines
  apply Exists.intro
  refine ⟨?_, ?_, ?_⟩
  · repeat apply map_toList_cons
    exact List.map_nil
  · decide +kernel
  · cbv

theorem isClosed_serviceDeclarations : isClosed .text serviceDeclarations.toList = true := by
  obtain ⟨lines, hlines, hplain, -⟩ := exists_serviceLines
  have hclosed := isClosed_append hplain []
  rw [List.append_nil] at hclosed
  rw [toList_serviceDeclarations, hlines, hclosed]
  rfl

theorem parse_of_document {source : String} {d : Document} {rest : List Char}
    (h : Grammar.document ⟨source.toList, none⟩ = some (d, ⟨rest, none⟩)) : parse source = .ok d := by
  unfold parse
  rw [h]

theorem parse_serviceDeclarations : parse serviceDeclarations = .ok serviceDocument := by
  obtain ⟨lines, hlines, -, hdocument⟩ := exists_serviceLines
  rw [← hlines, ← toList_serviceDeclarations] at hdocument
  exact parse_of_document hdocument

end Service

/-- No source leaves a block string open. A source can be a document and do so: the list `["""a"]`
has two strings, unless there are three more quotes below it. -/
def AreClosed (sources : List String) : Prop :=
  ∀ source ∈ sources, isClosed .text source.toList = true

theorem areClosed_nil : AreClosed [] := nofun

theorem AreClosed.cons {chars : List Char} (h : isClosed .text chars = true)
    (hs : AreClosed sources) : AreClosed (String.ofList chars :: sources) :=
  List.forall_mem_cons.2 ⟨String.toList_ofList.symm ▸ h, hs⟩

/-- The text that is checked holds what the service declares and the documents of the sources. -/
theorem parse_checkedText {service : Document} {documents : List Document}
    (hs : parse serviceDeclarations = .ok service) (hd : sources.mapM parse = .ok documents)
    (hc : AreClosed sources) :
    parse (checkedText sources) = .ok (service ++ documents.flatten) := by
  have hall : List.Forall₂ (fun cs d => IsDocument cs d ∧ isClosed .text cs = true)
      (sources.map String.toList) documents := by
    rw [List.forall₂_map_left_iff]
    have hparsed := (List.forall₂_and_left _ _).2 ⟨hc, mapM_eq_ok_iff.1 hd⟩
    exact hparsed.imp fun source d ⟨hclosed, hp⟩ => ⟨isDocument_of_parse hp hclosed, hclosed⟩
  have hservice := isDocument_of_parse hs isClosed_serviceDeclarations
  refine IsDocument.parse ?_
  rw [toList_checkedText]
  exact hservice.flatten isClosed_serviceDeclarations hall

/-- Documents that have no faults behind what the service declares pass the check. -/
theorem validate_checkedText {documents : List Document} (hd : sources.mapM parse = .ok documents)
    (hc : AreClosed sources) (hf : faults (serviceDocument ++ documents.flatten) = []) :
    validate (checkedText sources) = [] := by
  rw [validate_of_parse (parse_checkedText parse_serviceDeclarations hd hc), hf]

end ApiStack.Compile
