import ApiStack.Proofs.Compile.Schema
import ApiStack.Proofs.Sdl.Concatenation
import ApiStack.Proofs.Sdl.MergeFaults

namespace ApiStack.Compile

open Sdl

variable {sources : List String} {text : String}

theorem schemaText_of_valid (hl : 2 ≤ sources.length)
    (hv : validate (checkedText sources) = []) :
    schemaText sources = ((merge sources).mapError Failure.schema).map render := by
  unfold schemaText
  rw [hv]
  unfold textBehind
  split
  · cases Nat.not_succ_le_self 1 hl
  · rfl
  · next hne _ => exact (hne rfl).elim

theorem valid_of_schemaText (h : schemaText sources = .ok text) :
    validate (checkedText sources) = [] := by
  unfold schemaText at h
  cases hv : validate (checkedText sources) with
  | nil => rfl
  | cons fault faults =>
    rw [hv] at h
    cases h

theorem merge_of_schemaText (hl : 2 ≤ sources.length) (h : schemaText sources = .ok text) :
    ∃ merged, merge sources = .ok merged ∧ text = render merged := by
  rw [schemaText_of_valid hl (valid_of_schemaText h)] at h
  obtain ⟨merged, hm, rfl⟩ := map_eq_ok_iff.1 h
  cases hd : merge sources with
  | error faults =>
    rw [hd] at hm
    cases hm
  | ok document =>
    rw [hd] at hm
    cases hm
    exact ⟨merged, rfl, rfl⟩

theorem documents_of_merge {merged : Document} (h : merge sources = .ok merged) :
    ∃ documents, sources.mapM parse = .ok documents ∧
      Merge.definitions documents.flatten = .ok merged := by
  rcases parsed_or_malformed sources with ⟨documents, hd⟩ | ⟨_, _, _, _, _, rfl, hb, hs⟩
  · rw [merge_of_parsed hd] at h
    exact ⟨documents, hd, h⟩
  · rw [merge_of_malformed hb hs] at h
    cases h

/-- In the schema that several sources are merged to, there is what comes first in them. -/
theorem schemaText_takesOver (hl : 2 ≤ sources.length) (h : schemaText sources = .ok text) :
    ∃ documents merged, sources.mapM parse = .ok documents ∧ merge sources = .ok merged ∧
      text = render merged ∧ merged.TakesOver documents.flatten := by
  obtain ⟨merged, hm, ht⟩ := merge_of_schemaText hl h
  obtain ⟨documents, hd, hmerged⟩ := documents_of_merge hm
  exact ⟨documents, merged, hd, hm, ht, Merge.takesOver_of_definitions hmerged⟩

/-- Two files that apply a directive to one type, each with an argument of its own. -/
def tagged : List String :=
  ["directive @tag(name: String!) repeatable on OBJECT type Query @tag(name: \"a\") { a: Int }",
    "extend type Query @tag(name: \"b\") { b: Int }"]

def taggedDocuments : List Document := [
  [.directive ⟨none, "tag", [⟨none, "name", .named "String" true, none, []⟩], ["OBJECT"]⟩,
    .type ⟨false, none, "Query", [⟨"tag", [("name", .str "a")]⟩],
      .object [] [⟨none, "a", [], .named "Int" false, []⟩]⟩],
  [.type ⟨true, none, "Query", [⟨"tag", [("name", .str "b")]⟩],
    .object [] [⟨none, "b", [], .named "Int" false, []⟩]⟩]]

set_option maxRecDepth 100000 in
theorem parse_tagged : tagged.mapM parse = .ok taggedDocuments := by
  cbv

theorem valid_tagged : validate (checkedText tagged) = [] := by
  refine validate_checkedText parse_tagged (.cons ?_ (.cons ?_ areClosed_nil)) ?_
  · decide +kernel
  · decide +kernel
  · decide +kernel

theorem exists_merge_tagged : ∃ merged, merge tagged = .ok merged ∧
    schemaText tagged = .ok (render merged) := by
  obtain ⟨merged, hm⟩ : ∃ merged, merge tagged = .ok merged := by
    rw [merge_of_parsed parse_tagged]
    exact exists_of_isOk (by decide +kernel)
  refine ⟨merged, hm, ?_⟩
  rw [schemaText_of_valid (Nat.le_refl tagged.length) valid_tagged, hm]
  rfl

theorem takesOver_tagged : ∃ text, 2 ≤ tagged.length ∧ schemaText tagged = .ok text ∧
    ∃ documents merged, tagged.mapM parse = .ok documents ∧ merge tagged = .ok merged ∧
      text = render merged ∧ merged.TakesOver documents.flatten := by
  obtain ⟨merged, -, ht⟩ := exists_merge_tagged
  exact ⟨render merged, Nat.le_refl 2, ht, schemaText_takesOver (Nat.le_refl 2) ht⟩

/-- The directive that the second file applies is in no type of the schema. -/
theorem directive_lost_tagged : ∃ merged, tagged.mapM parse = .ok taggedDocuments ∧
    merge tagged = .ok merged ∧ schemaText tagged = .ok (render merged) ∧
    ∃ t ∈ Document.types taggedDocuments.flatten, ∃ a ∈ t.directives,
      ∀ m ∈ merged.types, a ∉ m.directives := by
  obtain ⟨merged, hm, ht⟩ := exists_merge_tagged
  have hd := hm
  rw [merge_of_parsed parse_tagged] at hd
  have htakes := Merge.takesOver_of_definitions hd
  refine ⟨merged, parse_tagged, hm, ht, _, List.mem_cons_of_mem _ List.mem_cons_self,
    ⟨"tag", [("name", .str "b")]⟩, List.mem_cons_self, fun m hmem ha => ?_⟩
  have hname : m.name = "Query" := by
    have hn := (htakes.types.2 m.name).1 (List.mem_map_of_mem hmem)
    simpa [taggedDocuments, Document.types] using hn
  rw [htakes.directives m hmem, hname] at ha
  simp [IsTakenOver, taggedDocuments, Document.types] at ha

theorem exists_parse_serviceDeclarations : ∃ service, parse serviceDeclarations = .ok service :=
  ⟨serviceDocument, parse_serviceDeclarations⟩

/-- Sources that were checked together are in conflict only where a type is defined as two kinds. -/
theorem kinds_of_conflicts {documents : List Document} {faults : List Fault}
    (hv : validate (checkedText sources) = []) (hc : AreClosed sources)
    (hd : sources.mapM parse = .ok documents) (hm : merge sources = .error faults) :
    ∀ fault ∈ faults, ∃ type, fault.conflict? = some type ∧
      ∃ a ∈ Document.bodiesOf documents.flatten type,
        ∃ b ∈ Document.bodiesOf documents.flatten type, a.kind ≠ b.kind := by
  obtain ⟨service, hs⟩ := exists_parse_serviceDeclarations
  rw [validate_of_parse (parse_checkedText hs hd hc)] at hv
  have hvalid := faults_eq_nil_iff.1 hv
  rw [merge_of_parsed hd] at hm
  intro fault hf
  obtain ⟨type, hconflict, hnot⟩ := (Merge.conflicts_of_definitions hm).2 fault hf
  have hmembers := hvalid.members type
  rw [Document.membersOf_append] at hmembers
  rw [TypeBody.agree_bodiesOf_iff hmembers.of_append_right] at hnot
  push Not at hnot
  exact ⟨type, hconflict, hnot⟩

/-- Sources whose text was checked are merged, unless definitions of a type do not agree or a source
is no document by itself. What is merged is what was checked, if no source leaves a block string
open. -/
theorem schemaText_cases (hl : 2 ≤ sources.length) (hv : validate (checkedText sources) = []) :
    (∃ documents, sources.mapM parse = .ok documents ∧
      (AreClosed sources → ∃ service, parse serviceDeclarations = .ok service ∧
        parse (checkedText sources) = .ok (service ++ documents.flatten)) ∧
      ((∃ merged, merge sources = .ok merged ∧ schemaText sources = .ok (render merged)) ∨
        ∃ faults, merge sources = .error faults ∧ schemaText sources = .error (.schema faults) ∧
          faults ≠ [] ∧ ∀ fault ∈ faults, ∃ type, fault.conflict? = some type ∧
            ¬TypeBody.Agree (Document.bodiesOf documents.flatten type))) ∨
    ∃ before source after documents fault, sources = before ++ source :: after ∧
      before.mapM parse = .ok documents ∧ parse source = .error fault ∧
      merge sources = .error [fault] ∧ schemaText sources = .error (.schema [fault]) := by
  rw [schemaText_of_valid hl hv]
  rcases parsed_or_malformed sources with
    ⟨documents, hd⟩ | ⟨before, source, after, documents, fault, he, hb, hs⟩
  · obtain ⟨service, hservice⟩ := exists_parse_serviceDeclarations
    refine .inl ⟨documents, hd, fun hc => ⟨service, hservice, parse_checkedText hservice hd hc⟩, ?_⟩
    cases hm : merge sources with
    | ok merged => exact .inl ⟨merged, rfl, rfl⟩
    | error faults =>
      rw [merge_of_parsed hd] at hm
      obtain ⟨hne, hc⟩ := Merge.conflicts_of_definitions hm
      exact .inr ⟨faults, rfl, rfl, hne, hc⟩
  · have hm : merge sources = .error [fault] := he ▸ merge_of_malformed hb hs
    rw [hm]
    exact .inr ⟨before, source, after, documents, fault, he, hb, hs, rfl, rfl⟩

theorem schemaText_cases_tagged : 2 ≤ tagged.length ∧ validate (checkedText tagged) = [] ∧
    ∃ documents, tagged.mapM parse = .ok documents ∧
      (AreClosed tagged → ∃ service, parse serviceDeclarations = .ok service ∧
        parse (checkedText tagged) = .ok (service ++ documents.flatten)) ∧
      ∃ merged, merge tagged = .ok merged ∧ schemaText tagged = .ok (render merged) := by
  obtain ⟨merged, hm, -⟩ := exists_merge_tagged
  refine ⟨Nat.le_refl 2, valid_tagged, ?_⟩
  rcases schemaText_cases (Nat.le_refl tagged.length) valid_tagged with
    ⟨documents, hd, hc, h | ⟨_, he, -⟩⟩ | ⟨_, _, _, _, _, -, -, -, he, -⟩
  · exact ⟨documents, hd, hc, h⟩
  · cases hm.symm.trans he
  · cases hm.symm.trans he

theorem parse_of_none {source : String}
    (h : (Grammar.document ⟨source.toList, none⟩).isNone = true) :
    parse source = .error (.malformed (Expectation.syntaxFault source)) := by
  unfold parse
  rw [Option.isNone_iff_eq_none.1 h]

/-- A file with a comment and nothing else beside one with a type. -/
def commented : List String := ["type Query { a: Int }", "# nothing here"]

-- They are checked as the one document that ends in the comment.
theorem valid_commented : validate (checkedText commented) = [] := by
  have hlines : checkedText commented = checkedText ["type Query { a: Int }\n# nothing here"] := by
    unfold checkedText
    congr 1
  have hparse : parse "type Query { a: Int }\n# nothing here" = .ok [.type ⟨false, none, "Query", [],
      .object [] [⟨none, "a", [], .named "Int" false, []⟩]⟩] := by
    cbv
  rw [hlines]
  refine validate_checkedText (mapM_eq_ok_iff.2 (.cons hparse .nil)) (.cons ?_ areClosed_nil) ?_
  · decide +kernel
  · decide +kernel

/-- The files pass the check together, but the one with the comment is no document. -/
theorem schemaText_commented : validate (checkedText commented) = [] ∧
    ∃ fault, merge commented = .error [.malformed fault] ∧
      schemaText commented = .error (.schema [.malformed fault]) := by
  have hquery := mapM_eq_ok_iff.2 (List.Forall₂.cons parse_querySchema .nil)
  have hcomment := @parse_of_none "# nothing here" (by decide +kernel)
  have hsources : commented = ["type Query { a: Int }"] ++ "# nothing here" :: [] := rfl
  have hm : merge commented =
      .error [.malformed (Expectation.syntaxFault "# nothing here")] := by
    rw [hsources]
    exact merge_of_malformed hquery hcomment
  refine ⟨valid_commented, _, hm, ?_⟩
  rw [schemaText_of_valid (Nat.le_refl commented.length) valid_commented, hm]
  rfl

end ApiStack.Compile
