import ApiStack.Compile.Handler
import ApiStack.Proofs.Compile.Schema
import ApiStack.Proofs.Files.Patterns

namespace ApiStack.Compile

open Config

/-- The whole path has no wildcards: it is absolute or its directory has none, nor has it. -/
theorem isPlain_resolve {context : Context} {entry : String} (he : Glob.IsPlain entry)
    (hd : (Path.mk entry).isAbsolute = true ∨ Glob.IsPlain context.servicePath.text) :
    Glob.IsPlain (context.resolve entry).text := by
  unfold Context.resolve Path.under
  split
  · exact he
  · next hrelative =>
    have hdirectory := hd.resolve_left hrelative
    split
    · exact he
    · split <;> intro c hc <;>
        simp only [String.toList_append, List.mem_append] at hc
      · exact hc.elim (hdirectory c) (he c)
      · rcases hc with (hc | hc) | hc
        · exact hdirectory c hc
        · cases List.mem_singleton.1 hc
          rfl
        · exact he c hc

theorem addFiles_of_same {path : Path} {files : List Path} (h : ∀ p ∈ files, p = path) :
    addFiles [path] files = [path] := by
  induction files with
  | nil => rfl
  | cons p rest ih =>
    obtain ⟨rfl, hrest⟩ := List.forall_mem_cons.1 h
    have hsame : [p].any p.same = true := by simp [Path.same]
    rw [addFiles, if_pos hsame]
    exact ih hrest

variable {context : Context} {api : Api} {files : MemoryFiles} {entry : String}

theorem schemaFiles_singleton (hs : api.schema = [entry]) :
    schemaFiles context api = (matchingFiles context entry).map (addFiles []) := by
  rw [schemaFiles, hs]
  cases h : matchingFiles context entry <;> simp [h] <;> rfl

/-- A pattern without wildcards is matched by the files that were put under the very path. -/
theorem glob_of_plain (hfiles : context.files = files.fileSystem)
    (hp : Glob.IsPlain (context.resolve entry).text) :
    context.files.glob (context.resolve entry).text =
      .ok (files.paths.filter fun p => p = context.resolve entry) := by
  rw [hfiles]
  exact files.glob_of_plain hp

theorem matchingFiles_of_mem (hfiles : context.files = files.fileSystem)
    (hp : Glob.IsPlain (context.resolve entry).text) (hm : context.resolve entry ∈ files.paths) :
    ∃ rest, matchingFiles context entry = .ok (context.resolve entry :: rest) ∧
      ∀ p ∈ rest, p = context.resolve entry := by
  have hglob := glob_of_plain hfiles hp
  have hsame : ∀ p ∈ files.paths.filter (fun p => p = context.resolve entry),
      p = context.resolve entry := fun p hp => of_decide_eq_true (List.mem_filter.1 hp).2
  have hne : files.paths.filter (fun p => p = context.resolve entry) ≠ [] :=
    List.ne_nil_of_mem (List.mem_filter.2 ⟨hm, decide_eq_true rfl⟩)
  obtain ⟨p, rest, hcons⟩ := List.exists_cons_of_ne_nil hne
  rw [hcons] at hglob hsame
  obtain ⟨rfl, hrest⟩ := List.forall_mem_cons.1 hsame
  refine ⟨rest, ?_, hrest⟩
  simp only [matchingFiles, hglob]
  rfl

theorem matchingFiles_of_notMem (hfiles : context.files = files.fileSystem)
    (hp : Glob.IsPlain (context.resolve entry).text) (hm : context.resolve entry ∉ files.paths) :
    matchingFiles context entry = .error (.missingFile .schema (context.resolve entry)) := by
  have hglob := glob_of_plain hfiles hp
  have hnil : files.paths.filter (fun p => p = context.resolve entry) = [] := by
    refine List.filter_eq_nil_iff.2 fun p hmem he => hm ?_
    exact of_decide_eq_true he ▸ hmem
  rw [hnil] at hglob
  simp only [matchingFiles, hglob]
  rfl

/-- Without wildcards a schema has a single file, if there is one that was put under the very path,
and none otherwise. -/
theorem schemaFiles_of_plain (hfiles : context.files = files.fileSystem)
    (hs : api.schema = [entry]) (hp : Glob.IsPlain (context.resolve entry).text) :
    schemaFiles context api =
      if context.resolve entry ∈ files.paths then .ok [context.resolve entry]
      else .error (.missingFile .schema (context.resolve entry)) := by
  rw [schemaFiles_singleton hs]
  split
  · next hm =>
    obtain ⟨rest, hmatching, hrest⟩ := matchingFiles_of_mem hfiles hp hm
    rw [hmatching]
    exact congrArg _ (addFiles_of_same hrest)
  · next hm =>
    rw [matchingFiles_of_notMem hfiles hp hm]
    rfl

theorem read_of_readFile {kind : FileKind} {content : String}
    (h : readFile context kind entry = .ok content) :
    context.files.read (context.resolve entry) = .ok content := by
  simp only [readFile] at h
  split at h
  · exact mapError_eq_ok_iff.1 h
  · cases h

/-- A schema without wildcards, in a directory without any, is read from the file that a template is
read from, if the file was put under the path that its directory and the schema make up. Under
another spelling of the path a template is read, but the schema is missing. -/
theorem schemaSources_of_readFile {kind : FileKind} {content : String}
    (hfiles : context.files = files.fileSystem) (hs : api.schema = [entry])
    (he : Glob.IsPlain entry)
    (hd : (Path.mk entry).isAbsolute = true ∨ Glob.IsPlain context.servicePath.text)
    (hr : readFile context kind entry = .ok content) :
    (context.resolve entry ∈ files.paths →
      schemaFiles context api = .ok [context.resolve entry] ∧
        schemaSources context api = .ok [content]) ∧
    (context.resolve entry ∉ files.paths →
      schemaSources context api = .error (.missingFile .schema (context.resolve entry))) := by
  have hsource := schemaFiles_of_plain hfiles hs (isPlain_resolve he hd)
  constructor
  · intro hm
    rw [if_pos hm] at hsource
    refine ⟨hsource, bind_eq_ok_iff.2 ⟨_, hsource, mapM_eq_ok_iff.2 (.cons ?_ .nil)⟩⟩
    exact mapError_eq_ok_iff.2 (read_of_readFile hr)
  · intro hm
    rw [if_neg hm] at hsource
    exact bind_eq_error_iff.2 (.inl hsource)

/-- A compilation in a directory, with a single file that was put under some path. -/
def Context.holding (directory path : String) : Context :=
  ⟨(MemoryFiles.empty.insert ⟨path⟩ querySchema).fileSystem, ⟨directory⟩, none, ⟨0, 0⟩⟩

/-- An API whose schema is written in some way. -/
def apiReading (entry : String) : Api := { apiWith [] [] [] with schema := [entry] }

theorem schemaSources_holding :
    Glob.IsPlain "schema.graphql" ∧ Glob.IsPlain "svc" ∧
    readFile (.holding "svc" "svc/schema.graphql") .schema "schema.graphql" = .ok querySchema ∧
    schemaSources (.holding "svc" "svc/schema.graphql") (apiReading "schema.graphql") =
      .ok [querySchema] := by
  have he : Glob.IsPlain "schema.graphql" := by decide +kernel
  have hd : Glob.IsPlain "svc" := by decide
  have hr : readFile (.holding "svc" "svc/schema.graphql") .schema "schema.graphql" =
      .ok querySchema := by rfl
  have hm : (Context.holding "svc" "svc/schema.graphql").resolve "schema.graphql" ∈
      (MemoryFiles.empty.insert ⟨"svc/schema.graphql"⟩ querySchema).paths := by decide
  exact ⟨he, hd, hr, ((schemaSources_of_readFile rfl rfl he (.inr hd) hr).1 hm).2⟩

/-- A schema is missing though a template is read under its path: from a directory whose name is
taken for a pattern that does not stand for itself, and with a dot in the path. -/
theorem schemaSources_missing :
    ((∀ c ∈ "schema.graphql".toList, c ∉ ['*', '?', '[', ']']) ∧
      readFile (.holding "svc[1]" "svc[1]/schema.graphql") .schema "schema.graphql" =
        .ok querySchema ∧
      schemaSources (.holding "svc[1]" "svc[1]/schema.graphql") (apiReading "schema.graphql") =
        .error (.missingFile .schema ⟨"svc[1]/schema.graphql"⟩)) ∧
    (∀ c ∈ "./schema.graphql".toList, c ∉ ['*', '?', '[', ']']) ∧
      readFile (.holding "svc" "svc/schema.graphql") .schema "./schema.graphql" =
        .ok querySchema ∧
      schemaSources (.holding "svc" "svc/schema.graphql") (apiReading "./schema.graphql") =
        .error (.missingFile .schema ⟨"svc/./schema.graphql"⟩) := by
  exact ⟨⟨by simp, by rfl, by rfl⟩, by simp, by rfl, by rfl⟩

end ApiStack.Compile
