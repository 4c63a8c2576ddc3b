import ApiStack.Proofs.CommandLine.Arguments
import ApiStack.Proofs.CommandLine.Run
import ApiStack.Proofs.Compile.Assembly
import ApiStack.Proofs.Config.Lifting

namespace ApiStack.CommandLine

open Disk (Keeps NoFile)

variable {file : Option Path} {host : Host} {given : Arguments} {done : List Arguments}
  {disk disk' : Disk} {s : Settings} {arguments : List String}

section Latest

/-- A choice of the latest run that was to remember it, the latest run standing first. -/
def latest (field : Settings → Option α) (done : List Arguments) : Option α :=
  done.findSome? fun given => if given.isRemembered then field given.chosen else none

def remembered (done : List Arguments) : Settings :=
  ⟨latest Settings.format done, latest Settings.logRetention done, latest Settings.servicePath done⟩

theorem latest_cons (field : Settings → Option α) (given : Arguments) (done : List Arguments) :
    latest field (given :: done) =
      if given.isRemembered then field given.chosen <|> latest field done else latest field done := by
  rw [latest, List.findSome?_cons]
  cases given.isRemembered with
  | false => rfl
  | true => cases field given.chosen <;> rfl

theorem remembered_cons (given : Arguments) (done : List Arguments) :
    remembered (given :: done) =
      if given.isRemembered then given.chosen.orSaved (remembered done) else remembered done := by
  simp only [remembered, latest_cons, Settings.orSaved]
  split <;> rfl

end Latest

/-- The settings are what a file holds; without a file everything is left open. -/
def IsSaved (file : Option Path) (disk : Disk) (s : Settings) : Prop :=
  (s = .unset ∧ ∀ path ∈ file, disk.NoFile path) ∨
    ∃ path ∈ file, disk.read path = .ok s.toJson.indented

theorem IsSaved.savedSettings_eq (h : IsSaved file disk s) (hhost : host.settings? = file)
    (hs : ∀ n ∈ s.logRetention, n < Nat.pow 2 32) : savedSettings host disk = s := by
  rw [savedSettings, hhost]
  rcases h with ⟨rfl, hn⟩ | ⟨path, rfl, hr⟩
  · cases file with
    | none => rfl
    | some path =>
      simp only [Settings.load]
      split
      · next hr => exact absurd hr (hn path rfl).read_ne_ok
      · rfl
  · simp only [Settings.load, hr, Settings.read?_indented hs]
    rfl

/-- A tree is changed, and a file that can be read stays as it is; where there is none, there still
is none. -/
def LeavesFile (path : Path) (disk disk' : Disk) : Prop :=
  (∀ text, disk.read path = .ok text → disk'.read path = .ok text) ∧
    (disk.NoFile path → disk'.NoFile path)

theorem leavesFile_of_keeps {path : Path}
    (h : Keeps (placeFrom disk.base path) disk disk') : LeavesFile path disk disk' :=
  ⟨fun _ => h.read_eq_ok, h.noFile⟩

theorem IsSaved.leavesFile (h : IsSaved file disk s)
    (hl : ∀ path ∈ file, LeavesFile path disk disk') : IsSaved file disk' s := by
  rcases h with ⟨rfl, hn⟩ | ⟨path, hp, hr⟩
  · exact .inl ⟨rfl, fun path hp => (hl path hp).2 (hn path hp)⟩
  · exact .inr ⟨path, hp, (hl path hp).1 _ hr⟩

/-- What a file with the settings holds, if it can be read, is the same in both trees. -/
theorem IsSaved.read_eq (h : IsSaved file disk s) (hl : ∀ path ∈ file, LeavesFile path disk disk') :
    ∀ path ∈ file, (disk'.read path).toOption = (disk.read path).toOption := by
  intro path hp
  rcases h with ⟨-, hn⟩ | ⟨path', hp', hr⟩
  · cases hr : disk.read path with
    | ok text => exact absurd hr (hn path hp).read_ne_ok
    | error _ =>
      cases hr' : disk'.read path with
      | ok text => exact absurd hr' ((hl path hp).2 (hn path hp)).read_ne_ok
      | error _ => rfl
  · cases hp.symm.trans hp'
    rw [hr, (hl path hp).1 _ hr]

/-- A run with valid arguments that logs nothing, and saves what it is to remember. -/
structure IsRun (file : Option Path) (host : Host) (arguments : List String) (given : Arguments)
    (disk : Disk) : Prop where
  parsed : parse arguments = .ok (.compile given)
  quiet : given.logLevel = .off
  home : host.settings? = file
  saved : given.isRemembered = true → ∃ path ∈ file, ∃ disk',
    (given.chosen.orSaved (savedSettings host disk)).save disk path = (.ok (), disk')

/-- A run that succeeds does not put its result where the settings are. -/
def GoesElsewhere (file : Option Path) (host : Host) (arguments : List String) (given : Arguments)
    (disk : Disk) : Prop :=
  (run host arguments disk).1.exit = 0 → ∀ output ∈ given.output, ∀ path ∈ file,
    placeFrom disk.base output ≠ placeFrom disk.base path

/-- Runs one after the other, the latest first, and the tree behind them. At first there are no
settings; between the runs the tree may change, but for the settings. -/
inductive History (file : Option Path) : List Arguments → Disk → Prop where
  | start {disk : Disk} (h : ∀ path ∈ file, disk.NoFile path) : History file [] disk
  | change {done : List Arguments} {disk disk' : Disk} (h : History file done disk)
      (hl : ∀ path ∈ file, LeavesFile path disk disk') : History file done disk'
  | run {done : List Arguments} {disk : Disk} {host : Host} {arguments : List String}
      {given : Arguments} (h : History file done disk)
      (hr : IsRun file host arguments given disk)
      (he : GoesElsewhere file host arguments given disk) :
      History file (given :: done) (run host arguments disk).2

theorem IsSaved.settle (h : IsSaved file disk s) (hs : ∀ n ∈ s.logRetention, n < Nat.pow 2 32)
    (hr : IsRun file host arguments given disk) :
    ∃ disk', (CommandLine.settle host given).run disk = (.ok (given.chosen.orSaved s), disk') ∧
      disk'.base = disk.base ∧ (given.isRemembered = false → disk' = disk) ∧
      IsSaved file disk' (if given.isRemembered then given.chosen.orSaved s else s) := by
  have hsaved := h.savedSettings_eq hr.home hs
  have hremembers := hr.saved
  rw [hsaved] at hremembers
  cases hg : given.isRemembered with
  | false =>
    exact ⟨disk, hsaved ▸ settle_of_not_remembered hg, rfl, fun _ => rfl, h⟩
  | true =>
    obtain ⟨path, hp, after, hsave⟩ := hremembers hg
    obtain ⟨hbase, hread⟩ := Settings.read_of_save hsave
    exact ⟨after, hsaved ▸ settle_of_remembered hg (hr.home.trans hp) (hsaved.symm ▸ hsave),
      hbase, nofun, .inr ⟨path, hp, hread⟩⟩

theorem leavesFile_of_settle (hr : IsRun file host arguments given disk)
    (he : GoesElsewhere file host arguments given disk)
    (h : (settle host given).run disk = (.ok s, disk')) (hbase : disk'.base = disk.base) :
    ∀ path ∈ file, LeavesFile path disk' (run host arguments disk).2 := by
  intro path hp
  obtain ⟨hafter, hexit⟩ := run_of_settle hr.parsed hr.quiet h
  rw [hafter]
  exact leavesFile_of_keeps (keeps_compile_deliver fun hok output ho =>
    hbase ▸ he (hexit.2 hok) output ho path hp)

theorem History.hasWord (h : History file done disk) :
    ∀ n ∈ (remembered done).logRetention, n < Nat.pow 2 32 := by
  induction h with
  | start => exact nofun
  | change _ _ ih => exact ih
  | @run _ _ _ _ given _ hr _ ih =>
    have hgiven := hasWord_of_parse hr.parsed
    rw [remembered_cons]
    split
    · intro n hn
      rcases (Option.orElse_eq_some _ _ _).1 hn with hn | ⟨-, hn⟩
      · exact hgiven n hn
      · exact ih n hn
    · exact ih

/-- Behind any runs the settings in the file are those that are remembered. -/
theorem History.isSaved (h : History file done disk) : IsSaved file disk (remembered done) := by
  induction h with
  | start h => exact .inl ⟨rfl, h⟩
  | change h hl ih => exact ih.leavesFile hl
  | run h hr he ih =>
    obtain ⟨disk', hsettle, hbase, -, hsaved⟩ := ih.settle h.hasWord hr
    rw [remembered_cons]
    exact hsaved.leavesFile (leavesFile_of_settle hr he hsettle hbase)

/-- The directory of a configuration; the working directory if the path has no other. -/
def directoryOf (config : Path) : Path :=
  match config.directory? with
  | none => ⟨"."⟩
  | some directory => if directory.text = "" then ⟨"."⟩ else directory

theorem effectiveServicePath_eq (s : Settings) (config : Path) :
    s.effectiveServicePath config = s.servicePath.getD (directoryOf config) := by
  unfold Settings.effectiveServicePath directoryOf
  congr 1
  rcases config.directory? with _ | ⟨⟨text⟩⟩
  · rfl
  · by_cases ht : text = ""
    · rw [ht]
      rfl
    · split
      · next he => cases he
      · next he =>
        cases he
        exact absurd rfl ht
      · next he =>
        cases he
        exact (if_neg ht).symm

/-- The settings in effect in a run are the ones it chooses, and where it chooses nothing the latest
that were to be remembered; where there are none, the format is JSON and the directory that of the
configuration. A run that is not to remember its choice leaves the saved settings alone. -/
theorem settings_of_history (h : History file done disk)
    (hr : IsRun file host arguments given disk) :
    (∃ s disk', (settle host given).run disk = (.ok s, disk') ∧
      (execute host given).run disk =
        (compile host given.config s >>= deliver given.output).run disk' ∧
      s.effectiveFormat = (given.chosen.format <|> latest Settings.format done).getD .json ∧
      s.logRetention = (given.chosen.logRetention <|> latest Settings.logRetention done) ∧
      s.effectiveServicePath given.config =
        (given.chosen.servicePath <|> latest Settings.servicePath done).getD
          (directoryOf given.config)) ∧
    (given.isRemembered = false → GoesElsewhere file host arguments given disk →
      ∀ path ∈ file,
        ((run host arguments disk).2.read path).toOption = (disk.read path).toOption) := by
  obtain ⟨disk', hsettle, hbase, hsame, -⟩ := h.isSaved.settle h.hasWord hr
  refine ⟨⟨given.chosen.orSaved (remembered done), disk', hsettle,
    execute_of_settle hr.quiet hsettle, rfl, rfl, effectiveServicePath_eq _ _⟩, fun hg he => ?_⟩
  cases hsame hg
  exact h.isSaved.read_eq (leavesFile_of_settle hr he hsettle hbase)

section Overwritten

/-- A configuration with nothing but what has to be there. -/
def plainText : String := "name: api\nauthentication:\n  type: API_KEY\n"

def workDisk : Disk where
  base := ["work"]
  nodes := [
    (["work", "api.yml"], .file (some plainText)),
    (["work", "schema.graphql"], .file (some Compile.querySchema))]

def workHost : Host := ⟨some ⟨"/work/cfg"⟩, ⟨0, 0⟩⟩

def workSettings : Path := ⟨"/work/cfg/appsync-compiler/settings.json"⟩

def inYaml : Settings := ⟨some .yaml, none, none⟩

def yamlDisk : Disk where
  base := ["work"]
  nodes := workDisk.nodes ++ [
    (["work", "cfg"], .directory),
    (["work", "cfg", "appsync-compiler"], .directory),
    (["work", "cfg", "appsync-compiler", "settings.json"], .file (some inYaml.toJson.indented))]

def yamlArguments : List String := ["other.yml", "--save-defaults", "--format", "yaml"]

/-- A run that is to remember YAML, though its configuration is missing. -/
def yamlRun : Arguments := ⟨⟨"other.yml"⟩, inYaml, none, .off, true⟩

def plainArguments : List String := ["api.yml"]

/-- A run that chooses nothing. -/
def plainRun : Arguments := ⟨⟨"api.yml"⟩, .unset, none, .off, false⟩

theorem settings?_workHost : workHost.settings? = some workSettings := by rfl

theorem noFile_workDisk : workDisk.NoFile workSettings := by
  have hnone : workDisk.node? (placeFrom workDisk.base workSettings) = none := by rfl
  intro content hc
  cases hnone.symm.trans hc

theorem save_yamlRun : (yamlRun.chosen.orSaved (savedSettings workHost workDisk)).save workDisk
    workSettings = (.ok (), yamlDisk) := by decide +kernel

theorem isRun_yamlRun : IsRun (some workSettings) workHost yamlArguments yamlRun workDisk where
  parsed := by decide +kernel
  quiet := rfl
  home := settings?_workHost
  saved _ := ⟨workSettings, rfl, yamlDisk, save_yamlRun⟩

theorem run_yamlRun : (run workHost yamlArguments workDisk).2 = yamlDisk := by
  obtain ⟨hafter, -⟩ := run_of_settle isRun_yamlRun.parsed rfl
    (settle_of_remembered rfl settings?_workHost save_yamlRun)
  rw [hafter]
  rfl

theorem isRun_plainRun (disk : Disk) :
    IsRun (some workSettings) workHost plainArguments plainRun disk where
  parsed := by decide +kernel
  quiet := rfl
  home := settings?_workHost
  saved := nofun

theorem history_yamlRun : History (some workSettings) [yamlRun] yamlDisk := by
  have hstart : ∀ path ∈ some workSettings, workDisk.NoFile path := by
    rintro path ⟨⟩
    exact noFile_workDisk
  rw [← run_yamlRun]
  exact .run (.start hstart) isRun_yamlRun fun _ => nofun

theorem savedSettings_yamlDisk : savedSettings workHost yamlDisk = inYaml :=
  history_yamlRun.isSaved.savedSettings_eq settings?_workHost history_yamlRun.hasWord

theorem settings_plainRun : History (some workSettings) [yamlRun] yamlDisk ∧
    IsRun (some workSettings) workHost plainArguments plainRun yamlDisk ∧
    ∃ s disk', (settle workHost plainRun).run yamlDisk = (.ok s, disk') ∧
      s.effectiveFormat = .yaml ∧ s.logRetention = none ∧
      s.effectiveServicePath plainRun.config = ⟨"."⟩ := by
  obtain ⟨⟨s, disk', hsettle, -, hformat, hretention, hpath⟩, -⟩ :=
    settings_of_history history_yamlRun (isRun_plainRun yamlDisk)
  have hdirectory : directoryOf plainRun.config = ⟨"."⟩ := by rfl
  exact ⟨history_yamlRun, isRun_plainRun yamlDisk, s, disk', hsettle, hformat, hretention,
    hpath.trans hdirectory⟩

/-- A result that is to replace the settings. -/
def output : Path := ⟨"cfg/appsync-compiler/settings.json"⟩

def overwritingArguments : List String := ["api.yml", "-o", "cfg/appsync-compiler/settings.json"]

def overwritingRun : Arguments := ⟨⟨"api.yml"⟩, .unset, some output, .off, false⟩

theorem isRun_overwritingRun (disk : Disk) :
    IsRun (some workSettings) workHost overwritingArguments overwritingRun disk where
  parsed := by decide +kernel
  quiet := rfl
  home := settings?_workHost
  saved := nofun

open Compile Config in
theorem exists_stackOf_plainText : ∃ stack,
    stackOf ⟨yamlDisk.fileSystem, inYaml.effectiveServicePath ⟨"api.yml"⟩, none, workHost.now⟩
      plainText = .ok stack := by
  have he : (Api.read plainText).toOption.map (fun api => (api.schema, queryIdsIn?
      ⟨yamlDisk.fileSystem, inYaml.effectiveServicePath ⟨"api.yml"⟩, none, workHost.now⟩ api)) =
      some (["schema.graphql"], some ["GraphQlApi", "GraphQlSchema"]) := by
    have hchars : plainText.toList = _ := String.toList_ofList
    rw [Api.read_of_toList hchars]
    decide +kernel
  obtain ⟨api, hr, he⟩ := exists_of_toOption_map he
  obtain ⟨hpattern, hids⟩ := Prod.mk.inj he
  have hsources : schemaSources ⟨yamlDisk.fileSystem, inYaml.effectiveServicePath ⟨"api.yml"⟩,
      none, workHost.now⟩ api = .ok [querySchema] := by
    unfold schemaSources schemaFiles
    rw [hpattern]
    rfl
  have hschema := schema_of_text hsources (schemaText_singleton validate_querySchema)
  obtain ⟨stack, hs⟩ := exists_stack_of_schema hschema hids (by decide)
  exact ⟨stack, bind_eq_ok_iff.2 ⟨api, hr, hs⟩⟩

/-- The settings in effect later are not those that were remembered, but none at all. -/
theorem savedSettings_overwritten :
    savedSettings workHost (run workHost overwritingArguments yamlDisk).2 = .unset := by
  have hread : yamlDisk.read ⟨"api.yml"⟩ = .ok plainText := by rfl
  have hmade : yamlDisk.ensureDirectory (output.directory?.getD ⟨""⟩) = (.ok (), yamlDisk) := by
    rfl
  have hsame : yamlDisk.fileAt workSettings = yamlDisk.fileAt output := by decide +kernel
  obtain ⟨stack, hstack⟩ := exists_stackOf_plainText
  obtain ⟨disk', hw⟩ : ∃ disk', yamlDisk.write output (render .yaml stack) = .ok disk' := by
    have hfile : yamlDisk.fileAt output =
        .ok ["work", "cfg", "appsync-compiler", "settings.json"] := by rfl
    rw [Disk.write, Disk.writeContent, hfile]
    exact ⟨_, rfl⟩
  have hsettle : (settle workHost overwritingRun).run yamlDisk = (.ok inYaml, yamlDisk) := by
    rw [settle_of_not_remembered rfl, savedSettings_yamlDisk]
    rfl
  have hwritten : (compile workHost overwritingRun.config inYaml >>=
      deliver overwritingRun.output).run yamlDisk = (.ok "", disk') :=
    (run_bind_of_ok (run_compile_of_stackOf hread hstack)).trans (run_deliver_of_write hmade hw)
  obtain ⟨hafter, -⟩ := run_of_settle (isRun_overwritingRun yamlDisk).parsed rfl hsettle
  rw [hafter, hwritten, savedSettings, settings?_workHost]
  simp only [Settings.load, Disk.read_of_write hw hsame, read?_render_yaml]
  rfl

/-- A result that goes where the settings are takes away what was remembered, though its run was not
to remember anything. -/
theorem settings_lost_to_result :
    workDisk.NoFile workSettings ∧
    IsRun (some workSettings) workHost yamlArguments yamlRun workDisk ∧
    ∃ disk disk', (run workHost yamlArguments workDisk).2 = disk ∧
      IsRun (some workSettings) workHost overwritingArguments overwritingRun disk ∧
      overwritingRun.isRemembered = false ∧
      (run workHost overwritingArguments disk).2 = disk' ∧
      savedSettings workHost disk = inYaml ∧ savedSettings workHost disk' = .unset ∧
      IsRun (some workSettings) workHost plainArguments plainRun disk' ∧
      ∃ s, (settle workHost plainRun).run disk' = (.ok s, disk') ∧ s.effectiveFormat = .json ∧
        (plainRun.chosen.format <|> latest Settings.format [overwritingRun, yamlRun]).getD .json =
          .yaml := by
  refine ⟨noFile_workDisk, isRun_yamlRun, yamlDisk, _, run_yamlRun, isRun_overwritingRun _, rfl,
    rfl, savedSettings_yamlDisk, savedSettings_overwritten, isRun_plainRun _, .unset, ?_, rfl, rfl⟩
  rw [settle_of_not_remembered rfl, savedSettings_overwritten]
  rfl

end Overwritten

end ApiStack.CommandLine
