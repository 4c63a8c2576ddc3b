import ApiStack.Proofs.Files.Disk
import ApiStack.Proofs.Settings

namespace ApiStack

theorem Settings.read_of_save {s : Settings} {disk disk' : Disk} {path : Path}
    (h : s.save disk path = (.ok (), disk')) :
    disk'.base = disk.base ∧ disk'.read path = .ok s.toJson.indented := by
  have hbase := (Disk.keeps_ensureDirectory [] disk (path.directory?.getD ⟨""⟩)).base
  unfold Settings.save at h
  simp only at h
  generalize disk.ensureDirectory (path.directory?.getD ⟨""⟩) = made at h hbase
  rcases made with ⟨fault | ⟨⟩, above⟩
  · cases h
  · simp only at h hbase
    split at h
    · cases h
    · next hw =>
      cases h
      exact ⟨(Disk.base_of_write hw).trans hbase, Disk.read_of_write hw rfl⟩

namespace CommandLine

open Disk (Place Keeps)

variable {host : Host} {given : Arguments} {disk disk' : Disk} {s : Settings} {place : Place}
  {arguments : List String}

/-- A result is printed, or goes to a file. -/
def deliver (output : Option Path) (text : String) : Action String := do
  match output with
  | none => return text ++ "\n"
  | some path =>
    writeResult path text
    return ""

theorem run_get_bind {α : Type} (f : Disk → Action α) (disk : Disk) :
    ((get >>= f : Action α)).run disk = (f disk).run disk := rfl

theorem run_change {context : String} {f : Disk → Except FileFault Disk} :
    (change context f).run disk =
      match f disk with
      | .ok disk' => (.ok (), disk')
      | .error fault => (.error ⟨context, [fault.message]⟩, disk) := by
  rw [change, run_get_bind]
  cases f disk <;> rfl

theorem run_writeResult {path : Path} {text : String} :
    (writeResult path text).run disk =
      match disk.ensureDirectory (path.directory?.getD ⟨""⟩) with
      | (.error fault, above) =>
        (.error ⟨"Failed to create " ++ (path.directory?.getD ⟨""⟩).text, [fault.message]⟩, above)
      | (.ok (), above) =>
        (change ("Failed to write " ++ path.text) fun disk => disk.write path text).run above := by
  rw [writeResult, run_get_bind]
  rcases disk.ensureDirectory (path.directory?.getD ⟨""⟩) with ⟨fault | ⟨⟩, above⟩ <;> rfl

/-- A result that is not written to a file leaves the file as it is. -/
theorem keeps_writeResult {path : Path} {text : String}
    (h : ((writeResult path text).run disk).1 = .ok () → placeFrom disk.base path ≠ place) :
    Keeps place disk ((writeResult path text).run disk).2 := by
  have hkeeps := Disk.keeps_ensureDirectory place disk (path.directory?.getD ⟨""⟩)
  rw [run_writeResult] at h ⊢
  generalize disk.ensureDirectory (path.directory?.getD ⟨""⟩) = made at h hkeeps ⊢
  rcases made with ⟨fault | ⟨⟩, above⟩
  · exact hkeeps
  · simp only [run_change] at h ⊢
    cases hw : above.write path text with
    | error fault => exact hkeeps
    | ok after =>
      rw [hw] at h
      exact hkeeps.trans (Disk.keeps_write hw (hkeeps.base ▸ h rfl))

theorem run_compile (host : Host) (config : Path) (s : Settings) (disk : Disk) :
    ((compile host config s).run disk).2 = disk := by
  simp only [compile]
  rw [run_get_bind]
  split
  · rfl
  · split <;> rfl

theorem run_compile_of_stackOf {config : Path} {text : String} {stack : Compile.Stack}
    (hr : disk.read config = .ok text)
    (hs : Compile.stackOf ⟨disk.fileSystem, s.effectiveServicePath config, s.logRetention,
      host.now⟩ text = .ok stack) :
    (compile host config s).run disk = (.ok (render s.effectiveFormat stack), disk) := by
  rw [compile, run_get_bind, hr]
  simp only [hs]
  rfl

theorem read?_render_yaml (stack : Compile.Stack) :
    Settings.read? (render .yaml stack) = none := by
  have hkey : Yaml.isSimpleKey "resources" = true ∧
      (Yaml.printText 2 "resources").dropLast = 'r' :: "esources".toList := by decide +kernel
  apply Settings.read?_eq_none
  rw [render, Compile.Stack.toJson, Yaml.print, String.toList_ofList, Yaml.entryTexts,
    if_pos hkey.1, hkey.2]
  rfl

theorem settle_of_not_remembered (h : given.isRemembered = false) :
    (settle host given).run disk = (.ok (given.chosen.orSaved (savedSettings host disk)), disk) := by
  simp only [settle, h]
  rfl

theorem settle_of_remembered {path : Path} (h : given.isRemembered = true)
    (hp : host.settings? = some path)
    (hs : (given.chosen.orSaved (savedSettings host disk)).save disk path = (.ok (), disk')) :
    (settle host given).run disk =
      (.ok (given.chosen.orSaved (savedSettings host disk)), disk') := by
  have hsave : (saveSettings host (given.chosen.orSaved (savedSettings host disk))).run disk =
      (.ok (), disk') := by
    rw [saveSettings, hp]
    simp only
    rw [run_get_bind, hs]
    rfl
  rw [settle, run_get_bind]
  simp only [h, if_true]
  rw [run_bind_of_ok hsave]
  rfl

/-- Behind the settings nothing is left to do but to compile and to deliver. -/
theorem execute_of_settle (hl : given.logLevel = .off)
    (h : (settle host given).run disk = (.ok s, disk')) :
    (execute host given).run disk =
      (compile host given.config s >>= deliver given.output).run disk' := by
  have hlog : (openLog host given.logLevel).run disk = (.ok (), disk) := by
    rw [hl]
    rfl
  rw [execute, run_bind_of_ok hlog, run_bind_of_ok h]
  rfl

theorem keeps_deliver {output : Option Path} {text : String}
    (h : ((deliver output text).run disk).1.isOk = true →
      ∀ path ∈ output, placeFrom disk.base path ≠ place) :
    Keeps place disk ((deliver output text).run disk).2 := by
  cases output with
  | none => exact .refl place disk
  | some path =>
    have hkeeps (hne : ((writeResult path text).run disk).1 = .ok () →
        placeFrom disk.base path ≠ place) :
        Keeps place disk ((writeResult path text).run disk).2 := keeps_writeResult hne
    have hrun : (deliver (some path) text).run disk =
        (writeResult path text >>= fun _ => pure "").run disk := rfl
    rw [hrun, run_bind] at h ⊢
    rcases hw : (writeResult path text).run disk with ⟨_ | ⟨⟩, after⟩ <;> rw [hw] at h hkeeps
    · exact hkeeps nofun
    · exact hkeeps fun _ => h rfl path rfl

theorem run_deliver_of_write {path : Path} {text : String} {above : Disk}
    (hd : disk.ensureDirectory (path.directory?.getD ⟨""⟩) = (.ok (), above))
    (hw : above.write path text = .ok disk') :
    (deliver (some path) text).run disk = (.ok "", disk') := by
  have hwritten : (writeResult path text).run disk = (.ok (), disk') := by
    rw [run_writeResult, hd]
    simp only [run_change, hw]
  exact run_bind_of_ok hwritten

/-- Compiling and delivering leave a file as it is, unless the result goes there. -/
theorem keeps_compile_deliver {config : Path} {output : Option Path}
    (h : ((compile host config s >>= deliver output).run disk).1.isOk = true →
      ∀ path ∈ output, placeFrom disk.base path ≠ place) :
    Keeps place disk ((compile host config s >>= deliver output).run disk).2 := by
  have hsame := run_compile host config s disk
  rw [run_bind] at h ⊢
  rcases hc : (compile host config s).run disk with ⟨_ | text, after⟩ <;> rw [hc] at h hsame
  · cases hsame
    exact .refl place after
  · cases hsame
    exact keeps_deliver h

theorem run_of_settle (hp : parse arguments = .ok (.compile given)) (hl : given.logLevel = .off)
    (h : (settle host given).run disk = (.ok s, disk')) :
    (run host arguments disk).2 =
        ((compile host given.config s >>= deliver given.output).run disk').2 ∧
      ((run host arguments disk).1.exit = 0 ↔
        ((compile host given.config s >>= deliver given.output).run disk').1.isOk = true) := by
  rw [run, hp]
  simp only [execute_of_settle hl h]
  rcases (compile host given.config s >>= deliver given.output).run disk' with ⟨_ | _, after⟩
  · exact ⟨rfl, iff_of_false Nat.one_ne_zero Bool.false_ne_true⟩
  · exact ⟨rfl, iff_of_true rfl rfl⟩

end CommandLine

end ApiStack
