import Mathlib.Control.Monad.Basic
import Mathlib.Data.List.Perm.Basic
import SvgComponent.Proofs.Compile.Tracing

/-!
# What becomes of a folder

Compiling a folder lists its files, makes the output folder if there are any (`prepared`), and
compiles them, side by side as a schedule says (`compileBy`) or one after the other, which is one of
the schedules (`compile_eq_compileBy`). `Compiles` is either.

A folder is orderly if no component goes to a file that is to be read (`Orderly`).
-/

namespace SvgComponent

namespace Config

open Disk

/-! ## Any schedule -/

/-- The disk once the output folder is made, if there are files to compile. -/
def prepared (config : Config) (names : List String) (disk : Disk) : Disk :=
  (config.prepareOutput names disk).2

/-- Whether the output folder can be made, if there are files to compile. -/
def CanPrepare (config : Config) (names : List String) (disk : Disk) : Prop :=
  (config.prepareOutput names disk).1 = .ok ()

/-- What has been compiled when the files have had their turns. -/
def compiledBy (config : Config) (names schedule : List String) (start : Disk) : Report × Disk :=
  let shop := config.play schedule (opened start)
  (reportOf (names.filterMap fun name => (shop.progress name).result?), shop.disk)

/-- Compiles the input folder, its files having turns as a schedule says. -/
def compileBy (config : Config) (schedule : List String) (disk : Disk) :
    Except CompileFault Report × Disk :=
  match disk.files config.inputPath with
  | .error fault => (.error (.unreadableInput config.inputPath fault), disk)
  | .ok names =>
    match config.prepareOutput names disk with
    | (.error fault, disk) => (.error (.noOutput config.outputPath fault), disk)
    | (.ok _, disk) =>
      let (report, disk) := config.compiledBy names schedule disk
      (.ok report, disk)

/-- What compiling the input folder may come to : its files are compiled one after the other, or as
a schedule says. -/
inductive Compiles (config : Config) (disk : Disk) : Except CompileFault Report × Disk → Prop
  | inTurn : Compiles config disk (config.compile disk)
  | bySchedule {names schedule : List String} (hl : disk.files config.inputPath = .ok names)
      (h : IsSchedule names schedule) : Compiles config disk (config.compileBy schedule disk)

instance (config : Config) (names : List String) (disk : Disk) :
    Decidable (config.CanPrepare names disk) :=
  inferInstanceAs (Decidable (_ = Except.ok ()))

variable {config : Config} {disk after : Disk} {names schedule : List String} {name : String}
  {report : Report} {w : Location} {start : Disk}

/-- Where the output folder can be made, there is a report on the files. -/
theorem compileBy_of_canPrepare (hl : disk.files config.inputPath = .ok names)
    (h : config.CanPrepare names disk) (schedule : List String) :
    config.compileBy schedule disk =
      (.ok (config.compiledBy names schedule (config.prepared names disk)).1,
        (config.compiledBy names schedule (config.prepared names disk)).2) := by
  rw [CanPrepare] at h
  unfold compileBy prepared
  rw [hl]
  dsimp only
  generalize config.prepareOutput names disk = result at h ⊢
  obtain ⟨result, start⟩ := result
  cases h
  rfl

/-- Where the output folder cannot be made, every schedule ends before the first turn. -/
theorem compileBy_of_not_canPrepare (hl : disk.files config.inputPath = .ok names)
    (h : ¬ config.CanPrepare names disk) :
    ∃ fault, ∀ schedule, config.compileBy schedule disk =
      (.error (.noOutput config.outputPath fault), config.prepared names disk) := by
  rw [CanPrepare] at h
  unfold compileBy prepared
  simp only [hl]
  generalize config.prepareOutput names disk = result at h ⊢
  obtain ⟨result, start⟩ := result
  cases result with
  | error fault => exact ⟨fault, fun _ => rfl⟩
  | ok _ => exact absurd rfl h

/-- One file after the other is one schedule. -/
theorem compile_eq_compileBy (hl : disk.files config.inputPath = .ok names) :
    config.compile disk = config.compileBy (inARow names) disk := by
  unfold compile compileBy
  rw [hl]
  dsimp only
  generalize config.prepareOutput names disk = result
  obtain ⟨result, start⟩ := result
  cases result with
  | error fault => rfl
  | ok _ =>
    have hplay : config.compileFiles names start = _ :=
      play_inARow (opened start) (nodup_files hl) fun _ _ => rfl
    dsimp only
    rw [hplay, compiledBy]

/-- Where the output folder can be made, the files are compiled one after the other. -/
theorem compile_of_canPrepare (hl : disk.files config.inputPath = .ok names)
    (h : config.CanPrepare names disk) :
    config.compile disk =
      (.ok (config.compiledBy names (inARow names) (config.prepared names disk)).1,
        (config.compiledBy names (inARow names) (config.prepared names disk)).2) :=
  (compile_eq_compileBy hl).trans (compileBy_of_canPrepare hl h _)

namespace Compiles

variable {result : Except CompileFault Report × Disk}

/-- Once the files are listed some schedule is followed. -/
theorem exists_schedule (h : config.Compiles disk result)
    (hl : disk.files config.inputPath = .ok names) :
    ∃ schedule, IsSchedule names schedule ∧ result = config.compileBy schedule disk := by
  cases h with
  | inTurn => exact ⟨_, isSchedule_inARow (.refl names), compile_eq_compileBy hl⟩
  | bySchedule hl' hs =>
    cases hl.symm.trans hl'
    exact ⟨_, hs, rfl⟩

/-- Nothing happens if the files cannot be listed. -/
theorem eq_of_files_eq_error {fault : DiskFault} (h : config.Compiles disk result)
    (hl : disk.files config.inputPath = .error fault) :
    result = (.error (.unreadableInput config.inputPath fault), disk) := by
  cases h with
  | inTurn =>
    unfold compile
    rw [hl]
  | bySchedule hl' => cases hl.symm.trans hl'

/-- Where there is a report, the output folder has been made, and a schedule has been followed. -/
theorem eq_ok (h : config.Compiles disk (.ok report, after))
    (hl : disk.files config.inputPath = .ok names) :
    config.CanPrepare names disk ∧ ∃ schedule, IsSchedule names schedule ∧
      config.compiledBy names schedule (config.prepared names disk) = (report, after) := by
  obtain ⟨schedule, hs, hresult⟩ := h.exists_schedule hl
  by_cases hcan : config.CanPrepare names disk
  · rw [compileBy_of_canPrepare hl hcan] at hresult
    cases hresult
    exact ⟨hcan, schedule, hs, rfl⟩
  · obtain ⟨fault, hfail⟩ := compileBy_of_not_canPrepare hl hcan
    rw [hfail] at hresult
    cases hresult

end Compiles

/-! ## The output folder -/

theorem prepared_of_ne_nil (config : Config) (disk : Disk) (hne : names ≠ []) :
    config.prepared names disk = (disk.makeFolders config.outputPath).2 := by
  rw [prepared, prepareOutput, if_neg hne]

theorem canPrepare_iff (config : Config) (disk : Disk) (hne : names ≠ []) :
    config.CanPrepare names disk ↔ (disk.makeFolders config.outputPath).1 = .ok () := by
  rw [CanPrepare, prepareOutput, if_neg hne]

theorem prepared_nil (config : Config) (disk : Disk) : config.prepared [] disk = disk := rfl

/-- Making the output folder adds folders on its way, where nothing was. -/
theorem grown_prepared (config : Config) (names : List String) (disk : Disk) :
    Grown (OnWay (config.prepared names disk) config.outputPath) disk
      (config.prepared names disk) := by
  by_cases hnil : names = []
  · subst hnil
    exact .refl _ _
  · rw [prepared_of_ne_nil config disk hnil]
    exact grown_makeFolders disk config.outputPath

/-- Once it is made, the output path leads to a folder. -/
theorem folderAt_prepared (hcwd : disk.IsFolder disk.cwd) (hne : names ≠ [])
    (h : config.CanPrepare names disk) :
    ∃ folder, (config.prepared names disk).FolderAt config.outputPath folder := by
  rw [prepared_of_ne_nil config disk hne]
  exact folderAt_makeFolders hcwd ((canPrepare_iff config disk hne).1 h)

/-- A component stands in a folder under its name, unless there is a link. -/
def PlacedIn (config : Config) (disk : Disk) (folder : Location) (name : String) (w : Location) :
    Prop :=
  w = folder ++ [.text (Component.outputFile name config.extension)] ∨
    ∃ target, disk.at? (folder ++ [.text (Component.outputFile name config.extension)]) =
      some (.link target)

/-- Behind the output path a component goes to its place, if the extension holds no slash. -/
theorem placedIn_of_leads (hl : disk.files config.inputPath = .ok names)
    (hcan : config.CanPrepare names disk) (hn : name ∈ names)
    (hw : (config.prepared names disk).Leads (config.componentFile name) w)
    (hf : ¬ (config.prepared names disk).IsFolder w) (hs : disk.Sound)
    (hext : '/' ∉ config.extension.toList) : ∃ folder,
      (config.prepared names disk).FolderAt config.outputPath folder ∧
        config.PlacedIn (config.prepared names disk) folder name w := by
  obtain ⟨input, hlisted⟩ := listed_of_mem hl hn
  have hname := Component.isName_outputFile (hlisted.isEntryName hs).isName hext
  obtain ⟨folder, hfolder⟩ := folderAt_prepared hs.cwd (List.ne_nil_of_mem hn) hcan
  have haround := (grown_prepared config names disk).isFolder_dropLast hs hfolder.isFolder
  refine ⟨folder, hfolder, ?_⟩
  rcases eq_or_of_leads_join haround hfolder hname hw with hplace | hfolder | hlink
  · exact .inl hplace
  · exact absurd hfolder hf
  · exact .inr hlink

/-! ## The report -/

/-- The targets are the files that are compiled. -/
theorem mem_targets_iff {results : List (Except Failed Compiled)} {compiled : Compiled} :
    compiled ∈ (reportOf results).targets ↔ .ok compiled ∈ results := by
  rw [reportOf, List.mem_mergeSort, List.mem_filterMap]
  constructor
  · rintro ⟨result, hm, hr⟩
    cases result with
    | error failed => cases hr
    | ok other =>
      cases hr
      exact hm
  · exact fun hm => ⟨_, hm, rfl⟩

/-- The failures are those of the files that are not. -/
theorem mem_failures_iff {results : List (Except Failed Compiled)} {failed : Failed} :
    failed ∈ (reportOf results).failures ↔ .error failed ∈ results := by
  rw [reportOf, List.mem_mergeSort, List.mem_filterMap]
  constructor
  · rintro ⟨result, hm, hr⟩
    cases result with
    | ok compiled => cases hr
    | error other =>
      cases hr
      exact hm
  · exact fun hm => ⟨_, hm, rfl⟩

/-- What files are done with stands in the report. -/
theorem mem_results_iff {progress : String → Progress} {result : Except Failed Compiled} :
    result ∈ (names.filterMap fun name => (progress name).result?) ↔
      ∃ name ∈ names, ∃ trace, progress name = .done result trace := by
  rw [List.mem_filterMap]
  refine exists_congr fun name => and_congr_right fun _ => ?_
  cases progress name <;> simp [Progress.result?]

/-! ## Orderly folders -/

/-- A folder whose files are listed, where no component goes to a file that is to be read. -/
structure Orderly (config : Config) (disk : Disk) (names : List String) : Prop where
  sound : disk.Sound
  listed : disk.files config.inputPath = .ok names
  apart : config.Apart names (config.prepared names disk)

namespace Orderly

theorem exists_listed (h : config.Orderly disk names) (hn : name ∈ names) :
    ∃ folder, disk.Listed config.inputPath name folder :=
  listed_of_mem h.listed hn

theorem isEntryName (h : config.Orderly disk names) (hn : name ∈ names) : IsEntryName name := by
  obtain ⟨folder, hlisted⟩ := h.exists_listed hn
  exact hlisted.isEntryName h.sound

/-- A file is found where it was when the output folder is made. -/
theorem sameAt_input (h : config.Orderly disk names) (hn : name ∈ names) {v : Location}
    (hv : (config.prepared names disk).Leads (config.inputFile name) v) :
    disk.Leads (config.inputFile name) v ∧ disk.at? v ≠ none ∧
      SameAt disk (config.prepared names disk) v := by
  obtain ⟨folder, hlisted⟩ := h.exists_listed hn
  have hgrown := grown_prepared config names disk
  have hname := (h.isEntryName hn).isName
  have hfolder := folderAt_of_leads hlisted.leads hlisted.isFolder
  rw [inputFile_eq config hname] at hv ⊢
  obtain ⟨-, hlong, -⟩ := (leads_join_iff (hfolder.keep hgrown.keeps) hname).1 hv
  have hthere := hlisted.leads_join h.sound (.refl disk) hlong
  cases (hthere.keep hgrown.keeps).unique hv
  obtain ⟨entry, he, -⟩ := hlisted.isFile
  have hne : disk.at? (folder ++ [.text name]) ≠ none := by simp [he]
  exact ⟨hthere, hne, hgrown.sameAt hne⟩

end Orderly

/-! ## Hosts that refuse nothing -/

/-- Where the files stand in order and the host refuses nothing, whether a folder is orderly can be
computed. -/
theorem orderly_of_pairwise (hp : disk.Permissive) (folder : Location)
    (hl : disk.Sound ∧ disk.locate false config.inputPath = .ok folder ∧ disk.IsFolder folder ∧
      disk.entries.entries.filterMap (fileIn? folder) = names ∧ names.Pairwise (decide <| · ≤ ·))
    (hd : ∀ source ∈ names, ∀ target ∈ names, (config.prepared names disk).meet
      (config.inputFile source) (config.componentFile target) = false) :
    config.Orderly disk names := by
  obtain ⟨hs, hlocate, hf, hn, hpairwise⟩ := hl
  refine ⟨hs, files_of_pairwise hlocate hf (hp.ask _ _) hn hpairwise, ?_⟩
  intro source hsource target htarget v w hv hw
  exact not_joined_of_meet (hp.keep (grown_prepared config names disk).keeps)
    (hd source hsource target htarget) hv hw

/-- A component goes where no other one goes if no other path meets its own. -/
theorem alone_of_meet (hp : start.Permissive)
    (hd : ∀ other ∈ names, other ≠ name →
      start.meet (config.componentFile other) (config.componentFile name) = false) :
    config.Alone names start name :=
  fun other hother hne _ _ hv hw _ => not_joined_of_meet hp (hd other hother hne) hv hw

/-! ## Icons in a folder -/

/-- A configuration for icons, which are written where and with which extension is told. -/
def icons (outputDir extension : String) : Config where
  baseDir := "/icons"
  inputDir := "in"
  outputDir := outputDir
  target := .reactDom
  overrides := defaultOverrides
  stages := []
  template := some "\x7bsourceFile\x7d"
  extension := extension

/-- The fields that say so. -/
def iconFields (outputDir extension : String) : Fields where
  inputDir := some "in"
  outputDir := some outputDir
  plugins := some []
  template := some "\x7bsourceFile\x7d"
  extension := some extension

/-- A place in the folder of the icons. -/
def iconPlace (names : List String) : Location :=
  ("icons" :: names).map .text

/-- A file that holds a text. -/
def textFile (text : String) : Entry :=
  .file text.toUTF8

/-- A working folder with an input folder and what else is told. -/
def iconDisk (entries : List (List String × Entry)) : Disk where
  cwd := iconPlace []
  entries := .ofPairs ((iconPlace [], .folder) :: (iconPlace ["in"], .folder) ::
    entries.map fun entry => (iconPlace entry.1, entry.2))

end Config

end SvgComponent
