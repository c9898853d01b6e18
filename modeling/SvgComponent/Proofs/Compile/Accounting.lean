import SvgComponent.Proofs.Compile.Folder
import SvgComponent.Run

/-!
# Every file is accounted for

A run that ends with a report accounts for each input file once, as a component or as a failure
(`Covers`). All that it leaves differently are files that the paths of components lead to, each of
them of a file that is reported as compiled or as one that could not be written to the end, and
folders on the way to the output folder (`Touched`). A run that fails leaves at most such folders.

This holds of all configurations, disks, hosts and schedules, also where components get into each
other's way. A component may stand outside the output folder : where a link stands at its place, and
where slashes are in the extension, which is written as it is.
-/

namespace SvgComponent

namespace Config

open Disk

variable {config : Config} {disk start after : Disk} {shop : Workshop}
  {names schedule : List String} {name : String} {v w : Location} {report : Report}

/-! ## The report -/

/-- A report that accounts for each of some files once, its parts in order of file names. -/
structure Covers (config : Config) (names : List String) (report : Report) : Prop where
  once : ∃ compiled failed : List String, (compiled ++ failed).Perm names ∧
    report.targets.Perm (compiled.map config.compiledAs) ∧
    (report.failures.map Failed.file).Perm (failed.map config.sourceFile)
  targets : report.targets.Pairwise fun a b => a.file ≤ b.file
  failures : report.failures.Pairwise fun a b => a.file ≤ b.file

/-- There are as many targets and failures as files. -/
theorem Covers.length_add_length (h : config.Covers names report) :
    report.targets.length + report.failures.length = names.length := by
  obtain ⟨compiled, failed, hperm, ht, hf⟩ := h.once
  have htargets := ht.length_eq
  have hfailures := hf.length_eq
  rw [List.length_map] at htargets
  rw [List.length_map, List.length_map] at hfailures
  rw [htargets, hfailures, ← List.length_append, hperm.length_eq]

/-- What can be reported of a file, whatever it has written. -/
def IsReported (config : Config) (name : String) (result : Except Failed Compiled) : Prop :=
  ∃ trace, config.IsResult name result trace

/-- What is reported of each file makes up a report on all of them. -/
theorem covers_reportOf {results : List (Except Failed Compiled)}
    (h : List.Forall₂ config.IsReported names results) :
    config.Covers names (reportOf results) := by
  have honce : ∃ compiled failed : List String, (compiled ++ failed).Perm names ∧
      results.filterMap compiled? = compiled.map config.compiledAs ∧
      (results.filterMap failed?).map Failed.file = failed.map config.sourceFile := by
    induction h with
    | nil => exact ⟨[], [], .refl _, rfl, rfl⟩
    | @cons name result names results hr _ ih =>
      obtain ⟨compiled, failed, hperm, hc, hf⟩ := ih
      obtain ⟨trace, hr⟩ := hr
      cases result with
      | ok made =>
        obtain ⟨rfl, -⟩ := hr
        exact ⟨name :: compiled, failed, hperm.cons name, congrArg (_ :: ·) hc, hf⟩
      | error fault =>
        refine ⟨compiled, name :: failed, List.perm_middle.trans (hperm.cons name), hc, ?_⟩
        rw [List.map_cons, ← hf, ← hr.1]
        rfl
  have hsorted {α : Type} (file : α → String) (l : List α) :
      (l.mergeSort fun a b => decide (file a ≤ file b)).Pairwise fun a b => file a ≤ file b := by
    refine (List.pairwise_mergeSort ?_ ?_ l).imp of_decide_eq_true
    · simp only [decide_eq_true_eq]
      exact fun a b c => String.le_trans
    · intro a b
      rw [Bool.or_eq_true, decide_eq_true_eq, decide_eq_true_eq]
      exact String.le_total _ _
  obtain ⟨compiled, failed, hperm, hc, hf⟩ := honce
  refine ⟨⟨compiled, failed, hperm, ?_, ?_⟩, hsorted _ _, hsorted _ _⟩
  · exact (List.mergeSort_perm _ _).trans (.of_eq hc)
  · exact ((List.mergeSort_perm _ _).map _).trans (.of_eq hf)

/-- Files that are done have results that can be reported. -/
theorem forall₂_isReported (ht : config.Traced names start shop) {some : List String}
    (h : ∀ name ∈ some, ∃ result trace, shop.progress name = .done result trace) :
    List.Forall₂ config.IsReported some
      (some.filterMap fun name => (shop.progress name).result?) := by
  induction some with
  | nil => exact .nil
  | cons name rest ih =>
    rw [List.forall_mem_cons] at h
    obtain ⟨result, trace, hd⟩ := h.1
    rw [List.filterMap_cons, hd]
    exact .cons ⟨trace, ht.result name result trace hd⟩ (ih h.2)

/-! ## What a run leaves -/

/-- What a run may leave differently at a location :
* the file that the path of a component leads to, also under its other names. Its file is reported
  as compiled or as one whose component could not be written, and it stands in the output folder if
  the extension holds no slash and there is no link;
* a folder on the way to the output folder, where nothing was. -/
inductive Touched (config : Config) (disk after : Disk) (names : List String) (report : Report)
    (v : Location) : Prop
  | component {name : String} {w : Location} (hn : name ∈ names)
    (hr : config.compiledAs name ∈ report.targets ∨
      ∃ fault, config.unwritten name fault ∈ report.failures)
    (hl : after.Leads (config.componentFile name) w) (hj : after.Joined v w)
    (hd : disk.Sound → '/' ∉ config.extension.toList → ∃ folder,
      after.FolderAt config.outputPath folder ∧ config.PlacedIn after folder name w)
  | folder (hv : after.OnWay config.outputPath v) (hn : disk.at? v = none)
    (hf : after.IsFolder v)

/-- A run that accounts for the files in the input folder. -/
structure Accounts (config : Config) (disk : Disk) (names : List String) (report : Report)
    (after : Disk) : Prop where
  listed : disk.files config.inputPath = .ok names
  nodup : names.Nodup
  mem_iff : ∀ name, name ∈ names ↔ ∃ folder, disk.Leads config.inputPath folder ∧
    disk.IsFolder folder ∧
    ∃ entry, disk.at? (folder ++ [.text name]) = some entry ∧ entry.isFile = true
  covers : config.Covers names report
  keeps : Keeps disk after
  touched : ∀ v, ¬ SameAt disk after v →
    names ≠ [] ∧ config.Touched disk after names report v

/-- What a run may come to. -/
def Settled (config : Config) (disk : Disk) : Except CompileFault Report × Disk → Prop
  | (.ok report, after) => ∃ names, config.Accounts disk names report after
  | (.error (.unreadableInput ..), after) => after = disk
  | (.error (.noOutput ..), after) => Grown (OnWay after config.outputPath) disk after

/-- A file that has written something is reported as compiled, or as one whose component could not
be written. -/
theorem reported_of_trace (ht : config.Traced names start shop)
    (hdone : ∃ result trace, shop.progress name = .done result trace) (hn : name ∈ names)
    {bytes : ByteArray} (hw : (shop.progress name).trace = some (w, bytes)) :
    let report := reportOf (names.filterMap fun name => (shop.progress name).result?)
    config.compiledAs name ∈ report.targets ∨
      ∃ fault, config.unwritten name fault ∈ report.failures := by
  obtain ⟨result, trace, hd⟩ := hdone
  have hresult := ht.result name result trace hd
  have hmem : result ∈ names.filterMap fun name => (shop.progress name).result? :=
    mem_results_iff.2 ⟨name, hn, trace, hd⟩
  rw [hd] at hw
  cases result with
  | ok compiled =>
    obtain ⟨rfl, -⟩ := hresult
    exact .inl (mem_targets_iff.2 hmem)
  | error failed =>
    obtain ⟨fault, rfl⟩ := hresult.2 (Option.isSome_iff_exists.2 ⟨_, hw⟩)
    exact .inr ⟨fault, mem_failures_iff.2 hmem⟩

/-- What is different at the end is touched. -/
theorem touched_play (hl : disk.files config.inputPath = .ok names)
    (hcan : config.CanPrepare names disk) (h : IsSchedule names schedule)
    (hv : ¬ SameAt disk (config.play schedule (opened (config.prepared names disk))).disk v) :
    names ≠ [] ∧ config.Touched disk
      (config.play schedule (opened (config.prepared names disk))).disk names
      (config.compiledBy names schedule (config.prepared names disk)).1 v := by
  have hgrown := grown_prepared config names disk
  have ht := traced_play config (config.prepared names disk) h
  by_cases hw : ∃ name w bytes,
      ((config.play schedule (opened (config.prepared names disk))).progress name).trace =
        some (w, bytes) ∧ (config.prepared names disk).Joined v w
  · obtain ⟨name, w, bytes, hw, hj⟩ := hw
    obtain ⟨hn, hleads, hf⟩ := ht.place name w bytes hw
    refine ⟨List.ne_nil_of_mem hn, .component hn
      (reported_of_trace ht ((exists_done_iff h _).2 hn) hn hw) (hleads.keep ht.keeps)
      (ht.joined_iff.2 hj) fun hs hext => ?_⟩
    obtain ⟨folder, hfolder, hplaced⟩ := placedIn_of_leads hl hcan hn hleads hf hs hext
    exact ⟨folder, hfolder.keep ht.keeps,
      hplaced.imp_right fun ⟨target, he⟩ => ⟨target, (ht.keeps.link _ target).2 he⟩⟩
  · have hsame := ht.same v fun name w bytes ho hj => hw ⟨name, w, bytes, ho, hj⟩
    obtain ⟨hnone, hf, hon⟩ := (hgrown.entry v).resolve_left fun hg => hv (hg.trans hsame)
    refine ⟨?_, .folder (hon.keep ht.keeps) hnone (ht.keeps.folder v hf)⟩
    rintro rfl
    rw [prepared_nil] at hsame
    exact hv hsame

/-- A run by any schedule accounts for its files, or leaves at most folders. -/
theorem settled_compileBy (hl : disk.files config.inputPath = .ok names)
    (h : IsSchedule names schedule) : config.Settled disk (config.compileBy schedule disk) := by
  by_cases hcan : config.CanPrepare names disk
  · have ht := traced_play config (config.prepared names disk) h
    have hdone := forall₂_isReported ht fun name (hn : name ∈ names) =>
      (exists_done_iff h (config.prepared names disk)).2 hn
    rw [compileBy_of_canPrepare hl hcan]
    refine ⟨names, hl, nodup_files hl, fun name => ?_, covers_reportOf hdone,
      (grown_prepared config names disk).keeps.trans ht.keeps,
      fun v hv => touched_play hl hcan h hv⟩
    obtain ⟨folder, hfolder, -⟩ := files_eq_ok hl
    rw [mem_files_iff hl hfolder]
    refine ⟨fun hm => ⟨folder, hfolder, hm⟩, ?_⟩
    rintro ⟨other, hother, hm⟩
    cases hfolder.unique hother
    exact hm
  · obtain ⟨fault, hc⟩ := compileBy_of_not_canPrepare hl hcan
    rw [hc]
    exact grown_prepared config names disk

/-- Whatever compiling comes to, it leaves all but what it accounts for. -/
theorem Compiles.settled {result : Except CompileFault Report × Disk}
    (h : config.Compiles disk result) : config.Settled disk result := by
  cases hl : disk.files config.inputPath with
  | error fault =>
    rw [h.eq_of_files_eq_error hl]
    rfl
  | ok names =>
    obtain ⟨schedule, hs, rfl⟩ := h.exists_schedule hl
    exact settled_compileBy hl hs

end Config

/-- Compiling accounts for each file in the input folder once and touches nothing but what it
writes, or leaves at most folders. A run either compiles or ends before that, and then leaves the
disk as it is. -/
theorem run_settled :
    (∀ (config : Config) (disk : Disk) (result : Except CompileFault Report × Disk),
      config.Compiles disk result → config.Settled disk result) ∧
    ∀ (arguments : Arguments) (disk : Disk),
      (∃ fault, arguments.loadConfig disk = .error fault ∧
        arguments.run disk = (.error fault, disk)) ∨
      ∃ config, arguments.loadConfig disk = .ok config ∧ arguments.run disk =
        ((config.compile disk).1.mapError .compile, (config.compile disk).2) := by
  refine ⟨fun config disk result h => h.settled, fun arguments disk => ?_⟩
  rw [Arguments.run]
  cases hc : arguments.loadConfig disk with
  | error fault => exact .inl ⟨fault, rfl, rfl⟩
  | ok config =>
    refine .inr ⟨config, rfl, ?_⟩
    dsimp only
    cases config.compile disk with
    | mk result after => cases result <;> rfl

/-- An icon and a file that is none. -/
def brokenPair : Disk :=
  Config.iconDisk [(["in", "a.svg"], Config.textFile "<svg/>"),
    (["in", "b.svg"], Config.textFile "<svg>")]

theorem run_settled_brokenPair :
    ∃ report after, (Config.icons "out" "js").Compiles brokenPair (.ok report, after) ∧
      report.targets.length + report.failures.length = 2 := by
  have horderly : (Config.icons "out" "js").Orderly brokenPair ["a.svg", "b.svg"] :=
    Config.orderly_of_pairwise (fun _ _ _ => rfl) (Config.iconPlace ["in"]) (by decide +kernel)
      (by decide +kernel)
  have hcan : (Config.icons "out" "js").CanPrepare ["a.svg", "b.svg"] brokenPair := by
    decide +kernel
  have hc := Config.Compiles.bySchedule horderly.listed (Config.isSchedule_inARow (.refl _))
  rw [Config.compileBy_of_canPrepare horderly.listed hcan] at hc
  obtain ⟨names, haccounts⟩ := run_settled.1 _ _ _ hc
  refine ⟨_, _, hc, ?_⟩
  cases horderly.listed.symm.trans haccounts.listed
  exact haccounts.covers.length_add_length

/-! ## Components outside the output folder, and components cut off -/

/-- What a run leaves differently stands in the output folder under the name of a component that is
reported as compiled, or is that folder or one around it. -/
def Config.Inside (config : Config) (disk : Disk) : Prop :=
  ∀ report after, config.compile disk = (.ok report, after) → ∀ v, ¬ disk.SameAt after v →
    ∃ folder, after.FolderAt config.outputPath folder ∧
      (v <+: folder ∨ ∃ target ∈ report.targets, v = folder ++ [.text target.file])

/-- An icon, and a folder where its component is to be. -/
def shadowedIcon : Disk :=
  Config.iconDisk [(["in", "a.svg"], Config.textFile "<svg/>"), (["out"], .folder),
    (["out", "a.js"], .folder)]

/-- An icon, and a link where its component is to be. -/
def linkedIcon : Disk :=
  Config.iconDisk [(["in", "a.svg"], Config.textFile "<svg/>"), (["out"], .folder),
    (["out", "a.js"], .link ⟨false, [.up, .name (.text "x")], false⟩)]

/-- An icon on a disk that is full after two more bytes. -/
def cutOffIcon : Disk :=
  { Config.iconDisk [(["in", "a.svg"], Config.textFile "<svg/>")] with
    host := { stop := fun _ _ _ => some (2, .refused "No space left on device (os error 28)") } }

/-- A run is not inside if it leaves something elsewhere. -/
theorem Config.not_inside {config : Config} {disk : Disk} {names : List String}
    {folder v : Location} (hl : disk.files config.inputPath = .ok names)
    (hcan : config.CanPrepare names disk)
    (hf : (config.prepared names disk).FolderAt config.outputPath folder)
    (hv : let shop := config.play (inARow names) (opened (config.prepared names disk))
      ¬ disk.SameAt shop.disk v ∧ ¬ v <+: folder ∧
        ∀ target ∈ (names.filterMap fun name => (shop.progress name).result?).filterMap compiled?,
          v ≠ folder ++ [.text target.file]) :
    ¬ config.Inside disk := by
  obtain ⟨hchanged, hprefix, htarget⟩ := hv
  intro h
  have ht := traced_play config (config.prepared names disk) (isSchedule_inARow (.refl names))
  obtain ⟨found, hfound, hplace⟩ := h _ _ (compile_of_canPrepare hl hcan) v hchanged
  cases hfound.unique (hf.keep ht.keeps)
  rcases hplace with hp | ⟨target, hm, he⟩
  · exact hprefix hp
  · exact htarget target (List.mem_mergeSort.1 hm) he

/-- With slashes in the extension a component may stand outside the output folder, and so it may
where there is a link; and a component that is cut off belongs to no file that is reported as
compiled. -/
theorem not_forall_inside :
    (Config.ofFields (Config.iconFields "out" "js/../../x") "/icons" =
        .ok (Config.icons "out" "js/../../x") ∧
      ¬ (Config.icons "out" "js/../../x").Inside shadowedIcon) ∧
    Config.ofFields (Config.iconFields "out" "js") "/icons" = .ok (Config.icons "out" "js") ∧
      ¬ (Config.icons "out" "js").Inside linkedIcon ∧
      ¬ (Config.icons "out" "js").Inside cutOffIcon := by
  have hlisted {disk : Disk} (h : disk.locate false "/icons/in" = .ok (Config.iconPlace ["in"]) ∧
      disk.IsFolder (Config.iconPlace ["in"]) ∧ disk.ask .list (Config.iconPlace ["in"]) = .ok () ∧
      disk.entries.entries.filterMap (Disk.fileIn? (Config.iconPlace ["in"])) = ["a.svg"]) :
      disk.files "/icons/in" = .ok ["a.svg"] :=
    Disk.files_of_pairwise h.1 h.2.1 h.2.2.1 h.2.2.2 (by simp)
  have hout {disk : Disk} (h : disk.locate false "/icons/out" = .ok (Config.iconPlace ["out"]) ∧
      disk.IsFolder (Config.iconPlace ["out"])) :
      disk.FolderAt "/icons/out" (Config.iconPlace ["out"]) :=
    Disk.folderAt_of_locate h.1 h.2
  refine ⟨⟨rfl, ?_⟩, rfl, ?_, ?_⟩
  · exact Config.not_inside (v := Config.iconPlace ["x"]) (hlisted (by decide +kernel))
      (by decide +kernel) (hout (by decide +kernel)) (by decide +kernel)
  · exact Config.not_inside (v := Config.iconPlace ["x"]) (hlisted (by decide +kernel))
      (by decide +kernel) (hout (by decide +kernel)) (by decide +kernel)
  · exact Config.not_inside (v := Config.iconPlace ["out", "a.js"]) (hlisted (by decide +kernel))
      (by decide +kernel) (hout (by decide +kernel)) (by decide +kernel)

end SvgComponent
