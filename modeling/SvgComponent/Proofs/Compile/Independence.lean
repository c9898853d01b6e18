import Mathlib.Data.List.Nodup
import SvgComponent.Proofs.Compile.Outcomes

/-!
# Files are compiled independently

If the files in an input folder do not get into each other's way (`Separate`), then it does not
matter by which schedule they are compiled, and what becomes of a file is told by its name, what it
holds and what stands where its component goes. Other files can stop a file from being compiled only
by standing where the output folder is to be made (`Exchanged`).

* `separate_of_stems` : different stems are enough if the host is steady, the extension holds no
  slash and at the places of the components there are neither links nor files of several names;
* `compile_independent` : all schedules come to the same, and a file that two folders share fares in
  the same way in both;
* `not_independent` : none of the conditions can be left out.
-/

namespace SvgComponent

/-- The same stands at each location. -/
structure Disk.Alike (disk other : Disk) : Prop where
  cwd : other.cwd = disk.cwd
  same : ∀ v, SameAt disk other v

namespace Config

open Disk

/-- A folder whose files do not get into each other's way : no component goes to a file that is to
be read or where another one goes, and what has been written changes neither where the paths lead
nor what the host says. -/
structure Separate (config : Config) (disk : Disk) (names : List String) : Prop
    extends config.Orderly disk names where
  slashless : '/' ∉ config.extension.toList
  steady : disk.Steady
  alone : ∀ name ∈ names, config.Alone names (config.prepared names disk) name
  links : ∀ name ∈ names, ∀ folder target,
    (config.prepared names disk).FolderAt config.outputPath folder →
    (config.prepared names disk).at?
        (folder ++ [.text (Component.outputFile name config.extension)]) = some (.link target) →
      ∃ v, (config.prepared names disk).Leads (config.componentFile name) v

/-- The same folders and links, and nothing in the way of the output folder. -/
structure Exchanged (config : Config) (names : List String) (disk other : Disk) : Prop where
  keeps : Keeps disk other
  kept : Keeps other disk
  clear : ∀ v, disk.at? v = none → (config.prepared names disk).IsFolder v →
    other.at? v = none

/-- A file holds the same on two disks, and the same stands where its component goes. -/
structure Shares (config : Config) (names : List String) (disk other : Disk) (name : String) :
    Prop where
  input : ∀ v, disk.Leads (config.inputFile name) v → other.content? v = disk.content? v
  output : ∀ v, (config.prepared names disk).Leads (config.componentFile name) v →
    SameAt disk other v

/-- A file fares in the same way in two runs : it is reported as the same, and its component goes to
the same place, where there is the same. -/
structure SameFor (config : Config) (name : String) (report : Report) (after : Disk)
    (report' : Report) (after' : Disk) : Prop where
  target : config.compiledAs name ∈ report'.targets ↔ config.compiledAs name ∈ report.targets
  failure : ∀ message, ⟨config.sourceFile name, message⟩ ∈ report'.failures ↔
    ⟨config.sourceFile name, message⟩ ∈ report.failures
  component : ∀ v, after.Leads (config.componentFile name) v →
    after'.Leads (config.componentFile name) v ∧ SameAt after after' v

variable {config : Config} {disk other start start' : Disk} {shop shop' : Workshop}
  {name : String} {names others : List String} {v w : Location}

/-! ## Separate files -/

namespace Separate

/-- Separate files are ready to be compiled by themselves. -/
theorem ready (h : config.Separate disk names) (hcan : config.CanPrepare names disk) :
    config.Ready names (config.prepared names disk) := by
  have hgrown := grown_prepared config names disk
  refine ⟨h.steady.congr hgrown.keeps.host, fun name hn => ?_, fun name hn => ?_, h.apart,
    h.alone⟩
  · obtain ⟨folder, hlisted⟩ := h.exists_listed hn
    have hname := (h.isEntryName hn).isName
    have hfolder := (folderAt_of_leads hlisted.leads hlisted.isFolder).keep hgrown.keeps
    rw [inputFile_eq config hname]
    refine fixed_join hfolder hname fun target hl => ?_
    exact absurd ((hgrown.keeps.link _ target).1 hl) (hlisted.not_link target)
  · obtain ⟨folder, hfolder⟩ := folderAt_prepared h.sound.cwd (List.ne_nil_of_mem hn) hcan
    have hname := Component.isName_outputFile (h.isEntryName hn).isName h.slashless
    exact fixed_join hfolder hname fun target hl => h.links name hn folder target hfolder hl

end Separate

/-- Whether an entry is neither a link nor a name of a file that has several. -/
def isPlain : Entry → Bool
  | .folder | .file _ | .special _ => true
  | .link _ | .shared _ => false

/-- Files of different stems do not get into each other's way, if the host is steady, the extension
holds no slash and there are neither links nor files of several names where components are to be. -/
theorem separate_of_stems (folder : Location) (ho : config.Orderly disk names)
    (hs : disk.Steady) (hext : '/' ∉ config.extension.toList)
    (hcan : config.CanPrepare names disk) (hstems : (names.map Path.stem).Nodup)
    (hfolder : (config.prepared names disk).FolderAt config.outputPath folder)
    (hplain : ∀ name ∈ names, ((config.prepared names disk).at?
      (folder ++ [.text (Component.outputFile name config.extension)])).all isPlain = true) :
    config.Separate disk names := by
  have hnolink : ∀ name ∈ names, ∀ target, (config.prepared names disk).at?
      (folder ++ [.text (Component.outputFile name config.extension)]) ≠ some (.link target) := by
    intro name hn target hl
    have hplain := hplain name hn
    rw [hl] at hplain
    cases hplain
  have hplace : ∀ name ∈ names, ∀ w,
      (config.prepared names disk).Leads (config.componentFile name) w →
      ¬ (config.prepared names disk).IsFolder w →
      w = folder ++ [.text (Component.outputFile name config.extension)] := by
    intro name hn w hw hf
    obtain ⟨found, hfound, hplaced⟩ := placedIn_of_leads ho.listed hcan hn hw hf ho.sound hext
    cases hfolder.unique hfound
    exact hplaced.resolve_right fun ⟨target, hl⟩ => hnolink name hn target hl
  refine ⟨ho, hext, hs, fun name hn other hother hne v w hv hw hf hj => ?_,
    fun name hn found target hfound hl => ?_⟩
  · cases hplace name hn w hw hf
    rcases hj with rfl | ⟨number, -, hshared⟩
    · have he := hplace other hother _ hv hf
      have hfile := Name.text.inj (List.singleton_inj.1 (List.append_cancel_left he))
      exact hne (List.inj_on_of_nodup_map hstems hother hn (Component.outputFile_inj.1 hfile).symm)
    · have hplain := hplain name hn
      rw [hshared] at hplain
      cases hplain
  · cases hfolder.unique hfound
    exact absurd hl (hnolink name hn target)

/-! ## The report -/

namespace Finished

/-- A file is reported as compiled if it is. -/
theorem compiledAs_mem_iff (h : config.Finished names start shop)
    (ha : config.Alone names start name) (hn : name ∈ names) :
    config.compiledAs name ∈
        (reportOf (names.filterMap fun name => (shop.progress name).result?)).targets ↔
      (config.outcome start name).1 = .ok (config.compiledAs name) := by
  rw [h.results_eq, mem_targets_iff, List.mem_map]
  refine ⟨?_, fun ho => ⟨name, hn, ho⟩⟩
  rintro ⟨other, hother, ho⟩
  by_cases hne : other = name
  · subst hne
    exact ho
  -- Another file that is reported as the same would have been written to the same file.
  have hresult := h.isResult other hother
  rw [ho] at hresult
  obtain ⟨hsame, htrace⟩ := hresult
  obtain ⟨⟨w, bytes⟩, hw⟩ := Option.isSome_iff_exists.1 htrace
  obtain ⟨hl, hf⟩ := place_outcome hw
  have hpath : config.componentFile name = config.componentFile other :=
    congrArg (Path.join config.outputPath) (congrArg Compiled.file hsame)
  have hl' : start.Leads (config.componentFile name) w := by rwa [hpath]
  exact absurd (.refl start w) (ha other hother hne w w hl hl' hf)

/-- A file is reported with the message that it fails with. -/
theorem failed_mem_iff (h : config.Finished names start shop)
    (hnames : ∀ name ∈ names, Path.IsName name) (hn : name ∈ names) {message : String} :
    ⟨config.sourceFile name, message⟩ ∈
        (reportOf (names.filterMap fun name => (shop.progress name).result?)).failures ↔
      (config.outcome start name).1 = .error ⟨config.sourceFile name, message⟩ := by
  rw [h.results_eq, mem_failures_iff, List.mem_map]
  refine ⟨?_, fun ho => ⟨name, hn, ho⟩⟩
  rintro ⟨other, hother, ho⟩
  have hresult := h.isResult other hother
  rw [ho] at hresult
  cases Path.join_injective config.inputDir (hnames name hn).not_isAbsolute
    (hnames other hother).not_isAbsolute hresult.1
  exact ho

end Finished

/-! ## Two folders -/

/-- Paths lead to one location each, so what two disks share can be looked up. -/
theorem Shares.of_locate
    (hin : disk.locate false (config.inputFile name) = .ok v ∧ other.content? v = disk.content? v)
    (hout : Disk.locate (config.prepared names disk) false (config.componentFile name) = .ok w ∧
      SameAt disk other w) : config.Shares names disk other name := by
  refine ⟨fun u hu => ?_, fun u hu => ?_⟩
  · cases (leads_of_locate hin.1).unique hu
    exact hin.2
  · cases (leads_of_locate hout.1).unique hu
    exact hout.2

/-- What becomes of a file is told by what it holds and what stands where its component goes. -/
theorem outcome_congr (hr : config.Ready names start) (hn : name ∈ names)
    (hk : Keeps start start')
    (hin : ∀ v, start.Leads (config.inputFile name) v →
      (start'.at? v).isNone = (start.at? v).isNone ∧ start'.content? v = start.content? v)
    (hout : ∀ v, start.Leads (config.componentFile name) v → start'.at? v = start.at? v) :
    config.outcome start' name = config.outcome start name := by
  have ha := hk.agree hr.steady
  have hread : config.readComponent name start' = config.readComponent name start := by
    rw [readComponent, readComponent, read_congr hr.steady hk.host
      (hr.input name hn start start' false ha) fun v hv => hin v (leads_of_locate hv)]
  have hopen := openFile_congr hr.steady hk.host (hr.output name hn start start' true ha)
    fun v hv => hout v (leads_of_locate hv)
  cases hc : config.readComponent name start with
  | error message =>
    rw [outcome_of_readComponent_eq_error (hread.trans hc), outcome_of_readComponent_eq_error hc]
  | ok text =>
    cases ho : (start.openFile (config.componentFile name)).map Prod.fst with
    | error fault =>
      rw [outcome_of_openFile_eq_error (hread.trans hc) (hopen.trans ho),
        outcome_of_openFile_eq_error hc ho]
    | ok place =>
      rw [outcome_of_openFile_eq_ok (hread.trans hc) (hopen.trans ho),
        outcome_of_openFile_eq_ok hc ho, hr.steady.passed hk.host]

/-- A file that two folders share fares in the same way in both. -/
theorem sameFor_of_finished (hr : config.Ready names start) (hr' : config.Ready others start')
    (hnames : ∀ name ∈ names, Path.IsName name) (hnames' : ∀ name ∈ others, Path.IsName name)
    (hn : name ∈ names) (hn' : name ∈ others) (hf : config.Finished names start shop)
    (hf' : config.Finished others start' shop') (hkeeps : Keeps start start')
    (hout : config.outcome start' name = config.outcome start name)
    (hsame : ∀ v, start.Leads (config.componentFile name) v → SameAt start start' v) :
    config.SameFor name
      (reportOf (names.filterMap fun name => (shop.progress name).result?)) shop.disk
      (reportOf (others.filterMap fun name => (shop'.progress name).result?)) shop'.disk := by
  refine ⟨?_, fun message => ?_, fun v hv => ?_⟩
  · rw [hf'.compiledAs_mem_iff (hr'.alone name hn') hn',
      hf.compiledAs_mem_iff (hr.alone name hn) hn, hout]
  · rw [hf'.failed_mem_iff hnames' hn', hf.failed_mem_iff hnames hn, hout]
  · have hstart := hv.keep hf.kept
    have hstart' := hstart.keep hkeeps
    have hv := hsame v hstart
    refine ⟨hstart'.keep hf'.keeps, ?_⟩
    by_cases hfolder : start.IsFolder v
    · exact .of_isFolder (hf.keeps.folder v hfolder)
        (hf'.keeps.folder v (hkeeps.folder v hfolder))
    have hfolder' : ¬ start'.IsFolder v := by rwa [IsFolder, hv.entry]
    cases ho : (config.outcome start name).2 with
    | none =>
      have hkept := hf.sameAt_of_none (hr.alone name hn) ho hstart hfolder
      have hkept' := hf'.sameAt_of_none (hr'.alone name hn') (hout ▸ ho) hstart' hfolder'
      exact (hkept.symm.trans hv).trans hkept'
    | some written =>
      obtain ⟨w, bytes⟩ := written
      cases (place_outcome ho).1.unique hstart
      have hholds := hf.holds name hn v bytes ho v (.refl start v)
      have hholds' := (hf'.holds name hn' v bytes (hout ▸ ho) v (.refl start' v)).of_sameAt hv
      exact ⟨hholds'.entry.trans hholds.entry.symm, hholds'.content.trans hholds.content.symm⟩

/-- Where nothing is in the way the output folder is made on another disk as well. -/
theorem Exchanged.prepare (h : config.Exchanged names disk other) (hs : disk.Steady)
    (hne : names ≠ []) (hne' : others ≠ []) (hcan : config.CanPrepare names disk) :
    config.CanPrepare others other ∧
      Keeps (config.prepared names disk) (config.prepared others other) ∧
      ∀ v, ¬ (config.prepared names disk).IsFolder v →
        SameAt other (config.prepared others other) v := by
  have hgrown := grown_prepared config names disk
  have halong : Alongside (config.prepared names disk) disk other := by
    refine ⟨hgrown.keeps, ⟨hgrown.keeps.cwd.symm, h.keeps.cwd.trans hgrown.keeps.cwd.symm,
      hs.ask h.keeps.host .search, fun v hf => ?_,
      fun v target => (hgrown.keeps.link v target).symm,
      fun v target => (h.keeps.link v target).trans (hgrown.keeps.link v target).symm⟩, hs,
      h.keeps.host⟩
    rcases hgrown.entry v with hsame | ⟨hnone, -, -⟩
    · have hd : disk.IsFolder v := hsame.entry.symm.trans hf
      exact (h.keeps.folder v hd).trans hd.symm
    · rw [h.clear v hnone hf, hnone]
  have hhost := (grown_prepared config others other).keeps.host.trans
    (h.keeps.host.trans hgrown.keeps.host.symm)
  rw [canPrepare_iff config disk hne] at hcan
  rw [canPrepare_iff config other hne']
  rw [prepared_of_ne_nil config disk hne] at halong hhost ⊢
  rw [prepared_of_ne_nil config other hne'] at hhost ⊢
  obtain ⟨hok, hmade, hsame⟩ := halong.makeFolders hcan (.refl _)
  exact ⟨hok, hmade.agree.keeps hhost, hsame⟩

/-- It does not matter by which schedule files are compiled. -/
theorem Compiles.alike {result result' : Except CompileFault Report × Disk}
    (hc : config.Compiles disk result) (hc' : config.Compiles disk result')
    (h : config.Separate disk names) : result'.1 = result.1 ∧ Disk.Alike result.2 result'.2 := by
  obtain ⟨schedule, hs, rfl⟩ := hc.exists_schedule h.listed
  obtain ⟨schedule', hs', rfl⟩ := hc'.exists_schedule h.listed
  by_cases hcan : config.CanPrepare names disk
  · have hf := finished_play (h.ready hcan) hs
    have hf' := finished_play (h.ready hcan) hs'
    rw [compileBy_of_canPrepare h.listed hcan, compileBy_of_canPrepare h.listed hcan, compiledBy,
      compiledBy]
    dsimp only
    rw [hf.results_eq, hf'.results_eq]
    exact ⟨rfl, hf'.keeps.cwd.trans hf.keeps.cwd.symm, hf.sameAt hf'⟩
  · obtain ⟨fault, hfail⟩ := compileBy_of_not_canPrepare h.listed hcan
    rw [hfail, hfail]
    exact ⟨rfl, rfl, fun v => .refl _ v⟩

/-- What two folders share is the same once the output folders are made. -/
theorem Exchanged.outcome_eq (h : config.Exchanged names disk other)
    (hd : config.Separate disk names) (ho : config.Separate other others)
    (hcan : config.CanPrepare names disk) (hn : name ∈ names) (hn' : name ∈ others)
    (hshares : config.Shares names disk other name) :
    config.outcome (config.prepared others other) name =
        config.outcome (config.prepared names disk) name ∧
      ∀ v, (config.prepared names disk).Leads (config.componentFile name) v →
        SameAt (config.prepared names disk) (config.prepared others other) v := by
  obtain ⟨-, hkeeps, hsame⟩ :=
    h.prepare hd.steady (List.ne_nil_of_mem hn) (List.ne_nil_of_mem hn') hcan
  have hgrown := grown_prepared config names disk
  have hplace : ∀ v, (config.prepared names disk).Leads (config.componentFile name) v →
      SameAt (config.prepared names disk) (config.prepared others other) v := by
    intro v hv
    by_cases hf : (config.prepared names disk).IsFolder v
    · exact .of_isFolder hf (hkeeps.folder v hf)
    · exact ((hgrown.sameAt_of_not_isFolder hf).symm.trans (hshares.output v hv)).trans (hsame v hf)
  refine ⟨outcome_congr (hd.ready hcan) hn hkeeps (fun v hv => ?_) fun v hv => (hplace v hv).entry,
    hplace⟩
  obtain ⟨hl, hne, hsame⟩ := hd.sameAt_input hn hv
  obtain ⟨-, hne', hsame'⟩ := ho.sameAt_input hn' (hv.keep hkeeps)
  constructor
  · rw [hsame'.entry, hsame.entry, Option.isNone_eq_false_iff.2 (Option.isSome_iff_ne_none.2 hne'),
      Option.isNone_eq_false_iff.2 (Option.isSome_iff_ne_none.2 hne)]
  · rw [hsame'.content, hshares.input v hl, hsame.content]

/-- It does not matter by which schedule files are compiled, nor, for each of them, which others
there are. -/
theorem compile_independent (h : config.Separate disk names) :
    (∀ result result', config.Compiles disk result → config.Compiles disk result' →
      result'.1 = result.1 ∧ Disk.Alike result.2 result'.2) ∧
    ∀ report after, config.Compiles disk (.ok report, after) →
      ∀ other others, config.Separate other others → config.Exchanged names disk other →
        ∀ result', config.Compiles other result' →
          ∀ name, name ∈ names → name ∈ others → config.Shares names disk other name →
            ∃ report' after', result' = (.ok report', after') ∧
              config.SameFor name report after report' after' := by
  refine ⟨fun result result' hc hc' => hc.alike hc' h, ?_⟩
  intro report after hc other others ho hexchanged result' hc' name hn hn' hshares
  obtain ⟨hcan, schedule, hs, hresult⟩ := hc.eq_ok h.listed
  obtain ⟨schedule', hs', rfl⟩ := hc'.exists_schedule ho.listed
  obtain ⟨hcan', hkeeps, -⟩ :=
    hexchanged.prepare h.steady (List.ne_nil_of_mem hn) (List.ne_nil_of_mem hn') hcan
  obtain ⟨hout, hsame⟩ := hexchanged.outcome_eq h ho hcan hn hn' hshares
  cases hresult
  exact ⟨_, _, compileBy_of_canPrepare ho.listed hcan' schedule',
    sameFor_of_finished (h.ready hcan) (ho.ready hcan') (fun _ hn => (h.isEntryName hn).isName)
      (fun _ hn => (ho.isEntryName hn).isName) hn hn' (finished_play (h.ready hcan) hs)
      (finished_play (ho.ready hcan') hs') hkeeps hout hsame⟩

/-! ## Icons in a folder -/

/-- An icon. -/
def oneIcon : Disk :=
  iconDisk [(["in", "a.svg"], textFile "<svg/>")]

/-- The icon and a broken one. -/
def twoIcons : Disk :=
  iconDisk [(["in", "a.svg"], textFile "<svg/>"), (["in", "b.svg"], textFile "<svg>")]

theorem separate_oneIcon : (icons "out" "js").Separate oneIcon ["a.svg"] :=
  separate_of_stems (iconPlace ["out"])
    (orderly_of_pairwise (fun _ _ _ => rfl) (iconPlace ["in"]) (by decide +kernel)
      (by decide +kernel))
    (fun _ _ => ⟨rfl, rfl⟩) (by decide) (by decide +kernel) (by decide +kernel)
    (folderAt_of_locate (by decide +kernel) (by decide +kernel))
    (by decide +kernel)

theorem separate_twoIcons : (icons "out" "js").Separate twoIcons ["a.svg", "b.svg"] :=
  separate_of_stems (iconPlace ["out"])
    (orderly_of_pairwise (fun _ _ _ => rfl) (iconPlace ["in"]) (by decide +kernel)
      (by decide +kernel))
    (fun _ _ => ⟨rfl, rfl⟩) (by decide) (by decide +kernel) (by decide +kernel)
    (folderAt_of_locate (by decide +kernel) (by decide +kernel))
    (by decide +kernel)

/-- An icon fares as if the broken one next to it were not there, and as if it came last. -/
theorem compile_independent_broken :
    (icons "out" "js").Separate twoIcons ["a.svg", "b.svg"] ∧
    ((icons "out" "js").compileBy (inARow ["b.svg", "a.svg"]) twoIcons).1 =
      ((icons "out" "js").compile twoIcons).1 ∧
    ∃ report after report' after', (icons "out" "js").compile twoIcons = (.ok report, after) ∧
      (icons "out" "js").compile oneIcon = (.ok report', after') ∧
      (icons "out" "js").SameFor "a.svg" report after report' after' := by
  have hcan : (icons "out" "js").CanPrepare ["a.svg", "b.svg"] twoIcons := by decide +kernel
  have hexchanged : (icons "out" "js").Exchanged ["a.svg", "b.svg"] twoIcons oneIcon := by
    refine ⟨keeps_of_entries rfl rfl (by decide +kernel) (by decide +kernel),
      keeps_of_entries rfl rfl (by decide +kernel) (by decide +kernel), fun v hnone hf => ?_⟩
    have hclear :
        ∀ entry ∈ ((icons "out" "js").prepared ["a.svg", "b.svg"] twoIcons).entries.entries,
        twoIcons.at? entry.1 = none → oneIcon.at? entry.1 = none := by decide +kernel
    exact hclear _ (mem_of_at?_eq_some hf (ne_nil_of_at?_eq_none hnone)) hnone
  have hshares : (icons "out" "js").Shares ["a.svg", "b.svg"] twoIcons oneIcon "a.svg" :=
    .of_locate (v := iconPlace ["in", "a.svg"]) (w := iconPlace ["out", "a.js"])
      (by decide +kernel) (by decide +kernel)
  obtain ⟨hany, hboth⟩ := compile_independent separate_twoIcons
  have hc := compile_of_canPrepare separate_twoIcons.listed hcan
  have hschedule : IsSchedule ["a.svg", "b.svg"] (inARow ["b.svg", "a.svg"]) :=
    isSchedule_inARow (.swap _ _ _)
  have hcompiles : (icons "out" "js").Compiles twoIcons _ := .inTurn
  rw [hc] at hcompiles
  obtain ⟨report', after', hc', hsame⟩ := hboth _ _ hcompiles oneIcon ["a.svg"]
    separate_oneIcon hexchanged _ .inTurn "a.svg" (by decide) (by decide) hshares
  exact ⟨separate_twoIcons, (hany _ _ .inTurn (.bySchedule separate_twoIcons.listed hschedule)).1,
    _, _, report', after', hc, hc', hsame⟩

/-! ## What the conditions are for -/

/-- Files of different stems, none of which is where a component goes, and two orders to compile
them in that come to different things. -/
structure OrderMatters (config : Config) (disk : Disk) (names order : List String) : Prop where
  orderly : config.Orderly disk names
  stems : (names.map Path.stem).Nodup
  schedule : IsSchedule names (inARow order)
  differ : ¬ ((config.compileBy (inARow order) disk).1 = (config.compile disk).1 ∧
    Disk.Alike (config.compile disk).2 (config.compileBy (inARow order) disk).2)

/-- Two orders come to different things if they leave different things somewhere, or if a failure is
reported after one of them only. -/
theorem orderMatters_of {order : List String} (ho : config.Orderly disk names)
    (hstems : (names.map Path.stem).Nodup) (hcan : config.CanPrepare names disk)
    (hperm : order.Perm names) (v : Location) (failed : Failed)
    (h : let shop := config.play (inARow names) (opened (config.prepared names disk))
      let shop' := config.play (inARow order) (opened (config.prepared names disk))
      ¬ SameAt shop.disk shop'.disk v ∨
        .error failed ∈ names.filterMap (fun name => (shop.progress name).result?) ∧
        .error failed ∉ names.filterMap (fun name => (shop'.progress name).result?)) :
    config.OrderMatters disk names order := by
  refine ⟨ho, hstems, isSchedule_inARow hperm, ?_⟩
  rw [compile_of_canPrepare ho.listed hcan, compileBy_of_canPrepare ho.listed hcan]
  rintro ⟨hreport, halike⟩
  rcases h with hv | ⟨hfailed, hnot⟩
  · exact hv (halike.same v)
  · have hfailures :
        (config.compiledBy names (inARow order) (config.prepared names disk)).1.failures =
        (config.compiledBy names (inARow names) (config.prepared names disk)).1.failures :=
      congrArg Report.failures (Except.ok.inj hreport)
    rw [compiledBy, compiledBy] at hfailures
    exact hnot (mem_failures_iff.1 (hfailures ▸ mem_failures_iff.2 hfailed))

/-- Two icons, and a folder for each of them where the components are to go. -/
def crossingIcons : Disk :=
  iconDisk [(["in", "a.svg"], textFile "<svg/>"), (["in", "b.svg"], textFile "<svg/>"),
    (["out"], .folder), (["out", "a.x"], .folder), (["out", "b.x"], .folder)]

/-- Two icons, and one file of two names for their components. -/
def joinedIcons : Disk :=
  iconDisk [(["in", "a.svg"], textFile "<svg/>"), (["in", "b.svg"], textFile "<svg/>"),
    (["out"], .folder), (["out", "a.js"], .shared 0), (["out", "b.js"], .shared 0)]

/-- Two icons, and a link in place of one component that leads to where there is nothing, past the
other one. -/
def linkedIcons : Disk :=
  iconDisk [(["in", "a.svg"], textFile "<svg/>"), (["in", "b.svg"], textFile "<svg/>"),
    (["out"], .folder),
    (["out", "b.js"], .link ⟨false, [.name (.text "a.js"), .name (.text "x")], false⟩)]

/-- Two icons on a disk that has room for one component. -/
def scarceIcons : Disk :=
  { iconDisk [(["in", "a.svg"], textFile "<svg/>"), (["in", "b.svg"], textFile "<svg/>")] with
    host := { stop := fun store _ _ =>
      if store.entries.entries.length ≤ 6 then none
      else some (0, .refused "No space left on device (os error 28)") } }

/-- With slashes in the extension components of different stems may go to one file. -/
theorem orderMatters_crossingIcons :
    (icons "out" "x/../y").OrderMatters crossingIcons ["a.svg", "b.svg"] ["b.svg", "a.svg"] :=
  orderMatters_of
    (orderly_of_pairwise (fun _ _ _ => rfl) (iconPlace ["in"]) (by decide +kernel)
      (by decide +kernel)) (by decide +kernel) (by decide +kernel) (.swap _ _ _)
    (iconPlace ["out", "y"]) ⟨"", ""⟩ (by decide +kernel)

/-- Two names of one file : the component that is filled in last stays under both. -/
theorem orderMatters_joinedIcons :
    (icons "out" "js").OrderMatters joinedIcons ["a.svg", "b.svg"] ["b.svg", "a.svg"] :=
  orderMatters_of
    (orderly_of_pairwise (fun _ _ _ => rfl) (iconPlace ["in"]) (by decide +kernel)
      (by decide +kernel)) (by decide +kernel) (by decide +kernel) (.swap _ _ _)
    (iconPlace ["out", "a.js"]) ⟨"", ""⟩ (by decide +kernel)

/-- The link leads past a file once the other component is there. -/
theorem orderMatters_linkedIcons :
    (icons "out" "js").OrderMatters linkedIcons ["a.svg", "b.svg"] ["b.svg", "a.svg"] :=
  orderMatters_of
    (orderly_of_pairwise (fun _ _ _ => rfl) (iconPlace ["in"]) (by decide +kernel)
      (by decide +kernel)) (by decide +kernel) (by decide +kernel) (.swap _ _ _)
    (iconPlace []) ((icons "out" "js").unwritten "b.svg" .notFolder) (by decide +kernel)

/-- A host with room for one component : the one that comes first is written. -/
theorem orderMatters_scarceIcons :
    (icons "out" "js").OrderMatters scarceIcons ["a.svg", "b.svg"] ["b.svg", "a.svg"] :=
  orderMatters_of
    (orderly_of_pairwise (fun _ _ _ => rfl) (iconPlace ["in"]) (by decide +kernel)
      (by decide +kernel)) (by decide +kernel) (by decide +kernel) (.swap _ _ _)
    (iconPlace ["out", "a.js"]) ⟨"", ""⟩ (by decide +kernel)

/-- A file matters to another one that is the same on both disks, though no component goes to it :
it stands where the output folder is to be made. -/
structure Obstructed (config : Config) (disk other : Disk) (names others : List String)
    (name : String) : Prop where
  orderly : config.Orderly disk names
  orderly_other : config.Orderly other others
  stems : (others.map Path.stem).Nodup
  shares : config.Shares names disk other name
  compiled : ∃ report after, config.compile disk = (.ok report, after) ∧
    config.compiledAs name ∈ report.targets
  stopped : ∀ report after, config.compile other ≠ (.ok report, after)

/-- A broken icon whose name is that of the output folder : nothing can be compiled next to it. -/
theorem obstructed_icons :
    (icons "in/b.svg/out" "js").Obstructed oneIcon twoIcons ["a.svg"] ["a.svg", "b.svg"]
      "a.svg" := by
  have hone : (icons "in/b.svg/out" "js").Orderly oneIcon ["a.svg"] :=
    orderly_of_pairwise (fun _ _ _ => rfl) (iconPlace ["in"]) (by decide +kernel)
      (by decide +kernel)
  have htwo : (icons "in/b.svg/out" "js").Orderly twoIcons ["a.svg", "b.svg"] :=
    orderly_of_pairwise (fun _ _ _ => rfl) (iconPlace ["in"]) (by decide +kernel)
      (by decide +kernel)
  have hcan : (icons "in/b.svg/out" "js").CanPrepare ["a.svg"] oneIcon := by decide +kernel
  have hcannot : ¬ (icons "in/b.svg/out" "js").CanPrepare ["a.svg", "b.svg"] twoIcons := by
    decide +kernel
  have hshares : (icons "in/b.svg/out" "js").Shares ["a.svg"] oneIcon twoIcons "a.svg" :=
    .of_locate (v := iconPlace ["in", "a.svg"]) (w := iconPlace ["in", "b.svg", "out", "a.js"])
      (by decide +kernel) (by decide +kernel)
  refine ⟨hone, htwo, by decide +kernel, hshares, ?_, fun report after hc => ?_⟩
  · exact ⟨_, _, compile_of_canPrepare hone.listed hcan, mem_targets_iff.2 (by decide +kernel)⟩
  · obtain ⟨fault, hfail⟩ := compileBy_of_not_canPrepare htwo.listed hcannot
    rw [compile_eq_compileBy htwo.listed, hfail] at hc
    cases hc

/-- The order matters where components go to one file, through slashes in the extension or as one
has two names, where a link leads past another component, and where the host says something else
depending on what is on the disk; and a file in the way of the output folder matters to the
others. -/
theorem not_independent :
    (ofFields (iconFields "out" "x/../y") "/icons" = .ok (icons "out" "x/../y") ∧
      (icons "out" "x/../y").OrderMatters crossingIcons ["a.svg", "b.svg"] ["b.svg", "a.svg"]) ∧
    (ofFields (iconFields "out" "js") "/icons" = .ok (icons "out" "js") ∧
      (icons "out" "js").OrderMatters joinedIcons ["a.svg", "b.svg"] ["b.svg", "a.svg"] ∧
      (icons "out" "js").OrderMatters linkedIcons ["a.svg", "b.svg"] ["b.svg", "a.svg"] ∧
      (icons "out" "js").OrderMatters scarceIcons ["a.svg", "b.svg"] ["b.svg", "a.svg"]) ∧
    (ofFields (iconFields "in/b.svg/out" "js") "/icons" = .ok (icons "in/b.svg/out" "js") ∧
      (icons "in/b.svg/out" "js").Obstructed oneIcon twoIcons ["a.svg"] ["a.svg", "b.svg"]
        "a.svg") :=
  ⟨⟨rfl, orderMatters_crossingIcons⟩,
    ⟨rfl, orderMatters_joinedIcons, orderMatters_linkedIcons, orderMatters_scarceIcons⟩,
    ⟨rfl, obstructed_icons⟩⟩

end Config

end SvgComponent
