import Mathlib.Data.List.Dedup
import SvgComponent.Proofs.Compile.Folder

/-!
# Components that are kept

Each file that is compiled is reported as a component and written to a file named after its stem. So
files of the same stem are written to the same file, and the report counts more components than
there are :

* `components_kept_iff` : there are as many component files as the report counts exactly if the
  stems of the compiled files differ, and a compiled file holds its component where no other one is
  written to the same file;
* `not_components_kept` : two files of one stem.
-/

namespace SvgComponent.Config

open Disk

variable {config : Config} {disk after start : Disk} {shop : Workshop} {names : List String}
  {name : String} {report : Report}

/-! ## The report and the files -/

/-- The files that are done and compiled. -/
def compiledIn (names : List String) (shop : Workshop) : List String :=
  names.filter fun name => ((shop.progress name).result?.bind compiled?).isSome

theorem mem_compiledIn_iff : name ∈ compiledIn names shop ↔
    name ∈ names ∧ ∃ compiled trace, shop.progress name = .done (.ok compiled) trace := by
  rw [compiledIn, List.mem_filter]
  refine and_congr_right fun _ => ?_
  cases shop.progress name with
  | waiting | made | opened => simp [Progress.result?]
  | done result trace => cases result <;> simp [Progress.result?, compiled?]

/-- The report counts the files that are compiled. -/
theorem targets_perm (ht : config.Traced names start shop) (some : List String) :
    (reportOf (some.filterMap fun name => (shop.progress name).result?)).targets.Perm
      ((compiledIn some shop).map config.compiledAs) := by
  rw [reportOf]
  refine (List.mergeSort_perm _ _).trans (.of_eq ?_)
  rw [List.filterMap_filterMap, compiledIn]
  induction some with
  | nil => rfl
  | cons name rest ih =>
    rw [List.filterMap_cons, List.filter_cons, ih]
    cases hd : shop.progress name with
    | waiting | made | opened => rfl
    | done result trace =>
      cases result with
      | error failed => rfl
      | ok compiled =>
        obtain ⟨rfl, -⟩ := ht.result name _ trace hd
        rfl

/-- The components of compiled files are written to different paths exactly if the stems differ. -/
theorem nodup_componentFile_iff {compiled : List String} (hnodup : compiled.Nodup)
    (hnames : ∀ name ∈ compiled, Path.IsName name) :
    (compiled.map config.componentFile).Nodup ↔ (compiled.map Path.stem).Nodup := by
  rw [List.nodup_map_iff_inj_on hnodup, List.nodup_map_iff_inj_on hnodup]
  refine forall₂_congr fun a ha => forall₂_congr fun b hb => ?_
  rw [config.componentFile_inj (hnames a ha) (hnames b hb)]

/-- The path of a component leads to a file that holds it, if it does not lead to a device. -/
def HoldsComponent (config : Config) (disk after : Disk) (name : String) : Prop :=
  ∃ w text, config.IsComponent disk name text ∧ after.Leads (config.componentFile name) w ∧
    after.content? w = contentWith text.toUTF8 (disk.at? w)

/-- A compiled file that is alone holds its component. -/
theorem holdsComponent_of_alone (ho : config.Orderly disk names) {schedule : List String}
    (hs : IsSchedule names schedule)
    (hn : name ∈ compiledIn names
      (config.play schedule (opened (config.prepared names disk))))
    (ha : config.Alone names (config.prepared names disk) name) :
    config.HoldsComponent disk
      (config.play schedule (opened (config.prepared names disk))).disk name := by
  obtain ⟨hlisted, compiled, trace, hd⟩ := mem_compiledIn_iff.1 hn
  have ht := traced_play config (config.prepared names disk) hs
  have hsourced := sourced_play ho.apart hs name
  rw [hd] at hsourced
  obtain ⟨w, text, rfl, v, svg, hv, hc, htext⟩ := hsourced
  have htrace : ((config.play schedule (opened (config.prepared names disk))).progress
      name).trace = some (w, text.toUTF8) := by rw [hd, Progress.trace]
  obtain ⟨-, hw, hf⟩ := ht.place name w _ htrace
  obtain ⟨hv', -, hsame⟩ := ho.sameAt_input hlisted hv
  have hplace := (grown_prepared config names disk).sameAt_of_not_isFolder hf
  have hholds := kept_play ha hs w _ htrace w (.refl _ w)
  refine ⟨w, text, ⟨v, svg, hv', hsame.content.symm.trans hc, htext⟩, hw.keep ht.keeps, ?_⟩
  rw [hholds.content, hplace.entry]

/-- There are as many component files as components are reported exactly if the stems of the
compiled files differ; each file that is alone holds its component. -/
theorem components_kept_iff (ho : config.Orderly disk names)
    (hc : config.Compiles disk (.ok report, after)) :
    ∃ compiled : List String, compiled.Sublist names ∧
      report.targets.Perm (compiled.map config.compiledAs) ∧
      ((compiled.map config.componentFile).dedup.length = report.targets.length ↔
        (compiled.map Path.stem).Nodup) ∧
      ∀ name ∈ compiled, config.Alone names (config.prepared names disk) name →
        config.HoldsComponent disk after name := by
  obtain ⟨hcan, schedule, hs, hresult⟩ := hc.eq_ok ho.listed
  have ht := traced_play config (config.prepared names disk) hs
  cases hresult
  have htargets := targets_perm ht names
  have hsub : (compiledIn names
      (config.play schedule (opened (config.prepared names disk)))).Sublist names :=
    List.filter_sublist
  refine ⟨_, hsub, htargets, ?_, fun name hn ha => holdsComponent_of_alone ho hs hn ha⟩
  have hlength : ((compiledIn names
      (config.play schedule (opened (config.prepared names disk)))).map config.compiledAs).length =
      ((compiledIn names (config.play schedule (opened (config.prepared names disk)))).map
        config.componentFile).length := by
    rw [List.length_map, List.length_map]
  rw [← nodup_componentFile_iff ((nodup_files ho.listed).sublist hsub)
    fun name hn => (ho.isEntryName (hsub.subset hn)).isName]
  rw [htargets.length_eq, hlength, ← List.dedup_eq_self]
  exact ⟨(List.dedup_sublist _).eq_of_length, fun h => by rw [h]⟩

/-- Two icons of different stems. -/
def pairOfIcons : Disk :=
  iconDisk [(["in", "a.svg"], textFile "<svg/>"), (["in", "b.svg"], textFile "<svg/>")]

/-- Icons of different stems are both kept. -/
theorem components_kept_pair :
    (icons "out" "js").Orderly pairOfIcons ["a.svg", "b.svg"] ∧
    ∃ report after, (icons "out" "js").Compiles pairOfIcons (.ok report, after) ∧
      ∃ compiled : List String, report.targets.Perm (compiled.map (icons "out" "js").compiledAs) ∧
        (compiled.map (icons "out" "js").componentFile).dedup.length = report.targets.length ∧
        ∀ name ∈ compiled, (icons "out" "js").HoldsComponent pairOfIcons after name := by
  have hpermissive : pairOfIcons.Permissive := fun _ _ _ => rfl
  have horderly : (icons "out" "js").Orderly pairOfIcons ["a.svg", "b.svg"] :=
    orderly_of_pairwise hpermissive (iconPlace ["in"]) (by decide +kernel) (by decide +kernel)
  have hcan : (icons "out" "js").CanPrepare ["a.svg", "b.svg"] pairOfIcons := by decide +kernel
  have hc := Compiles.bySchedule horderly.listed (isSchedule_inARow (.refl _))
  rw [compileBy_of_canPrepare horderly.listed hcan] at hc
  obtain ⟨compiled, hsub, htargets, hcount, hholds⟩ := components_kept_iff horderly hc
  have hstems : (["a.svg", "b.svg"].map Path.stem).Nodup := by decide +kernel
  have hdistinct : ∀ a ∈ ["a.svg", "b.svg"], ∀ b ∈ ["a.svg", "b.svg"], b ≠ a →
      ((icons "out" "js").prepared ["a.svg", "b.svg"] pairOfIcons).meet
        ((icons "out" "js").componentFile b) ((icons "out" "js").componentFile a) = false := by
    decide +kernel
  have hpermissive' := hpermissive.keep
    (grown_prepared (icons "out" "js") ["a.svg", "b.svg"] _).keeps
  refine ⟨horderly, _, _, hc, compiled, htargets, hcount.2 (hstems.sublist (hsub.map _)), ?_⟩
  intro name hn
  exact hholds name hn (alone_of_meet hpermissive' (hdistinct name (hsub.subset hn)))

/-- Two icons of one stem. -/
def twinIcons : Disk :=
  iconDisk [(["in", "a.svg"], textFile "<svg/>"), (["in", "a.xml"], textFile "<svg/>")]

/-- The component of one of two icons of one stem is lost, though both are reported. -/
theorem not_components_kept :
    ofFields (iconFields "out" "js") "/icons" = .ok (icons "out" "js") ∧
    (icons "out" "js").Orderly twinIcons ["a.svg", "a.xml"] ∧
    ∃ report after, (icons "out" "js").compile twinIcons = (.ok report, after) ∧
      report.targets.length = 2 ∧
      (icons "out" "js").componentFile "a.svg" = (icons "out" "js").componentFile "a.xml" ∧
      (icons "out" "js").componentText "a.svg" "<svg/>" = .ok "in/a.svg" ∧
      after.read ((icons "out" "js").componentFile "a.svg") = .ok "in/a.xml" := by
  have horderly : (icons "out" "js").Orderly twinIcons ["a.svg", "a.xml"] :=
    orderly_of_pairwise (fun _ _ _ => rfl) (iconPlace ["in"]) (by decide +kernel)
      (by decide +kernel)
  have hcan : (icons "out" "js").CanPrepare ["a.svg", "a.xml"] twinIcons := by decide +kernel
  have hc := compile_of_canPrepare horderly.listed hcan
  refine ⟨rfl, horderly, _, _, hc, ?_, by decide +kernel, by decide +kernel, by decide +kernel⟩
  have ht := traced_play (icons "out" "js")
    ((icons "out" "js").prepared ["a.svg", "a.xml"] twinIcons)
    (isSchedule_inARow (.refl ["a.svg", "a.xml"]))
  rw [compiledBy, (targets_perm ht _).length_eq]
  decide +kernel

end SvgComponent.Config
