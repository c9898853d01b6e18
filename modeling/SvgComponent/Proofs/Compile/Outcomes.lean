import SvgComponent.Proofs.Compile.Folder

/-!
# Outcomes

If components do not get into each other's way and the host is steady (`Ready`), each file fares as
if it were compiled by itself : what is reported of it and what it writes where is its `outcome`,
whatever schedule it is compiled by. So the outcomes tell the report and what is on the disk in the
end (`finished_play`).
-/

namespace SvgComponent.Config

open Disk

variable {config : Config} {start : Disk} {shop after shop' : Workshop} {name : String}
  {names schedule : List String} {v w : Location} {bytes : ByteArray}

/-! ## Disks to compile on -/

/-- A disk on which components do not get into each other's way : no other one and no file that is
to be read is where a component goes, and what files do changes neither where paths lead nor what
the host says. -/
structure Ready (config : Config) (names : List String) (start : Disk) : Prop where
  steady : start.Steady
  input : ∀ name ∈ names, start.Fixed (config.inputFile name)
  output : ∀ name ∈ names, start.Fixed (config.componentFile name)
  apart : config.Apart names start
  alone : ∀ name ∈ names, config.Alone names start name

/-- How far a file is, as far as its outcome tells. -/
def Settles (config : Config) (start : Disk) (name : String) : Progress → Prop
  | .waiting => True
  | .made component => component = config.readComponent name start
  | .opened place text => config.readComponent name start = .ok text ∧
      (start.openFile (config.componentFile name)).map Prod.fst = .ok place
  | .done result trace => (result, trace) = config.outcome start name

namespace Ready

/-- A file is read as at the start. -/
theorem readComponent_eq (hr : config.Ready names start) (ht : config.Traced names start shop)
    (hn : name ∈ names) :
    config.readComponent name shop.disk = config.readComponent name start := by
  have hlocate := hr.input name hn start shop.disk false (ht.keeps.agree hr.steady)
  have hsame : ∀ v, start.locate false (config.inputFile name) = .ok v →
      (shop.disk.at? v).isNone = (start.at? v).isNone ∧
        shop.disk.content? v = start.content? v := by
    intro v hv
    have hv := ht.sameAt_input hr.apart hn (leads_of_locate hv)
    exact ⟨by rw [hv.entry], hv.content⟩
  rw [readComponent, readComponent, read_congr hr.steady ht.keeps.host hlocate hsame]

/-- The file of a component is opened as at the start. -/
theorem openFile_eq (hr : config.Ready names start) (ht : config.Traced names start shop)
    (hn : name ∈ names) (hnone : (shop.progress name).trace = none) :
    (shop.disk.openFile (config.componentFile name)).map Prod.fst =
      (start.openFile (config.componentFile name)).map Prod.fst := by
  have hlocate := hr.output name hn start shop.disk true (ht.keeps.agree hr.steady)
  refine openFile_congr hr.steady ht.keeps.host hlocate fun v hv => ?_
  by_cases hf : start.IsFolder v
  · exact (ht.keeps.folder v hf).trans hf.symm
  · exact (ht.sameAt (hr.alone name hn) hnone (leads_of_locate hv) hf (.refl start v)).entry

/-- A turn of a file brings it closer to its outcome. -/
theorem settles_turn (hr : config.Ready names start) (ht : config.Traced names start shop)
    (hn : name ∈ names) (h : config.Settles start name (shop.progress name))
    (hturn : config.Turn shop name after) : config.Settles start name (after.progress name) := by
  cases hturn with
  | reads =>
    rw [Workshop.advance_progress_self]
    exact hr.readComponent_eq ht hn
  | fails hp =>
    rw [hp] at h
    have hread : config.readComponent name start = _ := h.symm
    rw [Workshop.advance_progress_self, Settles, outcome_of_readComponent_eq_error hread]
  | stops hp ho =>
    have hopen := hr.openFile_eq ht hn (by rw [hp, Progress.trace] <;> simp)
    rw [hp] at h
    rw [ho] at hopen
    have hread : config.readComponent name start = _ := h.symm
    rw [Workshop.advance_progress_self, Settles,
      outcome_of_openFile_eq_error hread hopen.symm]
  | opens hp ho =>
    have hopen := hr.openFile_eq ht hn (by rw [hp, Progress.trace] <;> simp)
    rw [hp] at h
    rw [ho] at hopen
    rw [Workshop.advance_progress_self]
    exact ⟨h.symm, hopen.symm⟩
  | fills hp =>
    rw [hp] at h
    obtain ⟨hread, hopen⟩ := h
    rw [Workshop.advance_progress_self, Settles, outcome_of_openFile_eq_ok hread hopen, fill_fst,
      hr.steady.passed ht.keeps.host]
  | rests => exact h

theorem settles_play (hr : config.Ready names start) (hs : IsSchedule names schedule)
    (name : String) :
    config.Settles start name ((config.play schedule (opened start)).progress name) :=
  progress_induction trivial (fun _ _ ht hn h hturn => hr.settles_turn ht hn h hturn) hs

end Ready

/-! ## What schedules come to -/

/-- A file writes where its path leads. -/
theorem place_outcome (h : (config.outcome start name).2 = some (w, bytes)) :
    start.Leads (config.componentFile name) w ∧ ¬ start.IsFolder w := by
  cases hread : config.readComponent name start with
  | error message =>
    rw [outcome_of_readComponent_eq_error hread] at h
    cases h
  | ok text =>
    cases ho : start.openFile (config.componentFile name) with
    | error fault =>
      rw [outcome_of_openFile_eq_error hread (congrArg (Except.map Prod.fst) ho)] at h
      cases h
    | ok found =>
      rw [outcome_of_openFile_eq_ok hread (congrArg (Except.map Prod.fst) ho)] at h
      cases h
      obtain ⟨hl, hf, -⟩ := openFile_eq_ok ho
      exact ⟨leads_of_locate hl, hf⟩

/-- All files are done as their outcomes tell, and so is the disk. -/
structure Finished (config : Config) (names : List String) (start : Disk) (shop : Workshop) :
    Prop where
  keeps : Keeps start shop.disk
  kept : Keeps shop.disk start
  result : ∀ name ∈ names, (shop.progress name).result? = some (config.outcome start name).1
  isResult : ∀ name ∈ names,
    config.IsResult name (config.outcome start name).1 (config.outcome start name).2
  holds : ∀ name ∈ names, ∀ w bytes, (config.outcome start name).2 = some (w, bytes) →
    ∀ v, start.Joined v w → Holds start bytes shop.disk v
  same : ∀ v, (∀ name ∈ names, ∀ w bytes, (config.outcome start name).2 = some (w, bytes) →
    ¬ start.Joined v w) → SameAt start shop.disk v

/-- Each schedule comes to what the outcomes tell. -/
theorem finished_play (hr : config.Ready names start) (hs : IsSchedule names schedule) :
    config.Finished names start (config.play schedule (opened start)) := by
  have ht := traced_play config start hs
  have hdone : ∀ name ∈ names, (config.play schedule (opened start)).progress name =
      .done (config.outcome start name).1 (config.outcome start name).2 := by
    intro name hn
    obtain ⟨result, trace, hd⟩ := (exists_done_iff hs start).2 hn
    have hsettles := hr.settles_play hs name
    rw [hd] at hsettles
    rw [hd, ← hsettles]
  have htrace : ∀ name ∈ names, ((config.play schedule (opened start)).progress name).trace =
      (config.outcome start name).2 := by
    intro name hn
    rw [hdone name hn, Progress.trace]
  refine ⟨ht.keeps, ht.kept, fun name hn => ?_, fun name hn => ht.result name _ _ (hdone name hn),
    fun name hn w bytes hw => ?_, fun v hv => ht.same v fun name w bytes hw => ?_⟩
  · rw [hdone name hn, Progress.result?]
  · exact kept_play (hr.alone name hn) hs w bytes ((htrace name hn).trans hw)
  · have hn := (ht.place name w bytes hw).1
    exact hv name hn w bytes ((htrace name hn).symm.trans hw)

namespace Finished

/-- The report is that of the outcomes. -/
theorem results_eq (h : config.Finished names start shop) :
    names.filterMap (fun name => (shop.progress name).result?) =
      names.map fun name => (config.outcome start name).1 := by
  rw [← List.filterMap_eq_map]
  exact List.filterMap_congr h.result

/-- What is there in the end is told by the outcomes. -/
theorem sameAt (h : config.Finished names start shop) (h' : config.Finished names start shop')
    (v : Location) : SameAt shop.disk shop'.disk v := by
  by_cases hw : ∃ name ∈ names, ∃ w bytes,
      (config.outcome start name).2 = some (w, bytes) ∧ start.Joined v w
  · obtain ⟨name, hn, w, bytes, ho, hj⟩ := hw
    have hholds := h.holds name hn w bytes ho v hj
    have hholds' := h'.holds name hn w bytes ho v hj
    exact ⟨hholds'.entry.trans hholds.entry.symm, hholds'.content.trans hholds.content.symm⟩
  · have hnone : ∀ name ∈ names, ∀ w bytes, (config.outcome start name).2 = some (w, bytes) →
        ¬ start.Joined v w := fun name hn w bytes ho hj => hw ⟨name, hn, w, bytes, ho, hj⟩
    exact (h.same v hnone).symm.trans (h'.same v hnone)

/-- Where a file writes nothing, nothing is written. -/
theorem sameAt_of_none (h : config.Finished names start shop)
    (ha : config.Alone names start name) (hn : (config.outcome start name).2 = none)
    (hv : start.Leads (config.componentFile name) v) (hf : ¬ start.IsFolder v) :
    SameAt start shop.disk v := by
  refine h.same v fun other ho w bytes hw hj => ?_
  by_cases hne : other = name
  · subst hne
    cases hn.symm.trans hw
  · exact ha other ho hne w v (place_outcome hw).1 hv hf hj.symm

end Finished

end SvgComponent.Config
