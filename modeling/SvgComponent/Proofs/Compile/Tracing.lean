import SvgComponent.Proofs.Compile.Schedule

/-!
# What turns leave

A turn changes at most the file that its own file writes (`Turn.within`). So after any number of
turns all is as it was, but for the files that have been written (`Traced`), however components get
into each other's way and whatever the host does.

A file whose component goes where no other one goes (`Alone`) has written what is there in the end
(`Kept`). If no component goes to a file that is to be read, each component is made of what was
there at the start (`Sourced`).
-/

namespace SvgComponent.Config

open Disk

variable {config : Config} {start : Disk} {shop after : Workshop} {name : String}
  {names schedule : List String}

/-! ## Any files -/

/-- A turn leaves the disk as it is, or changes the file that is written in it. -/
theorem Turn.within (h : config.Turn shop name after) :
    after.disk = shop.disk ∨
      ∃ w bytes, (after.progress name).trace = some (w, bytes) ∧ Within shop.disk w after.disk := by
  cases h with
  | reads | fails | stops | rests => exact .inl rfl
  | opens _ ho =>
    refine .inr ⟨_, .empty, ?_, (openFile_eq_ok ho).2.2.toWithin⟩
    rw [Workshop.advance_progress_self, Progress.trace]
  | @fills place text =>
    refine .inr ⟨place, (shop.disk.passed place text.toUTF8).1, ?_, within_fill ..⟩
    rw [Workshop.advance_progress_self, Progress.trace]

/-- What a file has written is written at the same place later. -/
theorem Turn.trace_eq (h : config.Turn shop name after) {w : Location} {bytes : ByteArray}
    (ht : (shop.progress name).trace = some (w, bytes)) :
    ∃ bytes', (after.progress name).trace = some (w, bytes') := by
  cases h with
  | reads h | fails h | stops h | opens h =>
    rw [h] at ht
    cases ht
  | fills h =>
    rw [h] at ht
    cases ht
    exact ⟨_, by rw [Workshop.advance_progress_self, Progress.trace]⟩
  | rests => exact ⟨bytes, ht⟩

/-- What holds after any number of turns of listed files : files that are done have a result, files
are written where their paths led at the start, and all is as it was there but for them. -/
structure Traced (config : Config) (names : List String) (start : Disk) (shop : Workshop) :
    Prop where
  keeps : Keeps start shop.disk
  kept : Keeps shop.disk start
  shared : ∀ v number,
    shop.disk.at? v = some (.shared number) ↔ start.at? v = some (.shared number)
  result : ∀ name result trace, shop.progress name = .done result trace →
    config.IsResult name result trace
  place : ∀ name w bytes, (shop.progress name).trace = some (w, bytes) →
    name ∈ names ∧ start.Leads (config.componentFile name) w ∧ ¬ start.IsFolder w
  same : ∀ v, (∀ name w bytes, (shop.progress name).trace = some (w, bytes) → ¬ start.Joined v w) →
    SameAt start shop.disk v

namespace Traced

/-- At the start no file has written anything. -/
theorem opened (config : Config) (names : List String) (start : Disk) :
    config.Traced names start (Config.opened start) where
  keeps := .refl start
  kept := .refl start
  shared := fun _ _ => .rfl
  result := fun _ _ _ h => by cases h
  place := fun _ _ _ h => by cases h
  same := fun v _ => .refl start v

theorem joined_iff (h : config.Traced names start shop) {u v : Location} :
    shop.disk.Joined u v ↔ start.Joined u v := by
  simp only [Disk.Joined, h.shared]

/-- A file that is done in a turn has a result. -/
theorem result_turn (h : config.Traced names start shop) (ht : config.Turn shop name after)
    {result : Except Failed Compiled} {trace : Trace}
    (hd : after.progress name = .done result trace) : config.IsResult name result trace := by
  cases ht with
  | reads | opens =>
    rw [Workshop.advance_progress_self] at hd
    cases hd
  | fails | stops =>
    rw [Workshop.advance_progress_self] at hd
    cases hd
    exact ⟨rfl, fun hnone => by cases hnone⟩
  | fills =>
    rw [Workshop.advance_progress_self] at hd
    cases hd
    exact isResult_reportedAs ..
  | rests => exact h.result name result trace hd

/-- A file is written where its path leads. -/
theorem place_turn (h : config.Traced names start shop) (ht : config.Turn shop name after)
    (hn : name ∈ names) {w : Location} {bytes : ByteArray}
    (hw : (after.progress name).trace = some (w, bytes)) :
    name ∈ names ∧ start.Leads (config.componentFile name) w ∧ ¬ start.IsFolder w := by
  cases ht with
  | reads | fails | stops =>
    rw [Workshop.advance_progress_self] at hw
    cases hw
  | opens _ ho =>
    rw [Workshop.advance_progress_self] at hw
    cases hw
    obtain ⟨hl, hf, -⟩ := openFile_eq_ok ho
    exact ⟨hn, (leads_of_locate hl).keep h.kept, fun hs => hf (h.keeps.folder _ hs)⟩
  | fills hp =>
    rw [Workshop.advance_progress_self] at hw
    cases hw
    refine h.place name w .empty ?_
    rw [hp, Progress.trace]
  | rests => exact h.place name w bytes hw

/-- A turn preserves it. -/
theorem turn (h : config.Traced names start shop) (hn : name ∈ names) :
    config.Traced names start (config.turn shop name) := by
  have ht := config.turn_spec shop name
  generalize config.turn shop name = after at ht
  have hresult : ∀ other result trace, after.progress other = .done result trace →
      config.IsResult other result trace := by
    intro other result trace hd
    by_cases hne : other = name
    · subst hne
      exact h.result_turn ht hd
    · rw [ht.progress_of_ne hne] at hd
      exact h.result other result trace hd
  have hplace : ∀ other w bytes, (after.progress other).trace = some (w, bytes) →
      other ∈ names ∧ start.Leads (config.componentFile other) w ∧ ¬ start.IsFolder w := by
    intro other w bytes hw
    by_cases hne : other = name
    · subst hne
      exact h.place_turn ht hn hw
    · rw [ht.progress_of_ne hne] at hw
      exact h.place other w bytes hw
  have hsame : ∀ v, (∀ other w bytes, (after.progress other).trace = some (w, bytes) →
      ¬ start.Joined v w) → SameAt start shop.disk v := by
    refine fun v hv => h.same v fun other w bytes hw => ?_
    by_cases hne : other = name
    · subst hne
      obtain ⟨bytes', hw'⟩ := ht.trace_eq hw
      exact hv other w bytes' hw'
    · exact hv other w bytes (by rwa [ht.progress_of_ne hne])
  rcases ht.within with hdisk | ⟨w, bytes, hw, hwithin⟩
  · exact ⟨hdisk ▸ h.keeps, hdisk ▸ h.kept, hdisk ▸ h.shared, hresult, hplace,
      fun v hv => hdisk ▸ hsame v hv⟩
  · refine ⟨h.keeps.trans hwithin.keeps, hwithin.kept.trans h.kept,
      fun v number => (hwithin.shared v number).trans (h.shared v number), hresult, hplace,
      fun v hv => (hsame v hv).trans (hwithin.same v fun hj => ?_)⟩
    exact hv name w bytes hw (h.joined_iff.1 hj)

end Traced

/-- What each turn of a listed file preserves holds after any number of them. -/
theorem play_induction {motive : Workshop → Prop}
    (hturn : ∀ shop, config.Traced names start shop → motive shop →
      ∀ name ∈ names, motive (config.turn shop name))
    (hlisted : ∀ name ∈ schedule, name ∈ names) (ht : config.Traced names start shop)
    (h : motive shop) :
    config.Traced names start (config.play schedule shop) ∧ motive (config.play schedule shop) := by
  induction schedule generalizing shop with
  | nil => exact ⟨ht, h⟩
  | cons first rest ih =>
    have hfirst := hlisted first List.mem_cons_self
    exact ih (fun name hn => hlisted name (List.mem_cons_of_mem _ hn)) (ht.turn hfirst)
      (hturn shop ht h first hfirst)

/-- What each turn of a file preserves of its progress holds after any schedule. -/
theorem progress_induction {motive : Progress → Prop} (hwaiting : motive .waiting)
    (hturn : ∀ shop after, config.Traced names start shop → name ∈ names →
      motive (shop.progress name) → config.Turn shop name after → motive (after.progress name))
    (hs : IsSchedule names schedule) :
    motive ((config.play schedule (opened start)).progress name) := by
  refine (play_induction (motive := fun shop => motive (shop.progress name)) ?_ hs.listed
    (.opened config names start) hwaiting).2
  intro shop ht h other ho
  by_cases hne : name = other
  · subst hne
    exact hturn shop _ ht ho h (config.turn_spec shop name)
  · rwa [(config.turn_spec shop other).progress_of_ne hne]

/-- What schedules leave is traced. -/
theorem traced_play (config : Config) (start : Disk) (hs : IsSchedule names schedule) :
    config.Traced names start (config.play schedule (opened start)) :=
  (play_induction (motive := fun _ => True) (fun _ _ _ _ _ => trivial) hs.listed
    (.opened config names start) trivial).1

/-! ## A file whose component goes where no other one goes -/

/-- No component of another file goes to the file that the path of this one leads to. -/
def Alone (config : Config) (names : List String) (start : Disk) (name : String) : Prop :=
  ∀ other ∈ names, other ≠ name → ∀ v w, start.Leads (config.componentFile other) v →
    start.Leads (config.componentFile name) w → ¬ start.IsFolder w → ¬ start.Joined v w

/-- What a file has written is there. -/
def Kept (start : Disk) (name : String) (shop : Workshop) : Prop :=
  ∀ w bytes, (shop.progress name).trace = some (w, bytes) →
    ∀ v, start.Joined v w → Holds start bytes shop.disk v

/-- Until a file that is alone is written its place is as it was. -/
theorem Traced.sameAt (h : config.Traced names start shop) (ha : config.Alone names start name)
    (hnone : (shop.progress name).trace = none) {v w : Location}
    (hw : start.Leads (config.componentFile name) w) (hf : ¬ start.IsFolder w)
    (hv : start.Joined v w) : SameAt start shop.disk v := by
  refine h.same v fun other u bytes hu hj => ?_
  by_cases hne : other = name
  · subst hne
    cases hnone.symm.trans hu
  · obtain ⟨ho, hl, -⟩ := h.place other u bytes hu
    exact ha other ho hne u w hl hw hf (hj.symm.trans hv)

/-- A turn of a file leaves there what it writes. -/
theorem Kept.turn_self (hk : Kept start name shop) (h : config.Traced names start shop)
    (ha : config.Alone names start name) (ht : config.Turn shop name after) :
    Kept start name after := by
  intro w bytes hw v hv
  cases ht with
  | reads | fails | stops =>
    rw [Workshop.advance_progress_self] at hw
    cases hw
  | opens hp ho =>
    rw [Workshop.advance_progress_self] at hw
    cases hw
    obtain ⟨hl, hf, hwritten⟩ := openFile_eq_ok ho
    have hnone : (shop.progress name).trace = none := by
      rw [hp]
      rfl
    exact (hwritten.holds v (h.joined_iff.2 hv)).of_sameAt
      (h.sameAt ha hnone ((leads_of_locate hl).keep h.kept) (mt (h.keeps.folder w) hf) hv)
  | fills hp =>
    rw [Workshop.advance_progress_self] at hw
    cases hw
    have hempty := hk w .empty (by rw [hp, Progress.trace])
    obtain ⟨entry, he, hc⟩ := (hempty w (.refl start w)).exists_entry
    exact (hempty v hv).trans ((written_fill he hc _).holds v (h.joined_iff.2 hv))
  | rests => exact hk w bytes hw v hv

/-- A turn of another file leaves it there. -/
theorem Kept.turn_of_ne (hk : Kept start name shop) (h : config.Traced names start shop)
    (ha : config.Alone names start name) {other : String} (hne : other ≠ name)
    (ho : other ∈ names) (ht : config.Turn shop other after) : Kept start name after := by
  intro w bytes hw v hv
  rw [ht.progress_of_ne hne.symm] at hw
  have hholds := hk w bytes hw v hv
  rcases ht.within with hdisk | ⟨u, bytes', hu, hwithin⟩
  · exact hdisk ▸ hholds
  · obtain ⟨-, hl, -⟩ := h.place_turn ht ho hu
    obtain ⟨-, hlw, hf⟩ := h.place name w bytes hw
    refine hholds.congr (hwithin.same v fun hj => ?_)
    exact ha other ho hne u w hl hlw hf ((h.joined_iff.1 hj).symm.trans hv)

/-- What a file that is alone writes is there after any schedule. -/
theorem kept_play (ha : config.Alone names start name) (hs : IsSchedule names schedule) :
    Kept start name (config.play schedule (opened start)) := by
  refine (play_induction (motive := Kept start name) ?_ hs.listed (.opened config names start)
    fun _ _ h => by cases h).2
  intro shop ht hk other ho
  by_cases hne : other = name
  · subst hne
    exact hk.turn_self ht ha (config.turn_spec shop other)
  · exact hk.turn_of_ne ht ha hne ho (config.turn_spec shop other)

/-! ## Components made of what is read -/

/-- No component goes to a file that is to be read. -/
def Apart (config : Config) (names : List String) (start : Disk) : Prop :=
  ∀ source ∈ names, ∀ target ∈ names, ∀ v w, start.Leads (config.inputFile source) v →
    start.Leads (config.componentFile target) w → ¬ start.Joined v w

/-- A text is the component of what is found under the path of a file. -/
def IsComponent (config : Config) (start : Disk) (name text : String) : Prop :=
  ∃ v svg, start.Leads (config.inputFile name) v ∧ start.content? v = some svg.toUTF8 ∧
    config.componentText name svg = .ok text

/-- What a file makes and writes is its component. -/
def Sourced (config : Config) (start : Disk) (name : String) : Progress → Prop
  | .waiting | .made (.error _) | .done (.error _) _ => True
  | .made (.ok text) | .opened _ text => config.IsComponent start name text
  | .done (.ok _) trace => ∃ w text, trace = some (w, text.toUTF8) ∧
      config.IsComponent start name text

/-- What is read is as it was at the start. -/
theorem Traced.sameAt_input (h : config.Traced names start shop) (ha : config.Apart names start)
    (hn : name ∈ names) {v : Location} (hv : start.Leads (config.inputFile name) v) :
    SameAt start shop.disk v := by
  refine h.same v fun other w bytes hw => ?_
  obtain ⟨ho, hl, -⟩ := h.place other w bytes hw
  exact ha name hn other ho v w hv hl

/-- What is read while others write is what was there at the start, if no component goes there. -/
theorem Traced.isComponent (h : config.Traced names start shop) (ha : config.Apart names start)
    (hn : name ∈ names) {text : String} (hr : config.readComponent name shop.disk = .ok text) :
    config.IsComponent start name text := by
  obtain ⟨svg, hread, htext⟩ := read_of_readComponent hr
  obtain ⟨v, hl, hc⟩ := leads_of_read hread
  have hv := hl.keep h.kept
  exact ⟨v, svg, hv, (h.sameAt_input ha hn hv).content.symm.trans hc, htext⟩

/-- A turn of a file preserves it. -/
theorem Sourced.turn_self (hsourced : config.Sourced start name (shop.progress name))
    (h : config.Traced names start shop) (ha : config.Apart names start) (hn : name ∈ names)
    (ht : config.Turn shop name after) : config.Sourced start name (after.progress name) := by
  cases ht with
  | reads =>
    rw [Workshop.advance_progress_self]
    cases hr : config.readComponent name shop.disk with
    | error message => trivial
    | ok text => exact h.isComponent ha hn hr
  | fails | stops =>
    rw [Workshop.advance_progress_self]
    trivial
  | opens hp =>
    rw [hp] at hsourced
    rw [Workshop.advance_progress_self]
    exact hsourced
  | @fills place text hp =>
    rw [hp] at hsourced
    rw [Workshop.advance_progress_self, fill_fst]
    cases hd : (shop.disk.passed place text.toUTF8).2 with
    | error fault => trivial
    | ok _ => exact ⟨place, text, by rw [passed_of_eq_ok hd], hsourced⟩
  | rests => exact hsourced

/-- Whatever order things come in, components are made of what was there at the start. -/
theorem sourced_play (ha : config.Apart names start) (hs : IsSchedule names schedule)
    (name : String) :
    config.Sourced start name ((config.play schedule (opened start)).progress name) :=
  progress_induction trivial (fun _ _ ht hn h hturn => h.turn_self ht ha hn hturn) hs

end SvgComponent.Config
