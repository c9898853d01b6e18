import Mathlib.Logic.Function.Basic
import Mathlib.Order.Lattice
import SvgComponent.Proofs.Compile.File

/-!
# Files compiled side by side

Files may be compiled side by side : each is read and converted in one turn, the file of its
component is opened in another one and filled in a third one, and turns of different files come in
any order (`turn`, `play`). `turn_spec` tells all that a turn can do. One file after the other is
the schedule in which each has its three turns in a row (`play_inARow`).
-/

namespace SvgComponent.Config

open Disk

/-! ## Turns -/

/-- How far a file is. -/
inductive Progress where
  | waiting
  | made (component : Except String String)
  | opened (place : Location) (text : String)
  | done (result : Except Failed Compiled) (trace : Trace)

namespace Progress

/-- How many turns a file makes use of yet, at most. -/
def remaining : Progress → Nat
  | waiting => 3
  | made _ => 2
  | opened .. => 1
  | done .. => 0

/-- What is reported of a file, once it is done. -/
def result? : Progress → Option (Except Failed Compiled)
  | done result _ => some result
  | _ => none

/-- What a file has written where. -/
def trace : Progress → Trace
  | opened place _ => some (place, .empty)
  | done _ trace => trace
  | _ => none

end Progress

/-- The disk that files are compiled on, and how far each of them is. -/
structure Workshop where
  disk : Disk
  progress : String → Progress

/-- A file gets further, and the disk may change. -/
def Workshop.advance (shop : Workshop) (name : String) (disk : Disk) (progress : Progress) :
    Workshop :=
  ⟨disk, Function.update shop.progress name progress⟩

/-- A file has a turn : it is read and converted, or the file of its component is opened, or that is
filled. -/
def turn (config : Config) (shop : Workshop) (name : String) : Workshop :=
  match shop.progress name with
  | .waiting => shop.advance name shop.disk (.made (config.readComponent name shop.disk))
  | .made (.error message) =>
    shop.advance name shop.disk (.done (.error (config.unmade name message)) none)
  | .made (.ok text) =>
    match shop.disk.openFile (config.componentFile name) with
    | .error fault =>
      shop.advance name shop.disk (.done (config.reportedAs name (.error fault)) none)
    | .ok (place, disk) => shop.advance name disk (.opened place text)
  | .opened place text =>
    let (result, disk) := shop.disk.fill place text.toUTF8
    let bytes := (shop.disk.passed place text.toUTF8).1
    shop.advance name disk (.done (config.reportedAs name result) (some (place, bytes)))
  | .done .. => shop

/-- Files have turns, one after the other. -/
def play (config : Config) (schedule : List String) (shop : Workshop) : Workshop :=
  schedule.foldl config.turn shop

/-- The disk at the start. -/
def opened (disk : Disk) : Workshop := ⟨disk, fun _ => .waiting⟩

/-- Files that are listed have turns, each of them three at least. -/
structure IsSchedule (names schedule : List String) : Prop where
  listed : ∀ name ∈ schedule, name ∈ names
  thrice : ∀ name ∈ names, 3 ≤ schedule.count name

/-- Each file has its three turns in a row. -/
def inARow (names : List String) : List String :=
  names.flatMap fun name => [name, name, name]

variable {config : Config} {shop : Workshop} {name : String} {names : List String}

namespace Workshop

variable {disk : Disk} {progress : Progress}

@[simp]
theorem advance_disk : (shop.advance name disk progress).disk = disk := rfl

@[simp]
theorem advance_progress_self : (shop.advance name disk progress).progress name = progress :=
  Function.update_self ..

theorem advance_progress_of_ne {other : String} (h : other ≠ name) :
    (shop.advance name disk progress).progress other = shop.progress other :=
  Function.update_of_ne h ..

end Workshop

/-- All that a turn can do. -/
inductive Turn (config : Config) (shop : Workshop) (name : String) : Workshop → Prop
  | reads (h : shop.progress name = .waiting) :
      Turn config shop name
        (shop.advance name shop.disk (.made (config.readComponent name shop.disk)))
  | fails {message : String} (h : shop.progress name = .made (.error message)) :
      Turn config shop name
        (shop.advance name shop.disk (.done (.error (config.unmade name message)) none))
  | stops {text : String} {fault : DiskFault} (h : shop.progress name = .made (.ok text))
      (ho : shop.disk.openFile (config.componentFile name) = .error fault) :
      Turn config shop name
        (shop.advance name shop.disk (.done (config.reportedAs name (.error fault)) none))
  | opens {text : String} {place : Location} {disk : Disk}
      (h : shop.progress name = .made (.ok text))
      (ho : shop.disk.openFile (config.componentFile name) = .ok (place, disk)) :
      Turn config shop name (shop.advance name disk (.opened place text))
  | fills {place : Location} {text : String} (h : shop.progress name = .opened place text) :
      Turn config shop name
        (shop.advance name (shop.disk.fill place text.toUTF8).2
          (.done (config.reportedAs name (shop.disk.fill place text.toUTF8).1)
            (some (place, (shop.disk.passed place text.toUTF8).1))))
  | rests {result : Except Failed Compiled} {trace : Trace}
      (h : shop.progress name = .done result trace) : Turn config shop name shop

/-- A turn does one of these things. -/
theorem turn_spec (config : Config) (shop : Workshop) (name : String) :
    config.Turn shop name (config.turn shop name) := by
  rw [turn]
  cases h : shop.progress name with
  | waiting => exact .reads h
  | made component =>
    cases component with
    | error message => exact .fails h
    | ok text =>
      dsimp only
      cases ho : shop.disk.openFile (config.componentFile name) with
      | error fault => exact .stops h ho
      | ok found => exact .opens h ho
  | opened place text => exact .fills h
  | done result trace => exact .rests h

namespace Turn

variable {after : Workshop}

/-- Other files are as far as they were. -/
theorem progress_of_ne (h : config.Turn shop name after) {other : String} (hne : other ≠ name) :
    after.progress other = shop.progress other := by
  cases h with
  | rests => rfl
  | reads | fails | stops | opens | fills => exact Workshop.advance_progress_of_ne hne

/-- A file that is not done gets further. -/
theorem remaining_lt (h : config.Turn shop name after) :
    (after.progress name).remaining ≤ (shop.progress name).remaining - 1 := by
  cases h with
  | rests h => simp [h, Progress.remaining]
  | reads h | fails h | stops h | opens h | fills h => simp [h, Progress.remaining]

end Turn

/-- With each of its turns a file has one less to go. -/
theorem remaining_play (schedule : List String) (shop : Workshop) (name : String) :
    ((config.play schedule shop).progress name).remaining ≤
      (shop.progress name).remaining - schedule.count name := by
  induction schedule generalizing shop with
  | nil => exact Nat.le_refl _
  | cons first rest ih =>
    rw [play, List.foldl_cons, ← play, List.count_cons]
    have hrest := ih (config.turn shop first)
    have hturn := config.turn_spec shop first
    by_cases h : name = first
    · subst h
      have hlt := hturn.remaining_lt
      rw [beq_self_eq_true, if_pos rfl]
      omega
    · rw [hturn.progress_of_ne h] at hrest
      rw [if_neg (by simpa using Ne.symm h)]
      omega

/-- A file without a turn does not get further. -/
theorem progress_play_of_not_mem {schedule : List String} (h : name ∉ schedule) :
    (config.play schedule shop).progress name = shop.progress name := by
  induction schedule generalizing shop with
  | nil => rfl
  | cons first rest ih =>
    obtain ⟨hne, hrest⟩ := List.ne_and_not_mem_of_not_mem_cons h
    rw [play, List.foldl_cons, ← play, ih hrest, (config.turn_spec shop first).progress_of_ne hne]

/-- After a schedule exactly the files that are listed are done. -/
theorem exists_done_iff {schedule : List String} (h : IsSchedule names schedule) (start : Disk) :
    (∃ result trace, (config.play schedule (opened start)).progress name = .done result trace) ↔
      name ∈ names := by
  constructor
  · rintro ⟨result, trace, hd⟩
    by_contra hn
    rw [progress_play_of_not_mem fun hm => hn (h.listed name hm)] at hd
    cases hd
  · intro hn
    have hremaining : ((config.play schedule (opened start)).progress name).remaining ≤
        3 - schedule.count name := remaining_play schedule (opened start) name
    have hthrice := h.thrice name hn
    cases hp : (config.play schedule (opened start)).progress name with
    | waiting | made | opened =>
      rw [hp, Progress.remaining] at hremaining
      omega
    | done result trace => exact ⟨result, trace, rfl⟩

/-! ## One file after the other -/

theorem Workshop.advance_advance (disk disk' : Disk) (progress progress' : Progress) :
    (shop.advance name disk progress).advance name disk' progress' =
      shop.advance name disk' progress' := by
  rw [advance, advance, advance, Function.update_idem]

theorem turn_of_waiting (h : shop.progress name = .waiting) :
    config.turn shop name =
      shop.advance name shop.disk (.made (config.readComponent name shop.disk)) := by
  rw [turn, h]

/-- The turns behind the first one write what has been made. -/
theorem turn_turn_of_made {component : Except String String} (disk : Disk) :
    ∃ trace, config.turn (config.turn (shop.advance name disk (.made component)) name) name =
      shop.advance name (config.finish name disk component).2
        (.done (config.finish name disk component).1 trace) := by
  have hp : (shop.advance name disk (.made component)).progress name = .made component :=
    Workshop.advance_progress_self
  cases component with
  | error message =>
    refine ⟨none, ?_⟩
    have hfirst : config.turn (shop.advance name disk (.made (.error message))) name =
        shop.advance name disk (.done (.error (config.unmade name message)) none) := by
      rw [turn, hp]
      exact Workshop.advance_advance ..
    rw [hfirst, turn, Workshop.advance_progress_self]
    rfl
  | ok text =>
    cases ho : disk.openFile (config.componentFile name) with
    | error fault =>
      refine ⟨none, ?_⟩
      have hfirst : config.turn (shop.advance name disk (.made (.ok text))) name =
          shop.advance name disk (.done (config.reportedAs name (.error fault)) none) := by
        rw [turn, hp, Workshop.advance_disk]
        dsimp only
        rw [ho]
        exact Workshop.advance_advance ..
      rw [hfirst, turn, Workshop.advance_progress_self, finish_of_openFile_eq_error ho]
    | ok found =>
      obtain ⟨place, after⟩ := found
      refine ⟨some (place, (after.passed place text.toUTF8).1), ?_⟩
      have hfirst : config.turn (shop.advance name disk (.made (.ok text))) name =
          shop.advance name after (.opened place text) := by
        rw [turn, hp, Workshop.advance_disk]
        dsimp only
        rw [ho]
        exact Workshop.advance_advance ..
      rw [hfirst, turn, Workshop.advance_progress_self, finish_of_openFile_eq_ok ho]
      exact Workshop.advance_advance ..

/-- Three turns in a row compile a file. -/
theorem turn_turn_turn (config : Config) (h : shop.progress name = .waiting) :
    ∃ trace, config.turn (config.turn (config.turn shop name) name) name =
      shop.advance name (config.compileFile name shop.disk).2
        (.done (config.compileFile name shop.disk).1 trace) := by
  rw [turn_of_waiting h, compileFile_eq]
  exact turn_turn_of_made shop.disk

theorem compileFiles_cons (name : String) (rest : List String) (disk : Disk) :
    config.compileFiles (name :: rest) disk =
      ((config.compileFile name disk).1 ::
          (config.compileFiles rest (config.compileFile name disk).2).1,
        (config.compileFiles rest (config.compileFile name disk).2).2) := by
  rw [compileFiles]

theorem mem_inARow : name ∈ inARow names ↔ name ∈ names := by
  simp [inARow]

/-- Files may be compiled one after the other in any order. -/
theorem isSchedule_inARow {order : List String} (h : order.Perm names) :
    IsSchedule names (inARow order) := by
  refine ⟨fun name hn => h.mem_iff.1 (mem_inARow.1 hn), fun name hn => ?_⟩
  obtain ⟨before, behind, rfl⟩ := List.append_of_mem (h.mem_iff.2 hn)
  rw [inARow, List.flatMap_append, List.flatMap_cons, List.count_append, List.count_append]
  have hthree : [name, name, name].count name = 3 := by simp
  omega

/-- Files compiled one after the other have their three turns in a row. -/
theorem play_inARow (shop : Workshop) (hnodup : names.Nodup)
    (h : ∀ name ∈ names, shop.progress name = .waiting) :
    config.compileFiles names shop.disk =
      (names.filterMap fun name => ((config.play (inARow names) shop).progress name).result?,
        (config.play (inARow names) shop).disk) := by
  induction names generalizing shop with
  | nil => rfl
  | cons name rest ih =>
    obtain ⟨hname, hrest⟩ := List.nodup_cons.1 hnodup
    obtain ⟨trace, hturns⟩ := turn_turn_turn config (h name List.mem_cons_self)
    have hplay : config.play (inARow (name :: rest)) shop =
        config.play (inARow rest) (config.turn (config.turn (config.turn shop name) name) name) :=
      rfl
    rw [hturns] at hplay
    have hwaiting : ∀ other ∈ rest, (shop.advance name (config.compileFile name shop.disk).2
        (.done (config.compileFile name shop.disk).1 trace)).progress other = .waiting := by
      intro other ho
      have hne : other ≠ name := fun he => hname (he ▸ ho)
      rw [Workshop.advance_progress_of_ne hne]
      exact h other (List.mem_cons_of_mem _ ho)
    have hih := ih _ hrest hwaiting
    rw [Workshop.advance_disk] at hih
    rw [compileFiles_cons, hplay, hih, List.filterMap_cons,
      progress_play_of_not_mem (mt mem_inARow.1 hname), Workshop.advance_progress_self]
    rfl

end SvgComponent.Config
