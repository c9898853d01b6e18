import Mathlib.Tactic.SplitIfs
import SvgComponent.Disk.Following

/-!
# Where steps lead

`Walk` tells where steps lead on a disk if its host lets one go there : it goes through folders and
along links only. A path that is followed is walked (`walk_of_follow`), and a walk can be followed
if the host refuses nothing (`follow_of_walk`). A walk has one end (`Walk.unique`), and it is there
on all disks that keep the folders and the links (`Walk.keep`).

What following comes to, faults included, depends on little. Where a walk goes on one disk, others
that agree at its folders and on links come to the same (`follow_congr`).
-/

namespace SvgComponent.Disk

/-- Where steps lead and how many more links may be followed then, whatever the host says. -/
inductive Walk (disk : Disk) : Nat → Location → List Step → Location × Nat → Prop
  | done {links : Nat} {here : Location} : Walk disk links here [] (here, links)
  | folder {links : Nat} {here : Location} {rest : List Step} {r : Location × Nat}
      (hf : disk.IsFolder here) (h : Walk disk links here rest r) :
      Walk disk links here (.folder :: rest) r
  | stay {links : Nat} {here : Location} {rest : List Step} {r : Location × Nat}
      (hf : disk.IsFolder here) (h : Walk disk links here rest r) :
      Walk disk links here (.stay :: rest) r
  | up {links : Nat} {here : Location} {rest : List Step} {r : Location × Nat}
      (hf : disk.IsFolder here) (h : Walk disk links here.dropLast rest r) :
      Walk disk links here (.up :: rest) r
  | name {links : Nat} {here : Location} {name : Name} {rest : List Step} {r : Location × Nat}
      (hf : disk.IsFolder here) (hs : name.size ≤ maxName)
      (hl : ∀ target, disk.at? (here ++ [name]) ≠ some (.link target))
      (h : Walk disk links (here ++ [name]) rest r) : Walk disk links here (.name name :: rest) r
  | link {links : Nat} {here : Location} {name : Name} {target : Route} {rest : List Step}
      {r : Location × Nat} (hf : disk.IsFolder here) (hs : name.size ≤ maxName)
      (hl : disk.at? (here ++ [name]) = some (.link target))
      (h : Walk disk links (target.start here) (target.steps ++ rest) r) :
      Walk disk (links + 1) here (.name name :: rest) r

variable {disk other guide : Disk} {creating : Bool} {links : Nat} {here v : Location}
  {steps rest : List Step} {r : Location × Nat}

/-! ## Equations -/

/-- What goes well goes well step by step. -/
theorem exists_of_bind_eq_ok {α β : Type} {first : Except DiskFault α}
    {next : α → Except DiskFault β} {result : β} (h : first >>= next = .ok result) :
    ∃ found, first = .ok found ∧ next found = .ok result := by
  cases first with
  | error fault => cases h
  | ok found => exact ⟨found, rfl, h⟩

/-- The root is a folder on every disk. -/
theorem isFolder_root (disk : Disk) : disk.IsFolder [] := if_pos rfl

theorem mem_of_at?_eq_some {entry : Entry} (h : disk.at? v = some entry) (hv : v ≠ []) :
    (v, entry) ∈ disk.entries.entries := by
  rwa [Disk.at?, if_neg hv, OrderedMap.get?_eq_some_iff] at h

theorem expectFolder_of_isFolder (h : disk.IsFolder here) : disk.expectFolder here = .ok () := by
  rw [IsFolder] at h
  rw [expectFolder, h]

theorem isFolder_of_expectFolder (h : disk.expectFolder here = .ok ()) : disk.IsFolder here := by
  rw [expectFolder] at h
  rw [IsFolder]
  split at h
  · cases h
  · assumption
  · cases h

theorem enter_of_isFolder (h : disk.IsFolder here) : disk.enter here = disk.ask .search here := by
  rw [enter, expectFolder_of_isFolder h]
  rfl

/-- Only folders can be gone through. -/
theorem isFolder_of_enter (h : disk.enter here = .ok ()) : disk.IsFolder here := by
  obtain ⟨_, he, -⟩ := exists_of_bind_eq_ok h
  exact isFolder_of_expectFolder he

theorem follow_nil (disk : Disk) (creating : Bool) (links : Nat) (here : Location) :
    disk.follow creating links here [] = .ok (here, links) := by
  cases links <;> rfl

theorem follow_folder (disk : Disk) (creating : Bool) (links : Nat) (here : Location)
    (rest : List Step) :
    disk.follow creating links here (.folder :: rest) =
      disk.expectFolder here >>= fun _ => disk.follow creating links here rest := by
  cases links <;> rfl

theorem follow_stay (disk : Disk) (creating : Bool) (links : Nat) (here : Location)
    (rest : List Step) :
    disk.follow creating links here (.stay :: rest) =
      disk.enter here >>= fun _ => disk.follow creating links here rest := by
  cases links <;> rfl

theorem follow_up (disk : Disk) (creating : Bool) (links : Nat) (here : Location)
    (rest : List Step) :
    disk.follow creating links here (.up :: rest) =
      disk.enter here >>= fun _ => disk.follow creating links here.dropLast rest := by
  cases links <;> rfl

/-- What follows a link, given how many may be followed. -/
def beyond (disk : Disk) (creating : Bool) (here : Location) (target : Route) (rest : List Step) :
    Nat → Except DiskFault (Location × Nat)
  | 0 => .error .tooManyLinks
  | links + 1 => disk.follow creating links (target.start here) (target.steps ++ rest)

/-- A name leads into the folder, or along the link that stands there. -/
theorem follow_name (disk : Disk) (creating : Bool) (links : Nat) (here : Location) (name : Name)
    (rest : List Step) :
    disk.follow creating links here (.name name :: rest) =
      disk.enter here >>= fun _ =>
        if creating = true ∧ rest = [.folder] then .error .isFolder
        else if name.size > maxName then .error .nameTooLong
        else
          match disk.at? (here ++ [name]) with
          | some (.link target) => disk.beyond creating here target rest links
          | _ => disk.follow creating links (here ++ [name]) rest := by
  cases links <;> rfl

/-- A name at which no link stands leads to its place. -/
theorem follow_name_of_not_link {name : Name}
    (h : ∀ target, disk.at? (here ++ [name]) ≠ some (.link target)) :
    disk.follow creating links here (.name name :: rest) =
      disk.enter here >>= fun _ =>
        if creating = true ∧ rest = [.folder] then .error .isFolder
        else if name.size > maxName then .error .nameTooLong
        else disk.follow creating links (here ++ [name]) rest := by
  have hgo : (match disk.at? (here ++ [name]) with
      | some (.link target) => disk.beyond creating here target rest links
      | _ => disk.follow creating links (here ++ [name]) rest) =
      disk.follow creating links (here ++ [name]) rest := by
    split
    · rename_i target ht
      exact absurd ht (h target)
    · rfl
  rw [follow_name, hgo]

/-! ## Walks -/

/-- What is followed is walked; by induction on the links that may be followed, and then on the
steps. -/
theorem walk_of_follow (h : disk.follow creating links here steps = .ok r) :
    Walk disk links here steps r := by
  induction links using Nat.strongRecOn generalizing here steps with
  | _ links ihlinks =>
  induction steps generalizing here with
  | nil =>
    rw [follow_nil] at h
    cases h
    exact .done
  | cons step rest ih =>
    cases step with
    | folder =>
      rw [follow_folder] at h
      obtain ⟨_, hf, hr⟩ := exists_of_bind_eq_ok h
      exact .folder (isFolder_of_expectFolder hf) (ih hr)
    | stay =>
      rw [follow_stay] at h
      obtain ⟨_, hf, hr⟩ := exists_of_bind_eq_ok h
      exact .stay (isFolder_of_enter hf) (ih hr)
    | up =>
      rw [follow_up] at h
      obtain ⟨_, hf, hr⟩ := exists_of_bind_eq_ok h
      exact .up (isFolder_of_enter hf) (ih hr)
    | name name =>
      rw [follow_name] at h
      obtain ⟨_, hf, hr⟩ := exists_of_bind_eq_ok h
      split_ifs at hr with hc hs
      split at hr
      · rename_i target hl
        cases links with
        | zero => cases hr
        | succ links =>
          exact .link (isFolder_of_enter hf) (Nat.not_lt.1 hs) hl
            (ihlinks links (Nat.lt_succ_self _) hr)
      · rename_i hl
        exact .name (isFolder_of_enter hf) (Nat.not_lt.1 hs) hl (ih hr)

/-- The host refuses nothing. -/
def Permissive (disk : Disk) : Prop :=
  ∀ store deed v, disk.host.refuse store deed v = none

theorem Permissive.ask (hp : disk.Permissive) (deed : Deed) (v : Location) :
    disk.ask deed v = .ok () := by
  rw [Disk.ask, hp]

/-- What is walked can be followed, if the host refuses nothing. -/
theorem follow_of_walk (hp : disk.Permissive) (h : Walk disk links here steps r) :
    disk.follow false links here steps = .ok r := by
  induction h with
  | done => exact follow_nil ..
  | folder hf _ ih =>
    rw [follow_folder, expectFolder_of_isFolder hf]
    exact ih
  | stay hf _ ih =>
    rw [follow_stay, enter_of_isFolder hf, hp.ask]
    exact ih
  | up hf _ ih =>
    rw [follow_up, enter_of_isFolder hf, hp.ask]
    exact ih
  | name hf hs hl _ ih =>
    rw [follow_name_of_not_link hl, enter_of_isFolder hf, hp.ask, if_neg (by simp),
      if_neg (Nat.not_lt.2 hs)]
    exact ih
  | link hf hs hl _ ih =>
    rw [follow_name, enter_of_isFolder hf, hp.ask, if_neg (by simp), if_neg (Nat.not_lt.2 hs), hl]
    exact ih

/-- A disk keeps the working folder, the host, the folders and the links of another one, and has no
more links. -/
structure Keeps (disk other : Disk) : Prop where
  cwd : other.cwd = disk.cwd
  host : other.host = disk.host
  folder : ∀ v, disk.IsFolder v → other.IsFolder v
  link : ∀ v target, other.at? v = some (.link target) ↔ disk.at? v = some (.link target)

/-- Where a guide has folders two disks agree, and all three have the same links. -/
structure Agree (guide disk other : Disk) : Prop where
  cwd : disk.cwd = guide.cwd
  cwd' : other.cwd = guide.cwd
  ask : ∀ v, other.ask .search v = disk.ask .search v
  folder : ∀ v, guide.IsFolder v → other.at? v = disk.at? v
  link : ∀ v target, disk.at? v = some (.link target) ↔ guide.at? v = some (.link target)
  link' : ∀ v target, other.at? v = some (.link target) ↔ guide.at? v = some (.link target)

theorem Keeps.refl (disk : Disk) : Keeps disk disk :=
  ⟨rfl, rfl, fun _ => id, fun _ _ => .rfl⟩

theorem Keeps.trans (h : Keeps disk other) (h' : Keeps other guide) : Keeps disk guide :=
  ⟨h'.cwd.trans h.cwd, h'.host.trans h.host, fun v hv => h'.folder v (h.folder v hv),
    fun v target => (h'.link v target).trans (h.link v target)⟩

/-- If there are no more folders either, each disk keeps what the other one has. -/
theorem Keeps.symm (h : Keeps disk other) (hf : ∀ v, other.IsFolder v → disk.IsFolder v) :
    Keeps other disk :=
  ⟨h.cwd.symm, h.host.symm, hf, fun v target => (h.link v target).symm⟩

/-- A disk that agrees with another one where that has folders and links keeps them. -/
theorem Agree.keeps (h : Agree disk disk other) (hh : other.host = disk.host) :
    Keeps disk other :=
  ⟨h.cwd', hh, fun v hf => (h.folder v hf).trans hf, h.link'⟩

theorem Permissive.keep (hk : Keeps disk other) (h : disk.Permissive) : other.Permissive := by
  rw [Permissive, hk.host]
  exact h

/-- Whether an entry is a folder or a link. -/
def leadsOn : Entry → Bool
  | .folder | .link _ => true
  | .file _ | .shared _ | .special _ => false

/-- Disks that share the working folder and the host, and each of which has the folders and links
that the other one lists, keep what the other one has. -/
theorem keeps_of_entries (hcwd : other.cwd = disk.cwd) (hh : other.host = disk.host)
    (h : ∀ entry ∈ disk.entries.entries, leadsOn entry.2 = true →
      other.at? entry.1 = some entry.2)
    (h' : ∀ entry ∈ other.entries.entries, leadsOn entry.2 = true →
      disk.at? entry.1 = some entry.2) : Keeps disk other := by
  have hkeep {disk other : Disk} (h : ∀ entry ∈ disk.entries.entries, leadsOn entry.2 = true →
      other.at? entry.1 = some entry.2) {v : Location} {entry : Entry}
      (he : disk.at? v = some entry) (hl : leadsOn entry = true) :
      other.at? v = some entry := by
    by_cases hv : v = []
    · subst hv
      rw [← he, Disk.at?, Disk.at?, if_pos rfl, if_pos rfl]
    · exact h (v, entry) (mem_of_at?_eq_some he hv) hl
  exact ⟨hcwd, hh, fun v hf => hkeep h hf rfl,
    fun v target => ⟨fun hl => hkeep h' hl rfl, fun hl => hkeep h hl rfl⟩⟩

/-- Disks that keep what a walk goes through keep the walk. -/
theorem Walk.keep (hk : Keeps disk other) (h : Walk disk links here steps r) :
    Walk other links here steps r := by
  induction h with
  | done => exact .done
  | folder hf _ ih => exact .folder (hk.folder _ hf) ih
  | stay hf _ ih => exact .stay (hk.folder _ hf) ih
  | up hf _ ih => exact .up (hk.folder _ hf) ih
  | name hf hs hl _ ih =>
    exact .name (hk.folder _ hf) hs (fun target ht => hl target ((hk.link _ target).1 ht)) ih
  | link hf hs hl _ ih => exact .link (hk.folder _ hf) hs ((hk.link _ _).2 hl) ih

/-- A step can be taken from a folder only. -/
theorem Walk.isFolder {step : Step} (h : Walk disk links here (step :: rest) r) :
    disk.IsFolder here := by
  cases h <;> assumption

/-- Steps have one end. -/
theorem Walk.unique {r' : Location × Nat} (h : Walk disk links here steps r)
    (h' : Walk disk links here steps r') : r = r' := by
  induction h with
  | done =>
    cases h'
    rfl
  | folder _ _ ih =>
    cases h' with
    | folder _ h' => exact ih h'
  | stay _ _ ih =>
    cases h' with
    | stay _ h' => exact ih h'
  | up _ _ ih =>
    cases h' with
    | up _ h' => exact ih h'
  | name _ _ hl _ ih =>
    cases h' with
    | name _ _ _ h' => exact ih h'
    | link _ _ hl' _ => exact absurd hl' (hl _)
  | link _ _ hl _ ih =>
    cases h' with
    | name _ _ hl' _ => exact absurd hl (hl' _)
    | link _ _ hl' h' =>
      cases Option.some.inj (hl.symm.trans hl')
      exact ih h'

/-- A walk goes on where another one ends. -/
theorem Walk.append {front back : List Step} {left : Nat} (h : Walk disk links here front (v, left))
    (h' : Walk disk left v back r) : Walk disk links here (front ++ back) r := by
  generalize he : (v, left) = last at h
  induction h with
  | done =>
    cases he
    exact h'
  | folder hf _ ih => exact .folder hf (ih he)
  | stay hf _ ih => exact .stay hf (ih he)
  | up hf _ ih => exact .up hf (ih he)
  | name hf hs hl _ ih => exact .name hf hs hl (ih he)
  | link hf hs hl _ ih => exact .link hf hs hl (List.append_assoc _ _ _ ▸ ih he)

/-- A beginning of a walk is empty, or begins with the step that the walk begins with. -/
theorem Walk.split_cons {front back : List Step} {step : Step}
    (h : Walk disk links here (step :: rest) r) (he : front ++ back = step :: rest)
    (hcons : ∀ front', front' ++ back = rest →
      ∃ v left, Walk disk links here (step :: front') (v, left) ∧ Walk disk left v back r) :
    ∃ v left, Walk disk links here front (v, left) ∧ Walk disk left v back r := by
  rcases List.append_eq_cons_iff.1 he with ⟨rfl, rfl⟩ | ⟨front', rfl, rfl⟩
  · exact ⟨here, links, .done, h⟩
  · exact hcons front' rfl

/-- Each beginning of a walk leads somewhere. -/
theorem Walk.split {front back : List Step} (h : Walk disk links here (front ++ back) r) :
    ∃ v left, Walk disk links here front (v, left) ∧ Walk disk left v back r := by
  generalize he : front ++ back = steps at h
  induction h generalizing front with
  | done =>
    obtain ⟨rfl, rfl⟩ := List.append_eq_nil_iff.1 he
    exact ⟨_, _, .done, .done⟩
  | folder hf h ih =>
    refine split_cons (.folder hf h) he fun front' hrest => ?_
    obtain ⟨v, left, hfront, hback⟩ := ih hrest
    exact ⟨v, left, .folder hf hfront, hback⟩
  | stay hf h ih =>
    refine split_cons (.stay hf h) he fun front' hrest => ?_
    obtain ⟨v, left, hfront, hback⟩ := ih hrest
    exact ⟨v, left, .stay hf hfront, hback⟩
  | up hf h ih =>
    refine split_cons (.up hf h) he fun front' hrest => ?_
    obtain ⟨v, left, hfront, hback⟩ := ih hrest
    exact ⟨v, left, .up hf hfront, hback⟩
  | name hf hs hl h ih =>
    refine split_cons (.name hf hs hl h) he fun front' hrest => ?_
    obtain ⟨v, left, hfront, hback⟩ := ih hrest
    exact ⟨v, left, .name hf hs hl hfront, hback⟩
  | link hf hs hl h ih =>
    refine split_cons (.link hf hs hl h) he fun front' hrest => ?_
    obtain ⟨v, left, hfront, hback⟩ := ih (by rw [List.append_assoc, hrest])
    exact ⟨v, left, .link hf hs hl hfront, hback⟩

/-! ## What following comes to -/

/-- Disks that agree let one go into the same folders. -/
theorem Agree.enter (h : Agree guide disk other) (hf : guide.IsFolder v) :
    other.expectFolder v = disk.expectFolder v ∧ other.enter v = disk.enter v := by
  have he : other.expectFolder v = disk.expectFolder v := by
    rw [expectFolder, expectFolder, h.folder v hf]
  exact ⟨he, by rw [Disk.enter, Disk.enter, he, h.ask]⟩

/-- Behind a walk on a guide two disks that agree come to the same, if they do so from its end
on. -/
theorem follow_congr_append (ha : Agree guide disk other) {front back : List Step} {left : Nat}
    (h : Walk guide links here front (v, left))
    (hback : other.follow creating left v back = disk.follow creating left v back) :
    other.follow creating links here (front ++ back) =
      disk.follow creating links here (front ++ back) := by
  generalize he : (v, left) = last at h
  induction h with
  | done =>
    cases he
    exact hback
  | folder hf _ ih =>
    rw [List.cons_append, follow_folder, follow_folder, (ha.enter hf).1, ih he]
  | stay hf _ ih =>
    rw [List.cons_append, follow_stay, follow_stay, (ha.enter hf).2, ih he]
  | up hf _ ih =>
    rw [List.cons_append, follow_up, follow_up, (ha.enter hf).2, ih he]
  | @name links here name rest r hf hs hl _ ih =>
    rw [List.cons_append,
      follow_name_of_not_link fun target => mt (ha.link' _ target).1 (hl target),
      follow_name_of_not_link fun target => mt (ha.link _ target).1 (hl target), (ha.enter hf).2,
      ih he]
  | @link links here name target rest r hf hs hl _ ih =>
    rw [List.cons_append, follow_name, follow_name, (ha.enter hf).2, (ha.link _ _).2 hl,
      (ha.link' _ _).2 hl]
    simp only [beyond]
    rw [← List.append_assoc, ih he]

/-- Where a walk goes on a guide, two disks that agree come to the same. -/
theorem follow_congr (ha : Agree guide disk other) (h : Walk guide links here steps r) :
    other.follow creating links here steps = disk.follow creating links here steps := by
  have hboth : other.follow creating links here (steps ++ []) =
      disk.follow creating links here (steps ++ []) :=
    follow_congr_append ha h (by rw [follow_nil, follow_nil])
  rwa [List.append_nil] at hboth

end SvgComponent.Disk
