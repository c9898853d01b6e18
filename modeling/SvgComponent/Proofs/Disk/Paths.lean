import SvgComponent.Disk.Files
import SvgComponent.Proofs.Disk.Walking
import SvgComponent.Proofs.Path.Joining

/-!
# Where paths lead

A path leads to one location (`Leads`), whatever the host says of the way. A name behind the path of
a folder is one more step (`route_join`) : it leads to its place in the folder
(`leads_join`), or to where the link that stands there leads.

`Sound` : what holds of all disks.
-/

namespace SvgComponent.Disk

open SvgComponent.Path

variable {disk other guide : Disk} {creating : Bool} {path name : String} {v w folder : Location}
  {found : Route}

/-! ## Sound disks -/

/-- A text that an entry can have as its name. -/
structure IsEntryName (name : String) : Prop where
  isName : IsName name
  no_nul : '\x00' ∉ name.toList
  not_dots : name ≠ "." ∧ name ≠ ".."
  short : name.utf8ByteSize ≤ maxName

instance (name : String) : Decidable (IsEntryName name) :=
  decidable_of_iff (IsName name ∧ '\x00' ∉ name.toList ∧ (name ≠ "." ∧ name ≠ "..") ∧
      name.utf8ByteSize ≤ maxName)
    ⟨fun h => ⟨h.1, h.2.1, h.2.2.1, h.2.2.2⟩, fun h => ⟨h.isName, h.no_nul, h.not_dots, h.short⟩⟩

/-- What holds of all disks : there is a working folder, all entries stand in folders, and those
that have a text as their name have one that entries can have. -/
structure Sound (disk : Disk) : Prop where
  cwd : disk.IsFolder disk.cwd
  around : ∀ entry ∈ disk.entries.entries, disk.IsFolder entry.1.dropLast
  names : ∀ entry ∈ disk.entries.entries, ∀ name, .text name ∈ entry.1 → IsEntryName name

/-- Whether a name is one that an entry can have, if it is a text. -/
def isSoundName : Name → Bool
  | .text name => decide (IsEntryName name)
  | .raw .. => true

instance (disk : Disk) : Decidable disk.Sound :=
  decidable_of_iff (disk.IsFolder disk.cwd ∧ ∀ entry ∈ disk.entries.entries,
      disk.IsFolder entry.1.dropLast ∧ ∀ name ∈ entry.1, isSoundName name = true)
    ⟨fun h => ⟨h.1, fun entry he => (h.2 entry he).1,
        fun entry he name hn => of_decide_eq_true ((h.2 entry he).2 _ hn)⟩,
      fun h => ⟨h.cwd, fun entry he => ⟨h.around entry he, fun name hn => by
        cases name with
        | text name => exact decide_eq_true (h.names entry he name hn)
        | raw => rfl⟩⟩⟩

/-- Around a folder there is a folder. -/
theorem Sound.isFolder_dropLast (hs : disk.Sound) (h : disk.IsFolder v) :
    disk.IsFolder v.dropLast := by
  rcases eq_or_ne v [] with rfl | hv
  · exact h
  · exact hs.around _ (mem_of_at?_eq_some h hv)

theorem IsEntryName.stepOf (h : IsEntryName name) : stepOf name.toList = .name (.text name) := by
  have hstay : name.toList ≠ ['.'] := fun he => h.not_dots.1 (String.toList_inj.1 he)
  have hup : name.toList ≠ ['.', '.'] := fun he => h.not_dots.2 (String.toList_inj.1 he)
  rw [Disk.stepOf, if_neg hstay, if_neg hup, String.ofList_toList]

theorem IsEntryName.size (h : IsEntryName name) : (Name.text name).size ≤ maxName := h.short

/-! ## Where a path leads -/

/-- Where a path leads, whatever the host says. -/
def Leads (disk : Disk) (path : String) (v : Location) : Prop :=
  ∃ found left, route path = .ok found ∧
    Walk disk maxLinks (found.start disk.cwd) found.steps (v, left)

/-- A path that has a route is located by following its steps. -/
theorem locate_of_route (h : route path = .ok found) :
    disk.locate creating path =
      (disk.follow creating maxLinks (found.start disk.cwd) found.steps).map Prod.fst := by
  rw [locate, h]
  change (disk.follow creating maxLinks (found.start disk.cwd) found.steps >>= _) = _
  cases disk.follow creating maxLinks (found.start disk.cwd) found.steps <;> rfl

/-- A path leads to where it is located. -/
theorem leads_of_locate (h : disk.locate creating path = .ok v) : disk.Leads path v := by
  obtain ⟨found, hr, h⟩ := exists_of_bind_eq_ok h
  obtain ⟨last, hf, hlast⟩ := exists_of_bind_eq_ok h
  cases hlast
  exact ⟨found, last.2, hr, walk_of_follow hf⟩

namespace Leads

theorem unique (h : disk.Leads path v) (h' : disk.Leads path w) : v = w := by
  obtain ⟨found, left, hr, hw⟩ := h
  obtain ⟨found', left', hr', hw'⟩ := h'
  cases hr.symm.trans hr'
  exact congrArg Prod.fst (hw.unique hw')

theorem keep (hk : Keeps disk other) (h : disk.Leads path v) : other.Leads path v := by
  obtain ⟨found, left, hr, hw⟩ := h
  exact ⟨found, left, hr, hk.cwd ▸ hw.keep hk⟩

end Leads

/-- If the host refuses nothing, a path is located where it leads. -/
theorem locate_of_leads (hp : disk.Permissive) (h : disk.Leads path v) :
    disk.locate false path = .ok v := by
  obtain ⟨found, left, hr, hw⟩ := h
  rw [locate_of_route hr, follow_of_walk hp hw]
  rfl

theorem locate_of_error {fault : DiskFault} (h : route path = .error fault) :
    disk.locate creating path = .error fault := by
  rw [locate, h]
  rfl

/-- Where a path leads on a guide, two disks that agree come to the same. -/
theorem locate_congr (ha : Agree guide disk other) (h : guide.Leads path v) :
    other.locate creating path = disk.locate creating path := by
  obtain ⟨found, left, hr, hw⟩ := h
  rw [locate_of_route hr, locate_of_route hr, ha.cwd, ha.cwd', follow_congr ha hw]

/-! ## Names behind a path -/

/-- The route to what is in the folder of a path; an empty path stands for the working folder. -/
def way (path : String) : Except DiskFault Route :=
  if path = "" then .ok ⟨false, [], false⟩ else route path

theorem route_eq_ok_iff :
    route path = .ok found ↔ '\x00' ∉ path.toList ∧ path ≠ "" ∧ path.utf8ByteSize ≤ maxPath ∧
      found =
        ⟨isAbsolute path, (parts path.toList).map stepOf, path.toList.getLast? = some '/'⟩ := by
  rw [route]
  split_ifs with hnul hempty hlong
  · simp_all
  · simp_all
  · exact iff_of_false (by simp) fun h => absurd h.2.2.1 (Nat.not_le.2 hlong)
  · simp_all [parts, eq_comm]

/-- The route of a name behind a path has one more step. -/
theorem route_join (h : way path = .ok found) (hn : IsName name) :
    route (join path name) =
      if '\x00' ∈ name.toList then .error .nulCharacter
      else if (join path name).utf8ByteSize > maxPath then .error .nameTooLong
      else .ok ⟨found.absolute, found.names ++ [stepOf name.toList], false⟩ := by
  have hlast (cs : List Char) : decide ((cs ++ name.toList).getLast? = some '/') = false :=
    decide_eq_false (hn.getLast?_append cs)
  rw [way] at h
  split_ifs at h with hempty
  · cases h
    subst hempty
    rw [join_empty]
    split_ifs with hnul hlong
    · rw [route, if_pos (by simpa using hnul)]
    · rw [route, if_neg (by simpa using hnul), if_neg hn.ne_empty, if_pos hlong]
    · refine route_eq_ok_iff.2 ⟨hnul, hn.ne_empty, Nat.not_lt.1 hlong, ?_⟩
      have hend := hlast []
      rw [List.nil_append] at hend
      rw [parts_name hn, Bool.eq_false_iff.2 hn.not_isAbsolute, hend]
      rfl
  · obtain ⟨hnulPath, -, -, rfl⟩ := route_eq_ok_iff.1 h
    have hj := toList_join hempty hn.not_isAbsolute
    have hne : join path name ≠ "" := by
      intro he
      rw [he] at hj
      simp [slashed_ne_nil] at hj
    have hmem : '\x00' ∈ (join path name).toList ↔ '\x00' ∈ name.toList := by
      have hslash : '\x00' ∉ slashed path.toList := by
        rw [slashed]
        split_ifs
        · exact hnulPath
        · simpa using hnulPath
      rw [hj, List.mem_append, or_iff_right hslash]
    split_ifs with hnul hlong
    · rw [route, if_pos (by simpa using hmem.2 hnul)]
    · rw [route, if_neg (by simpa using mt hmem.1 hnul), if_neg hne, if_pos hlong]
    · refine route_eq_ok_iff.2 ⟨mt hmem.1 hnul, hne, Nat.not_lt.1 hlong, ?_⟩
      rw [hj, parts_slashed_append _ hn, hlast, isAbsolute_join hempty hn.not_isAbsolute,
        List.map_append, List.map_singleton]

/-- A path leads to a folder, behind which names can be put. -/
def FolderAt (disk : Disk) (path : String) (folder : Location) : Prop :=
  ∃ found left, way path = .ok found ∧
    Walk disk maxLinks (found.start disk.cwd) found.names (folder, left) ∧ disk.IsFolder folder

/-- A path that leads to a folder has names behind it. -/
theorem folderAt_of_leads (h : disk.Leads path folder) (hf : disk.IsFolder folder) :
    disk.FolderAt path folder := by
  obtain ⟨found, left, hr, hw⟩ := h
  have hway : way path = .ok found := by
    rw [way, if_neg (route_eq_ok_iff.1 hr).2.1, hr]
  rw [Route.steps] at hw
  split_ifs at hw
  · obtain ⟨v, left, hfront, hback⟩ := hw.split
    cases hback with
    | folder _ hdone =>
      cases hdone
      exact ⟨found, _, hway, hfront, hf⟩
  · exact ⟨found, left, hway, hw, hf⟩

theorem folderAt_of_locate (h : disk.locate false path = .ok folder)
    (hf : disk.IsFolder folder) : disk.FolderAt path folder :=
  folderAt_of_leads (leads_of_locate h) hf

namespace FolderAt

theorem isFolder (h : disk.FolderAt path folder) : disk.IsFolder folder := by
  obtain ⟨found, left, hway, hw, hf⟩ := h
  exact hf

theorem keep (hk : Keeps disk other) (h : disk.FolderAt path folder) :
    other.FolderAt path folder := by
  obtain ⟨found, left, hway, hw, hf⟩ := h
  exact ⟨found, left, hway, hk.cwd ▸ hw.keep hk, hk.folder _ hf⟩

theorem unique (h : disk.FolderAt path v) (h' : disk.FolderAt path w) : v = w := by
  obtain ⟨found, left, hway, hw, _⟩ := h
  obtain ⟨found', left', hway', hw', _⟩ := h'
  cases hway.symm.trans hway'
  exact congrArg Prod.fst (hw.unique hw')

end FolderAt

/-- The steps of a name behind a path. -/
theorem leads_join_iff (h : disk.FolderAt path folder) (hn : IsName name) :
    disk.Leads (join path name) v ↔
      '\x00' ∉ name.toList ∧ (join path name).utf8ByteSize ≤ maxPath ∧
        ∃ found left rest, way path = .ok found ∧
          Walk disk maxLinks (found.start disk.cwd) found.names (folder, left) ∧
          Walk disk left folder [stepOf name.toList] (v, rest) := by
  obtain ⟨found, left, hway, hw, _⟩ := h
  have hr := route_join hway hn
  constructor
  · rintro ⟨found', rest, hr', hw'⟩
    rw [hr'] at hr
    split_ifs at hr with hnul hlong
    cases hr
    obtain ⟨v', left', hfront, hback⟩ := Walk.split hw'
    cases hw.unique hfront
    exact ⟨hnul, Nat.not_lt.1 hlong, found, left, rest, hway, hw, hback⟩
  · rintro ⟨hnul, hlong, found', left', rest, hway', hw', hback⟩
    cases hway.symm.trans hway'
    rw [if_neg hnul, if_neg (Nat.not_lt.2 hlong)] at hr
    exact ⟨_, rest, hr, hw'.append hback⟩

/-- Behind the path of a folder a name leads to its place there, if that is no link. -/
theorem leads_join (h : disk.FolderAt path folder) (hn : IsEntryName name)
    (hlong : (join path name).utf8ByteSize ≤ maxPath)
    (hl : ∀ target, disk.at? (folder ++ [.text name]) ≠ some (.link target)) :
    disk.Leads (join path name) (folder ++ [.text name]) := by
  obtain ⟨found, left, hway, hw, hf⟩ := h
  refine (leads_join_iff ⟨found, left, hway, hw, hf⟩ hn.isName).2
    ⟨hn.no_nul, hlong, found, left, left, hway, hw, ?_⟩
  rw [hn.stepOf]
  exact .name hf hn.size hl .done

/-- Behind the path of a folder a name leads to its place there, unless that is a link, or to a
folder. -/
theorem eq_or_of_leads_join (haround : disk.IsFolder folder.dropLast)
    (h : disk.FolderAt path folder) (hn : IsName name) (hv : disk.Leads (join path name) v) :
    v = folder ++ [.text name] ∨ disk.IsFolder v ∨
      ∃ target, disk.at? (folder ++ [.text name]) = some (.link target) := by
  obtain ⟨-, -, found, left, rest, -, -, hw⟩ := (leads_join_iff h hn).1 hv
  rw [stepOf, String.ofList_toList] at hw
  split_ifs at hw
  · cases hw with
    | stay hf hdone =>
      cases hdone
      exact .inr (.inl hf)
  · cases hw with
    | up _ hdone =>
      cases hdone
      exact .inr (.inl haround)
  · cases hw with
    | name _ _ _ hdone =>
      cases hdone
      exact .inl rfl
    | link _ _ hl _ => exact .inr (.inr ⟨_, hl⟩)

/-- A path comes to the same on all disks that agree with this one. -/
def Fixed (guide : Disk) (path : String) : Prop :=
  ∀ disk other creating, Agree guide disk other →
    other.locate creating path = disk.locate creating path

/-- A name behind the path of a folder comes to the same on all disks that agree, unless a link
stands there that leads nowhere. -/
theorem fixed_join (h : guide.FolderAt path folder) (hn : IsName name)
    (hl : ∀ target, guide.at? (folder ++ [.text name]) = some (.link target) →
      ∃ v, guide.Leads (join path name) v) : guide.Fixed (join path name) := by
  intro disk other creating ha
  by_cases hleads : ∃ v, guide.Leads (join path name) v
  · obtain ⟨v, hv⟩ := hleads
    exact locate_congr ha hv
  obtain ⟨found, left, hway, hw, hf⟩ := h
  have hback : other.follow creating left folder [stepOf name.toList] =
      disk.follow creating left folder [stepOf name.toList] := by
    rw [stepOf, String.ofList_toList]
    split_ifs
    · rw [follow_stay, follow_stay, (ha.enter hf).2, follow_nil, follow_nil]
    · rw [follow_up, follow_up, (ha.enter hf).2, follow_nil, follow_nil]
    · have hnone {disk : Disk} (hlink : ∀ v target, disk.at? v = some (.link target) ↔
          guide.at? v = some (.link target)) (target : Route) :
          disk.at? (folder ++ [.text name]) ≠ some (.link target) :=
        fun he => hleads (hl target ((hlink _ _).1 he))
      rw [follow_name_of_not_link (hnone ha.link), follow_name_of_not_link (hnone ha.link'),
        (ha.enter hf).2, follow_nil, follow_nil]
  have hr := route_join hway hn
  split_ifs at hr
  · rw [locate_of_error hr, locate_of_error hr]
  · rw [locate_of_error hr, locate_of_error hr]
  · rw [locate_of_route hr, locate_of_route hr, ha.cwd, ha.cwd']
    exact congrArg _ (follow_congr_append ha hw hback)

end SvgComponent.Disk
