import Mathlib.Data.List.Induction
import SvgComponent.Disk.Folders
import SvgComponent.Proofs.Disk.Reading

/-!
# Making folders

Making a folder and those around it puts folders where beginnings of its path lead and nothing was,
and changes nothing else (`grown_makeFolders`). If it succeeds the path leads to a folder
(`folderAt_makeFolders`). What is in the way of it on one disk only is told by
`Alongside.makeFolders` : another disk that has the same links, and the same at all places where
there are folders in the end, fares in the same way.
-/

namespace SvgComponent.Disk

variable {disk other after guide : Disk} {path : String} {start v e : Location}
  {names : List Step}

/-! ## Added folders -/

/-- A beginning of some steps leads to a location. -/
def OnSteps (disk : Disk) (start : Location) (names : List Step) (v : Location) : Prop :=
  ∃ front left, front <+: names ∧ Walk disk maxLinks start front (v, left)

/-- A disk with folders added at some of the locations given, where nothing was. -/
structure Grown (on : Location → Prop) (disk after : Disk) : Prop where
  keeps : Keeps disk after
  shared : ∀ v number,
    after.at? v = some (.shared number) ↔ disk.at? v = some (.shared number)
  entry : ∀ v, SameAt disk after v ∨ disk.at? v = none ∧ after.IsFolder v ∧ on v
  around : ∀ v, after.IsFolder v → disk.IsFolder v ∨ after.IsFolder v.dropLast

/-- Steps lead to a folder. -/
def LeadsToFolder (disk : Disk) (start : Location) (names : List Step) : Prop :=
  ∃ v left, Walk disk maxLinks start names (v, left) ∧ disk.IsFolder v

theorem OnSteps.keep (hk : Keeps disk other) (h : disk.OnSteps start names v) :
    other.OnSteps start names v := by
  obtain ⟨front, left, hp, hw⟩ := h
  exact ⟨front, left, hp, hw.keep hk⟩

theorem OnSteps.mono {more : List Step} (hp : names <+: more) (h : disk.OnSteps start names v) :
    disk.OnSteps start more v := by
  obtain ⟨front, left, hfront, hw⟩ := h
  exact ⟨front, left, hfront.trans hp, hw⟩

namespace Grown

variable {on more : Location → Prop}

theorem refl (on : Location → Prop) (disk : Disk) : Grown on disk disk :=
  ⟨.refl disk, fun _ _ => .rfl, fun v => .inl (.refl disk v), fun _ => .inl⟩

theorem mono (hm : ∀ v, on v → more v) (h : Grown on disk after) : Grown more disk after :=
  ⟨h.keeps, h.shared, fun v => (h.entry v).imp_right fun ⟨hn, hf, ho⟩ => ⟨hn, hf, hm v ho⟩,
    h.around⟩

theorem trans (h : Grown on disk other) (h' : Grown on other after) : Grown on disk after := by
  refine ⟨h.keeps.trans h'.keeps, fun v number => (h'.shared v number).trans (h.shared v number),
    fun v => ?_, fun v hv => ?_⟩
  · rcases h'.entry v with hsame' | ⟨hn', hf', hon'⟩
    · rcases h.entry v with hsame | ⟨hn, hf, hon⟩
      · exact .inl (hsame.trans hsame')
      · exact .inr ⟨hn, h'.keeps.folder v hf, hon⟩
    · refine .inr ⟨?_, hf', hon'⟩
      rcases h.entry v with hsame | ⟨hn, -, -⟩
      · exact hsame.entry.symm.trans hn'
      · exact hn
  · rcases h'.around v hv with hf | hf
    · exact (h.around v hf).imp_right (h'.keeps.folder _)
    · exact .inr hf

theorem joined_iff (h : Grown on disk after) {u v : Location} :
    after.Joined u v ↔ disk.Joined u v := by
  simp only [Joined, h.shared]

/-- What was there is there, with the same in it. -/
theorem sameAt (h : Grown on disk after) (hv : disk.at? v ≠ none) : SameAt disk after v :=
  (h.entry v).resolve_right fun hn => hv hn.1

/-- What is no folder in the end is as it was. -/
theorem sameAt_of_not_isFolder (h : Grown on disk after) (hv : ¬ after.IsFolder v) :
    SameAt disk after v :=
  (h.entry v).resolve_right fun hn => hv hn.2.1

/-- Around a folder there is a folder still. -/
theorem isFolder_dropLast (hs : disk.Sound) (h : Grown on disk after) (hv : after.IsFolder v) :
    after.IsFolder v.dropLast := by
  rcases h.around v hv with hf | hf
  · exact h.keeps.folder _ (hs.isFolder_dropLast hf)
  · exact hf

end Grown

theorem LeadsToFolder.keep (hk : Keeps disk other) (h : disk.LeadsToFolder start names) :
    other.LeadsToFolder start names := by
  obtain ⟨v, left, hw, hf⟩ := h
  exact ⟨v, left, hw.keep hk, hk.folder v hf⟩

/-- Where a folder is found, steps lead to one. -/
theorem leadsToFolder_of_hasFolder (h : disk.hasFolder start names = true) :
    disk.LeadsToFolder start names := by
  rw [hasFolder] at h
  cases hf : disk.follow false maxLinks start names with
  | error fault =>
    rw [hf] at h
    cases h
  | ok last =>
    rw [hf] at h
    exact ⟨last.1, last.2, walk_of_follow hf, of_decide_eq_true h⟩

/-! ## One folder -/

/-- What making a folder comes to, once the folder is found that it is to stand in. -/
def makeIn (disk : Disk) (folder : Location) : Step → Except DiskFault Disk
  | .name name =>
    if name.size > maxName then .error .nameTooLong
    else if (disk.at? (folder ++ [name])).isSome then .error .taken
    else disk.ask .create (folder ++ [name]) >>= fun _ => .ok (disk.put (folder ++ [name]) .folder)
  | _ => .error .taken

/-- A folder is made in the folder to which all steps but the last lead. -/
theorem makeFolder_concat (disk : Disk) (start : Location) (names : List Step) (last : Step) :
    disk.makeFolder start (names ++ [last]) =
      disk.follow false maxLinks start names >>= fun found =>
        disk.enter found.1 >>= fun _ => disk.makeIn found.1 last := by
  rw [makeFolder, List.getLast?_concat, List.dropLast_concat]
  dsimp only
  cases disk.follow false maxLinks start names with
  | error fault => rfl
  | ok found => cases last <;> rfl

/-- A folder that is made is put where its steps lead. -/
theorem makeFolder_eq_ok (h : disk.makeFolder start names = .ok after) :
    ∃ v left, v ≠ [] ∧ disk.at? v = none ∧ disk.IsFolder v.dropLast ∧
      after = disk.put v .folder ∧ Keeps disk after ∧
      Walk after maxLinks start names (v, left) := by
  rcases List.eq_nil_or_concat names with rfl | ⟨init, last, rfl⟩
  · cases h
  rw [List.concat_eq_append] at h ⊢
  rw [makeFolder_concat] at h
  obtain ⟨⟨folder, left⟩, hf, h⟩ := exists_of_bind_eq_ok h
  obtain ⟨_, henter, h⟩ := exists_of_bind_eq_ok h
  cases last with
  | stay | up | folder => cases h
  | name name =>
    rw [makeIn] at h
    split_ifs at h with hs hsome
    obtain ⟨-, -, h⟩ := exists_of_bind_eq_ok h
    cases h
    have hnil : folder ++ [name] ≠ [] := by simp
    have hnone : disk.at? (folder ++ [name]) = none := by simpa using hsome
    have hkeeps : Keeps disk (disk.put (folder ++ [name]) .folder) := keeps_put_folder hnil hnone
    have haround : disk.IsFolder folder := isFolder_of_enter henter
    refine ⟨_, left, hnil, hnone, List.dropLast_concat ▸ haround, rfl, hkeeps,
      ((walk_of_follow hf).keep hkeeps).append ?_⟩
    refine .name (hkeeps.folder _ haround) (Nat.not_lt.1 hs) ?_ .done
    intro target ht
    rw [at?_put hnil, if_pos rfl] at ht
    cases ht

/-- Making a folder adds it, where the steps lead. -/
theorem grown_makeFolder (h : disk.makeFolder start names = .ok after) :
    Grown (OnSteps after start names) disk after ∧ after.LeadsToFolder start names := by
  obtain ⟨v, left, hv, hnone, haround, rfl, hkeeps, hw⟩ := makeFolder_eq_ok h
  have hentry := at?_put hv disk .folder
  have hfolder : (disk.put v .folder).IsFolder v := by rw [IsFolder, hentry, if_pos rfl]
  refine ⟨⟨hkeeps, fun u number => ?_, fun u => ?_, fun u hu => ?_⟩, v, left, hw, hfolder⟩
  · rw [hentry]
    split_ifs with hu
    · subst hu
      simp [hnone]
    · exact .rfl
  · by_cases hu : u = v
    · subst hu
      exact .inr ⟨hnone, hfolder, names, left, List.prefix_refl _, hw⟩
    · exact .inl (sameAt_put hv disk _ hu)
  · rw [IsFolder, hentry] at hu
    split_ifs at hu with he
    · subst he
      exact .inr (hkeeps.folder _ haround)
    · exact .inl hu

/-! ## A folder and those around it -/

/-- What an attempt to make a folder leaves behind. -/
theorem grown_afterAttempt (start : Location) (names : List Step) (disk : Disk) :
    Grown (OnSteps (disk.afterAttempt start names (disk.makeFolder start names)).2 start names)
        disk (disk.afterAttempt start names (disk.makeFolder start names)).2 ∧
      ((disk.afterAttempt start names (disk.makeFolder start names)).1 = .ok () →
        LeadsToFolder (disk.afterAttempt start names (disk.makeFolder start names)).2
          start names) := by
  cases h : disk.makeFolder start names with
  | ok after => exact ⟨(grown_makeFolder h).1, fun _ => (grown_makeFolder h).2⟩
  | error fault =>
    refine ⟨.refl _ _, fun hok => ?_⟩
    rw [afterAttempt] at hok
    by_cases hf : disk.hasFolder start names = true
    · exact leadsToFolder_of_hasFolder hf
    · rw [if_neg hf] at hok
      cases hok

/-- If the folder around is missing, it is made first. -/
theorem makeFoldersUp_of_missing {last : Step} {around : List Step}
    (h : disk.makeFolder start (around.reverse ++ [last]) = .error .missing) :
    makeFoldersUp start (last :: around) disk =
      match makeFoldersUp start around disk with
      | (.ok _, disk) => disk.afterAttempt start (around.reverse ++ [last])
          (disk.makeFolder start (around.reverse ++ [last]))
      | failure => failure := by
  rw [makeFoldersUp, List.reverse_cons]
  split
  · rfl
  · rename_i hne
    exact absurd h hne

/-- If the folder around is there, it is tried only once. -/
theorem makeFoldersUp_of_ne_missing {last : Step} {around : List Step}
    (h : disk.makeFolder start (around.reverse ++ [last]) ≠ .error .missing) :
    makeFoldersUp start (last :: around) disk =
      disk.afterAttempt start (around.reverse ++ [last])
        (disk.makeFolder start (around.reverse ++ [last])) := by
  rw [makeFoldersUp, List.reverse_cons]
  split
  · rename_i hm
    exact absurd hm h
  · rfl

/-- Making folders adds folders on the way, and in the end the steps lead to a folder. -/
theorem grown_makeFoldersUp (start : Location) (up : List Step) (disk : Disk) :
    Grown (OnSteps (makeFoldersUp start up disk).2 start up.reverse) disk
        (makeFoldersUp start up disk).2 ∧
      (disk.IsFolder start → (makeFoldersUp start up disk).1 = .ok () →
        LeadsToFolder (makeFoldersUp start up disk).2 start up.reverse) := by
  induction up generalizing disk with
  | nil => exact ⟨.refl _ _, fun hs _ => ⟨start, _, .done, hs⟩⟩
  | cons last around ih =>
    rw [List.reverse_cons]
    have hattempt (disk : Disk) := grown_afterAttempt start (around.reverse ++ [last]) disk
    by_cases hm : disk.makeFolder start (around.reverse ++ [last]) = .error .missing
    · obtain ⟨hup, -⟩ := ih disk
      rw [makeFoldersUp_of_missing hm]
      cases he : makeFoldersUp start around disk with
      | mk result made =>
        rw [he] at hup
        have hprefix := List.prefix_append around.reverse [last]
        cases result with
        | ok _ =>
          have hlater := (hattempt made).1
          exact ⟨(hup.mono fun v hv => (hv.mono hprefix).keep hlater.keeps).trans hlater,
            fun _ => (hattempt made).2⟩
        | error fault => exact ⟨hup.mono fun v hv => hv.mono hprefix, fun _ h => by cases h⟩
    · rw [makeFoldersUp_of_ne_missing hm]
      exact ⟨(hattempt disk).1, fun _ => (hattempt disk).2⟩

/-! ## Two disks -/

/-- Two disks on which a folder is made, and a guide that has it in the end : the disks agree where
the guide has folders, the guide keeps what is on the first one, and hosts are steady. -/
structure Alongside (guide disk other : Disk) : Prop where
  keeps : Keeps disk guide
  agree : Agree guide disk other
  steady : disk.Steady
  host : other.host = disk.host

/-- A folder that is added to both disks leaves them alongside, if the guide has it. -/
theorem Alongside.put (h : Alongside guide disk other) (hv : v ≠ []) (hnone : disk.at? v = none)
    (hf : guide.IsFolder v) (hk : Keeps (disk.put v .folder) guide) :
    Alongside guide (disk.put v .folder) (other.put v .folder) := by
  have hentry := at?_put hv disk .folder
  have hentry' := at?_put hv other .folder
  have hnone' : other.at? v = none := (h.agree.folder v hf).trans hnone
  have hkeeps := keeps_put_folder hv hnone
  have hkeeps' := keeps_put_folder hv hnone'
  refine ⟨hk, ⟨h.agree.cwd, h.agree.cwd', fun u => ?_, fun u hu => ?_, fun u target => ?_,
    fun u target => ?_⟩, h.steady.congr rfl, h.host⟩
  · have hsteady : (disk.put v .folder).Steady := h.steady.congr rfl
    have hhost : (other.put v .folder).host = (disk.put v .folder).host := h.host
    exact hsteady.ask hhost .search u
  · rw [hentry, hentry']
    split_ifs
    · rfl
    · exact h.agree.folder u hu
  · exact (hkeeps.link u target).trans (h.agree.link u target)
  · exact (hkeeps'.link u target).trans (h.agree.link' u target)

/-- What stands at a place where the guide has a folder, or a link, is the same on both disks. -/
theorem Alongside.makeIn (h : Alongside guide disk other) {folder : Location} {last : Step}
    {left rest : Nat} (hw : Walk guide left folder [last] (e, rest)) (he : guide.IsFolder e) :
    (∃ fault, disk.makeIn folder last = .error fault ∧ other.makeIn folder last = .error fault) ∨
      ∃ v, disk.makeIn folder last = .ok (disk.put v .folder) ∧
        other.makeIn folder last = .ok (other.put v .folder) ∧ v ≠ [] ∧
        disk.at? v = none := by
  have hname {name : Name}
      (hentry : other.at? (folder ++ [name]) = disk.at? (folder ++ [name])) :
      (∃ fault, disk.makeIn folder (.name name) = .error fault ∧
          other.makeIn folder (.name name) = .error fault) ∨
        ∃ v, disk.makeIn folder (.name name) = .ok (disk.put v .folder) ∧
          other.makeIn folder (.name name) = .ok (other.put v .folder) ∧ v ≠ [] ∧
          disk.at? v = none := by
    rw [Disk.makeIn, Disk.makeIn, hentry, h.steady.ask h.host]
    split_ifs with hs hsome
    · exact .inl ⟨_, rfl, rfl⟩
    · exact .inl ⟨_, rfl, rfl⟩
    · cases disk.ask .create (folder ++ [name]) with
      | error fault => exact .inl ⟨_, rfl, rfl⟩
      | ok _ => exact .inr ⟨_, rfl, rfl, by simp, by simpa using hsome⟩
  cases hw with
  | stay | up | folder => exact .inl ⟨_, rfl, rfl⟩
  | name _ _ _ hdone =>
    cases hdone
    exact hname (h.agree.folder _ he)
  | link _ _ hl _ =>
    exact hname (((h.agree.link' _ _).2 hl).trans ((h.agree.link _ _).2 hl).symm)

/-- Making one folder comes to the same on both disks. -/
theorem makeFolder_congr (h : Alongside guide disk other) (hg : guide.LeadsToFolder start names) :
    (∃ fault, disk.makeFolder start names = .error fault ∧
        other.makeFolder start names = .error fault) ∨
      ∃ v, disk.makeFolder start names = .ok (disk.put v .folder) ∧
        other.makeFolder start names = .ok (other.put v .folder) ∧ v ≠ [] ∧
        disk.at? v = none := by
  rcases List.eq_nil_or_concat names with rfl | ⟨init, last, rfl⟩
  · exact .inl ⟨_, rfl, rfl⟩
  rw [List.concat_eq_append] at hg ⊢
  obtain ⟨e, rest, hw, he⟩ := hg
  obtain ⟨p, left, hfront, hback⟩ := hw.split
  rw [makeFolder_concat, makeFolder_concat, follow_congr h.agree hfront]
  cases hf : disk.follow false maxLinks start init with
  | error fault => exact .inl ⟨_, rfl, rfl⟩
  | ok found =>
    obtain ⟨folder, left'⟩ := found
    cases ((walk_of_follow hf).keep h.keeps).unique hfront
    have henter := (h.agree.enter hback.isFolder).2
    change (∃ fault, disk.enter p >>= _ = _ ∧ other.enter p >>= _ = _) ∨
      ∃ v, disk.enter p >>= _ = _ ∧ other.enter p >>= _ = _ ∧ _
    rw [henter]
    cases disk.enter p with
    | error fault => exact .inl ⟨_, rfl, rfl⟩
    | ok _ => exact h.makeIn hback he

/-- Whether steps lead to a folder is the same on both disks, if they do so on the guide. -/
theorem Alongside.hasFolder (h : Alongside guide disk other) (hg : guide.LeadsToFolder start names)
    (hf : disk.hasFolder start names = true) : other.hasFolder start names = true := by
  obtain ⟨v, left, hw, hv⟩ := leadsToFolder_of_hasFolder hf
  obtain ⟨e, rest, hwe, he⟩ := hg
  cases (hw.keep h.keeps).unique hwe
  rw [Disk.hasFolder] at hf ⊢
  rw [follow_congr h.agree hwe]
  cases hfollow : disk.follow false maxLinks start names with
  | error fault =>
    rw [hfollow] at hf
    cases hf
  | ok last =>
    cases (walk_of_follow hfollow).unique hw
    exact decide_eq_true ((h.agree.folder v he).trans hv)

/-- An attempt that succeeds on the first disk does so on the other one, and adds nothing that is
not on the guide. -/
theorem Alongside.attempt (h : Alongside guide disk other)
    (hok : (disk.afterAttempt start names (disk.makeFolder start names)).1 = .ok ())
    (hk : Keeps (disk.afterAttempt start names (disk.makeFolder start names)).2 guide) :
    (other.afterAttempt start names (other.makeFolder start names)).1 = .ok () ∧
      Alongside guide (disk.afterAttempt start names (disk.makeFolder start names)).2
        (other.afterAttempt start names (other.makeFolder start names)).2 ∧
      ∀ v, ¬ guide.IsFolder v →
        SameAt other (other.afterAttempt start names (other.makeFolder start names)).2 v := by
  have hg := ((grown_afterAttempt start names disk).2 hok).keep hk
  rcases makeFolder_congr h hg with ⟨fault, hm, hm'⟩ | ⟨v, hm, hm', hv, hnone⟩
  · rw [hm, afterAttempt] at hok
    have hf : disk.hasFolder start names = true := by
      by_contra hf
      rw [if_neg hf] at hok
      cases hok
    rw [hm, hm', afterAttempt, afterAttempt, if_pos hf, if_pos (h.hasFolder hg hf)]
    exact ⟨rfl, h, fun v _ => .refl other v⟩
  · rw [hm] at hk
    rw [hm, hm']
    have hput : Keeps (disk.put v .folder) guide := hk
    have hguide : guide.IsFolder v := hput.folder v (by rw [IsFolder, at?_put hv, if_pos rfl])
    refine ⟨rfl, h.put hv hnone hguide hk, fun u hu => ?_⟩
    have hne : u ≠ v := by
      rintro rfl
      exact hu hguide
    exact sameAt_put hv other .folder hne

/-- Folders that can be made on the first disk can be made on the other one, if nothing is in the
way there. -/
theorem Alongside.makeFoldersUp {up : List Step} (h : Alongside guide disk other)
    (hok : (makeFoldersUp start up disk).1 = .ok ())
    (hk : Keeps (Disk.makeFoldersUp start up disk).2 guide) :
    (Disk.makeFoldersUp start up other).1 = .ok () ∧
      Alongside guide (Disk.makeFoldersUp start up disk).2
        (Disk.makeFoldersUp start up other).2 ∧
      ∀ v, ¬ guide.IsFolder v → SameAt other (Disk.makeFoldersUp start up other).2 v := by
  induction up generalizing disk other with
  | nil => exact ⟨rfl, h, fun v _ => .refl other v⟩
  | cons last around ih =>
    by_cases hm : disk.makeFolder start (around.reverse ++ [last]) = .error .missing
    · rw [makeFoldersUp_of_missing hm] at hok hk ⊢
      have hup := ih h
      cases hd : Disk.makeFoldersUp start around disk with
      | mk result made =>
        rw [hd] at hok hk hup
        cases result with
        | error fault => cases hok
        | ok _ =>
          have hattempt := grown_afterAttempt start (around.reverse ++ [last]) made
          obtain ⟨hok', hmade, hsame⟩ := hup rfl (hattempt.1.keeps.trans hk)
          have hm' : other.makeFolder start (around.reverse ++ [last]) = .error .missing := by
            rcases makeFolder_congr h ((hattempt.2 hok).keep hk) with ⟨fault, hf, hf'⟩ | ⟨v, hf, -⟩
            · cases hm.symm.trans hf
              exact hf'
            · cases hm.symm.trans hf
          rw [makeFoldersUp_of_missing hm']
          cases ho : Disk.makeFoldersUp start around other with
          | mk result' made' =>
            rw [ho] at hok' hmade hsame
            cases hok'
            obtain ⟨hdone, halong, hlater⟩ := hmade.attempt hok hk
            exact ⟨hdone, halong, fun v hv => (hsame v hv).trans (hlater v hv)⟩
    · rw [makeFoldersUp_of_ne_missing hm] at hok hk ⊢
      have hg := ((grown_afterAttempt start (around.reverse ++ [last]) disk).2 hok).keep hk
      have hm' : other.makeFolder start (around.reverse ++ [last]) ≠ .error .missing := by
        rcases makeFolder_congr h hg with ⟨fault, hf, hf'⟩ | ⟨v, -, hf', -⟩
        · rw [hf'] at ⊢
          rwa [hf] at hm
        · rw [hf']
          simp
      rw [makeFoldersUp_of_ne_missing hm']
      exact h.attempt hok hk

/-! ## The folder of a path -/

/-- A beginning of a path leads to a location. -/
def OnWay (disk : Disk) (path : String) (v : Location) : Prop :=
  ∃ found, way path = .ok found ∧ OnSteps disk (found.start disk.cwd) found.names v

theorem OnWay.keep (hk : Keeps disk other) (h : disk.OnWay path v) : other.OnWay path v := by
  obtain ⟨found, hway, hon⟩ := h
  exact ⟨found, hway, hk.cwd ▸ hon.keep hk⟩

theorem way_of_route {found : Route} (h : route path = .ok found) : way path = .ok found := by
  rw [way, if_neg (route_eq_ok_iff.1 h).2.1, h]

theorem makeFolders_of_route {found : Route} (h : route path = .ok found) :
    disk.makeFolders path = makeFoldersUp (found.start disk.cwd) found.names.reverse disk := by
  rw [makeFolders, if_neg (route_eq_ok_iff.1 h).2.1, h]

/-- Making the folder of a path adds folders on its way. -/
theorem grown_makeFolders (disk : Disk) (path : String) :
    Grown (OnWay (disk.makeFolders path).2 path) disk (disk.makeFolders path).2 := by
  cases hr : route path with
  | error fault =>
    rw [makeFolders, hr]
    split_ifs <;> exact .refl _ _
  | ok found =>
    have hup := (grown_makeFoldersUp (found.start disk.cwd) found.names.reverse disk).1
    rw [List.reverse_reverse] at hup
    rw [makeFolders_of_route hr]
    exact hup.mono fun v hv => ⟨found, way_of_route hr, hup.keeps.cwd.symm ▸ hv⟩

/-- Once it is made, the path leads to a folder. -/
theorem folderAt_makeFolders (hcwd : disk.IsFolder disk.cwd)
    (h : (disk.makeFolders path).1 = .ok ()) :
    ∃ folder, (disk.makeFolders path).2.FolderAt path folder := by
  by_cases hne : path = ""
  · rw [makeFolders, if_pos hne]
    exact ⟨disk.cwd, ⟨false, [], false⟩, _, if_pos hne, .done, hcwd⟩
  · cases hr : route path with
    | error fault =>
      rw [makeFolders, if_neg hne, hr] at h
      cases h
    | ok found =>
      have hup := grown_makeFoldersUp (found.start disk.cwd) found.names.reverse disk
      rw [List.reverse_reverse] at hup
      rw [makeFolders_of_route hr] at h ⊢
      have hstart : disk.IsFolder (found.start disk.cwd) := by
        rw [Route.start]
        split_ifs
        · exact isFolder_root disk
        · exact hcwd
      obtain ⟨v, left, hw, hf⟩ := hup.2 hstart h
      exact ⟨v, found, left, way_of_route hr, hup.1.keeps.cwd.symm ▸ hw, hf⟩

/-- The folder of a path can be made on another disk, if nothing is in the way there, and nothing is
added there that is not added on the first one. -/
theorem Alongside.makeFolders (h : Alongside guide disk other)
    (hok : (disk.makeFolders path).1 = .ok ()) (hk : Keeps (disk.makeFolders path).2 guide) :
    (other.makeFolders path).1 = .ok () ∧
      Alongside guide (disk.makeFolders path).2 (other.makeFolders path).2 ∧
      ∀ v, ¬ guide.IsFolder v → SameAt other (other.makeFolders path).2 v := by
  by_cases hne : path = ""
  · rw [Disk.makeFolders, Disk.makeFolders, if_pos hne, if_pos hne]
    exact ⟨rfl, h, fun v _ => .refl other v⟩
  · cases hr : route path with
    | error fault =>
      rw [Disk.makeFolders, if_neg hne, hr] at hok
      cases hok
    | ok found =>
      rw [makeFolders_of_route hr] at hok hk ⊢
      rw [makeFolders_of_route hr, h.agree.cwd'.trans h.agree.cwd.symm]
      exact h.makeFoldersUp hok hk

end SvgComponent.Disk
