import SvgComponent.Proofs.Disk.Writing

/-!
# What reading and listing depend on

A text that is read is what is found where the path leads (`leads_of_read`). The files that are
listed in a folder are what stands there under a text as its name and is a file itself
(`mem_files_iff`), and each of them is found under the path of the folder and its name
(`Listed.leads_join`).

If what the host says does not depend on what is on the disk (`Steady`), then reading and opening
come to the same on disks on which the path leads to the same (`read_congr`, `openFile_congr`).
-/

namespace SvgComponent.Disk

open SvgComponent.Path

variable {disk other guide : Disk} {path name text : String} {names : List String}
  {v folder : Location}

/-! ## Reading -/

/-- Bytes that are read as a text are the bytes of that text. -/
theorem toUTF8_of_fromUTF8? {bytes : ByteArray} (h : String.fromUTF8? bytes = some text) :
    bytes = text.toUTF8 := by
  rw [String.fromUTF8?] at h
  split_ifs at h
  cases h
  rfl

/-- What is read is what the host lets one read of what stands there. -/
theorem readBytes_of_locate (h : disk.locate false path = .ok v) :
    disk.readBytes path =
      if (disk.at? v).isNone then .error .missing
      else disk.ask .read v >>= fun _ =>
        match disk.content? v with
        | some content => .ok content
        | none => .error .isFolder := by
  rw [readBytes, h]
  rfl

/-- Bytes that are read are found where the path leads. -/
theorem leads_of_readBytes {bytes : ByteArray} (h : disk.readBytes path = .ok bytes) :
    ∃ v, disk.Leads path v ∧ disk.content? v = some bytes := by
  obtain ⟨v, hl, -⟩ := exists_of_bind_eq_ok h
  rw [readBytes_of_locate hl] at h
  split_ifs at h
  obtain ⟨-, -, h⟩ := exists_of_bind_eq_ok h
  refine ⟨v, leads_of_locate hl, ?_⟩
  split at h
  · rename_i content hc
    cases h
    exact hc
  · cases h

/-- What is read is found where the path leads. -/
theorem leads_of_read (h : disk.read path = .ok text) :
    ∃ v, disk.Leads path v ∧ disk.content? v = some text.toUTF8 := by
  obtain ⟨bytes, hb, ht⟩ := exists_of_bind_eq_ok h
  obtain ⟨v, hl, hc⟩ := leads_of_readBytes hb
  refine ⟨v, hl, hc.trans ?_⟩
  split at ht
  · rename_i found hfound
    cases ht
    rw [toUTF8_of_fromUTF8? hfound]
  · cases ht

/-! ## Steady hosts -/

/-- What the host says does not depend on what is on the disk. -/
def Steady (disk : Disk) : Prop :=
  ∀ store store', disk.host.refuse store = disk.host.refuse store' ∧
    disk.host.stop store = disk.host.stop store'

namespace Steady

/-- A steady host answers the same on all disks. -/
theorem ask (hs : disk.Steady) (hh : other.host = disk.host) (deed : Deed) (v : Location) :
    other.ask deed v = disk.ask deed v := by
  rw [Disk.ask, Disk.ask, hh, (hs other.toStore disk.toStore).1]

theorem passed (hs : disk.Steady) (hh : other.host = disk.host) (v : Location)
    (bytes : ByteArray) : other.passed v bytes = disk.passed v bytes := by
  rw [Disk.passed, Disk.passed, hh, (hs other.toStore disk.toStore).2]

theorem congr (hs : disk.Steady) (hh : other.host = disk.host) : other.Steady := by
  rw [Steady, hh]
  exact hs

end Steady

/-- A disk that keeps folders and links of another one agrees with it. -/
theorem Keeps.agree (hk : Keeps disk other) (hs : disk.Steady) : Agree disk disk other where
  cwd := rfl
  cwd' := hk.cwd
  ask := hs.ask hk.host .search
  folder := fun v hf => (hk.folder v hf).trans hf.symm
  link := fun _ _ => .rfl
  link' := hk.link

/-- Reading comes to the same where the path leads to the same. -/
theorem read_congr (hs : disk.Steady) (hh : other.host = disk.host)
    (hl : other.locate false path = disk.locate false path)
    (hv : ∀ v, disk.locate false path = .ok v →
      (other.at? v).isNone = (disk.at? v).isNone ∧ other.content? v = disk.content? v) :
    other.read path = disk.read path := by
  have hbytes : other.readBytes path = disk.readBytes path := by
    cases hd : disk.locate false path with
    | error fault =>
      rw [readBytes, readBytes, hl, hd]
      rfl
    | ok v =>
      obtain ⟨hnone, hcontent⟩ := hv v hd
      rw [readBytes_of_locate hd, readBytes_of_locate (hl.trans hd), hs.ask hh, hnone, hcontent]
  rw [read, read, hbytes]

/-- Opening comes to the same where the path leads to the same. -/
theorem openFile_congr (hs : disk.Steady) (hh : other.host = disk.host)
    (hl : other.locate true path = disk.locate true path)
    (hv : ∀ v, disk.locate true path = .ok v → other.at? v = disk.at? v) :
    (other.openFile path).map Prod.fst = (disk.openFile path).map Prod.fst := by
  cases hd : disk.locate true path with
  | error fault =>
    rw [openFile, openFile, hl, hd]
    rfl
  | ok v =>
    have hentry := hv v hd
    rw [openFile, openFile, hl, hd]
    dsimp only [bind, Except.bind]
    rw [hentry, hs.ask hh, hs.ask hh]
    split
    · cases disk.ask .create v <;> rfl
    · rfl
    · cases disk.ask .change v <;> rfl

/-! ## Listing -/

/-- An entry is listed in a folder if it is a file that stands there under a text. -/
theorem fileIn?_eq_some_iff {entry : Location × Entry} :
    fileIn? folder entry = some name ↔
      entry.1 = folder ++ [.text name] ∧ entry.2.isFile = true := by
  rw [fileIn?]
  cases hl : entry.1.getLast? with
  | none => simp [List.getLast?_eq_none_iff.1 hl]
  | some last =>
    obtain ⟨around, hw⟩ := List.getLast?_eq_some_iff.1 hl
    rw [hw, List.dropLast_concat]
    cases last with
    | raw bytes no_text =>
      refine iff_of_false (by simp) fun h => ?_
      cases List.singleton_inj.1 (List.append_inj' h.1 rfl).2
    | text found =>
      dsimp only
      split_ifs with h
      · rw [Option.some.injEq, h.1]
        simp [h.2]
      · refine iff_of_false (by simp) ?_
        rintro ⟨he, hf⟩
        exact h ⟨(List.append_inj' he rfl).1, hf⟩

/-- What is listed stands where the path leads; in what is no folder there is nothing. -/
theorem files_eq_ok (h : disk.files path = .ok names) :
    ∃ folder, disk.Leads path folder ∧
      (disk.IsFolder folder ∧ names =
          (disk.entries.entries.filterMap (fileIn? folder)).mergeSort (fun a b => decide (a ≤ b)) ∨
        ¬ disk.IsFolder folder ∧ names = []) := by
  obtain ⟨folder, hl, h⟩ := exists_of_bind_eq_ok h
  refine ⟨folder, leads_of_locate hl, ?_⟩
  split at h
  · cases h
  · rename_i hf
    obtain ⟨-, -, h⟩ := exists_of_bind_eq_ok h
    cases h
    exact .inl ⟨hf, rfl⟩
  · rename_i entry hne he
    cases h
    exact .inr ⟨fun hf => hne (Option.some.inj (he.symm.trans hf)), rfl⟩

/-- Files that stand in order are listed as they stand. -/
theorem files_of_pairwise (h : disk.locate false path = .ok folder) (hf : disk.IsFolder folder)
    (ha : disk.ask .list folder = .ok ())
    (hn : disk.entries.entries.filterMap (fileIn? folder) = names)
    (hs : names.Pairwise (decide <| · ≤ ·)) : disk.files path = .ok names := by
  rw [IsFolder] at hf
  rw [files, h]
  dsimp only [bind, Except.bind]
  rw [hf]
  dsimp only
  rw [ha, hn, List.mergeSort_of_pairwise hs]
  rfl

/-- The files listed in a folder are what stands there under a text as its name and is a file. -/
theorem mem_files_iff (h : disk.files path = .ok names) (hl : disk.Leads path folder) :
    name ∈ names ↔ disk.IsFolder folder ∧
      ∃ entry, disk.at? (folder ++ [.text name]) = some entry ∧ entry.isFile = true := by
  obtain ⟨found, hfound, hnames⟩ := files_eq_ok h
  cases hl.unique hfound
  rcases hnames with ⟨hf, rfl⟩ | ⟨hf, rfl⟩
  · have hentry (entry : Entry) : disk.at? (folder ++ [.text name]) = some entry ↔
        (folder ++ [.text name], entry) ∈ disk.entries.entries := by
      rw [Disk.at?, if_neg (by simp), OrderedMap.get?_eq_some_iff]
    rw [List.mem_mergeSort, List.mem_filterMap]
    simp only [fileIn?_eq_some_iff, hentry, hf, true_and]
    constructor
    · rintro ⟨⟨_, entry⟩, hm, rfl, hfile⟩
      exact ⟨entry, hm, hfile⟩
    · rintro ⟨entry, hm, hfile⟩
      exact ⟨_, hm, rfl, hfile⟩
  · simp [hf]

/-- No file is listed twice. -/
theorem nodup_files (h : disk.files path = .ok names) : names.Nodup := by
  obtain ⟨folder, -, ⟨-, rfl⟩ | ⟨-, rfl⟩⟩ := files_eq_ok h
  · rw [(List.mergeSort_perm _ _).nodup_iff]
    refine List.Pairwise.filterMap _ ?_ (List.pairwise_map.1 disk.entries.nodup)
    rintro a b hab _ ha _ hb rfl
    exact hab ((fileIn?_eq_some_iff.1 ha).1.trans (fileIn?_eq_some_iff.1 hb).1.symm)
  · exact List.nodup_nil

/-- A file that is listed in a folder. -/
structure Listed (disk : Disk) (path name : String) (folder : Location) : Prop where
  leads : disk.Leads path folder
  isFolder : disk.IsFolder folder
  isFile : ∃ entry, disk.at? (folder ++ [.text name]) = some entry ∧ entry.isFile = true

/-- Each file that is listed stands in the folder that the path leads to. -/
theorem listed_of_mem (h : disk.files path = .ok names) (hn : name ∈ names) :
    ∃ folder, disk.Listed path name folder := by
  obtain ⟨folder, hl, -⟩ := files_eq_ok h
  obtain ⟨hf, he⟩ := (mem_files_iff h hl).1 hn
  exact ⟨folder, hl, hf, he⟩

namespace Listed

theorem isEntryName (hs : disk.Sound) (h : disk.Listed path name folder) : IsEntryName name := by
  obtain ⟨entry, he, -⟩ := h.isFile
  exact hs.names _ (mem_of_at?_eq_some he (by simp)) name (by simp)

/-- No link is listed. -/
theorem not_link (h : disk.Listed path name folder) (target : Route) :
    disk.at? (folder ++ [.text name]) ≠ some (.link target) := by
  obtain ⟨entry, he, hfile⟩ := h.isFile
  rintro hl
  cases he.symm.trans hl
  cases hfile

/-- A listed file is found under the path of its folder and its name, on all disks that keep the
way to it. -/
theorem leads_join (hs : disk.Sound) (h : disk.Listed path name folder) (hk : Keeps disk other)
    (hlong : (join path name).utf8ByteSize ≤ maxPath) :
    other.Leads (join path name) (folder ++ [.text name]) :=
  (Disk.leads_join (folderAt_of_leads h.leads h.isFolder) (h.isEntryName hs) hlong
    h.not_link).keep hk

end Listed

end SvgComponent.Disk
