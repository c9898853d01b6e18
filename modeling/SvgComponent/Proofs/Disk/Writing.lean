import SvgComponent.Proofs.Disk.Paths

/-!
# What writing changes

Opening and filling a file change what is in one file, under all its names (`Joined`), and nothing
else (`Within`). Afterwards that file holds what has been written (`Written`) :

* `openFile_eq_ok` : a file that is opened is made or emptied;
* `written_fill` : one that is empty holds then what the host lets through;
* `within_fill` : whatever it holds, nothing else changes.
-/

namespace SvgComponent.Disk

variable {disk other after : Disk} {path : String} {v w : Location} {content bytes : ByteArray}

/-! ## One file -/

/-- The same stands at a location, and the same is in it. -/
structure SameAt (disk other : Disk) (v : Location) : Prop where
  entry : other.at? v = disk.at? v
  content : other.content? v = disk.content? v

/-- Two locations are the same, or names of one file. -/
def Joined (disk : Disk) (v w : Location) : Prop :=
  v = w ∨ ∃ number, disk.at? v = some (.shared number) ∧ disk.at? w = some (.shared number)

/-- What stands where a file is written to, given what stood there. -/
def entryWith (content : ByteArray) : Option Entry → Option Entry
  | none | some (.file _) => some (.file content)
  | standing => standing

/-- What is there then. What a device supplies stays the same. -/
def contentWith (content : ByteArray) : Option Entry → Option ByteArray
  | none | some (.file _) | some (.shared _) => some content
  | some (.special supply) => some supply
  | some .folder | some (.link _) => none

/-- A disk differs from another one at most in the file at a location, which may be new. -/
structure Within (disk : Disk) (w : Location) (after : Disk) : Prop where
  keeps : Keeps disk after
  kept : Keeps after disk
  shared : ∀ v number,
    after.at? v = some (.shared number) ↔ disk.at? v = some (.shared number)
  same : ∀ v, ¬ disk.Joined v w → SameAt disk after v

/-- The file at a location has been written to. -/
structure Holds (disk : Disk) (content : ByteArray) (after : Disk) (v : Location) : Prop where
  entry : after.at? v = entryWith content (disk.at? v)
  content : after.content? v = contentWith content (disk.at? v)

/-- A file has been written to, under all its names, and nothing else has changed. -/
structure Written (disk : Disk) (w : Location) (content : ByteArray) (after : Disk) : Prop
    extends Within disk w after where
  holds : ∀ v, disk.Joined v w → Holds disk content after v

instance (disk other : Disk) (v : Location) : Decidable (SameAt disk other v) :=
  decidable_of_iff (other.at? v = disk.at? v ∧ other.content? v = disk.content? v)
    ⟨fun h => ⟨h.1, h.2⟩, fun h => ⟨h.entry, h.content⟩⟩

namespace SameAt

theorem refl (disk : Disk) (v : Location) : SameAt disk disk v := ⟨rfl, rfl⟩

theorem symm (h : SameAt disk other v) : SameAt other disk v := ⟨h.entry.symm, h.content.symm⟩

theorem trans (h : SameAt disk other v) (h' : SameAt other after v) : SameAt disk after v :=
  ⟨h'.entry.trans h.entry, h'.content.trans h.content⟩

/-- In folders there is nothing to read. -/
theorem of_isFolder (h : disk.IsFolder v) (h' : other.IsFolder v) : SameAt disk other v := by
  rw [IsFolder] at h h'
  exact ⟨h'.trans h.symm, by rw [content?, content?, h, h']; rfl⟩

end SameAt

/-- Whether two entries are names of one file. -/
def shareNumber : Option Entry → Option Entry → Bool
  | some (.shared number), some (.shared other) => decide (number = other)
  | _, _ => false

/-- Two entries are names of one file if they share its number. -/
theorem shareNumber_iff (entry other : Option Entry) : shareNumber entry other = true ↔
    ∃ number, entry = some (.shared number) ∧ other = some (.shared number) := by
  rw [shareNumber.eq_def]
  split
  · simp [eq_comm]
  · rename_i hne
    refine iff_of_false (by simp) ?_
    rintro ⟨number, rfl, rfl⟩
    exact hne number number rfl rfl

instance (disk : Disk) (v w : Location) : Decidable (disk.Joined v w) :=
  decidable_of_iff (v = w ∨ shareNumber (disk.at? v) (disk.at? w) = true)
    (or_congr_right (shareNumber_iff _ _))

/-- Whether two paths lead to one file. -/
def meet (disk : Disk) (path path' : String) : Bool :=
  match disk.locate false path, disk.locate false path' with
  | .ok v, .ok w => decide (disk.Joined v w)
  | _, _ => false

/-- Paths that do not meet lead to different files. -/
theorem not_joined_of_meet (hp : disk.Permissive) {path' : String}
    (h : disk.meet path path' = false) (hv : disk.Leads path v) (hw : disk.Leads path' w) :
    ¬ disk.Joined v w := by
  rw [meet, locate_of_leads hp hv, locate_of_leads hp hw] at h
  exact of_decide_eq_false h

namespace Joined

theorem refl (disk : Disk) (v : Location) : disk.Joined v v := .inl rfl

theorem symm (h : disk.Joined v w) : disk.Joined w v := by
  rcases h with rfl | ⟨number, hv, hw⟩
  · exact .inl rfl
  · exact .inr ⟨number, hw, hv⟩

theorem trans {u : Location} (h : disk.Joined u v) (h' : disk.Joined v w) : disk.Joined u w := by
  rcases h with rfl | ⟨number, hu, hv⟩
  · exact h'
  · rcases h' with rfl | ⟨number', hv', hw⟩
    · exact .inr ⟨number, hu, hv⟩
    · cases Option.some.inj (hv.symm.trans hv')
      exact .inr ⟨number, hu, hw⟩

end Joined

namespace Within

theorem refl (disk : Disk) (w : Location) : Within disk w disk :=
  ⟨.refl disk, .refl disk, fun _ _ => .rfl, fun v _ => .refl disk v⟩

theorem joined_iff (h : Within disk w after) {u v : Location} :
    after.Joined u v ↔ disk.Joined u v := by
  simp only [Joined, h.shared]

theorem trans (h : Within disk w other) (h' : Within other w after) : Within disk w after :=
  ⟨h.keeps.trans h'.keeps, h'.kept.trans h.kept,
    fun v number => (h'.shared v number).trans (h.shared v number),
    fun v hv => (h.same v hv).trans (h'.same v fun hj => hv (h.joined_iff.1 hj))⟩

end Within

/-- What is written last is what is there in the end. -/
theorem entryWith_entryWith (content bytes : ByteArray) (standing : Option Entry) :
    entryWith bytes (entryWith content standing) = entryWith bytes standing ∧
      contentWith bytes (entryWith content standing) = contentWith bytes standing := by
  cases standing with
  | none => exact ⟨rfl, rfl⟩
  | some entry => cases entry <;> exact ⟨rfl, rfl⟩

/-- What is written later takes the place of what was written before. -/
theorem Holds.trans (h : Holds disk content other v) (h' : Holds other bytes after v) :
    Holds disk bytes after v := by
  obtain ⟨hentry, hcontent⟩ := h'
  rw [h.entry] at hentry hcontent
  obtain ⟨he, hc⟩ := entryWith_entryWith content bytes (disk.at? v)
  exact ⟨hentry.trans he, hcontent.trans hc⟩

/-- What is written where another disk has the same is written as on that one. -/
theorem Holds.of_sameAt (h : SameAt disk other v) (h' : Holds other content after v) :
    Holds disk content after v :=
  ⟨h.entry ▸ h'.entry, h.entry ▸ h'.content⟩

theorem Holds.congr (h : Holds disk content other v) (h' : SameAt other after v) :
    Holds disk content after v :=
  ⟨h'.entry.trans h.entry, h'.content.trans h.content⟩

/-- Where something has been written there is an entry. -/
theorem Holds.exists_entry (h : Holds disk content after v) :
    ∃ entry, after.at? v = some entry ∧ after.content? v = contentWith content (some entry) := by
  have hsome : entryWith content (disk.at? v) ≠ none := by
    cases disk.at? v with
    | none => simp [entryWith]
    | some entry => cases entry <;> simp [entryWith]
  obtain ⟨entry, he⟩ := Option.ne_none_iff_exists'.1 hsome
  refine ⟨entry, h.entry.trans he, h.content.trans ?_⟩
  rw [← he, (entryWith_entryWith content content (disk.at? v)).2]

/-- Writing to one file twice is writing what comes last. -/
theorem Written.trans (h : Written disk w content other) (h' : Written other w bytes after) :
    Written disk w bytes after :=
  ⟨h.toWithin.trans h'.toWithin,
    fun v hv => (h.holds v hv).trans (h'.holds v (h.joined_iff.2 hv))⟩

/-! ## Changes of a disk -/

theorem at?_put (hw : w ≠ []) (disk : Disk) (entry : Entry) (v : Location) :
    (disk.put w entry).at? v = if v = w then some entry else disk.at? v := by
  rw [Disk.at?, Disk.at?, put, OrderedMap.get?_insert]
  split_ifs with hnil hv <;> simp_all

/-- What is put where neither a folder nor a link is, and is none, leaves those as they are. -/
theorem keeps_put (hw : w ≠ []) {entry : Entry} (hfolder : ¬ disk.IsFolder w)
    (hlink : ∀ target, disk.at? w ≠ some (.link target) ∧ entry ≠ .link target) :
    Keeps disk (disk.put w entry) := by
  refine ⟨rfl, rfl, fun v hv => ?_, fun v target => ?_⟩
  · rw [IsFolder, at?_put hw, if_neg]
    · exact hv
    · rintro rfl
      exact hfolder hv
  · rw [at?_put hw]
    split_ifs with hv
    · subst hv
      exact iff_of_false (fun he => (hlink target).2 (Option.some.inj he)) (hlink target).1
    · exact .rfl

/-- A folder is put where nothing is. -/
theorem keeps_put_folder (hw : w ≠ []) (h : disk.at? w = none) :
    Keeps disk (disk.put w .folder) :=
  keeps_put hw (by simp [IsFolder, h]) fun target => ⟨by simp [h], by simp⟩

/-- Elsewhere nothing changes. -/
theorem sameAt_put (hw : w ≠ []) (disk : Disk) (entry : Entry) (hv : v ≠ w) :
    SameAt disk (disk.put w entry) v := by
  have he : (disk.put w entry).at? v = disk.at? v := by rw [at?_put hw, if_neg hv]
  exact ⟨he, by rw [content?, he]; rfl⟩

/-- A file is put where a file is that has no other name, or nothing. -/
theorem written_put (hw : w ≠ [])
    (h : disk.at? w = none ∨ ∃ old, disk.at? w = some (.file old)) :
    Written disk w content (disk.put w (.file content)) := by
  have hentry := at?_put hw disk (.file content)
  have hjoined {v : Location} (hv : disk.Joined v w) : v = w := by
    rcases hv with rfl | ⟨number, -, hs⟩
    · rfl
    · rcases h with he | ⟨old, he⟩ <;> cases he.symm.trans hs
  have hkeeps : Keeps disk (disk.put w (.file content)) := by
    refine keeps_put hw ?_ fun target => ⟨?_, by simp⟩
    · rcases h with he | ⟨old, he⟩ <;> simp [IsFolder, he]
    · rcases h with he | ⟨old, he⟩ <;> simp [he]
  have hkept : Keeps (disk.put w (.file content)) disk := by
    refine hkeeps.symm fun v hv => ?_
    rw [IsFolder, hentry] at hv
    split_ifs at hv
    · cases hv
    · exact hv
  refine ⟨⟨hkeeps, hkept, fun v number => ?_, fun v hv => ?_⟩, fun v hv => ?_⟩
  · rw [hentry]
    split_ifs with hv
    · subst hv
      rcases h with he | ⟨old, he⟩ <;> simp [he]
    · exact .rfl
  · exact sameAt_put hw disk _ fun he => hv (.inl he)
  · cases hjoined hv
    have he : (disk.put w (.file content)).at? w = some (.file content) := by
      rw [hentry, if_pos rfl]
    refine ⟨?_, ?_⟩
    · rcases h with hnone | ⟨old, hold⟩
      · rw [he, hnone, entryWith]
      · rw [he, hold, entryWith]
    · rcases h with hnone | ⟨old, hold⟩
      · rw [content?, he, hnone, contentWith]
        rfl
      · rw [content?, he, hold, contentWith]
        rfl

/-- Writing changes nothing where there is no file. -/
theorem written_of_not_isFile {entry : Entry} (he : disk.at? w = some entry)
    (h : entry.isFile = false) (content : ByteArray) : Written disk w content disk := by
  refine ⟨.refl disk w, fun v hv => ?_⟩
  have hvw : v = w := by
    rcases hv with rfl | ⟨number, -, hs⟩
    · rfl
    · cases he.symm.trans hs
      cases h
  subst hvw
  cases entry with
  | folder => exact ⟨by rw [he]; rfl, by rw [content?, he]; rfl⟩
  | file old => cases h
  | shared number => cases h
  | link target => exact ⟨by rw [he]; rfl, by rw [content?, he]; rfl⟩
  | special supply => exact ⟨by rw [he]; rfl, by rw [content?, he]; rfl⟩

/-- What is in a file is the same under all its names. -/
theorem written_refill_shared {number : Nat} (he : disk.at? w = some (.shared number))
    (content : ByteArray) : Written disk w content (disk.refill w content) := by
  rw [refill, he]
  dsimp only
  have hentry (v : Location) : at? { disk with
      contents := fun n => if n = number then content else disk.contents n } v = disk.at? v :=
    rfl
  refine ⟨⟨⟨rfl, rfl, fun _ => id, fun _ _ => .rfl⟩, ⟨rfl, rfl, fun _ => id, fun _ _ => .rfl⟩,
    fun _ _ => .rfl, fun v hv => ⟨rfl, ?_⟩⟩, fun v hv => ?_⟩
  · rw [content?, content?, hentry]
    cases hs : disk.at? v with
    | none => rfl
    | some entry =>
      cases entry with
      | shared other =>
        have hne : other ≠ number := by
          rintro rfl
          exact hv (.inr ⟨other, hs, he⟩)
        exact congrArg some (if_neg hne)
      | folder | file | link | special => rfl
  · have hs : disk.at? v = some (.shared number) := by
      rcases hv with rfl | ⟨other, hs, hw⟩
      · exact he
      · cases he.symm.trans hw
        exact hs
    refine ⟨by rw [hentry, hs]; rfl, ?_⟩
    rw [content?, hentry, hs]
    exact congrArg some (if_pos rfl)

/-- What is in a file can be changed; what is none stays as it is. -/
theorem written_refill (h : disk.at? w ≠ none) (content : ByteArray) :
    Written disk w content (disk.refill w content) := by
  cases he : disk.at? w with
  | none => exact absurd he h
  | some entry =>
    have hstays (hfile : entry.isFile = false) (hs : disk.refill w content = disk) :
        Written disk w content (disk.refill w content) :=
      hs.symm ▸ written_of_not_isFile he hfile content
    cases entry with
    | folder => exact hstays rfl (by rw [refill, he])
    | file old =>
      have hw : w ≠ [] := by
        rintro rfl
        cases (isFolder_root disk).symm.trans he
      rw [refill, he]
      exact written_put hw (.inr ⟨old, he⟩)
    | shared number => exact written_refill_shared he content
    | link target => exact hstays rfl (by rw [refill, he])
    | special supply => exact hstays rfl (by rw [refill, he])

/-! ## Opening and filling -/

theorem ne_nil_of_at?_eq_none (h : disk.at? w = none) : w ≠ [] := by
  rintro rfl
  cases (isFolder_root disk).symm.trans h

/-- A file that is opened is made or emptied, where its path leads. -/
theorem openFile_eq_ok (h : disk.openFile path = .ok (w, after)) :
    disk.locate true path = .ok w ∧ ¬ disk.IsFolder w ∧ Written disk w .empty after := by
  obtain ⟨v, hl, h⟩ := exists_of_bind_eq_ok h
  split at h
  · rename_i hnone
    obtain ⟨-, -, h⟩ := exists_of_bind_eq_ok h
    cases h
    exact ⟨hl, by simp [IsFolder, hnone],
      written_put (ne_nil_of_at?_eq_none hnone) (.inl hnone)⟩
  · cases h
  · rename_i entry hne he
    obtain ⟨-, -, h⟩ := exists_of_bind_eq_ok h
    cases h
    exact ⟨hl, fun hf => hne (Option.some.inj (he.symm.trans hf)),
      written_refill (by simp [he]) .empty⟩

theorem overwritten_empty (new : ByteArray) : overwritten .empty new = new := by
  have hrest : min ByteArray.empty.size ByteArray.empty.size ≤ new.size :=
    Nat.le_trans (Nat.min_le_right _ _) (Nat.zero_le _)
  rw [overwritten, ByteArray.extract_eq_empty_iff.2 hrest, ByteArray.append_empty]

/-- Filling changes nothing else. -/
theorem within_fill (disk : Disk) (w : Location) (bytes : ByteArray) :
    Within disk w (disk.fill w bytes).2 := by
  rw [fill]
  dsimp only
  cases hc : disk.content? w with
  | none => exact .refl disk w
  | some old =>
    refine (written_refill ?_ _).toWithin
    intro he
    rw [content?, he] at hc
    cases hc

/-- A file that is empty holds what the host lets through when it is filled. -/
theorem written_fill {entry : Entry} (he : disk.at? w = some entry)
    (hc : disk.content? w = contentWith .empty (some entry)) (bytes : ByteArray) :
    Written disk w (disk.passed w bytes).1 (disk.fill w bytes).2 := by
  rw [fill]
  dsimp only
  cases entry with
  | folder =>
    rw [hc]
    exact written_of_not_isFile he rfl _
  | file old =>
    rw [hc]
    dsimp only [contentWith]
    rw [overwritten_empty]
    exact written_refill (by simp [he]) _
  | shared number =>
    rw [hc]
    dsimp only [contentWith]
    rw [overwritten_empty]
    exact written_refill (by simp [he]) _
  | link target =>
    rw [hc]
    exact written_of_not_isFile he rfl _
  | special supply =>
    rw [hc]
    dsimp only [contentWith]
    rw [refill, he]
    exact written_of_not_isFile he rfl _

end SvgComponent.Disk
