import Mathlib.Data.Set.Lattice
import Mathlib.Order.CompletePartialOrder
import SvgComponent.Proofs.Stage.References

/-!
# Ids of two documents on one page

Unless a prefix is given, what is put in front of the ids of a document is made from its file
name (`nameFront`). The ids of two documents are then texts that start with two such fronts, and the
fronts alone decide whether they can meet :

* `ids_prefixAllIds` : the ids are the old ones behind the front;
* `forall_disjoint_ids_iff` : two fronts keep all ids apart exactly if neither starts the other;
* `apart_of_isTidy` : so do the fronts of tidy names that differ in more than separators;
* `disjoint_ids_iff` : the same of the stage and the paths it is given.

Names that differ in separators only, such as `a.b.svg` and `a b.svg`, have one front
(`not_forall_disjoint_ids`).
-/

namespace SvgComponent

/-- The values of the ids of a document. -/
def ids (document : Document) : Set String :=
  {id | ∃ i, AttributeAt document i "id" id}

namespace Builtin

/-! ## Prefixes that keep ids apart -/

/-- The ids are those of before, with the prefix in front. -/
theorem ids_prefixAllIds (front : String) (document : Document) :
    ids (prefixAllIds front document) = (front ++ ·) '' ids document := by
  ext id
  constructor
  · rintro ⟨i, hi⟩
    obtain ⟨old, ho, rfl⟩ := idAt_prefixAllIds_iff.1 hi
    exact ⟨old, ⟨i, ho⟩, rfl⟩
  · rintro ⟨old, ⟨i, ho⟩, rfl⟩
    exact ⟨i, idAt_prefixAllIds_iff.2 ⟨old, ho, rfl⟩⟩

/-- A document with one id. -/
def documentWithId (id : String) : Document :=
  [.element {} ⟨"svg", .ofPairs [("id", id)]⟩ []]

theorem mem_ids_documentWithId (id : String) : id ∈ ids (documentWithId id) :=
  ⟨0, _, rfl, List.mem_cons_self⟩

/-- Neither text starts the other. -/
def Apart (front other : List Char) : Prop :=
  ¬ front <+: other ∧ ¬ other <+: front

instance (front other : List Char) : Decidable (Apart front other) :=
  inferInstanceAs (Decidable (¬ front <+: other ∧ ¬ other <+: front))

/-- A prefix that starts another is, with the start of an id behind it, that other one. -/
theorem exists_not_disjoint_of_starts {front other : String}
    (h : front.toList <+: other.toList) :
    ∃ document reread, ¬ Disjoint (ids (prefixAllIds front document))
      (ids (prefixAllIds other reread)) := by
  obtain ⟨rest, hr⟩ := h
  have hother : front ++ String.ofList rest = other ++ "" := by
    rw [← String.toList_inj, String.toList_append, String.toList_ofList, hr, String.append_empty]
  refine ⟨documentWithId (String.ofList rest), documentWithId "", ?_⟩
  rw [Set.not_disjoint_iff, ids_prefixAllIds, ids_prefixAllIds]
  exact ⟨_, ⟨_, mem_ids_documentWithId _, rfl⟩, ⟨_, mem_ids_documentWithId _, hother.symm⟩⟩

/-- Prefixes that are apart keep all ids apart. -/
theorem disjoint_of_apart {front other : String} (h : Apart front.toList other.toList)
    (document reread : Document) :
    Disjoint (ids (prefixAllIds front document)) (ids (prefixAllIds other reread)) := by
  rw [ids_prefixAllIds, ids_prefixAllIds, Set.disjoint_left]
  rintro _ ⟨a, _, rfl⟩ ⟨b, _, hb⟩
  have heq : other.toList ++ b.toList = front.toList ++ a.toList := by
    rw [← String.toList_append, ← String.toList_append]
    exact congrArg String.toList hb
  have hfront : front.toList <+: other.toList ++ b.toList := heq ▸ List.prefix_append _ _
  rcases List.prefix_or_prefix_of_prefix hfront (List.prefix_append _ _) with hp | hp
  · exact h.1 hp
  · exact h.2 hp

/-- Prefixes keep the ids of all documents apart exactly if they are apart. -/
theorem forall_disjoint_ids_iff (front other : String) :
    (∀ document reread, Disjoint (ids (prefixAllIds front document))
      (ids (prefixAllIds other reread))) ↔ Apart front.toList other.toList := by
  refine ⟨fun h => ⟨fun hp => ?_, fun hp => ?_⟩, disjoint_of_apart⟩
  · obtain ⟨document, reread, hd⟩ := exists_not_disjoint_of_starts hp
    exact hd (h document reread)
  · obtain ⟨document, reread, hd⟩ := exists_not_disjoint_of_starts hp
    exact hd (h reread document).symm

/-! ## Prefixes made from file names -/

/-- A file name with dots and blanks made underscores. -/
def plainName (name : String) : List Char :=
  name.toList.map fun c => if c = '.' || c = ' ' then '_' else c

/-- What stands in front of the ids of a file. -/
def nameFront (name : String) : List Char :=
  plainName name ++ ['_', '_']

/-- The prefix of a file is made from its name. -/
theorem toList_idPrefix {path name : String} (h : Path.fileName path = some name) :
    (idPrefix none (some path)).toList = nameFront name := by
  simp only [idPrefix, Option.bind_some, h, String.toList_append, String.toList_map]
  rfl

/-- No dots, blanks and underscores of a name stand side by side or at its end. -/
def IsTidy (name : String) : Prop :=
  ¬ ['_', '_'] <:+: plainName name ++ ['_']

instance (name : String) : Decidable (IsTidy name) :=
  inferInstanceAs (Decidable (¬ ['_', '_'] <:+: plainName name ++ ['_']))

/-- In front of the ids of a tidy name two underscores stand at the end only, so that nothing
shorter is the front of another name. -/
theorem plainName_eq_of_starts {name other : String} (ho : IsTidy other)
    (h : nameFront name <+: nameFront other) : plainName name = plainName other := by
  obtain ⟨rest, hr⟩ := h
  rcases List.eq_nil_or_concat rest with rfl | ⟨init, c, rfl⟩
  · rw [List.append_nil] at hr
    exact List.append_cancel_right hr
  · have hlast : plainName name ++ ['_', '_'] ++ init ++ [c] =
        plainName other ++ ['_'] ++ ['_'] := by
      simpa [nameFront] using hr
    exact absurd ⟨_, _, (List.append_inj' hlast rfl).1⟩ ho

/-- Different tidy names have prefixes that are apart. -/
theorem apart_of_isTidy {name other : String} (hn : IsTidy name) (ho : IsTidy other)
    (h : plainName name ≠ plainName other) : Apart (nameFront name) (nameFront other) :=
  ⟨fun hp => h (plainName_eq_of_starts ho hp), fun hp => h (plainName_eq_of_starts hn hp).symm⟩

/-- Whatever documents two files hold, their ids are apart on one page exactly if the fronts
made from the file names are; and these are if the names are tidy and differ in more than
dots, blanks and underscores. -/
theorem disjoint_ids_iff {path other name rename : String} (hn : Path.fileName path = some name)
    (ho : Path.fileName other = some rename) :
    ((∀ document reread, Disjoint (ids ((prefixIds none).apply ⟨some path⟩ document))
        (ids ((prefixIds none).apply ⟨some other⟩ reread))) ↔
      Apart (nameFront name) (nameFront rename)) ∧
    (IsTidy name → IsTidy rename → plainName name ≠ plainName rename →
      Apart (nameFront name) (nameFront rename)) := by
  refine ⟨?_, apart_of_isTidy⟩
  rw [← toList_idPrefix hn, ← toList_idPrefix ho]
  exact forall_disjoint_ids_iff _ _

theorem disjoint_ids_iff_arrows :
    Path.fileName "icons/arrow left.svg" = some "arrow left.svg" ∧
      Path.fileName "icons/arrow.svg" = some "arrow.svg" ∧
      ∀ document reread, Disjoint
        (ids ((prefixIds none).apply ⟨some "icons/arrow left.svg"⟩ document))
        (ids ((prefixIds none).apply ⟨some "icons/arrow.svg"⟩ reread)) := by
  have hn : Path.fileName "icons/arrow left.svg" = some "arrow left.svg" := by decide
  have ho : Path.fileName "icons/arrow.svg" = some "arrow.svg" := by decide
  obtain ⟨hiff, htidy⟩ := disjoint_ids_iff hn ho
  exact ⟨hn, ho, hiff.2 (htidy (by decide) (by decide) (by decide))⟩

/-- Names that differ in dots and blanks only give the same ids. -/
theorem not_forall_disjoint_ids :
    ¬ ∀ (path other name rename : String) (document reread : Document),
      Path.fileName path = some name → Path.fileName other = some rename → name ≠ rename →
      Disjoint (ids ((prefixIds none).apply ⟨some path⟩ document))
        (ids ((prefixIds none).apply ⟨some other⟩ reread)) := by
  intro h
  have hn : Path.fileName "a.b.svg" = some "a.b.svg" := by decide
  have ho : Path.fileName "a b.svg" = some "a b.svg" := by decide
  have hd : ∀ document reread, Disjoint
      (ids (prefixAllIds (idPrefix none (some "a.b.svg")) document))
      (ids (prefixAllIds (idPrefix none (some "a b.svg")) reread)) :=
    fun document reread => h "a.b.svg" "a b.svg" _ _ document reread hn ho (by decide)
  have hapart := (forall_disjoint_ids_iff _ _).1 hd
  rw [toList_idPrefix hn, toList_idPrefix ho] at hapart
  revert hapart
  decide

end Builtin

end SvgComponent
