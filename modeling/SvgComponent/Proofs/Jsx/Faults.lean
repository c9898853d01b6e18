import SvgComponent.Proofs.Jsx.Rendering
import SvgComponent.Proofs.Tree.Searching

/-!
# Documents that are refused

An element cannot be written if it has no name, or if one of its attributes has a name that is empty
or holds a blank, a quote or another delimiter (`IsFaulty`). A document is refused exactly if it has
such an element at some depth, and what is reported is the fault of the first one in document order
(`refused_iff`). Overrides are not looked at.
-/

namespace SvgComponent.Jsx

open Node

/-! ## Faults of a tag -/

/-- A name that no attribute can be written with. -/
def IsUnwritable (name : String) : Prop :=
  name = "" ∨ ∃ c ∈ name.toList,
    Text.isBlank c = true ∨ c ∈ ['"', '\'', '=', '<', '>', '/', '{', '}']

/-- A tag that cannot be written. -/
def IsFaulty (tag : Tag) : Prop :=
  tag.name = "" ∨ ∃ name ∈ tag.attributes.keys, IsUnwritable name

/-- What is wrong with a tag : that it has no name, or else the first attribute whose name cannot be
written. -/
inductive Fails : Tag → RenderFault → Prop
  | emptyName {tag : Tag} (hn : tag.name = "") : Fails tag .emptyName
  | badAttribute {tag : Tag} {before after : List (String × String)} {name value : String}
      (hn : tag.name ≠ "") (ha : tag.attributes.entries = before ++ (name, value) :: after)
      (hw : IsUnwritable name) (hb : ∀ p ∈ before, ¬ IsUnwritable p.1) :
      Fails tag (.badAttribute tag.name name)

theorem isDelimiter_iff {c : Char} :
    isDelimiter c = true ↔ c ∈ ['"', '\'', '=', '<', '>', '/', '{', '}'] := by
  simp only [isDelimiter, Bool.or_eq_true, decide_eq_true_eq, List.mem_cons, List.not_mem_nil,
    or_false, or_assoc]

/-- A name cannot be written if it is empty or holds a blank or a delimiter. -/
theorem isWritable_eq_false_iff {name : String} : isWritable name = false ↔ IsUnwritable name := by
  rw [isWritable, IsUnwritable, Bool.and_eq_false_iff, decide_eq_false_iff_not, not_not,
    String.toList_eq_nil_iff, List.all_eq_false]
  refine or_congr_right (exists_congr fun c => and_congr_right fun _ => ?_)
  rw [← isDelimiter_iff, Bool.and_eq_true, Bool.not_eq_true', Bool.not_eq_true', not_and_or,
    Bool.not_eq_false, Bool.not_eq_false]

/-- Nothing is wrong with a tag that is not faulty. -/
theorem tagFault?_eq_none_iff {tag : Tag} : tagFault? tag = none ↔ ¬ IsFaulty tag := by
  simp only [IsFaulty, ← isWritable_eq_false_iff, not_or, not_exists, not_and,
    Bool.not_eq_false]
  rw [tagFault?]
  split_ifs with hn
  · simp [hn]
  · simp [hn]

/-- The attributes of a tag that nothing is wrong with can be written. -/
theorem isWritable_of_mem_keys {tag : Tag} (h : tagFault? tag = none) {name : String}
    (hm : name ∈ tag.attributes.keys) : isWritable name = true := by
  by_contra hw
  rw [Bool.not_eq_true, isWritable_eq_false_iff] at hw
  exact tagFault?_eq_none_iff.1 h (.inr ⟨name, hm, hw⟩)

/-- What is wrong with a tag is the first thing that is. -/
theorem tagFault?_eq_some_iff {tag : Tag} {fault : RenderFault} :
    tagFault? tag = some fault ↔ Fails tag fault := by
  rw [tagFault?]
  split_ifs with hn
  · constructor
    · intro h
      cases h
      exact .emptyName hn
    · intro h
      cases h with
      | emptyName => rfl
      | badAttribute hne => exact absurd hn hne
  · rw [Option.map_eq_some_iff]
    constructor
    · rintro ⟨name, hf, rfl⟩
      obtain ⟨hw, front, back, hk, hfront⟩ := List.find?_eq_some_iff_append.1 hf
      obtain ⟨before, _, he, hb, ht⟩ := List.map_eq_append_iff.1 hk
      obtain ⟨⟨_, value⟩, after, rfl, rfl, -⟩ := List.map_eq_cons_iff.1 ht
      refine .badAttribute hn he (isWritable_eq_false_iff.1 (by simpa using hw)) fun p hp => ?_
      have hp' := hfront p.1 (hb ▸ List.mem_map_of_mem hp)
      rw [← isWritable_eq_false_iff]
      simpa using hp'
    · intro h
      cases h with
      | emptyName he => exact absurd he hn
      | @badAttribute before after name value _ ha hw hb =>
        refine ⟨name, List.find?_eq_some_iff_append.2 ⟨?_, before.map Prod.fst, after.map Prod.fst,
          ?_, ?_⟩, rfl⟩
        · simpa using isWritable_eq_false_iff.2 hw
        · rw [OrderedMap.keys, ha, List.map_append, List.map_cons]
        · intro other hm
          obtain ⟨p, hp, rfl⟩ := List.mem_map.1 hm
          have hp' := hb p hp
          rw [← isWritable_eq_false_iff] at hp'
          simpa using hp'

/-! ## Documents -/

/-- Rendering fails with what is wrong with the first faulty tag. -/
theorem render_eq_error_iff {document : Document} {overrides : Option Overrides}
    {fault : RenderFault} : render document overrides = .error fault ↔
      (tagsAll document).findSome? tagFault? = some fault := by
  rw [render_eq, outcome]
  cases (tagsAll document).findSome? tagFault? with
  | some other => simp [Except.map]
  | none => simp [Except.map]

theorem exists_of_render_eq_error {document : Document} {overrides : Option Overrides}
    {fault : RenderFault} (h : render document overrides = .error fault) :
    ∃ tag ∈ tagsAll document, Fails tag fault := by
  obtain ⟨tag, hm, hf⟩ := List.exists_of_findSome?_eq_some (render_eq_error_iff.1 h)
  exact ⟨tag, hm, tagFault?_eq_some_iff.1 hf⟩

/-- A faulty tag anywhere makes rendering fail. -/
theorem exists_render_eq_error {document : Document} (overrides : Option Overrides) {tag : Tag}
    (hm : tag ∈ tagsAll document) (hf : IsFaulty tag) :
    ∃ fault, render document overrides = .error fault := by
  simp only [render_eq_error_iff, ← Option.isSome_iff_exists, List.findSome?_isSome_iff]
  refine ⟨tag, hm, Option.isSome_iff_ne_none.2 fun hn => ?_⟩
  exact tagFault?_eq_none_iff.1 hn hf

/-- A document is refused exactly if one of its elements cannot be written, and for what is wrong
with the first of these in document order. -/
theorem refused_iff (document : Document) (overrides : Option Overrides) :
    ((∃ fault, render document overrides = .error fault) ↔
      ∃ address tag, tagAt? document address = some tag ∧ IsFaulty tag) ∧
    ∀ fault, render document overrides = .error fault ↔
      ∃ address tag, tagAt? document address = some tag ∧ Fails tag fault ∧
        ∀ earlier < address, ∀ other, tagAt? document earlier = some other → ¬ IsFaulty other := by
  refine ⟨?_, fun fault => ?_⟩
  · simp only [render_eq_error_iff, ← Option.isSome_iff_exists, ← Option.ne_none_iff_isSome, ne_eq,
      findSome?_tagsAll_eq_none_iff, tagFault?_eq_none_iff, not_forall, not_not, exists_prop]
  · simp only [render_eq_error_iff, findSome?_tagsAll_eq_some_iff, tagFault?_eq_some_iff,
      tagFault?_eq_none_iff]

end SvgComponent.Jsx
