import SvgComponent.Proofs.Jsx.Expression
import SvgComponent.Proofs.Jsx.Moving

/-!
# What overrides add

The overrides of the caller are written behind what is left of the attributes of an element at the
top level (`compose_eq`). Where they are names or expressions they can be any text at all, so that
little can be said of the whole text without knowing them. What can be said is that the text is one
of the document alone, without the attributes that are replaced (`withoutReplaced`), in which the
texts of overrides have been put in here and there : `Woven`, `woven_wrap`.
-/

namespace SvgComponent.Jsx

/-! ## Lists of attributes -/

/-- An override as it is written. -/
def overrideText (entry : String × Option String) : List Char :=
  (Props.text [(entry.1, .ofOverride entry.2)]).toList

theorem text_append (a b : Props) : (Props.text (a ++ b)).toList =
    (Props.text a).toList ++ (Props.text b).toList := by
  simp [Props.text]

/-! ## Texts put in -/

/-- A text in which the texts of overrides have been put in, any number of times. -/
inductive Woven (overrides : Overrides) : (own text : List Char) → Prop
  | nil : Woven overrides [] []
  | own (c : Char) {own text : List Char} (h : Woven overrides own text) :
    Woven overrides (c :: own) (c :: text)
  | override {entry : String × Option String} (he : entry ∈ overrides.entries)
    {own text : List Char} (h : Woven overrides own text) :
    Woven overrides own (overrideText entry ++ text)

namespace Woven

variable {overrides : Overrides} {own own' text text' : List Char}

theorem refl (cs : List Char) : Woven overrides cs cs := by
  induction cs with
  | nil => exact .nil
  | cons c cs ih => exact .own c ih

/-- Texts may be put into both of two texts. -/
theorem append (h : Woven overrides own text) (h' : Woven overrides own' text') :
    Woven overrides (own ++ own') (text ++ text') := by
  induction h with
  | nil => exact h'
  | own c _ ih => exact .own c ih
  | override he _ ih =>
    rw [List.append_assoc]
    exact .override he ih

/-- The attributes of overrides are texts that are put in. -/
theorem of_entries {entries : List (String × Option String)}
    (h : ∀ entry ∈ entries, entry ∈ overrides.entries) :
    Woven overrides [] (Props.text (entries.map fun p => (p.1, .ofOverride p.2))).toList := by
  induction entries with
  | nil => exact .nil
  | cons entry entries ih =>
    rw [List.forall_mem_cons] at h
    rw [List.map_cons, ← List.singleton_append, text_append]
    exact .override h.1 (ih h.2)

end Woven

/-! ## Documents -/

/-- An element without the attributes that are replaced. -/
def withoutReplaced (overrides : Overrides) : Node → Node
  | .element span tag children =>
    .element span { tag with attributes := unreplaced overrides tag.attributes } children
  | leaf => leaf

variable (overrides : Option Overrides)

/-- The front of a tag with overrides is its own with these put in. -/
theorem woven_front (tag : Tag) :
    Woven (overrides.getD .empty) (front none
        { tag with attributes := unreplaced (overrides.getD .empty) tag.attributes }).toList
      (front overrides tag).toList := by
  have hput : Woven (overrides.getD .empty) []
      (Props.text (overrides.getD .empty).toProps).toList :=
    .of_entries fun _ h => h
  have hprops := (Woven.refl (Props.text (Props.ofAttributes
    (unreplaced (overrides.getD .empty) tag.attributes))).toList).append hput
  rw [List.append_nil, ← text_append, ← compose_eq] at hprops
  simp only [front, String.toList_append, compose_none]
  exact (Woven.refl _).append hprops

/-- A node with overrides is the node without what they replace, with these put in. -/
theorem woven_written (node : Node) :
    Woven (overrides.getD .empty)
      (written none (withoutReplaced (overrides.getD .empty) node)).toList
      (written overrides node).toList := by
  cases node with
  | element span tag children =>
    rw [withoutReplaced, written_element, written_element, String.toList_append,
      String.toList_append]
    -- what stands behind the attributes does not depend on them
    exact (woven_front overrides tag).append (.refl (behind tag children).toList)
  | text | cdata | comment | doctype | instruction => exact .refl _

theorem isVisible_withoutReplaced (node : Node) :
    isVisible (withoutReplaced (overrides.getD .empty) node) = isVisible node := by
  cases node <;> rfl

/-- A document with overrides is the document without what they replace, with these put in. -/
theorem woven_join (document : Document) :
    Woven (overrides.getD .empty)
      (String.join ((document.map (withoutReplaced (overrides.getD .empty))).map
        (written none))).toList
      (String.join (document.map (written overrides))).toList := by
  induction document with
  | nil => exact .nil
  | cons node rest ih =>
    simp only [List.map_cons, String.join_cons, String.toList_append]
    exact (woven_written overrides node).append ih

/-- A document is written like the document without the attributes that are replaced, with the
overrides put in. -/
theorem woven_wrap (document : Document) :
    Woven (overrides.getD .empty)
      (wrap (writtenParts none
        (document.map (withoutReplaced (overrides.getD .empty))))).toList
      (wrap (writtenParts overrides document)).toList := by
  have hparts : writtenParts none (document.map (withoutReplaced (overrides.getD .empty))) =
      ((document.filter isVisible).map (withoutReplaced (overrides.getD .empty))).map
        (written none) := by
    rw [writtenParts_eq, List.filter_map]
    simp only [Function.comp_def, isVisible_withoutReplaced]
  rw [hparts, writtenParts_eq]
  match document.filter isVisible with
  | [] => exact .refl _
  | [node] => exact woven_written overrides node
  | first :: second :: rest =>
    have hjoin := woven_join overrides (first :: second :: rest)
    have hwrap (a b : String) (l : List String) :
        (wrap (a :: b :: l)).toList =
          "<>".toList ++ (String.join (a :: b :: l)).toList ++ "</>".toList := by
      rw [← String.toList_append, ← String.toList_append]
      rfl
    simp only [List.map_cons] at hjoin
    simp only [List.map_cons, hwrap]
    exact ((Woven.refl _).append hjoin).append (.refl _)

end SvgComponent.Jsx
