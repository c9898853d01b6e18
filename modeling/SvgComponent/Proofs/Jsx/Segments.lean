import SvgComponent.Proofs.Jsx.Expression
import SvgComponent.Proofs.Tree.Addresses

/-!
# What overrides leave alone

The text of a document is put together from segments : texts that are as they are, and between them
the openings of the elements at the top level, each up to the end of its attributes (`segments`).
Only the lists of attributes in these openings depend on overrides (`writeAll_segments`). All else,
and whether there is a text at all and which components it uses, is the same whatever the overrides
are (`render_overrides`).
-/

namespace SvgComponent.Jsx

open Node

/-- A text as it is, or the opening of an element up to the end of its attributes. -/
inductive Segment where
  | fixed (content : String)
  | opening (tag : Tag)

namespace Segment

/-- The tag of an opening. -/
def tag? : Segment → Option Tag
  | fixed _ => none
  | opening tag => some tag

/-- A segment as it is written if elements have the lists of attributes that they are given. -/
def write (list : Attributes → Props) : Segment → String
  | fixed content => content
  | opening tag => "<" ++ tag.name ++ (list tag.attributes).text

/-- Segments as they are written, one behind the other. -/
def writeAll (list : Attributes → Props) (segments : List Segment) : String :=
  String.join (segments.map (write list))

theorem writeAll_append (list : Attributes → Props) (a b : List Segment) :
    writeAll list (a ++ b) = writeAll list a ++ writeAll list b := by
  rw [writeAll, List.map_append, String.join_append]
  rfl

end Segment

open Segment

/-- The segments of a node at the top level. -/
def segmentsOf : Node → List Segment
  | .element _ tag children => [.opening tag, .fixed (behind tag children)]
  | leaf => [.fixed (written none leaf)]

/-- The segments of a document : those of its only node that is written, or those of all of them
between the marks of a fragment. -/
def segments (document : Document) : List Segment :=
  match document.filter isVisible with
  | [node] => segmentsOf node
  | nodes => .fixed "<>" :: (nodes.flatMap segmentsOf ++ [.fixed "</>"])

/-! ## Openings -/

/-- Only the front of the outermost element is open to overrides. -/
theorem tags_segmentsOf (node : Node) :
    (segmentsOf node).filterMap Segment.tag? = node.tag?.toList := by
  cases node <;> rfl

/-- The openings of a document are those of its outermost elements. -/
theorem tags_flatMap_segmentsOf (nodes : List Node) :
    (nodes.flatMap segmentsOf).filterMap Segment.tag? = nodes.filterMap Node.tag? := by
  induction nodes with
  | nil => rfl
  | cons node nodes ih =>
    rw [List.flatMap_cons, List.filterMap_append, tags_segmentsOf, ih, List.filterMap_cons]
    cases node.tag? <;> rfl

/-- What is not visible opens nothing. -/
theorem filterMap_tag?_filter (document : Document) :
    (document.filter isVisible).filterMap Node.tag? = document.filterMap Node.tag? := by
  rw [List.filterMap_filter]
  refine List.filterMap_congr fun node _ => ?_
  cases node <;> rfl

/-- The openings are those of the elements at the top level. -/
theorem tags_segments (document : Document) :
    (segments document).filterMap Segment.tag? = document.filterMap Node.tag? := by
  rw [segments, ← filterMap_tag?_filter]
  split
  · rename_i node hnode
    rw [tags_segmentsOf, hnode, List.filterMap_cons]
    cases node.tag? <;> rfl
  · rw [List.filterMap_cons_none rfl, List.filterMap_append, tags_flatMap_segmentsOf]
    exact List.append_nil _

/-! ## Texts -/

variable (overrides : Option Overrides)

/-- The segments of a node are what is written of it. -/
theorem writeAll_segmentsOf (node : Node) :
    writeAll (Props.compose · overrides) (segmentsOf node) = written overrides node := by
  cases node with
  | element span tag children =>
    rw [written_element]
    simp [segmentsOf, writeAll, write, front]
  | text | cdata | comment | doctype | instruction => simp [segmentsOf, writeAll, write, written]

/-- The segments of a document are what is written of it. -/
theorem writeAll_flatMap_segmentsOf (nodes : List Node) :
    writeAll (Props.compose · overrides) (nodes.flatMap segmentsOf) =
      String.join (nodes.map (written overrides)) := by
  induction nodes with
  | nil => rfl
  | cons node nodes ih =>
    rw [List.flatMap_cons, writeAll_append, writeAll_segmentsOf, ih, List.map_cons,
      String.join_cons]

/-- A document is written as its segments are. -/
theorem writeAll_segments (document : Document) :
    writeAll (Props.compose · overrides) (segments document) =
      wrap (writtenParts overrides document) := by
  rw [writtenParts_eq, segments]
  match document.filter isVisible with
  | [node] => exact writeAll_segmentsOf overrides node
  | [] => rfl
  | first :: second :: rest =>
    have hjoin := writeAll_flatMap_segmentsOf overrides (first :: second :: rest)
    have hparts : writeAll (Props.compose · overrides)
        (.fixed "<>" :: ((first :: second :: rest).flatMap segmentsOf ++ [.fixed "</>"])) =
          "<>" ++ writeAll (Props.compose · overrides)
            ((first :: second :: rest).flatMap segmentsOf) ++ "</>" := by
      simp [writeAll, write, String.append_assoc]
    exact hparts.trans (by rw [hjoin]; rfl)

/-! ## Documents -/

/-- Overrides change nothing but the lists of attributes of the elements at the top level. With them
and without them a document is refused for the same fault or has the same components and the same
text but for these lists, which are an element's own ones without overrides. Empty overrides are as
none. -/
theorem render_overrides (document : Document) :
    ((∃ fault, ∀ overrides, render document overrides = .error fault) ∨
      ∃ components segments,
        segments.filterMap Segment.tag? = document.filterMap Node.tag? ∧
        render document none = .ok ⟨writeAll Props.ofAttributes segments, components⟩ ∧
        ∀ overrides, render document (some overrides) =
          .ok ⟨writeAll (Props.compose · (some overrides)) segments, components⟩) ∧
    render document (some .empty) = render document none := by
  have hrender (overrides : Option Overrides) : render document overrides =
      (outcome [] (tagsAll document)
        (writeAll (Props.compose · overrides) (segments document))).map fun p => ⟨p.1, p.2⟩ := by
    rw [render_eq, writeAll_segments]
  refine ⟨?_, by rw [hrender, hrender]; rfl⟩
  unfold outcome at hrender
  cases hf : (tagsAll document).findSome? tagFault? with
  | some fault =>
    rw [hf] at hrender
    exact .inl ⟨fault, hrender⟩
  | none =>
    rw [hf] at hrender
    exact .inr ⟨_, segments document, tags_segments document, hrender none,
      fun overrides => hrender (some overrides)⟩

end SvgComponent.Jsx
