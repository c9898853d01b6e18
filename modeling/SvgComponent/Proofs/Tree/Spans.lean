import SvgComponent.Proofs.Jsx.Rendering
import SvgComponent.Proofs.Markup.Event
import SvgComponent.Proofs.Tree.Visiting
import SvgComponent.Stage.Builtin
import SvgComponent.Target.Stage

/-!
# Spans do not matter

Nothing behind the reading of a document looks at spans. Each change of a document, be it by a
built-in stage (`apply_bareAll`) or by a target (`adapt_bareAll`), makes the same of the
document without its spans, and so does rendering (`render_bareAll`).
-/

set_option linter.unusedSectionVars false

namespace SvgComponent

open Markup

/-! ## Nodes without spans -/

theorem bareAll_eq_map (nodes : List Node) : bareAll nodes = nodes.map bare := by
  induction nodes with
  | nil => rfl
  | cons node rest ih => rw [bareAll, ih, List.map_cons]

theorem bareAll_append (a b : List Node) : bareAll (a ++ b) = bareAll a ++ bareAll b := by
  simp only [bareAll_eq_map, List.map_append]

theorem bareAll_toList (node : Option Node) : bareAll node.toList = (node.map bare).toList := by
  cases node <;> rfl

theorem isElement_bare (node : Node) : (bare node).isElement = node.isElement := by
  cases node <;> rfl

/-! ## Going over a tree -/

namespace Node

mutual

/-- Spans do not matter for the tags in a node. -/
theorem tags_bare : (node : Node) → (bare node).tags = node.tags
  | .element _ tag children => by rw [bare, tags, tags, tagsAll_bareAll children]
  | .text .. | .cdata .. | .comment .. | .doctype .. | .instruction .. => rfl

theorem tagsAll_bareAll : (nodes : List Node) → tagsAll (bareAll nodes) = tagsAll nodes
  | [] => rfl
  | node :: rest => by
    rw [bareAll, tagsAll, tagsAll, tags_bare node, tagsAll_bareAll rest]

end

mutual

theorem mapTag_bare (f : Tag → Option Tag) : (node : Node) →
    mapTag f (bare node) = (mapTag f node).map bare
  | .element span tag children => by
    rw [bare, mapTag_element, mapTag_element, mapTags_bareAll f children]
    cases f tag <;> rfl
  | .text .. | .cdata .. | .comment .. | .doctype .. | .instruction .. => rfl

/-- Tags are changed alike in all nodes without spans. -/
theorem mapTags_bareAll (f : Tag → Option Tag) : (nodes : List Node) →
    mapTags f (bareAll nodes) = bareAll (mapTags f nodes)
  | [] => rfl
  | node :: rest => by
    rw [bareAll, mapTags_cons, mapTags_cons, mapTag_bare f node, mapTags_bareAll f rest,
      bareAll_append, bareAll_toList]

end

section Retaining

variable {keep : Node → Bool} (hk : ∀ node, keep (bare node) = keep node)

include hk

theorem retain_bare_of_not_isElement {node : Node} (h : node.isElement = false) :
    retain keep (bare node) = (retain keep node).map bare := by
  rw [retain_of_not_isElement keep h, retain_of_not_isElement keep ((isElement_bare node).trans h),
    hk]
  split <;> rfl

mutual

/-- What is retained of a node does not depend on spans, if the test does not. -/
theorem retain_bare : (node : Node) → retain keep (bare node) = (retain keep node).map bare
  | .element span tag children => by
    rw [bare, retain, retain, retainAll_bareAll children]
    rfl
  | .text .. | .cdata .. | .comment .. | .doctype .. | .instruction .. =>
    retain_bare_of_not_isElement hk rfl

/-- What is retained of a document does not depend on spans, if the test does not. -/
theorem retainAll_bareAll : (nodes : List Node) →
    retainAll keep (bareAll nodes) = bareAll (retainAll keep nodes)
  | [] => rfl
  | node :: rest => by
    rw [bareAll, retainAll, retainAll, retain_bare node, retainAll_bareAll rest, bareAll_append,
      bareAll_toList]

end

end Retaining

end Node

/-! ## Stages and targets -/

open Node

/-- A built-in stage does not look at spans. -/
theorem Builtin.apply_bareAll (stage : Builtin) (context : Context) (document : Document) :
    stage.apply context (bareAll document) = bareAll (stage.apply context document) := by
  cases stage with
  | removeDoctype | removeDeclaration | removeComments =>
    exact retainAll_bareAll (fun node => by cases node <;> rfl) document
  | removeMetadata | removeTitle | removeDescription | removeNamespace | prefixIds
  | renameElements =>
    exact mapTags_bareAll _ document
  | removeUnusedNamespaces =>
    rw [apply, dropUnusedNamespaces, tagsAll_bareAll]
    exact mapTags_bareAll _ document

/-- A target makes the same of a document without its spans. -/
theorem Target.adapt_bareAll (target : Target) (document : Document) :
    target.adapt (bareAll document) = bareAll (target.adapt document) := by
  cases target with
  | custom => rfl
  | reactDom | preact | reactNative => exact mapTags_bareAll _ document

/-! ## Rendering -/

namespace Jsx

mutual

theorem written_bare (overrides : Option Overrides) : (node : Node) →
    written overrides (bare node) = written overrides node
  | .element span tag [] => rfl
  | .element span tag (child :: rest) => by
    rw [bare, bareAll, written, written, written_bare none child, writtenAll_bareAll rest]
  | .text .. | .cdata .. | .comment .. | .doctype .. | .instruction .. => rfl

theorem writtenAll_bareAll : (nodes : List Node) → writtenAll (bareAll nodes) = writtenAll nodes
  | [] => rfl
  | node :: rest => by
    rw [bareAll, writtenAll, writtenAll, written_bare none node, writtenAll_bareAll rest]

end

/-- Rendering does not look at spans. -/
theorem render_bareAll (document : Document) (overrides : Option Overrides) :
    render (bareAll document) overrides = render document overrides := by
  have hparts : writtenParts overrides (bareAll document) = writtenParts overrides document := by
    rw [writtenParts, bareAll_eq_map, List.map_map]
    simp only [Function.comp_def, written_bare]
    rfl
  rw [render_eq, render_eq, tagsAll_bareAll, hparts]

end Jsx

end SvgComponent
