import SvgComponent.Stage.Basic
import SvgComponent.Target.Basic
import SvgComponent.Target.Names
import SvgComponent.Tree.Visit

/-!
# Adapting a document to a target

The target stage gives every element and attribute the name that the target uses, and drops
what has none. Where two attributes get one name, the first place and the last value
remain.
-/

namespace SvgComponent.Target

/-- Renames attributes in order; those without a new name are dropped. -/
def renameAttributes (rename : String → Option String) (attributes : Attributes) : Attributes :=
  .ofPairs (attributes.entries.filterMap fun p => (rename p.1).map fun name => (name, p.2))

/-- The tag as a target writes it, or none if it has no such element. -/
def adaptTag (target : Target) (tag : Tag) : Option Tag :=
  match target with
  | reactDom => some ⟨tag.name, renameAttributes (some ∘ reactAttribute) tag.attributes⟩
  | preact => some ⟨tag.name, renameAttributes preactAttribute? tag.attributes⟩
  | reactNative =>
    (nativeElement? tag.name).map fun name =>
      ⟨name, renameAttributes (some ∘ reactAttribute) tag.attributes⟩
  | custom => some tag

/-- The document as a target writes it. -/
def adapt (target : Target) (document : Document) : Document :=
  match target with
  | custom => document
  | _ => Node.mapTags (adaptTag target) document

/-- The stage that adapts a document to a target. -/
def stage (target : Target) : Stage :=
  ⟨"target", fun _ document => .ok (target.adapt document)⟩

end SvgComponent.Target
