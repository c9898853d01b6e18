import SvgComponent.Proofs.Tree.Addresses
import SvgComponent.Target.Stage

/-!
# The elements of a target

React Native has components for some elements only. The stage of this target leaves what remains
of a document when the other elements are taken out with all that is in them, and each element that
stays has the name of its component. The stages of React and of Preact leave every node where it is,
under its name, and the custom target changes nothing (`stage_remains`).
-/

namespace SvgComponent.Target

open Node

/-- A node that is the same but for its attributes, for what is in it, and for its name, which may
have changed as told. -/
inductive Renamed (renames : String → String → Prop) : Node → Node → Prop
  | element {span : Span} {tag tag' : Tag} {children children' : List Node}
    (h : renames tag.name tag'.name) :
    Renamed renames (.element span tag children) (.element span tag' children')
  | leaf {node : Node} (h : node.isElement = false) : Renamed renames node node

/-- React Native has components for all elements around an address, and for the one that is there,
if it is an element. -/
def HasComponents (document : Document) (address : Address) : Prop :=
  ∀ tag ∈ lineage document address, tag.name ∈ nativeElements.map Prod.fst

/-! ## Renaming -/

/-- The component of an element is that of the table. -/
theorem nativeElement?_eq_some_iff {name component : String} :
    nativeElement? name = some component ↔ (name, component) ∈ nativeElements :=
  OrderedMap.lookup_eq_some_iff_mem (by decide)

theorem isSome_nativeElement?_iff {name : String} :
    (nativeElement? name).isSome = true ↔ name ∈ nativeElements.map Prod.fst := by
  simp only [Option.isSome_iff_exists, nativeElement?_eq_some_iff, List.mem_map, Prod.exists,
    exists_and_right, exists_eq_right]

/-- What is left of a node has the name that its tag is given. -/
theorem renamed_of_sift {renames : String → String → Prop} {retag : Tag → Option Tag}
    (h : ∀ tag tag', retag tag = some tag' → renames tag.name tag'.name) {node node' : Node}
    (hn : sift retag (fun _ => true) node = some node') : Renamed renames node node' := by
  cases node with
  | element span tag children =>
    rw [sift, Option.map_eq_some_iff] at hn
    obtain ⟨tag', ht, rfl⟩ := hn
    exact .element (h tag tag' ht)
  | text | cdata | comment | doctype | instruction =>
    cases hn
    exact .leaf rfl

/-! ## Stages -/

/-- A target sifts tags and keeps all leaves. -/
theorem adapt_eq_siftAll {target : Target} (h : target ≠ custom) (document : Document) :
    target.adapt document = siftAll (adaptTag target) (fun _ => true) document := by
  cases target with
  | custom => exact absurd rfl h
  | reactDom | preact | reactNative => exact mapTags_eq_siftAll _ document

/-- React Native leaves the elements that it has components for. -/
theorem isLeft_reactNative_iff {node : Node} :
    isLeft (adaptTag reactNative) (fun _ => true) node = true ↔
      ∀ tag, node.tag? = some tag → tag.name ∈ nativeElements.map Prod.fst := by
  cases node with
  | element span tag children =>
    simp only [isLeft, sift, adaptTag, Option.isSome_map, tag?, Option.some.injEq, forall_eq',
      isSome_nativeElement?_iff]
  | text | cdata | comment | doctype | instruction =>
    exact iff_of_true rfl fun _ h => by cases h

/-- An address has components if all elements around it are left. -/
theorem hasComponents_iff {document : Document} {address : Address} {trail : List Node}
    (h : trail? document address = some trail) :
    HasComponents document address ↔
      ∀ node ∈ trail, isLeft (adaptTag reactNative) (fun _ => true) node = true := by
  simp only [HasComponents, lineage_of_trail h, List.mem_filterMap, isLeft_reactNative_iff]
  exact ⟨fun hall node hn tag ht => hall tag ⟨node, hn, ht⟩,
    fun hall tag ⟨node, hn, ht⟩ => hall node hn tag ht⟩

/-- What is left for native targets are the elements that have components all around them. -/
theorem remains_reactNative (document : Document) :
    Remains (Renamed fun name component => (name, component) ∈ nativeElements) document
      (reactNative.adapt document) (HasComponents document)
      (moved (isLeft (adaptTag reactNative) fun _ => true) document) := by
  rw [adapt_eq_siftAll (by decide)]
  refine remains_siftAll (fun _ _ => hasComponents_iff) fun _ _ => renamed_of_sift ?_
  intro tag tag' ht
  obtain ⟨component, hc, rfl⟩ := Option.map_eq_some_iff.1 ht
  exact nativeElement?_eq_some_iff.1 hc

/-- A target that has a name for every element leaves all nodes where they are. -/
theorem remains_of_keepsNames {target : Target} (h : target ≠ custom)
    (hnames : ∀ tag, ∃ attributes, target.adaptTag tag = some ⟨tag.name, attributes⟩)
    (document : Document) :
    Remains (Renamed Eq) document (target.adapt document) (fun _ => True) id := by
  rw [adapt_eq_siftAll h]
  refine remains_siftAll_of_forall (fun node => ?_) fun _ _ => renamed_of_sift ?_
  · cases node with
    | element span tag children =>
      obtain ⟨attributes, ht⟩ := hnames tag
      rw [isLeft, sift, ht]
      rfl
    | text | cdata | comment | doctype | instruction => rfl
  · intro tag tag' ht
    obtain ⟨attributes, ha⟩ := hnames tag
    cases ha.symm.trans ht
    rfl

/-- On React Native the nodes remain around which, and in which, there are only elements with a
component; an element has the name of its component. React and Preact leave all nodes where they are
and what they are, but for attributes. The custom target leaves the document as it is. -/
theorem stage_remains (context : Context) (document : Document) :
    (∃ after moved, reactNative.stage.apply context document = .ok after ∧
      Remains (Renamed fun name component => (name, component) ∈ nativeElements) document after
        (HasComponents document) moved) ∧
    (∀ target ∈ [reactDom, preact], ∃ after, target.stage.apply context document = .ok after ∧
      Remains (Renamed Eq) document after (fun _ => True) id) ∧
    custom.stage.apply context document = .ok document := by
  refine ⟨⟨_, _, rfl, remains_reactNative document⟩, ?_, rfl⟩
  rw [List.forall_mem_cons, List.forall_mem_singleton]
  exact ⟨⟨_, rfl, remains_of_keepsNames (by decide) (fun _ => ⟨_, rfl⟩) document⟩,
    ⟨_, rfl, remains_of_keepsNames (by decide) (fun _ => ⟨_, rfl⟩) document⟩⟩

example : reactNative.adapt
    [.element {} ⟨"svg", .empty⟩ [.element {} ⟨"title", .empty⟩ [.element {} ⟨"path", .empty⟩ []],
      .comment {} "c", .element {} ⟨"path", .empty⟩ []]] =
    [.element {} ⟨"Svg", .empty⟩ [.comment {} "c", .element {} ⟨"Path", .empty⟩ []]] := by
  rfl

end SvgComponent.Target
