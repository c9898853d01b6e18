import Mathlib.Data.List.Lex
import SvgComponent.Proofs.Tree.Sifting

/-!
# Addresses in a tree

A node is told by its address : how many nodes stand in front of it, first for the outermost node
around it and at last for itself. So a node around another has an address that starts the other
one's, and document order is the order of addresses.

`Remains` says what it means that a document is what remains of another one when nodes are taken
out with all that is in them : each node that stays is found under an address of its own, below
the node that it was below and in the old order, and nothing else is there. Sifting leaves such a
document behind (`remains_siftAll`), and the elements around a node that stays are those that were
there (`lineage_siftAll`).
-/

namespace SvgComponent.Node

/-- The numbers of nodes in front, the outermost first. -/
abbrev Address := List Nat

/-- The nodes directly in a node. -/
def children : Node → List Node
  | .element _ _ children => children
  | _ => []

/-- The tag of an element. -/
def tag? : Node → Option Tag
  | .element _ tag _ => some tag
  | _ => none

/-- The nodes on the way to an address, the one that is there last. -/
def trail? : List Node → Address → Option (List Node)
  | _, [] => some []
  | nodes, i :: rest => nodes[i]?.bind fun node => (trail? node.children rest).map (node :: ·)

/-- The node at an address. -/
def at? (document : Document) (address : Address) : Option Node :=
  (trail? document address).bind List.getLast?

/-- The tags of the elements around an address, that of the element that is there last. -/
def lineage (document : Document) (address : Address) : List Tag :=
  ((trail? document address).getD []).filterMap tag?

/-- What remains of a document. A node whose address stays has become another node, which is under
the address that it has moved to; there are no others; and moving keeps what a node is below and the
order of the document. -/
structure Remains (becomes : Node → Node → Prop) (before after : Document)
    (stays : Address → Prop) (moved : Address → Address) : Prop where
  node : ∀ address node, at? before address = some node → stays address →
    ∃ node', at? after (moved address) = some node' ∧ becomes node node'
  origin : ∀ address node', at? after address = some node' →
    ∃ old node, at? before old = some node ∧ stays old ∧ moved old = address
  parent : ∀ address, moved address.dropLast = (moved address).dropLast
  order : ∀ first second node node', at? before first = some node → stays first →
    at? before second = some node' → stays second → first < second → moved first < moved second

/-- The way to an address leads through the node under its first number. -/
theorem trail?_cons_eq_some_iff {nodes trail : List Node} {i : Nat} {rest : Address} :
    trail? nodes (i :: rest) = some trail ↔
      ∃ node inner, nodes[i]? = some node ∧ trail? node.children rest = some inner ∧
        trail = node :: inner := by
  rw [trail?, Option.bind_eq_some_iff]
  refine exists_congr fun node => ?_
  rw [exists_and_left, Option.map_eq_some_iff]
  simp only [eq_comm]

/-- The node at an address is the last one on the way to it. -/
theorem at?_eq_some_iff {document : Document} {address : Address} {node : Node} :
    at? document address = some node ↔
      ∃ around, trail? document address = some (around ++ [node]) := by
  rw [at?, Option.bind_eq_some_iff]
  constructor
  · rintro ⟨trail, ht, hl⟩
    obtain ⟨around, rfl⟩ := List.getLast?_eq_some_iff.1 hl
    exact ⟨around, ht⟩
  · rintro ⟨around, ht⟩
    exact ⟨_, ht, List.getLast?_concat⟩

/-- The elements around an address are those on the way to it. -/
theorem lineage_of_trail {document : Document} {address : Address} {trail : List Node}
    (h : trail? document address = some trail) :
    lineage document address = trail.filterMap tag? := by
  rw [lineage, h, Option.getD_some]

/-- The tags of a node of a document are tags of the document. -/
theorem mem_tagsAll_of_at? {document : Document} {address : Address} {node : Node} {tag : Tag}
    (hn : at? document address = some node) (ht : tag ∈ node.tags) : tag ∈ tagsAll document := by
  obtain ⟨around, htrail⟩ := at?_eq_some_iff.1 hn
  clear hn
  induction around generalizing document address with
  | nil =>
    cases address with
    | nil => cases htrail
    | cons i rest =>
      obtain ⟨other, inner, ho, -, he⟩ := trail?_cons_eq_some_iff.1 htrail
      rw [List.nil_append, List.cons_eq_cons] at he
      exact mem_tagsAll (List.mem_of_getElem? ho) (he.1 ▸ ht)
  | cons outer around ih =>
    cases address with
    | nil => cases htrail
    | cons i rest =>
      obtain ⟨other, inner, ho, hi, he⟩ := trail?_cons_eq_some_iff.1 htrail
      rw [List.cons_append, List.cons_eq_cons] at he
      have hinner := ih (he.2 ▸ hi)
      refine mem_tagsAll (List.mem_of_getElem? ho) ?_
      cases other with
      | element span tag children => exact List.mem_cons_of_mem _ hinner
      | text | cdata | comment | doctype | instruction => exact absurd hinner List.not_mem_nil

/-! ## Where nodes move to -/

/-- The address of a node once those that do not stay are taken out. -/
def moved (stays : Node → Bool) : List Node → Address → Address
  | _, [] => []
  | nodes, i :: rest =>
    (nodes.take i).countP stays :: moved stays (nodes[i]?.elim [] children) rest

section Lists

variable {α β : Type} {f : α → Option β} {l : List α}

/-- What becomes of an entry is found behind what becomes of those in front of it. -/
theorem getElem?_filterMap {i : Nat} {a : α} {b : β} (h : l[i]? = some a) (hf : f a = some b) :
    (l.filterMap f)[(l.take i).countP fun a => (f a).isSome]? = some b := by
  induction l generalizing i with
  | nil => cases h
  | cons x l ih =>
    cases i with
    | zero =>
      cases h
      rw [List.filterMap_cons_some hf]
      rfl
    | succ i =>
      have hi := ih h
      rw [List.take_succ_cons, List.countP_cons]
      cases hx : f x with
      | none => rwa [List.filterMap_cons_none hx]
      | some y => rwa [List.filterMap_cons_some hx]

/-- What a filter leaves stands behind what it leaves of the things in front. -/
theorem exists_of_getElem?_filterMap {j : Nat} {b : β} (h : (l.filterMap f)[j]? = some b) :
    ∃ i a, l[i]? = some a ∧ f a = some b ∧ (l.take i).countP (fun a => (f a).isSome) = j := by
  induction l generalizing j with
  | nil => cases h
  | cons x l ih =>
    cases hx : f x with
    | none =>
      rw [List.filterMap_cons_none hx] at h
      obtain ⟨i, a, ha, hf, hj⟩ := ih h
      exact ⟨i + 1, a, ha, hf, by rw [List.take_succ_cons, List.countP_cons, hj, hx]; rfl⟩
    | some y =>
      rw [List.filterMap_cons_some hx] at h
      cases j with
      | zero =>
        cases h
        exact ⟨0, x, rfl, hx, rfl⟩
      | succ j =>
        obtain ⟨i, a, ha, hf, hj⟩ := ih h
        exact ⟨i + 1, a, ha, hf, by rw [List.take_succ_cons, List.countP_cons, hj, hx]; rfl⟩

/-- More of the entries that count stand in front of a later one. -/
theorem countP_take_lt {p : α → Bool} {i j : Nat} {a : α} (h : l[i]? = some a) (hp : p a = true)
    (hij : i < j) : (l.take i).countP p < (l.take j).countP p := by
  have hone : (l.take (i + 1)).countP p = (l.take i).countP p + 1 := by
    rw [List.take_add_one, h, List.countP_append, Option.toList_some, List.countP_singleton,
      if_pos hp]
  have hmore : (l.take (i + 1)).Sublist (l.take j) := (List.take_prefix_take_left hij).sublist
  have hle := hmore.countP_le (p := p)
  omega

end Lists

/-- A node that is below another one moves below it. -/
theorem moved_dropLast (stays : Node → Bool) (nodes : List Node) (address : Address) :
    moved stays nodes address.dropLast = (moved stays nodes address).dropLast := by
  induction address generalizing nodes with
  | nil => rfl
  | cons i rest ih =>
    cases rest with
    | nil => rfl
    | cons j rest =>
      rw [List.dropLast_cons_cons, moved, ih, moved]
      rfl

/-- Nodes that stay keep their order; by induction on the first address. -/
theorem moved_lt_moved {stays : Node → Bool} {nodes trail trail' : List Node}
    {first second : Address} (h : trail? nodes first = some trail)
    (hs : ∀ node ∈ trail, stays node = true) (h' : trail? nodes second = some trail')
    (hlt : first < second) : moved stays nodes first < moved stays nodes second := by
  induction first generalizing nodes trail second trail' with
  | nil =>
    cases second with
    | nil => exact absurd hlt (lt_irrefl _)
    | cons j rest => exact List.nil_lt_cons _ _
  | cons i rest ih =>
    cases second with
    | nil => exact absurd hlt (List.not_lt_nil _)
    | cons j rest' =>
      obtain ⟨node, inner, hn, hi, rfl⟩ := trail?_cons_eq_some_iff.1 h
      obtain ⟨node', inner', hn', hi', rfl⟩ := trail?_cons_eq_some_iff.1 h'
      rw [List.forall_mem_cons] at hs
      rw [moved, moved, List.cons_lt_cons_iff]
      rcases List.cons_lt_cons_iff.1 hlt with hij | ⟨rfl, hrest⟩
      · exact .inl (countP_take_lt hn hs.1 hij)
      · cases hn.symm.trans hn'
        rw [hn]
        exact .inr ⟨rfl, ih hi hs.2 hi' hrest⟩

/-- If everything stays, nothing moves. -/
theorem moved_eq_self {stays : Node → Bool} (hs : ∀ node, stays node = true)
    {nodes trail : List Node} {address : Address} (h : trail? nodes address = some trail) :
    moved stays nodes address = address := by
  induction address generalizing nodes trail with
  | nil => rfl
  | cons i rest ih =>
    obtain ⟨node, inner, hn, hi, -⟩ := trail?_cons_eq_some_iff.1 h
    obtain ⟨hlt, -⟩ := List.getElem?_eq_some_iff.1 hn
    have hall : (nodes.take i).countP stays = i := by
      rw [List.countP_eq_length.2 fun node _ => hs node, List.length_take_of_le hlt.le]
    rw [moved, hn, hall]
    exact congrArg _ (ih hi)

/-! ## Sifted trees -/

section Sifting

variable {retag : Tag → Option Tag} {keep : Node → Bool} {document : Document} {address : Address}
  {node node' : Node}

/-- The children of a node that is left are what is left of its children. -/
theorem children_of_sift (h : sift retag keep node = some node') :
    node'.children = siftAll retag keep node.children := by
  cases node with
  | element span tag nodes =>
    rw [sift, Option.map_eq_some_iff] at h
    obtain ⟨new, -, rfl⟩ := h
    rfl
  | text | cdata | comment | doctype | instruction =>
    rw [sift_of_not_isElement _ _ rfl] at h
    split_ifs at h
    cases h
    rfl

/-- The tag of a node that is left is what its tag is changed to. -/
theorem tag?_sift (retag : Tag → Option Tag) (keep : Node → Bool) (node : Node) :
    (sift retag keep node).bind tag? = node.tag?.bind retag := by
  cases node with
  | element span tag nodes =>
    rw [sift, tag?, Option.bind_some]
    cases retag tag <;> rfl
  | text | cdata | comment | doctype | instruction =>
    rw [sift_of_not_isElement _ _ rfl]
    split_ifs <;> rfl

/-- Whether a node is left by itself. -/
def isLeft (retag : Tag → Option Tag) (keep : Node → Bool) (node : Node) : Bool :=
  (sift retag keep node).isSome

/-- An element is left if its tag is. -/
theorem isLeft_of_tag? (retag : Tag → Option Tag) (keep : Node → Bool) {tag : Tag}
    (h : node.tag? = some tag) : isLeft retag keep node = (retag tag).isSome := by
  cases node with
  | element span old children =>
    cases h
    rw [isLeft, sift, Option.isSome_map]
  | text | cdata | comment | doctype | instruction => cases h

/-- If all nodes on the way to an address are left, what they have become leads to where it has
moved to. -/
theorem trail?_siftAll {trail : List Node} (h : trail? document address = some trail)
    (hs : ∀ node ∈ trail, isLeft retag keep node = true) :
    trail? (siftAll retag keep document) (moved (isLeft retag keep) document address) =
      some (trail.filterMap (sift retag keep)) := by
  induction address generalizing document trail with
  | nil =>
    cases h
    rfl
  | cons i rest ih =>
    obtain ⟨node, inner, hn, hi, rfl⟩ := trail?_cons_eq_some_iff.1 h
    rw [List.forall_mem_cons] at hs
    obtain ⟨node', hnode⟩ := Option.isSome_iff_exists.1 hs.1
    rw [moved, trail?_cons_eq_some_iff, List.filterMap_cons_some hnode, hn]
    refine ⟨node', _, ?_, ?_, rfl⟩
    · rw [siftAll_eq_filterMap]
      exact getElem?_filterMap hn hnode
    · rw [children_of_sift hnode]
      exact ih hi hs.2

/-- Whatever is left was on the way to an address of the document. -/
theorem exists_of_trail?_siftAll {trail' : List Node}
    (h : trail? (siftAll retag keep document) address = some trail') :
    ∃ old trail, trail? document old = some trail ∧
      (∀ node ∈ trail, isLeft retag keep node = true) ∧
      moved (isLeft retag keep) document old = address := by
  induction address generalizing document trail' with
  | nil => exact ⟨[], [], rfl, by simp, rfl⟩
  | cons j rest ih =>
    obtain ⟨node', inner', hn', hi', -⟩ := trail?_cons_eq_some_iff.1 h
    rw [siftAll_eq_filterMap] at hn'
    obtain ⟨i, node, hn, hnode, hj⟩ := exists_of_getElem?_filterMap hn'
    rw [children_of_sift hnode] at hi'
    obtain ⟨old, inner, hi, hs, ho⟩ := ih hi'
    refine ⟨i :: old, node :: inner, trail?_cons_eq_some_iff.2 ⟨node, inner, hn, hi, rfl⟩, ?_, ?_⟩
    · rw [List.forall_mem_cons]
      exact ⟨Option.isSome_iff_exists.2 ⟨node', hnode⟩, hs⟩
    · rw [moved, hn]
      exact congrArg₂ _ hj ho

/-- What is left of a node is found where the node has moved to. -/
theorem at?_siftAll {around : List Node} (h : trail? document address = some (around ++ [node]))
    (hs : ∀ other ∈ around ++ [node], isLeft retag keep other = true) :
    at? (siftAll retag keep document) (moved (isLeft retag keep) document address) =
      sift retag keep node := by
  obtain ⟨node', hnode⟩ := Option.isSome_iff_exists.1 (hs node (by simp))
  rw [hnode, at?_eq_some_iff]
  refine ⟨around.filterMap (sift retag keep), ?_⟩
  rw [trail?_siftAll h hs, List.filterMap_append, List.filterMap_cons_some hnode,
    List.filterMap_nil]

/-- Around a node that stays are the elements that were there, with the tags they have got. -/
theorem lineage_siftAll {trail : List Node} (h : trail? document address = some trail)
    (hs : ∀ node ∈ trail, isLeft retag keep node = true) :
    lineage (siftAll retag keep document) (moved (isLeft retag keep) document address) =
      (lineage document address).filterMap retag := by
  rw [lineage_of_trail (trail?_siftAll h hs), lineage_of_trail h, List.filterMap_filterMap,
    List.filterMap_filterMap]
  simp only [tag?_sift]

/-- Sifting leaves what remains when the nodes that are not left by themselves are taken out. -/
theorem remains_siftAll {becomes : Node → Node → Prop} {stays : Address → Prop}
    (hstays : ∀ address trail, trail? document address = some trail →
      (stays address ↔ ∀ node ∈ trail, isLeft retag keep node = true))
    (hbecomes : ∀ node node', sift retag keep node = some node' → becomes node node') :
    Remains becomes document (siftAll retag keep document) stays
      (moved (isLeft retag keep) document) where
  node address node hn hs := by
    obtain ⟨around, ht⟩ := at?_eq_some_iff.1 hn
    have hleft := (hstays address _ ht).1 hs
    obtain ⟨node', hnode⟩ := Option.isSome_iff_exists.1 (hleft node (by simp))
    exact ⟨node', (at?_siftAll ht hleft).trans hnode, hbecomes node node' hnode⟩
  origin address node' hn := by
    obtain ⟨around, ht⟩ := at?_eq_some_iff.1 hn
    obtain ⟨old, trail, hold, hleft, hmoved⟩ := exists_of_trail?_siftAll ht
    have htrail := trail?_siftAll hold hleft
    rw [hmoved, ht, Option.some.injEq] at htrail
    have hne : trail ≠ [] := by
      rintro rfl
      simp at htrail
    obtain ⟨init, node, rfl⟩ := (List.eq_nil_or_concat' trail).resolve_left hne
    exact ⟨old, node, at?_eq_some_iff.2 ⟨init, hold⟩, (hstays old _ hold).2 hleft, hmoved⟩
  parent := moved_dropLast _ _
  order first second node node' hn hs hn' _ hlt := by
    obtain ⟨_, ht⟩ := at?_eq_some_iff.1 hn
    obtain ⟨_, ht'⟩ := at?_eq_some_iff.1 hn'
    exact moved_lt_moved ht ((hstays first _ ht).1 hs) ht' hlt

/-- If every node is left by itself, all stay where they are. -/
theorem remains_siftAll_of_forall {becomes : Node → Node → Prop}
    (hall : ∀ node, isLeft retag keep node = true)
    (hbecomes : ∀ node node', sift retag keep node = some node' → becomes node node') :
    Remains becomes document (siftAll retag keep document) (fun _ => True) id := by
  have hremains := @remains_siftAll retag keep document becomes (fun _ => True)
    (fun _ _ _ => iff_of_true trivial fun node _ => hall node) hbecomes
  have hsame {address : Address} {node : Node} (hn : at? document address = some node) :
      moved (isLeft retag keep) document address = address := by
    obtain ⟨_, ht⟩ := at?_eq_some_iff.1 hn
    exact moved_eq_self hall ht
  refine ⟨fun address node hn hs => ?_, fun address node' hn => ?_, fun _ => rfl,
    fun _ _ _ _ _ _ _ _ hlt => hlt⟩
  · obtain ⟨node', hn', hb⟩ := hremains.node address node hn hs
    rw [hsame hn] at hn'
    exact ⟨node', hn', hb⟩
  · obtain ⟨old, node, hold, hs, hmoved⟩ := hremains.origin address node' hn
    exact ⟨old, node, hold, hs, (hsame hold).symm.trans hmoved⟩

end Sifting

end SvgComponent.Node
