import SvgComponent.Proofs.Tree.Visiting

/-!
# Sifting a tree

Visits without a state and the sorting out of leaves are of one kind : each element gets a tag or
is taken out with all that is in it, and each leaf stays or is taken out (`sift`).

* `mapTags_eq_siftAll`, `retainAll_eq_siftAll` : both are of this kind;
* `siftAll_siftAll` : one after the other is again one, so that a list of stages comes down to
  what becomes of one node;
* `exists_of_mem_tagsAll_siftAll` : the tags that are left are those that were given.
-/

namespace SvgComponent.Node

mutual

/-- What is left of a node : an element with the tag it gets, or a leaf that stays. -/
def sift (retag : Tag → Option Tag) (keep : Node → Bool) : Node → Option Node
  | .element span tag children =>
    (retag tag).map fun tag => .element span tag (siftAll retag keep children)
  | leaf => if keep leaf then some leaf else none

/-- What is left of a list of nodes. -/
def siftAll (retag : Tag → Option Tag) (keep : Node → Bool) : List Node → List Node
  | [] => []
  | node :: rest => (sift retag keep node).toList ++ siftAll retag keep rest

end

variable (retag : Tag → Option Tag) (keep : Node → Bool)

theorem sift_of_not_isElement {node : Node} (h : node.isElement = false) :
    sift retag keep node = if keep node then some node else none := by
  cases node with
  | element => cases h
  | text | cdata | comment | doctype | instruction => rfl

/-- What is left of nodes is what is left of each of them. -/
theorem siftAll_eq_filterMap (nodes : List Node) :
    siftAll retag keep nodes = nodes.filterMap (sift retag keep) := by
  induction nodes with
  | nil => rfl
  | cons node rest ih =>
    rw [siftAll, ih, List.filterMap_cons]
    cases sift retag keep node <;> rfl

theorem siftAll_append (a b : List Node) :
    siftAll retag keep (a ++ b) = siftAll retag keep a ++ siftAll retag keep b := by
  simp only [siftAll_eq_filterMap, List.filterMap_append]

/-! ## Visits and leaves -/

mutual

/-- Changing tags is sifting that keeps all leaves. -/
theorem mapTag_eq_sift : (node : Node) → mapTag retag node = sift retag (fun _ => true) node
  | .element span tag children => by rw [mapTag_element, sift, mapTags_eq_siftAll children]
  | .text .. | .cdata .. | .comment .. | .doctype .. | .instruction .. => rfl

/-- A visit without a state takes out no leaves. -/
theorem mapTags_eq_siftAll : (nodes : List Node) →
    mapTags retag nodes = siftAll retag (fun _ => true) nodes
  | [] => rfl
  | node :: rest => by
    rw [mapTags_cons, siftAll, mapTag_eq_sift node, mapTags_eq_siftAll rest]

end

mutual

/-- Retaining leaves is sifting that keeps all tags. -/
theorem retain_eq_sift : (node : Node) → retain keep node = sift some keep node
  | .element span tag children => by
    rw [retain, sift, retainAll_eq_siftAll children]
    rfl
  | .text .. | .cdata .. | .comment .. | .doctype .. | .instruction .. => rfl

/-- Sorting out leaves takes out no elements. -/
theorem retainAll_eq_siftAll : (nodes : List Node) →
    retainAll keep nodes = siftAll some keep nodes
  | [] => rfl
  | node :: rest => by
    rw [retainAll, siftAll, retain_eq_sift node, retainAll_eq_siftAll rest]

end

/-! ## One after the other -/

section

variable (retag' : Tag → Option Tag) (keep' : Node → Bool)

/-- A leaf that is left once is looked at again. -/
theorem siftAll_sift_of_not_isElement {node : Node} (h : node.isElement = false) :
    siftAll retag' keep' (sift retag keep node).toList =
      (sift (fun tag => (retag tag).bind retag') (fun leaf => keep leaf && keep' leaf)
        node).toList := by
  rw [sift_of_not_isElement _ _ h, sift_of_not_isElement _ _ h]
  by_cases hk : keep node = true
  · rw [if_pos hk, hk, Bool.true_and, Option.toList_some, siftAll, siftAll, List.append_nil,
      sift_of_not_isElement _ _ h]
  · rw [if_neg hk, if_neg (by simp [hk])]
    rfl

mutual

/-- Sifting twice is sifting once with both tests. -/
theorem siftAll_sift : (node : Node) →
    siftAll retag' keep' (sift retag keep node).toList =
      (sift (fun tag => (retag tag).bind retag') (fun leaf => keep leaf && keep' leaf)
        node).toList
  | .element span tag children => by
    rw [sift, sift]
    cases retag tag with
    | none => rfl
    | some tag =>
      rw [Option.map_some, Option.toList_some, siftAll, siftAll, sift, siftAll_siftAll children,
        List.append_nil]
      rfl
  | .text .. | .cdata .. | .comment .. | .doctype .. | .instruction .. =>
    siftAll_sift_of_not_isElement retag keep retag' keep' rfl

/-- Sifting twice is sifting once. -/
theorem siftAll_siftAll : (nodes : List Node) →
    siftAll retag' keep' (siftAll retag keep nodes) =
      siftAll (fun tag => (retag tag).bind retag') (fun leaf => keep leaf && keep' leaf) nodes
  | [] => rfl
  | node :: rest => by
    rw [siftAll, siftAll_append, siftAll_sift node, siftAll_siftAll rest, siftAll]

end

end

/-! ## Tags -/

theorem tagsAll_sift_of_not_isElement {node : Node} (h : node.isElement = false) :
    tagsAll (sift retag keep node).toList = [] := by
  rw [sift_of_not_isElement _ _ h]
  cases keep node with
  | false => rfl
  | true =>
    cases node with
    | element => cases h
    | text | cdata | comment | doctype | instruction => rfl

variable {retag keep} {tag : Tag}

mutual

theorem exists_of_mem_tagsAll_sift : (node : Node) →
    tag ∈ tagsAll (sift retag keep node).toList → ∃ old ∈ node.tags, retag old = some tag
  | .element span old children, h => by
    rw [sift] at h
    cases ho : retag old with
    | none =>
      rw [ho] at h
      cases h
    | some new =>
      rw [ho, Option.map_some, Option.toList_some, tagsAll, tagsAll, tags, List.append_nil,
        List.mem_cons] at h
      rw [tags]
      rcases h with rfl | h
      · exact ⟨old, List.mem_cons_self, ho⟩
      · obtain ⟨other, hm, hother⟩ := exists_of_mem_tagsAll_siftAll children h
        exact ⟨other, List.mem_cons_of_mem _ hm, hother⟩
  | .text .., h | .cdata .., h | .comment .., h | .doctype .., h | .instruction .., h => by
    rw [tagsAll_sift_of_not_isElement _ _ rfl] at h
    cases h

/-- The tags that are left are tags that were there, as they were given. -/
theorem exists_of_mem_tagsAll_siftAll : (nodes : List Node) →
    tag ∈ tagsAll (siftAll retag keep nodes) → ∃ old ∈ tagsAll nodes, retag old = some tag
  | [], h => by cases h
  | node :: rest, h => by
    rw [siftAll, tagsAll_append, List.mem_append] at h
    rw [tagsAll]
    rcases h with h | h
    · obtain ⟨old, hm, ho⟩ := exists_of_mem_tagsAll_sift node h
      exact ⟨old, List.mem_append_left _ hm, ho⟩
    · obtain ⟨old, hm, ho⟩ := exists_of_mem_tagsAll_siftAll rest h
      exact ⟨old, List.mem_append_right _ hm, ho⟩

end

end SvgComponent.Node
